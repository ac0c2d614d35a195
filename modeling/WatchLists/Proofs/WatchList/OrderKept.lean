import WatchLists.Proofs.Order.Check
import WatchLists.Proofs.WatchList.Operations

/-!
# Operations that keep the binary-first order

A list that is in order can be swept and sorted, and get or lose clause watches, and it
is still in order: what goes to its end has the greatest rank, and what takes the place
of a clause watch has that rank too. Marks and blocking literals are no part of the
order. A new binary watch is in order only behind smaller keys, and detaching by
position only where the last watch may take the place.

- `InOrder`: a list without idx watches that is ascending.
- `Operation.keepsOrder`, `Change.keepsKey`: what keeps every list in order.
- `pairwise_removeAt_iff`, `isAscending_append_singleton_iff`: what detaching and
  adding a watch does to the order.
- `inOrder_of_run`, `inOrder_of_runAll`: one operation, and a whole run.
- `isBinaryFirst_kept`: all operations and changes.
-/

namespace WatchLists

/-! ## Detaching from an ascending list -/

section Removal

variable {κ : Type} [LinearOrder κ] {xs : List κ} {n : Nat}

theorem map_removeAt {α β : Type} (f : α → β) (xs : List α) (n : Nat) :
    (removeAt xs n).map f = removeAt (xs.map f) n := by
  unfold removeAt
  rw [List.getLast?_map]
  cases xs.getLast? with
  | none => rfl
  | some x => simp [List.map_dropLast, List.map_set]

/-- Between an element and an equal one that follows there is room for it again. -/
theorem pairwise_insert_equal {as cs : List κ} {c : κ}
    (h : (as ++ c :: cs).Pairwise (· ≤ ·)) : (as ++ c :: c :: cs).Pairwise (· ≤ ·) := by
  obtain ⟨has, hcs, hle⟩ := List.pairwise_append.mp h
  refine List.pairwise_append.mpr ⟨has, List.pairwise_cons.mpr ⟨fun b hb => ?_, hcs⟩, ?_⟩
  · rcases List.mem_cons.mp hb with rfl | hb
    · exact le_refl _
    · exact List.rel_of_pairwise_cons hcs hb
  · intro a ha b hb
    rcases List.mem_cons.mp hb with rfl | hb
    · exact hle a ha _ List.mem_cons_self
    · exact hle a ha b hb

/-- An ascending list from which an element is removed is ascending, if the last
element was the removed one or the next, or is equal to the next. -/
theorem pairwise_removeAt_iff (h : xs.Pairwise (· ≤ ·)) (hn : n < xs.length) :
    (removeAt xs n).Pairwise (· ≤ ·) ↔ xs.length ≤ n + 2 ∨ xs[n + 1]? = xs.getLast? := by
  rcases List.eq_nil_or_concat xs with rfl | ⟨ys, y, rfl⟩
  · cases hn
  rw [List.concat_eq_append] at h hn ⊢
  rw [List.length_append, List.length_singleton] at hn
  by_cases hlast : n = ys.length
  · subst hlast
    rw [removeAt_append_singleton_last]
    refine iff_of_true (h.sublist (List.sublist_append_left ys [y])) (.inl ?_)
    rw [List.length_append, List.length_singleton]
    omega
  · have hlt : n < ys.length := by omega
    rw [removeAt_append_singleton hlt]
    -- the last element stands where `x` was, between `as` and `cs`
    obtain ⟨as, x, cs, rfl, rfl⟩ : ∃ as x cs, ys = as ++ x :: cs ∧ as.length = n :=
      ⟨ys.take n, ys[n], ys.drop (n + 1), by simp, by simp; omega⟩
    rw [List.set_append_right _ _ (le_refl _), Nat.sub_self, List.set_cons_zero]
    cases cs with
    | nil =>
      refine iff_of_true (h.sublist ?_) (.inl (by simp))
      exact (List.sublist_append_left as [x]).append (List.Sublist.refl [y])
    | cons c cs =>
      have hrest : (as ++ c :: cs).Pairwise (· ≤ ·) :=
        (h.sublist (List.sublist_append_left _ [y])).sublist
          ((List.Sublist.refl as).append (List.sublist_cons_self x (c :: cs)))
      have hcy : c ≤ y :=
        (List.pairwise_append.mp h).2.2 c (by simp) y (List.mem_singleton.mpr rfl)
      have hlong : ¬ (as ++ x :: c :: cs ++ [y]).length ≤ as.length + 2 := by
        simp only [List.length_append, List.length_cons, List.length_nil]
        omega
      have hnext : (as ++ x :: c :: cs ++ [y])[as.length + 1]? = some c := by simp
      rw [hnext, List.getLast?_concat, or_iff_right hlong, Option.some.injEq]
      constructor
      · intro hset
        have hyc : y ≤ c :=
          List.rel_of_pairwise_cons (List.pairwise_append.mp hset).2.1 List.mem_cons_self
        exact le_antisymm hcy hyc
      · rintro rfl
        exact pairwise_insert_equal hrest

end Removal

namespace Watch

/-! ## Ranks of made and changed watches -/

theorem rank_ofBinary (l : Literal) (r : Bool) (i : ClauseId) :
    (ofBinary l r i).rank = ((⟨l, r, i⟩ : BinaryKey).lex : WithTop (ℕ ×ₗ Bool ×ₗ ℕ)) := by
  have hkind : (ofBinary l r i).kind = .binary := kind_pack ..
  rw [rank_of_binary hkind, ofBinary, key_packBinary]

/-- The first word of a clause watch is no part of the order. -/
theorem rank_setFirst {w : Watch} (h : w.kind = .clause) (f : Word32) :
    (w.setFirst f).rank = w.rank := by
  have hne : w.kind ≠ .binary := by rw [h]; nofun
  rw [rank_of_ne hne, rank_of_ne (by rwa [kind_setFirst])]

/-- A mark is no part of the order. -/
theorem rank_setFlags (w : Watch) (m : Bool) :
    (w.setFlags { w.flags with marked := m }).rank = w.rank := by
  unfold rank key
  rw [kind_setFlags, first_setFlags, flags_setFlags, idField_setFlags]

end Watch

/-- Changes of what is no part of the order. -/
def Change.keepsKey : Change → Bool
  | setBlocker _ | mark | unmark => true
  | setOther _ | clearRed => false

/-- Such a change suits every watch of its kind, and leaves kind and rank. -/
theorem Change.exists_apply {c : Change} (hc : c.keepsKey = true) {w : Watch}
    (hw : w.kind = c.kind) :
    ∃ w', c.apply w = .ok w' ∧ w'.kind = w.kind ∧ w'.rank = w.rank := by
  cases c with
  | setBlocker l =>
    exact ⟨_, Watch.require_of_kind hw _, Watch.kind_setFirst w l.raw,
      Watch.rank_setFirst hw l.raw⟩
  | mark =>
    exact ⟨_, Watch.require_of_kind hw _, Watch.kind_setFlags w _, Watch.rank_setFlags w true⟩
  | unmark =>
    exact ⟨_, Watch.require_of_kind hw _, Watch.kind_setFlags w _, Watch.rank_setFlags w false⟩
  | setOther l => cases hc
  | clearRed => cases hc

namespace WatchList

variable {ws : WatchList} {n : Nat}

/-! ## Lists in order -/

/-- A list without idx watches that is ascending by rank. -/
structure InOrder (ws : WatchList) : Prop where
  noIdx : ∀ w ∈ ws, w.kind ≠ .idx
  ascending : ws.IsAscending

theorem inOrder_iff (hws : ∀ w ∈ ws, w.kind ≠ .idx) :
    ws.InOrder ↔ ws.isBinaryFirst = .ok true := by
  rw [isBinaryFirst_eq_true_iff hws]
  exact ⟨InOrder.ascending, fun h => ⟨hws, h⟩⟩

theorem InOrder.isBinaryFirst (h : ws.InOrder) : ws.isBinaryFirst = .ok true :=
  (inOrder_iff h.noIdx).mp h

theorem isAscending_iff_map : ws.IsAscending ↔ (ws.map Watch.rank).Pairwise (· ≤ ·) :=
  List.pairwise_map.symm

/-- A watch is in order at the end of an ascending list exactly behind a last watch of
no larger rank. -/
theorem isAscending_append_singleton_iff (h : ws.IsAscending) (v : Watch) :
    IsAscending (ws ++ [v]) ↔ ∀ w, ws.getLast? = some w → w.rank ≤ v.rank := by
  constructor
  · intro hall w hw
    exact (List.pairwise_append.mp hall).2.2 w (List.mem_of_getLast? hw) v
      (List.mem_singleton.mpr rfl)
  · intro hlast
    refine List.pairwise_append.mpr ⟨h, List.pairwise_singleton _ _, fun a ha b hb => ?_⟩
    obtain rfl := List.mem_singleton.mp hb
    -- the last watch stands between `a` and the new one
    obtain ⟨ys, y, rfl⟩ : ∃ ys y, ws = ys ++ [y] :=
      ⟨_, _, (List.dropLast_append_getLast (List.ne_nil_of_mem ha)).symm⟩
    have hy : y.rank ≤ b.rank := hlast y List.getLast?_concat
    rcases List.mem_append.mp ha with ha | ha
    · exact le_trans ((List.pairwise_append.mp h).2.2 a ha y (List.mem_singleton.mpr rfl)) hy
    · exact List.mem_singleton.mp ha ▸ hy

namespace InOrder

/-- What has the greatest rank goes to the end. -/
theorem append_of_rank_eq_top (h : ws.InOrder) {v : Watch} (hv : v.kind ≠ .idx)
    (hrank : v.rank = ⊤) : InOrder (ws ++ [v]) where
  noIdx := by
    intro w hw
    rcases List.mem_append.mp hw with hw | hw
    · exact h.noIdx w hw
    · exact List.mem_singleton.mp hw ▸ hv
  ascending := by
    refine (isAscending_append_singleton_iff h.ascending v).mpr fun w _ => ?_
    rw [hrank]
    exact le_top

theorem filter (h : ws.InOrder) (p : Watch → Bool) : InOrder (ws.filter p) where
  noIdx w hw := h.noIdx w (List.mem_filter.mp hw).1
  ascending := List.Pairwise.filter p h.ascending

/-- A watch is replaced by one of its kind and rank. -/
theorem set (h : ws.InOrder) (hn : n < ws.length) {w : Watch} (hkind : w.kind = ws[n].kind)
    (hrank : w.rank = ws[n].rank) : InOrder (ws.set n w) where
  noIdx := by
    intro v hv
    rcases List.mem_or_eq_of_mem_set hv with hv | rfl
    · exact h.noIdx v hv
    · rw [hkind]
      exact h.noIdx _ (List.getElem_mem hn)
  ascending := by
    have hmap : (ws.set n w).map Watch.rank = ws.map Watch.rank := by
      have hn' : n < (ws.map Watch.rank).length := by rwa [List.length_map]
      have hget : ws[n].rank = (ws.map Watch.rank)[n] := (List.getElem_map ..).symm
      rw [List.map_set, hrank, hget, List.set_getElem_self]
    rw [isAscending_iff_map, hmap]
    exact isAscending_iff_map.mp h.ascending

theorem sorted (hws : ∀ w ∈ ws, w.kind ≠ .idx) :
    ∃ ws', ws.sortBinaryFirst = .ok ws' ∧ ws'.InOrder := by
  obtain ⟨ws', hsort, hsorted⟩ := sortBinaryFirst_stablySorted hws
  exact ⟨ws', hsort, fun w hw => hws w (hsorted.mem_iff.mp hw), hsorted.ascending⟩

end InOrder

/-- Detaching keeps the order at the end of the list, and elsewhere if the last watch
has the rank of the next. -/
theorem isAscending_removeAt_iff (h : ws.IsAscending) (hn : n < ws.length) :
    IsAscending (removeAt ws n) ↔
      ws.length ≤ n + 2 ∨ ws[n + 1]?.map Watch.rank = ws.getLast?.map Watch.rank := by
  have hn' : n < (ws.map Watch.rank).length := by rwa [List.length_map]
  rw [isAscending_iff_map, map_removeAt, pairwise_removeAt_iff (isAscending_iff_map.mp h) hn',
    List.length_map, List.getElem?_map, List.getLast?_map]

theorem kind_of_mem_removeAt (h : ws.InOrder) (hn : n < ws.length) :
    ∀ w ∈ removeAt ws n, w.kind ≠ .idx := fun w hw =>
  h.noIdx w ((removeAt_perm hn).mem_iff.mp (List.mem_cons_of_mem _ hw))

/-- All watches behind one of the greatest rank have this rank, so any of them may take
its place. -/
theorem InOrder.removeAt_of_rank_eq_top (h : ws.InOrder) (hn : n < ws.length)
    (htop : ws[n].rank = ⊤) : InOrder (removeAt ws n) where
  noIdx := kind_of_mem_removeAt h hn
  ascending := by
    have hbehind : ∀ j (hj : j < ws.length), n < j → ws[j].rank = ⊤ := fun j hj hnj =>
      top_le_iff.mp (htop ▸ List.pairwise_iff_getElem.mp h.ascending n j hn hj hnj)
    rw [isAscending_removeAt_iff h.ascending hn, List.getLast?_eq_getElem?]
    by_cases hlen : ws.length ≤ n + 2
    · exact .inl hlen
    · have hnext : n + 1 < ws.length := by omega
      have hlast : ws.length - 1 < ws.length := by omega
      refine .inr ?_
      rw [List.getElem?_eq_getElem hnext, List.getElem?_eq_getElem hlast, Option.map_some,
        Option.map_some, hbehind _ hnext (by omega), hbehind _ hlast (by omega)]

end WatchList

/-! ## Operations -/

namespace Operation

variable {ws : WatchList}

/-- The operations that keep every list in order, whatever they are given. -/
def keepsOrder : Operation → Bool
  | attachClause .. | attachBnn .. | detachClause _ | replaceBlocker .. | sweep | sort => true
  | attachBinary .. | attachIdx _ | detach _ | detachBinary .. => false

theorem kind_of_offset {w : Watch} {o : ClauseOffset} (h : w.offset = .ok o) :
    w.kind = .clause := by
  unfold Watch.offset Watch.require at h
  split at h
  · assumption
  · cases h

/-- A watch that is found by the offset of its clause. -/
theorem kind_of_findIdx? {o : ClauseOffset} {i : Nat}
    (h : ws.findIdx? (Watch.isClauseAt o) = some i) :
    ∃ hi : i < ws.length, ws[i].kind = .clause := by
  obtain ⟨hi, hseek, _⟩ := List.findIdx?_eq_some_iff_getElem.mp h
  rw [Watch.isClauseAt_eq] at hseek
  exact ⟨hi, kind_of_offset (of_decide_eq_true hseek)⟩

theorem inOrder_detachClause (h : ws.InOrder) (o : ClauseOffset) :
    ((ws.detachClause? o).getD ws).InOrder := by
  unfold WatchList.detachClause? removeFirst?
  cases hfind : ws.findIdx? (Watch.isClauseAt o) with
  | none => exact h
  | some i =>
    obtain ⟨hi, hkind⟩ := kind_of_findIdx? hfind
    exact h.removeAt_of_rank_eq_top hi (Watch.rank_of_ne (by rw [hkind]; nofun))

theorem inOrder_replaceBlocker (h : ws.InOrder) (o : ClauseOffset) (l : Literal) :
    ((ws.replaceBlocker? o l).getD ws).InOrder := by
  cases hfind : ws.findIdx? (Watch.isClauseAt o) with
  | none =>
    rw [WatchList.replaceBlocker?_eq_none hfind]
    exact h
  | some i =>
    obtain ⟨hi, hkind⟩ := kind_of_findIdx? hfind
    rw [WatchList.replaceBlocker?_eq_some hi hfind]
    exact h.set hi (Watch.kind_setFirst _ _) (Watch.rank_setFirst hkind l.raw)

/-- **One operation** of those that keep the order succeeds on a list in order, and
leaves one. -/
theorem inOrder_of_run {op : Operation} (hop : op.keepsOrder = true) (h : ws.InOrder) :
    ∃ answer ws', op.run ws = .ok (answer, ws') ∧ ws'.InOrder := by
  cases op with
  | attachClause o data =>
    have hkind : (Watch.ofClause o data).kind = .clause := Watch.kind_pack ..
    exact ⟨_, _, rfl, h.append_of_rank_eq_top (by rw [hkind]; nofun)
      (Watch.rank_of_ne (by rw [hkind]; nofun))⟩
  | attachBnn i r =>
    have hkind : (Watch.ofBnn i r).kind = .bnn := Watch.kind_pack ..
    exact ⟨_, _, rfl, h.append_of_rank_eq_top (by rw [hkind]; nofun)
      (Watch.rank_of_ne (by rw [hkind]; nofun))⟩
  | detachClause o => exact ⟨_, _, rfl, inOrder_detachClause h o⟩
  | replaceBlocker o l => exact ⟨_, _, rfl, inOrder_replaceBlocker h o l⟩
  | sweep => exact ⟨_, _, rfl, h.filter _⟩
  | sort =>
    obtain ⟨ws', hsort, hws'⟩ := WatchList.InOrder.sorted h.noIdx
    refine ⟨.done, ws', ?_, hws'⟩
    show ws.sortBinaryFirst.map _ = _
    rw [hsort]
    rfl
  | attachBinary l r i => cases hop
  | attachIdx i => cases hop
  | detach n => cases hop
  | detachBinary l r i => cases hop

/-- **A run** of such operations leaves a list in order after each of them. -/
theorem inOrder_of_runAll {ops : List Operation} (hops : ∀ op ∈ ops, op.keepsOrder = true)
    (h : ws.InOrder) :
    ∃ steps, runAll ops ws = .ok steps ∧ ∀ s ∈ steps, s.after.InOrder := by
  induction ops generalizing ws with
  | nil => exact ⟨[], rfl, nofun⟩
  | cons op ops ih =>
    obtain ⟨answer, ws', hrun, hws'⟩ := inOrder_of_run (hops op List.mem_cons_self) h
    obtain ⟨steps, hsteps, hall⟩ := ih (fun op hop => hops op (List.mem_cons_of_mem _ hop)) hws'
    refine ⟨⟨op, ws, answer, ws'⟩ :: steps, ?_, List.forall_mem_cons.mpr ⟨hws', hall⟩⟩
    rw [runAll, hrun]
    show (runAll ops ws').map _ = _
    rw [hsteps]
    rfl

end Operation

/-! ## All operations and changes -/

namespace WatchList

variable {ws : WatchList} {n : Nat}

theorem inOrder_modifyAt (h : ws.InOrder) {c : Change} (hc : c.keepsKey = true)
    (hn : n < ws.length) (hkind : ws[n].kind = c.kind) :
    ∃ ws', ws.modifyAt n c.apply = .ok ws' ∧ ws'.InOrder := by
  obtain ⟨w', happly, hkind', hrank'⟩ := Change.exists_apply hc hkind
  refine ⟨ws.set n w', ?_, h.set hn hkind' hrank'⟩
  unfold modifyAt
  rw [List.getElem?_eq_getElem hn]
  show (c.apply ws[n]).map _ = _
  rw [happly]
  rfl

/-- A new binary watch is in order behind a smaller or equal key only. -/
theorem isAscending_attachBinary_iff (h : ws.IsAscending) (l : Literal) (r : Bool)
    (i : ClauseId) :
    (ws.attachBinary l r i).IsAscending ↔ ws = [] ∨ ∃ w, ws.getLast? = some w ∧
      w.kind = .binary ∧ w.key.lex ≤ (⟨l, r, i⟩ : BinaryKey).lex := by
  unfold attachBinary
  rw [isAscending_append_singleton_iff h, Watch.rank_ofBinary]
  constructor
  · intro hlast
    cases hw : ws.getLast? with
    | none => exact .inl (List.getLast?_eq_none_iff.mp hw)
    | some w =>
      have hle := hlast w hw
      by_cases hkind : w.kind = .binary
      · rw [Watch.rank_of_binary hkind, WithTop.coe_le_coe] at hle
        exact .inr ⟨w, rfl, hkind, hle⟩
      · rw [Watch.rank_of_ne hkind] at hle
        exact absurd (top_le_iff.mp hle) (WithTop.coe_ne_top)
  · rintro (rfl | ⟨w, hw, hkind, hle⟩) v hv
    · cases hv
    · cases hw.symm.trans hv
      rw [Watch.rank_of_binary hkind]
      exact WithTop.coe_le_coe.mpr hle

/-- Detaching keeps the order at the end of the list, and elsewhere if the last watch is
equal to the next in the order. -/
theorem isAscending_detach_iff (h : ws.InOrder) (hn : n < ws.length) :
    IsAscending (removeAt ws n) ↔ ws.length ≤ n + 2 ∨
      ∃ u v, ws[n + 1]? = some u ∧ ws.getLast? = some v ∧ u.binaryFirstOrder v = .ok .eq := by
  rw [isAscending_removeAt_iff h.ascending hn]
  by_cases hlen : ws.length ≤ n + 2
  · exact iff_of_true (.inl hlen) (.inl hlen)
  · have hnext : ws[n + 1]? = some ws[n + 1] := List.getElem?_eq_getElem _
    obtain ⟨v, hv⟩ : ∃ v, ws.getLast? = some v := by
      rw [List.getLast?_eq_getElem?]
      exact ⟨_, List.getElem?_eq_getElem (show ws.length - 1 < ws.length by omega)⟩
    have hequal : ws[n + 1].binaryFirstOrder v = .ok .eq ↔ ws[n + 1].rank = v.rank := by
      rw [Watch.binaryFirstOrder_eq (h.noIdx _ (List.getElem_mem _))
        (h.noIdx v (List.mem_of_getLast? hv)), Except.ok.injEq, compare_eq_iff_eq]
    rw [or_iff_right hlen, or_iff_right hlen, hnext, hv]
    simp only [Option.map_some, Option.some.injEq]
    constructor
    · intro hrank
      exact ⟨_, _, rfl, rfl, hequal.mpr hrank⟩
    · rintro ⟨u, v', rfl, rfl, hcmp⟩
      exact hequal.mp hcmp

/-- **Which operations keep the binary-first order.** Of a list without idx watches
that passes the check, the following passes it too: whatever an operation leaves that
attaches a clause or bnn watch, detaches a clause, replaces a blocking literal, sweeps
or sorts; and the list with another blocking literal, a mark, or none on a watch that
can have it. A binary watch can be attached exactly if there is no watch, or the last
one is binary and its key is not above the new one. The watch at a position can be
detached exactly if it is one of the last two, or the next and the last watch are equal
in the order; so a clause or bnn watch always can. A position that is none of the list
is refused. -/
theorem isBinaryFirst_kept (hidx : ∀ w ∈ ws, w.kind ≠ .idx)
    (hfirst : ws.isBinaryFirst = .ok true) :
    (∀ op : Operation, op.keepsOrder = true →
      ∃ answer ws', op.run ws = .ok (answer, ws') ∧ ws'.isBinaryFirst = .ok true) ∧
    (∀ c : Change, c.keepsKey = true → ∀ n (hn : n < ws.length), ws[n].kind = c.kind →
      ∃ ws', ws.modifyAt n c.apply = .ok ws' ∧ ws'.isBinaryFirst = .ok true) ∧
    (∀ l r i, ∃ b, (ws.attachBinary l r i).isBinaryFirst = .ok b ∧
      (b = true ↔ ws = [] ∨ ∃ w k, ws.getLast? = some w ∧ w.kind = .binary ∧
        w.binaryKey = .ok k ∧ k.lex ≤ (⟨l, r, i⟩ : BinaryKey).lex)) ∧
    (∀ n (hn : n < ws.length), ∃ ws' b, ws.detach n = .ok ws' ∧ ws'.isBinaryFirst = .ok b ∧
      (b = true ↔ ws.length ≤ n + 2 ∨ ∃ u v, ws[n + 1]? = some u ∧ ws.getLast? = some v ∧
        u.binaryFirstOrder v = .ok .eq) ∧
      (ws[n].kind = .clause ∨ ws[n].kind = .bnn → b = true)) ∧
    ∀ n, ws.length ≤ n → ws.detach n = .error (.noSuchPosition n ws.length) := by
  have h : ws.InOrder := (inOrder_iff hidx).mpr hfirst
  refine ⟨fun op hop => ?_, fun c hc n hn hkind => ?_, fun l r i => ?_, fun n hn => ?_,
    fun n hn => if_neg (not_lt_of_ge hn)⟩
  · obtain ⟨answer, ws', hrun, hws'⟩ := Operation.inOrder_of_run hop h
    exact ⟨answer, ws', hrun, hws'.isBinaryFirst⟩
  · obtain ⟨ws', hmodify, hws'⟩ := inOrder_modifyAt h hc hn hkind
    exact ⟨ws', hmodify, hws'.isBinaryFirst⟩
  · have hnew : (Watch.ofBinary l r i).kind = .binary := Watch.kind_pack ..
    have hattached : ∀ w ∈ ws.attachBinary l r i, w.kind ≠ .idx := by
      intro w hw
      rcases List.mem_append.mp hw with hw | hw
      · exact hidx w hw
      · rw [List.mem_singleton.mp hw, hnew]
        nofun
    obtain ⟨b, hb, hiff⟩ := exists_isBinaryFirst hattached
    refine ⟨b, hb, hiff.trans ((isAscending_attachBinary_iff h.ascending l r i).trans ?_)⟩
    refine or_congr_right ⟨?_, ?_⟩
    · rintro ⟨w, hw, hbin, hle⟩
      exact ⟨w, w.key, hw, hbin, Watch.binaryKey_eq hbin, hle⟩
    · rintro ⟨w, k, hw, hbin, hk, hle⟩
      cases (Watch.binaryKey_eq hbin).symm.trans hk
      exact ⟨w, hw, hbin, hle⟩
  · obtain ⟨b, hb, hiff⟩ := exists_isBinaryFirst (kind_of_mem_removeAt h hn)
    refine ⟨removeAt ws n, b, if_pos hn, hb, hiff.trans (isAscending_detach_iff h hn),
      fun hkind => ?_⟩
    have hne : ws[n].kind ≠ .binary := by
      rcases hkind with hkind | hkind <;> rw [hkind] <;> nofun
    exact hiff.mpr (h.removeAt_of_rank_eq_top hn (Watch.rank_of_ne hne)).ascending

/-- Behind a bnn watch no binary watch is in order. The bnn watch may take the place of
the redundant watch, which a clause watch follows, but not that of the first watch. -/
theorem isBinaryFirst_kept_mixed :
    let ws : WatchList := [.ofBinary ⟨5, by decide⟩ false ⟨1⟩, .ofBinary ⟨5, by decide⟩ true ⟨1⟩,
      .placeholder, .ofBnn 3 .out]
    (∀ w ∈ ws, w.kind ≠ .idx) ∧ ws.isBinaryFirst = .ok true ∧
    (ws.attachBinary ⟨7, by decide⟩ false ⟨0⟩).isBinaryFirst = .ok false ∧
    (∃ ws', ws.detach 0 = .ok ws' ∧ ws'.isBinaryFirst = .ok false) ∧
    ∃ ws', ws.detach 1 = .ok ws' ∧ ws'.isBinaryFirst = .ok true := by
  intro ws
  have hidx : ∀ w ∈ ws, w.kind ≠ .idx := by decide
  have hfirst : ws.isBinaryFirst = .ok true := by decide
  obtain ⟨_, _, hattach, hdetach, _⟩ := isBinaryFirst_kept hidx hfirst
  refine ⟨hidx, hfirst, ?_, ?_, ?_⟩
  · obtain ⟨b, hb, hiff⟩ := hattach ⟨7, by decide⟩ false ⟨0⟩
    have hfalse : b ≠ true := by
      rintro rfl
      obtain h | ⟨w, k, hw, hkind, _⟩ := hiff.mp rfl
      · exact absurd h (List.cons_ne_nil _ _)
      · cases hw
        exact absurd hkind (by decide)
    rw [hb, Bool.eq_false_of_not_eq_true hfalse]
  · obtain ⟨ws', b, hws', hb, hiff, _⟩ := hdetach 0 (by decide)
    have hfalse : b ≠ true := by
      rintro rfl
      obtain h | ⟨u, v, hu, hv, hcmp⟩ := hiff.mp rfl
      · exact absurd h (by decide)
      · cases hu
        cases hv
        exact absurd hcmp (by decide)
    exact ⟨ws', hws', by rw [hb, Bool.eq_false_of_not_eq_true hfalse]⟩
  · obtain ⟨ws', b, hws', hb, hiff, _⟩ := hdetach 1 (by decide)
    exact ⟨ws', hws', by rw [hb, hiff.mpr (.inr ⟨_, _, rfl, rfl, by decide⟩)]⟩

end WatchList

end WatchLists
