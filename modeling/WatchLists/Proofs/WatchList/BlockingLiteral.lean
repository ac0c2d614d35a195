import WatchLists.Proofs.WatchList.Sorted

/-!
# Another blocking literal

Of the watches at an offset the first one gets another first word. It keeps its kind and its
payload, and these are all that positions, counts, a sweep and the order of a list depend on:
a clause watch is never swept, and clause watches are never brought into another order. So
the update can be made before any of these or after it, and it does not matter that the
watches at an offset can be many.

- `updateBlocker`, `updateBlocker_cons`: the update, from the front of the list.
- `map_updateBlocker`: what does not depend on the first word of a clause watch stays.
- `filter_updateBlocker`: the update in a part of the list.
- `updateBlocker_updateBlocker`, `updateBlocker_comm`: two updates.
- `stablySorted_updateBlocker`: the update of a sorted list.
- `Operation.CommuteOn`: that two operations can be done in either order.
- `replaceBlocker_local`: all of it.
-/

namespace WatchLists

namespace Watch

theorem isClauseAt_iff {w : Watch} {o : ClauseOffset} :
    w.isClauseAt o = true ↔ w.kind = .clause ∧ ⟨w.payload⟩ = o := by
  rw [isClauseAt_eq, decide_eq_true_iff]
  constructor
  · intro h
    have hkind := Operation.kind_of_offset h
    rw [offset, require_of_kind hkind] at h
    exact ⟨hkind, Except.ok.inj h⟩
  · rintro ⟨hkind, rfl⟩
    exact require_of_kind hkind _

/-- A watch is at its offset whatever its first word is. -/
theorem isClauseAt_setFirst (w : Watch) (first : Word32) (o : ClauseOffset) :
    (w.setFirst first).isClauseAt o = w.isClauseAt o := by
  rw [Bool.eq_iff_iff, isClauseAt_iff, isClauseAt_iff, kind_setFirst, payload_setFirst]

theorem kind_ne_binary_of_isClauseAt {w : Watch} {o : ClauseOffset}
    (h : w.isClauseAt o = true) : w.kind ≠ .binary := by
  rw [(isClauseAt_iff.mp h).1]
  nofun

theorem isMarkedBinary_of_isClauseAt {w : Watch} {o : ClauseOffset}
    (h : w.isClauseAt o = true) : w.isMarkedBinary = false := by
  rw [isMarkedBinary_eq, isMarked, require_of_ne (kind_ne_binary_of_isClauseAt h)]
  rfl

/-- A watch is at one offset. -/
theorem not_isClauseAt_of_ne {w : Watch} {o o' : ClauseOffset} (h : w.isClauseAt o = true)
    (hne : o ≠ o') : ¬ w.isClauseAt o' = true := fun h' =>
  hne ((isClauseAt_iff.mp h).2.symm.trans (isClauseAt_iff.mp h').2)

end Watch

namespace WatchList

variable {ws : WatchList} {o : ClauseOffset} {l : Literal}

/-! ## The update -/

/-- The list in which the first watch at an offset has another blocking literal, or the same
list if there is none. -/
def updateBlocker (ws : WatchList) (o : ClauseOffset) (l : Literal) : WatchList :=
  (ws.replaceBlocker? o l).getD ws

theorem run_replaceBlocker (ws : WatchList) (o : ClauseOffset) (l : Literal) :
    (Operation.replaceBlocker o l).run ws
      = .ok (.found (ws.clausePosition? o).isSome, ws.updateBlocker o l) := by
  show Except.ok (Answer.found (Option.map _ _).isSome, _) = _
  rw [Option.isSome_map]
  rfl

/-- The first watch is the one that is sought, or it is not looked at again. -/
theorem updateBlocker_cons (w : Watch) (ws : WatchList) (o : ClauseOffset) (l : Literal) :
    updateBlocker (w :: ws) o l
      = if w.isClauseAt o then w.setFirst l.raw :: ws else w :: ws.updateBlocker o l := by
  unfold updateBlocker replaceBlocker? clausePosition?
  rw [List.findIdx?_cons]
  split
  · rfl
  · cases ws.findIdx? (Watch.isClauseAt o) <;> rfl

/-! ## What stays -/

/-- What does not depend on the first word of the clause watches at the offset stays. -/
theorem map_updateBlocker {β : Type} {f : Watch → β}
    (hf : ∀ w : Watch, w.isClauseAt o = true → f (w.setFirst l.raw) = f w) :
    (ws.updateBlocker o l).map f = ws.map f := by
  induction ws with
  | nil => rfl
  | cons w ws ih =>
    rw [updateBlocker_cons]
    split
    · next h => rw [List.map_cons, List.map_cons, hf w h]
    · rw [List.map_cons, List.map_cons, ih]

theorem map_kind_updateBlocker : (ws.updateBlocker o l).map Watch.kind = ws.map Watch.kind :=
  map_updateBlocker fun w _ => Watch.kind_setFirst w l.raw

theorem length_updateBlocker : (ws.updateBlocker o l).length = ws.length := by
  rw [← List.length_map (f := Watch.kind), map_kind_updateBlocker, List.length_map]

/-- The watches at the offset of a clause stand where they stood. -/
theorem clausePosition?_updateBlocker (p : ClauseOffset) :
    (ws.updateBlocker o l).clausePosition? p = ws.clausePosition? p := by
  have hposition (vs : WatchList) :
      vs.clausePosition? p = (vs.map (Watch.isClauseAt p)).findIdx? id := by
    rw [List.findIdx?_map]
    rfl
  rw [hposition, hposition, map_updateBlocker fun w _ => Watch.isClauseAt_setFirst w l.raw p]

theorem countKind_updateBlocker (k : Kind) :
    (ws.updateBlocker o l).countKind k = ws.countKind k := by
  have hcount (vs : WatchList) : vs.countKind k = (vs.map Watch.kind).countP (decide <| · = k) := by
    rw [List.countP_map]
    rfl
  rw [hcount, hcount, map_kind_updateBlocker]

/-! ## Parts of a list -/

/-- A list without a watch at the offset stays. -/
theorem updateBlocker_of_forall (h : ∀ w ∈ ws, ¬ w.isClauseAt o = true) :
    ws.updateBlocker o l = ws := by
  induction ws with
  | nil => rfl
  | cons w ws ih =>
    obtain ⟨hw, hws⟩ := List.forall_mem_cons.mp h
    rw [updateBlocker_cons, if_neg hw, ih hws]

/-- If a part of the list has all of the watches at the offset or none of them, the update
can be made in this part. -/
theorem filter_updateBlocker {p : Watch → Bool} {b : Bool}
    (hp : ∀ w : Watch, w.isClauseAt o = true → p w = b) :
    (ws.updateBlocker o l).filter p = updateBlocker (ws.filter p) o l := by
  induction ws with
  | nil => rfl
  | cons w ws ih =>
    rw [updateBlocker_cons]
    by_cases h : w.isClauseAt o = true
    · have hnew := hp (w.setFirst l.raw) ((Watch.isClauseAt_setFirst ..).trans h)
      rw [if_pos h, List.filter_cons, List.filter_cons, hnew, hp w h]
      cases b with
      | true => rw [if_pos rfl, if_pos rfl, updateBlocker_cons, if_pos h]
      | false =>
        -- no watch at the offset is in the part
        refine (updateBlocker_of_forall fun v hv hat => ?_).symm
        exact absurd ((List.mem_filter.mp hv).2.symm.trans (hp v hat)) (by decide)
    · rw [if_neg h, List.filter_cons, List.filter_cons, ih]
      split
      · rw [updateBlocker_cons, if_neg h]
      · rfl

/-! ## Two updates -/

/-- The second of two updates at an offset is the one that counts. -/
theorem updateBlocker_updateBlocker (l' : Literal) :
    (ws.updateBlocker o l).updateBlocker o l' = ws.updateBlocker o l' := by
  induction ws with
  | nil => rfl
  | cons w ws ih =>
    rw [updateBlocker_cons, updateBlocker_cons]
    by_cases h : w.isClauseAt o = true
    · have hnew := (Watch.isClauseAt_setFirst w l.raw o).trans h
      rw [if_pos h, if_pos h, updateBlocker_cons, if_pos hnew]
      rfl
    · rw [if_neg h, if_neg h, updateBlocker_cons, if_neg h, ih]

/-- Updates at two offsets are of different watches. -/
theorem updateBlocker_comm {o' : ClauseOffset} (hne : o ≠ o') (l' : Literal) :
    (ws.updateBlocker o l).updateBlocker o' l' = (ws.updateBlocker o' l').updateBlocker o l := by
  induction ws with
  | nil => rfl
  | cons w ws ih =>
    rw [updateBlocker_cons, updateBlocker_cons]
    by_cases h : w.isClauseAt o = true
    · have h' := Watch.not_isClauseAt_of_ne h hne
      rw [if_pos h, if_neg h', updateBlocker_cons, updateBlocker_cons, if_pos h,
        Watch.isClauseAt_setFirst, if_neg h']
    · rw [if_neg h, updateBlocker_cons]
      by_cases h' : w.isClauseAt o' = true
      · rw [if_pos h', if_pos h', updateBlocker_cons, Watch.isClauseAt_setFirst, if_neg h]
      · rw [if_neg h', if_neg h', updateBlocker_cons, if_neg h, ih]

/-! ## Sweeping and sorting -/

theorem withoutMarked_updateBlocker :
    (ws.updateBlocker o l).withoutMarked = ws.withoutMarked.updateBlocker o l := by
  refine filter_updateBlocker (b := true) fun w hw => ?_
  rw [Watch.isMarkedBinary_of_isClauseAt hw]
  rfl

/-- Clause watches have one rank, so the update does not change the ranks, and it is an
update of the watches of that rank. -/
theorem stablySorted_updateBlocker {ys : WatchList} (h : StablySorted Watch.rank ws ys) :
    StablySorted Watch.rank (ws.updateBlocker o l) (ys.updateBlocker o l) := by
  have htop : ∀ w : Watch, w.isClauseAt o = true → w.rank = ⊤ := fun w hw =>
    Watch.rank_of_ne (Watch.kind_ne_binary_of_isClauseAt hw)
  constructor
  · have hranks : (ys.updateBlocker o l).map Watch.rank = ys.map Watch.rank :=
      map_updateBlocker fun w hw => by
        rw [htop w hw, htop _ ((Watch.isClauseAt_setFirst ..).trans hw)]
    have hsorted := isAscending_iff_map.mp h.ascending
    rw [← hranks] at hsorted
    exact isAscending_iff_map.mpr hsorted
  · intro k
    have hclass : ∀ w : Watch, w.isClauseAt o = true → decide (w.rank = k) = decide (⊤ = k) :=
      fun w hw => by rw [htop w hw]
    rw [filter_updateBlocker hclass, filter_updateBlocker hclass, h.stable k]

/-- So the sorted list of the update is the update of the sorted list. -/
theorem sortBinaryFirst_updateBlocker {ys : WatchList} (hidx : ∀ w ∈ ws, w.kind ≠ .idx)
    (hsort : ws.sortBinaryFirst = .ok ys) :
    (ws.updateBlocker o l).sortBinaryFirst = .ok (ys.updateBlocker o l) := by
  have hidx' : ∀ w ∈ ws.updateBlocker o l, w.kind ≠ .idx := by
    intro w hw
    have hkind := List.mem_map_of_mem (f := Watch.kind) hw
    rw [map_kind_updateBlocker] at hkind
    obtain ⟨v, hv, hvw⟩ := List.mem_map.mp hkind
    exact hvw ▸ hidx v hv
  obtain ⟨zs, hzs, hsorted⟩ := sortBinaryFirst_stablySorted hidx
  obtain rfl : ys = zs := Except.ok.inj (hsort.symm.trans hzs)
  obtain ⟨vs, hvs, hsorted'⟩ := sortBinaryFirst_stablySorted hidx'
  rw [hvs, hsorted'.unique (stablySorted_updateBlocker hsorted)]

/-- Whether there is a watch at the offset depends on the watches at the offset only. -/
theorem isSome_clausePosition?_congr {vs : WatchList}
    (h : ∀ w : Watch, w.isClauseAt o = true → (w ∈ vs ↔ w ∈ ws)) :
    (vs.clausePosition? o).isSome = (ws.clausePosition? o).isSome := by
  unfold clausePosition?
  rw [Bool.eq_iff_iff, List.findIdx?_isSome, List.findIdx?_isSome, List.any_eq_true,
    List.any_eq_true]
  refine exists_congr fun w => and_congr_left fun hw => h w hw

end WatchList

/-- Of two operations on a list either can be done first: each of them tells the same before
the other and after it, and together they leave the same list. -/
def Operation.CommuteOn (ws : WatchList) (a b : Operation) : Prop :=
  ∃ x y ws₁ ws₂ ws', a.run ws = .ok (x, ws₁) ∧ b.run ws₁ = .ok (y, ws') ∧
    b.run ws = .ok (y, ws₂) ∧ a.run ws₂ = .ok (x, ws')

namespace WatchList

variable {ws : WatchList} {o : ClauseOffset} {l : Literal}

/-- An operation commutes with the update if it does the same to the updated list and
leaves the watches at the offset. -/
theorem commuteOn_of_run {op : Operation} {answer : Answer} {vs : WatchList}
    (hrun : op.run ws = .ok (answer, vs))
    (hupdated : op.run (ws.updateBlocker o l) = .ok (answer, vs.updateBlocker o l))
    (hat : (vs.clausePosition? o).isSome = (ws.clausePosition? o).isSome) :
    Operation.CommuteOn ws (.replaceBlocker o l) op := by
  refine ⟨_, answer, ws.updateBlocker o l, vs, vs.updateBlocker o l, run_replaceBlocker ws o l,
    hupdated, hrun, ?_⟩
  rw [run_replaceBlocker, hat]

theorem commuteOn_replaceBlocker {o' : ClauseOffset} (hne : o ≠ o') (l' : Literal) :
    Operation.CommuteOn ws (.replaceBlocker o l) (.replaceBlocker o' l') := by
  refine commuteOn_of_run (run_replaceBlocker ws o' l') ?_ ?_
  · rw [run_replaceBlocker, clausePosition?_updateBlocker, updateBlocker_comm hne]
  · rw [clausePosition?_updateBlocker]

theorem commuteOn_sweep : Operation.CommuteOn ws (.replaceBlocker o l) .sweep := by
  refine commuteOn_of_run rfl ?_ (isSome_clausePosition?_congr fun w hw => ?_)
  · show Except.ok (Answer.removed ((ws.updateBlocker o l).length
      - (ws.updateBlocker o l).withoutMarked.length), (ws.updateBlocker o l).withoutMarked) = _
    rw [withoutMarked_updateBlocker, length_updateBlocker, length_updateBlocker]
    rfl
  · refine List.mem_filter.trans (and_iff_left ?_)
    rw [Watch.isMarkedBinary_of_isClauseAt hw]
    rfl

theorem commuteOn_sort (hidx : ∀ w ∈ ws, w.kind ≠ .idx) :
    Operation.CommuteOn ws (.replaceBlocker o l) .sort := by
  obtain ⟨ys, hsort, _⟩ := InOrder.sorted hidx
  have hrun {vs vs' : WatchList} (h : vs.sortBinaryFirst = .ok vs') :
      Operation.sort.run vs = .ok (.done, vs') := by
    show vs.sortBinaryFirst.map _ = _
    rw [h]
    rfl
  refine commuteOn_of_run (hrun hsort) (hrun (sortBinaryFirst_updateBlocker hidx hsort)) ?_
  exact isSome_clausePosition?_congr fun w _ => (sortBy_perm hsort).mem_iff

/-- The watch that is found has its blocking literal replaced, and no other watch changes. -/
theorem updateBlocker_of_clausePosition? {i : Nat} (h : ws.clausePosition? o = some i) :
    ∃ hi : i < ws.length, ws.modifyAt i (·.setBlocker l) = .ok (ws.updateBlocker o l) ∧
      (ws.updateBlocker o l)[i]? = some ⟨l.raw, ws[i].word⟩ ∧
      ∀ j, j ≠ i → (ws.updateBlocker o l)[j]? = ws[j]? := by
  obtain ⟨hi, hkind⟩ := Operation.kind_of_findIdx? h
  have hset : ws.updateBlocker o l = ws.set i (ws[i].setFirst l.raw) := by
    rw [updateBlocker, replaceBlocker?_eq_some hi h]
    rfl
  refine ⟨hi, ?_, ?_, fun j hj => ?_⟩
  · rw [modifyAt, List.getElem?_eq_getElem hi, hset]
    show (ws[i].setBlocker l).map _ = _
    rw [Watch.setBlocker, Watch.require_of_kind hkind]
    rfl
  · rw [hset, List.getElem?_set_self hi]
    rfl
  · rw [hset, List.getElem?_set_ne hj.symm]

/-- **Replacing a blocking literal.** It is done exactly if there is a watch at the offset,
and otherwise leaves the list as it is. Of the watch that is found by the offset the first
word becomes that of the literal; its other word stays, and so do the other watches, the
length of the list, the kind of every watch, the number of watches of each kind, and the
place of the watch that is found by any offset.

The second of two replacements at an offset does what it would do alone. Replacements at two
offsets, a replacement and a sweep, and a replacement and the sort of a list without idx
watches can be done in either order, and each of them tells the same. -/
theorem replaceBlocker_local (ws : WatchList) (o : ClauseOffset) (l : Literal) :
    ∃ ws', (Operation.replaceBlocker o l).run ws
        = .ok (.found (ws.clausePosition? o).isSome, ws') ∧
      (ws.clausePosition? o = none → ws' = ws) ∧
      (∀ i, ws.clausePosition? o = some i → ∃ hi : i < ws.length,
        ws.modifyAt i (·.setBlocker l) = .ok ws' ∧ ws'[i]? = some ⟨l.raw, ws[i].word⟩ ∧
        ∀ j, j ≠ i → ws'[j]? = ws[j]?) ∧
      ws'.length = ws.length ∧ ws'.map Watch.kind = ws.map Watch.kind ∧
      (∀ k, ws'.countKind k = ws.countKind k) ∧
      (∀ p, ws'.clausePosition? p = ws.clausePosition? p) ∧
      (∀ l', (Operation.replaceBlocker o l').run ws' = (Operation.replaceBlocker o l').run ws) ∧
      (∀ o' l', o ≠ o' → Operation.CommuteOn ws (.replaceBlocker o l) (.replaceBlocker o' l')) ∧
      Operation.CommuteOn ws (.replaceBlocker o l) .sweep ∧
      ((∀ w ∈ ws, w.kind ≠ .idx) → Operation.CommuteOn ws (.replaceBlocker o l) .sort) := by
  refine ⟨ws.updateBlocker o l, run_replaceBlocker ws o l, fun h => ?_,
    fun i h => updateBlocker_of_clausePosition? h, length_updateBlocker,
    map_kind_updateBlocker, countKind_updateBlocker, clausePosition?_updateBlocker, fun l' => ?_,
    fun o' l' hne => commuteOn_replaceBlocker hne l', commuteOn_sweep, commuteOn_sort⟩
  · rw [updateBlocker, replaceBlocker?_eq_none h]
    rfl
  · rw [run_replaceBlocker, run_replaceBlocker, clausePosition?_updateBlocker,
      updateBlocker_updateBlocker]

/-- Of two watches at an offset the first one is found, and it is still the first one behind
the binary watches. -/
theorem replaceBlocker_local_twice :
    let o : ClauseOffset := ⟨⟨40, by decide⟩⟩
    let l : Literal := ⟨9, by decide⟩
    let twice (first : Literal) : WatchList := [.ofBnn 3 .out, .ofClause o first,
      .packBinary ⟨5, by decide⟩ ⟨false, true⟩ ⟨4⟩, .ofClause o (Abstraction.mk 0),
      .ofBinary ⟨2, by decide⟩ true ⟨3⟩]
    let ws := twice ⟨6, by decide⟩
    (∀ w ∈ ws, w.kind ≠ .idx) ∧ ws.clausePosition? o = some 1 ∧
      (Operation.replaceBlocker o l).run ws = .ok (.found true, twice l) ∧
      Operation.CommuteOn ws (.replaceBlocker o l) (.replaceBlocker .max l) ∧
      Operation.CommuteOn ws (.replaceBlocker o l) .sort ∧
      sortBinaryFirst (twice l) = .ok [.ofBinary ⟨2, by decide⟩ true ⟨3⟩,
        .packBinary ⟨5, by decide⟩ ⟨false, true⟩ ⟨4⟩, .ofBnn 3 .out, .ofClause o l,
        .ofClause o (Abstraction.mk 0)] := by
  intro o l twice ws
  have hidx : ∀ w ∈ ws, w.kind ≠ .idx := by decide
  have hfound : ws.clausePosition? o = some 1 := by decide
  obtain ⟨ws', hrun, _, hupdated, _, _, _, _, _, hother, _, hsort⟩ := replaceBlocker_local ws o l
  obtain ⟨hi, hmodify, _⟩ := hupdated 1 hfound
  have hws' : ws' = twice l := Except.ok.inj (hmodify.symm.trans (by decide))
  rw [hfound, hws'] at hrun
  exact ⟨hidx, hfound, hrun, hother .max l (by decide), hsort hidx, by decide⟩

end WatchList

end WatchLists
