import WatchLists.Proofs.Order.BinaryFirst

/-!
# Where the order is refused

An idx watch has no place in binary-first order, and to compare one is a fault. So a
fault depends on which watches are compared. A sort of two or more elements compares
each of them, wherever it stands; the check compares neighbours from left to right and
stops at the first two that are out of order. A list of one watch is never refused.

- `exists_compared_of_sortBy`, `exists_cmp_of_sortBy_error`: every element is compared,
  and a fault of the sort is one of a comparison.
- `before_cases`, `binaryFirstOrder_cases`: a comparison of two watches.
- `PairAt`: what holds of two neighbours of a list.
- `isBinaryFirst_cases`: how the check ends.
- `order_refused_iff`: when the sort and the check are refused, and what the check says.
-/

namespace WatchLists

/-! ## Sorts that fail -/

section Sorting

variable {α ε : Type} {cmp : α → α → Except ε Ordering} {x y : α} {xs ys zs : List α} {e : ε}

/-- An element that is inserted into a list is compared with its first element. -/
theorem exists_compared_of_insertBy (h : insertBy cmp x (y :: ys) = .ok zs) :
    ∃ o, cmp x y = .ok o := by
  rw [insertBy] at h
  obtain ⟨o, ho, _⟩ := exists_ok_of_bind h
  exact ⟨o, ho⟩

/-- Of two elements or more, a sort that succeeds has compared each one. -/
theorem exists_compared_of_sortBy (h : sortBy cmp xs = .ok zs) (hlen : 2 ≤ xs.length)
    (hx : x ∈ xs) : ∃ y ∈ xs, (∃ o, cmp x y = .ok o) ∨ ∃ o, cmp y x = .ok o := by
  induction xs generalizing zs with
  | nil => cases hx
  | cons a xs ih =>
    obtain ⟨ys, hys, hinsert⟩ := exists_ok_of_bind h
    have hperm : ys.Perm xs := sortBy_perm hys
    cases ys with
    | nil =>
      obtain rfl : xs = [] := hperm.symm.eq_nil
      exact absurd hlen (by simp)
    | cons y ys =>
      have hy : y ∈ xs := hperm.mem_iff.mp List.mem_cons_self
      have hay : ∃ o, cmp a y = .ok o := exists_compared_of_insertBy hinsert
      rcases List.mem_cons.mp hx with rfl | hx
      · exact ⟨y, List.mem_cons_of_mem x hy, .inl hay⟩
      by_cases hrest : 2 ≤ xs.length
      · obtain ⟨b, hb, hcmp⟩ := ih hys hrest hx
        exact ⟨b, List.mem_cons_of_mem a hb, hcmp⟩
      · -- `x` is all of the rest, so `a` was compared with it
        have hpos : 0 < xs.length := List.length_pos_of_mem hx
        obtain ⟨b, rfl⟩ := List.length_eq_one_iff.mp (show xs.length = 1 by omega)
        obtain rfl := List.mem_singleton.mp hx
        obtain rfl := List.mem_singleton.mp hy
        exact ⟨a, List.mem_cons_self, .inr hay⟩

theorem exists_cmp_of_insertBy_error (h : insertBy cmp x ys = .error e) :
    ∃ y ∈ ys, cmp x y = .error e := by
  induction ys with
  | nil => cases h
  | cons y ys ih =>
    rw [insertBy] at h
    rcases error_of_bind h with hcmp | ⟨o, _, h⟩
    · exact ⟨y, List.mem_cons_self, hcmp⟩
    cases o with
    | lt | eq => cases h
    | gt =>
      rcases error_of_bind h with hinsert | ⟨us, _, h⟩
      · obtain ⟨z, hz, hcmp⟩ := ih hinsert
        exact ⟨z, List.mem_cons_of_mem y hz, hcmp⟩
      · cases h

/-- A fault of a sort is that of a comparison of two elements. -/
theorem exists_cmp_of_sortBy_error (h : sortBy cmp xs = .error e) :
    ∃ x ∈ xs, ∃ y ∈ xs, cmp x y = .error e := by
  induction xs with
  | nil => cases h
  | cons a xs ih =>
    rcases error_of_bind h with hsort | ⟨ys, hys, hinsert⟩
    · obtain ⟨x, hx, y, hy, hcmp⟩ := ih hsort
      exact ⟨x, List.mem_cons_of_mem a hx, y, List.mem_cons_of_mem a hy, hcmp⟩
    · obtain ⟨y, hy, hcmp⟩ := exists_cmp_of_insertBy_error hinsert
      exact ⟨a, List.mem_cons_self, y,
        List.mem_cons_of_mem a ((sortBy_perm hys).mem_iff.mp hy), hcmp⟩

end Sorting

namespace Watch

/-! ## Comparisons -/

/-- Whether a watch must be placed before another is refused if one of them is an idx
watch, which the fault names, and else is a matter of rank. -/
theorem before_cases (a b : Watch) :
    (∃ w, (w = a ∨ w = b) ∧ w.kind = .idx ∧ a.before b = .error (.unordered w)) ∨
      a.kind ≠ .idx ∧ b.kind ≠ .idx ∧ a.before b = .ok (decide (a.rank < b.rank)) := by
  by_cases ha : a.kind = .idx
  · refine .inl ⟨a, .inl rfl, ha, ?_⟩
    unfold before
    rw [ha]
  by_cases hb : b.kind = .idx
  · refine .inl ⟨b, .inr rfl, hb, ?_⟩
    unfold before
    rw [hb]
    cases hka : a.kind with
    | idx => exact absurd hka ha
    | clause | binary | bnn => rfl
  · exact .inr ⟨ha, hb, before_eq ha hb⟩

/-- The order of two watches is refused in the same cases. -/
theorem binaryFirstOrder_cases (a b : Watch) :
    (∃ w, (w = a ∨ w = b) ∧ w.kind = .idx ∧ a.binaryFirstOrder b = .error (.unordered w)) ∨
      a.kind ≠ .idx ∧ b.kind ≠ .idx ∧ a.binaryFirstOrder b = .ok (compare a.rank b.rank) := by
  rcases before_cases a b with ⟨w, hw, hidx, h⟩ | ⟨ha, hb, _⟩
  · refine .inl ⟨w, hw, hidx, ?_⟩
    unfold binaryFirstOrder
    rw [h]
    rfl
  · exact .inr ⟨ha, hb, binaryFirstOrder_eq ha hb⟩

theorem ne_idx_of_binaryFirstOrder {a b : Watch} {o : Ordering}
    (h : a.binaryFirstOrder b = .ok o) : a.kind ≠ .idx ∧ b.kind ≠ .idx := by
  rcases binaryFirstOrder_cases a b with ⟨w, _, _, herr⟩ | ⟨ha, hb, _⟩
  · cases h.symm.trans herr
  · exact ⟨ha, hb⟩

end Watch

namespace WatchList

variable {ws : WatchList} {i : Nat}

/-! ## Sorting -/

/-- A fault of the sort names an idx watch of the list. -/
theorem exists_idx_of_sort_error {f : Fault} (h : ws.sortBinaryFirst = .error f) :
    ∃ w ∈ ws, w.kind = .idx ∧ f = .unordered w := by
  obtain ⟨x, hx, y, hy, hcmp⟩ := exists_cmp_of_sortBy_error h
  rcases Watch.binaryFirstOrder_cases x y with ⟨w, hw, hidx, herr⟩ | ⟨_, _, hok⟩
  · refine ⟨w, ?_, hidx, Except.error.inj (hcmp.symm.trans herr)⟩
    rcases hw with rfl | rfl
    · exact hx
    · exact hy
  · cases hcmp.symm.trans hok

/-- A list of less than two watches is sorted as it is. -/
theorem sortBinaryFirst_of_length_lt (h : ws.length < 2) : ws.sortBinaryFirst = .ok ws := by
  match ws with
  | [] | [w] => rfl
  | _ :: _ :: _ => exact absurd h (by simp)

/-- A sort of two watches or more leaves no idx watch uncompared. -/
theorem ne_idx_of_sort {ys : WatchList} (h : ws.sortBinaryFirst = .ok ys)
    (hlen : 2 ≤ ws.length) : ∀ w ∈ ws, w.kind ≠ .idx := by
  intro w hw
  obtain ⟨v, _, ⟨o, ho⟩ | ⟨o, ho⟩⟩ := exists_compared_of_sortBy h hlen hw
  · exact (Watch.ne_idx_of_binaryFirstOrder ho).1
  · exact (Watch.ne_idx_of_binaryFirstOrder ho).2

/-- **The sort is refused** exactly for two watches or more with an idx watch. -/
theorem exists_sort_error_iff :
    (∃ f, ws.sortBinaryFirst = .error f) ↔ 2 ≤ ws.length ∧ ∃ w ∈ ws, w.kind = .idx := by
  constructor
  · rintro ⟨f, hf⟩
    obtain ⟨w, hw, hidx, _⟩ := exists_idx_of_sort_error hf
    refine ⟨le_of_not_gt fun hlt => ?_, w, hw, hidx⟩
    cases hf.symm.trans (sortBinaryFirst_of_length_lt hlt)
  · rintro ⟨hlen, w, hw, hidx⟩
    cases hsort : ws.sortBinaryFirst with
    | error f => exact ⟨f, rfl⟩
    | ok ys => exact absurd hidx (ne_idx_of_sort hsort hlen w hw)

/-! ## Neighbours -/

/-- There are watches at the positions `i` and `i + 1`, and they satisfy `p`. -/
def PairAt (ws : WatchList) (i : Nat) (p : Watch → Watch → Prop) : Prop :=
  ∃ a b, ws[i]? = some a ∧ ws[i + 1]? = some b ∧ p a b

/-- One of the neighbours at a position is an idx watch. -/
def HasIdxAt (ws : WatchList) (i : Nat) : Prop :=
  ws.PairAt i fun a b => a.kind = .idx ∨ b.kind = .idx

/-- The neighbours at a position are in order. -/
def OrderedAt (ws : WatchList) (i : Nat) : Prop :=
  ws.PairAt i fun a b => b.before a = .ok false

/-- The neighbours at a position are out of order. -/
def InvertedAt (ws : WatchList) (i : Nat) : Prop :=
  ws.PairAt i fun a b => b.before a = .ok true

section Pairs

variable {p q : Watch → Watch → Prop} {a b : Watch}

theorem pairAt_zero : PairAt (a :: b :: ws) 0 p ↔ p a b := by
  simp [PairAt]

theorem pairAt_succ : PairAt (a :: ws) (i + 1) p ↔ ws.PairAt i p := Iff.rfl

theorem PairAt.lt_length (h : ws.PairAt i p) : i + 1 < ws.length := by
  obtain ⟨_, _, _, hb, _⟩ := h
  exact (List.getElem?_eq_some_iff.mp hb).1

/-- There is one pair of neighbours at a position. -/
theorem PairAt.exists_and (h : ws.PairAt i p) (h' : ws.PairAt i q) : ∃ a b, p a b ∧ q a b := by
  obtain ⟨a, b, ha, hb, hp⟩ := h
  obtain ⟨a', b', ha', hb', hq⟩ := h'
  cases ha.symm.trans ha'
  cases hb.symm.trans hb'
  exact ⟨a, b, hp, hq⟩

end Pairs

/-- Neighbours of which it is known whether they are in order are no idx watches. -/
theorem not_hasIdxAt_of_before {answer : Bool}
    (h : ws.PairAt i fun a b => b.before a = .ok answer) : ¬ ws.HasIdxAt i := by
  intro hidx
  obtain ⟨a, b, hbefore, hkind⟩ := h.exists_and hidx
  rcases Watch.before_cases b a with ⟨w, _, _, herr⟩ | ⟨hb, ha, _⟩
  · cases hbefore.symm.trans herr
  · exact hkind.elim ha hb

theorem OrderedAt.not_hasIdxAt (h : ws.OrderedAt i) : ¬ ws.HasIdxAt i :=
  not_hasIdxAt_of_before h

theorem InvertedAt.not_hasIdxAt (h : ws.InvertedAt i) : ¬ ws.HasIdxAt i :=
  not_hasIdxAt_of_before h

theorem OrderedAt.not_invertedAt (h : ws.OrderedAt i) : ¬ ws.InvertedAt i := by
  intro hinv
  obtain ⟨a, b, hfalse, htrue⟩ := PairAt.exists_and h hinv
  cases hfalse.symm.trans htrue

/-! ## The check -/

/-- Behind two watches in order the neighbours stand one position further on. -/
theorem orderedAt_cons {a b : Watch} {n : Nat} (h : b.before a = .ok false)
    (hall : ∀ j < n, OrderedAt (b :: ws) j) : ∀ j < n + 1, OrderedAt (a :: b :: ws) j := by
  intro j hj
  cases j with
  | zero => exact pairAt_zero.mpr h
  | succ j => exact pairAt_succ.mpr (hall j (Nat.lt_of_succ_lt_succ hj))

/-- **The check ends** in one of three ways: all neighbours are in order; or the first
that are not are out of order; or the first that are not include an idx watch, which the
fault names. -/
theorem isBinaryFirst_cases (ws : WatchList) :
    (ws.isBinaryFirst = .ok true ∧ ∀ i, i + 1 < ws.length → ws.OrderedAt i) ∨
    (∃ i, ws.InvertedAt i ∧ (∀ j < i, ws.OrderedAt j) ∧ ws.isBinaryFirst = .ok false) ∨
    ∃ i, ws.HasIdxAt i ∧ (∀ j < i, ws.OrderedAt j) ∧
      ∃ w ∈ ws, w.kind = .idx ∧ ws.isBinaryFirst = .error (.unordered w) := by
  induction ws with
  | nil => exact .inl ⟨rfl, fun i hi => absurd hi (by simp)⟩
  | cons a ws ih =>
    cases ws with
    | nil => exact .inl ⟨rfl, fun i hi => absurd hi (by simp)⟩
    | cons b ws =>
      rw [isBinaryFirst]
      rcases Watch.before_cases b a with ⟨w, hw, hidx, h⟩ | ⟨_, _, h⟩
      · -- the first two include an idx watch
        rw [h]
        refine .inr (.inr ⟨0, pairAt_zero.mpr ?_, nofun, w, ?_, hidx, rfl⟩)
        · rcases hw with rfl | rfl
          · exact .inr hidx
          · exact .inl hidx
        · rcases hw with rfl | rfl <;> simp
      cases hlt : decide (b.rank < a.rank) with
      | true =>
        rw [hlt] at h
        rw [h]
        exact .inr (.inl ⟨0, pairAt_zero.mpr h, nofun, rfl⟩)
      | false =>
        -- the first two are in order, so the rest decides
        rw [hlt] at h
        rw [h]
        rcases ih with ⟨hok, hall⟩ | ⟨i, hinv, hbefore, hok⟩ | ⟨i, hi, hbefore, w, hw, hidx, herr⟩
        · refine .inl ⟨hok, fun j hj => ?_⟩
          exact orderedAt_cons h (fun k hk => hall k (Nat.succ_lt_succ hk)) j
            (Nat.lt_of_succ_lt_succ hj)
        · exact .inr (.inl ⟨i + 1, pairAt_succ.mpr hinv, orderedAt_cons h hbefore, hok⟩)
        · exact .inr (.inr ⟨i + 1, pairAt_succ.mpr hi, orderedAt_cons h hbefore, w,
            List.mem_cons_of_mem a hw, hidx, herr⟩)

/-- The check is refused at an idx watch if all is in order before it. -/
theorem exists_check_error_iff :
    (∃ f, ws.isBinaryFirst = .error f) ↔
      ∃ i, ws.HasIdxAt i ∧ ∀ j < i, ¬ ws.HasIdxAt j ∧ ws.OrderedAt j := by
  constructor
  · rintro ⟨f, hf⟩
    rcases isBinaryFirst_cases ws with ⟨hok, _⟩ | ⟨_, _, _, hok⟩ | ⟨i, hi, hbefore, _⟩
    · cases hf.symm.trans hok
    · cases hf.symm.trans hok
    · exact ⟨i, hi, fun j hj => ⟨(hbefore j hj).not_hasIdxAt, hbefore j hj⟩⟩
  · rintro ⟨i, hi, hbefore⟩
    rcases isBinaryFirst_cases ws with ⟨_, hall⟩ | ⟨k, hk, hk', _⟩ | ⟨_, _, _, w, _, _, herr⟩
    · exact absurd hi (hall i hi.lt_length).not_hasIdxAt
    · -- neither of the two positions can be first
      rcases lt_trichotomy k i with hlt | rfl | hlt
      · exact absurd hk (hbefore k hlt).2.not_invertedAt
      · exact absurd hi hk.not_hasIdxAt
      · exact absurd hi (hk' i hlt).not_hasIdxAt
    · exact ⟨_, herr⟩

/-- The check says no if something is out of order before there is an idx watch. -/
theorem check_eq_false_iff :
    ws.isBinaryFirst = .ok false ↔ ∃ i, ws.InvertedAt i ∧ ∀ j ≤ i, ¬ ws.HasIdxAt j := by
  constructor
  · intro hfalse
    rcases isBinaryFirst_cases ws with ⟨hok, _⟩ | ⟨i, hi, hbefore, _⟩ | ⟨_, _, _, w, _, _, herr⟩
    · cases hfalse.symm.trans hok
    · refine ⟨i, hi, fun j hj => ?_⟩
      rcases lt_or_eq_of_le hj with hlt | rfl
      · exact (hbefore j hlt).not_hasIdxAt
      · exact hi.not_hasIdxAt
    · cases hfalse.symm.trans herr
  · rintro ⟨i, hi, hnone⟩
    rcases isBinaryFirst_cases ws with ⟨_, hall⟩ | ⟨_, _, _, hok⟩ | ⟨k, hk, hk', _⟩
    · exact absurd hi (hall i hi.lt_length).not_invertedAt
    · exact hok
    · rcases le_or_gt k i with hle | hlt
      · exact absurd hk (hnone k hle)
      · exact absurd hi (hk' i hlt).not_invertedAt

/-- The check says yes if all neighbours are in order. -/
theorem check_eq_true_iff :
    ws.isBinaryFirst = .ok true ↔
      ∀ i, i + 1 < ws.length → ¬ ws.HasIdxAt i ∧ ws.OrderedAt i := by
  constructor
  · intro htrue i hi
    rcases isBinaryFirst_cases ws with ⟨_, hall⟩ | ⟨_, _, _, hok⟩ | ⟨_, _, _, w, _, _, herr⟩
    · exact ⟨(hall i hi).not_hasIdxAt, hall i hi⟩
    · cases htrue.symm.trans hok
    · cases htrue.symm.trans herr
  · intro hall
    rcases isBinaryFirst_cases ws with ⟨hok, _⟩ | ⟨k, hk, _⟩ | ⟨k, hk, _⟩
    · exact hok
    · exact absurd hk (hall k hk.lt_length).2.not_invertedAt
    · exact absurd hk (hall k hk.lt_length).1

theorem exists_idx_of_check_error {f : Fault} (h : ws.isBinaryFirst = .error f) :
    ∃ w ∈ ws, w.kind = .idx ∧ f = .unordered w := by
  rcases isBinaryFirst_cases ws with ⟨hok, _⟩ | ⟨_, _, _, hok⟩ | ⟨_, _, _, w, hw, hidx, herr⟩
  · cases h.symm.trans hok
  · cases h.symm.trans hok
  · exact ⟨w, hw, hidx, Except.error.inj (h.symm.trans herr)⟩

/-- **Where the order is refused.** The sort is refused exactly for two watches or more
with an idx watch among them. The check is refused exactly if some neighbours include an
idx watch and all before the first of these are in order; it says no exactly if some
neighbours before those are out of order, and yes exactly if no neighbours include an
idx watch and all are in order. A fault names an idx watch of the list. A single watch,
whatever it is, is accepted by both. -/
theorem order_refused_iff (ws : WatchList) :
    ((∃ f, ws.sortBinaryFirst = .error f) ↔ 2 ≤ ws.length ∧ ∃ w ∈ ws, w.kind = .idx) ∧
    ((∃ f, ws.isBinaryFirst = .error f) ↔
      ∃ i, ws.HasIdxAt i ∧ ∀ j < i, ¬ ws.HasIdxAt j ∧ ws.OrderedAt j) ∧
    (ws.isBinaryFirst = .ok false ↔ ∃ i, ws.InvertedAt i ∧ ∀ j ≤ i, ¬ ws.HasIdxAt j) ∧
    (ws.isBinaryFirst = .ok true ↔
      ∀ i, i + 1 < ws.length → ¬ ws.HasIdxAt i ∧ ws.OrderedAt i) ∧
    (∀ f, ws.sortBinaryFirst = .error f ∨ ws.isBinaryFirst = .error f →
      ∃ w ∈ ws, w.kind = .idx ∧ f = .unordered w) ∧
    ∀ w : Watch, sortBinaryFirst [w] = .ok [w] ∧ isBinaryFirst [w] = .ok true := by
  refine ⟨exists_sort_error_iff, exists_check_error_iff, check_eq_false_iff, check_eq_true_iff,
    ?_, fun w => ⟨sortBy_singleton w, rfl⟩⟩
  rintro f (hsort | hcheck)
  · exact exists_idx_of_sort_error hsort
  · exact exists_idx_of_check_error hcheck

/-- What is out of order is found before an idx watch, and not behind it. -/
example : isBinaryFirst [.ofBinary ⟨9, by decide⟩ false ⟨1⟩, .ofBinary ⟨5, by decide⟩ false ⟨1⟩,
      .ofIdx 3] = .ok false ∧
    isBinaryFirst [.placeholder, .ofIdx 3, .ofBinary ⟨9, by decide⟩ false ⟨1⟩,
      .ofBinary ⟨5, by decide⟩ false ⟨1⟩] = .error (.unordered (.ofIdx 3)) := by
  decide

end WatchList

end WatchLists
