import Mathlib.Order.WithBot
import WatchLists.Order.Sort
import WatchLists.Proofs.Except

/-!
# Stable sorting

A comparison that never fails on a list compares the elements by a rank. Sorting
by it yields the one list that is ascending by rank and in which the elements of
each rank stand as they stood before.

- `StablySorted`: that a list is another one, sorted in this sense.
- `StablySorted.unique`: there is one such list only.
- `sortBy_stablySorted`: the sort finds it.
- `StablySorted.filter`, `eq_append_filter_of_ascending`: how the result splits.
- `StablySorted.map_rank_eq`, `StablySorted.eq_of_perm`: what is left of the order in
  which the elements stood.
-/

namespace WatchLists

variable {α κ ε : Type} [LinearOrder κ]

/-- `ys` is ascending by rank, and for each rank its elements of that rank are
those of `xs` in their order. -/
structure StablySorted (rank : α → κ) (xs ys : List α) : Prop where
  ascending : ys.Pairwise fun a b => rank a ≤ rank b
  stable : ∀ k, ys.filter (fun a => decide (rank a = k)) = xs.filter fun a => decide (rank a = k)

namespace StablySorted

variable {rank : α → κ} {xs ys zs : List α}

theorem mem_iff (h : StablySorted rank xs ys) {a : α} : a ∈ ys ↔ a ∈ xs := by
  have hmem : a ∈ ys.filter (fun b => decide (rank b = rank a))
      ↔ a ∈ xs.filter fun b => decide (rank b = rank a) := by
    rw [h.stable]
  simpa using hmem

/-- A list that is ascending is sorted already. -/
theorem refl (h : xs.Pairwise fun a b => rank a ≤ rank b) : StablySorted rank xs xs :=
  ⟨h, fun _ => rfl⟩

/-- The head of the one list has no larger rank than the head of the other. -/
theorem rank_head_le {y z : α} (h : StablySorted rank xs (y :: ys)) (hz : z ∈ xs) :
    rank y ≤ rank z := by
  rcases List.mem_cons.mp (h.mem_iff.mpr hz) with rfl | hmem
  · exact le_refl _
  · exact List.rel_of_pairwise_cons h.ascending hmem

/-- Two lists that start with the same element agree on the rest. -/
theorem tail {y : α} (h : StablySorted rank xs (y :: ys)) (h' : StablySorted rank xs (y :: zs)) :
    StablySorted rank zs ys := by
  refine ⟨h.ascending.tail, fun k => ?_⟩
  have hk := (h.stable k).trans (h'.stable k).symm
  rw [List.filter_cons, List.filter_cons] at hk
  by_cases hy : rank y = k
  · rw [if_pos (decide_eq_true hy), if_pos (decide_eq_true hy)] at hk
    exact List.tail_eq_of_cons_eq hk
  · rwa [if_neg (by simpa using hy), if_neg (by simpa using hy)] at hk

/-- A list has one sorted form only. -/
theorem unique (h : StablySorted rank xs ys) (h' : StablySorted rank xs zs) : ys = zs := by
  induction ys generalizing xs zs with
  | nil =>
    rw [eq_comm, List.eq_nil_iff_forall_not_mem]
    intro a ha
    exact absurd (h.mem_iff.mpr (h'.mem_iff.mp ha)) List.not_mem_nil
  | cons y ys ih =>
    have hy : y ∈ xs := h.mem_iff.mp List.mem_cons_self
    cases zs with
    | nil => exact absurd (h'.mem_iff.mpr hy) List.not_mem_nil
    | cons z zs =>
      have hz : z ∈ xs := h'.mem_iff.mp List.mem_cons_self
      have hrank : rank z = rank y := le_antisymm (h'.rank_head_le hy) (h.rank_head_le hz)
      -- the heads are both the first element of the least rank
      have hclass := (h.stable (rank y)).trans (h'.stable (rank y)).symm
      rw [List.filter_cons, List.filter_cons, if_pos (decide_eq_true rfl),
        if_pos (decide_eq_true hrank)] at hclass
      obtain rfl : y = z := List.head_eq_of_cons_eq hclass
      rw [ih (h.tail h') (refl h'.ascending.tail)]

theorem filter (h : StablySorted rank xs ys) (p : α → Bool) :
    StablySorted rank (xs.filter p) (ys.filter p) := by
  refine ⟨h.ascending.filter p, fun k => ?_⟩
  have hcomm : ∀ zs : List α, (zs.filter p).filter (fun a => decide (rank a = k))
      = (zs.filter fun a => decide (rank a = k)).filter p := by
    intro zs
    rw [List.filter_filter, List.filter_filter]
    exact List.filter_congr fun a _ => Bool.and_comm _ _
  rw [hcomm, hcomm, h.stable k]

/-- A greatest rank beyond all keys does not matter to a list without it. -/
theorem of_coe {rank : α → WithTop κ} {key : α → κ} (h : StablySorted rank xs ys)
    (hkey : ∀ a ∈ xs, rank a = key a) : StablySorted key xs ys := by
  have hkey' : ∀ a ∈ ys, rank a = key a := fun a ha => hkey a (h.mem_iff.mp ha)
  constructor
  · refine h.ascending.imp_of_mem fun {a b} ha hb hle => ?_
    rwa [hkey' a ha, hkey' b hb, WithTop.coe_le_coe] at hle
  · intro k
    have hclass : ∀ zs : List α, (∀ a ∈ zs, rank a = key a) →
        zs.filter (fun a => decide (key a = k)) = zs.filter fun a => decide (rank a = k) := by
      intro zs hzs
      refine List.filter_congr fun a ha => ?_
      rw [hzs a ha, decide_eq_decide, WithTop.coe_inj]
    rw [hclass ys hkey', hclass xs hkey, h.stable]

/-- Of each rank, and so of each element, there is as much as before. -/
theorem perm (h : StablySorted rank xs ys) : ys.Perm xs := by
  classical
  refine List.perm_iff_count.mpr fun a => ?_
  have hcount : ∀ zs : List α,
      zs.count a = (zs.filter fun b => decide (rank b = rank a)).count a :=
    fun zs => (List.count_filter (by simp)).symm
  rw [hcount ys, hcount xs, h.stable]

section Rearranged

variable {xs' ys' : List α} (h : StablySorted rank xs ys) (h' : StablySorted rank xs' ys')
  (hperm : xs.Perm xs')

include h h' hperm

theorem perm_of_perm : ys.Perm ys' := (h.perm.trans hperm).trans h'.perm.symm

/-- The ranks of a sorted list do not depend on how the list was arranged. -/
theorem map_rank_eq : ys.map rank = ys'.map rank :=
  ((h.perm_of_perm h' hperm).map rank).eq_of_pairwise (fun _ _ _ _ => le_antisymm)
    (List.pairwise_map.mpr h.ascending) (List.pairwise_map.mpr h'.ascending)

/-- Nor do the elements, if no two of them have the same rank. -/
theorem eq_of_perm (hrank : ∀ a ∈ xs, ∀ b ∈ xs, rank a = rank b → a = b) : ys = ys' :=
  (h.perm_of_perm h' hperm).eq_of_pairwise
    (fun a b ha hb hab hba => hrank a (h.mem_iff.mp ha) b
      (hperm.mem_iff.mpr (h'.mem_iff.mp hb)) (le_antisymm hab hba))
    h.ascending h'.ascending

end Rearranged

end StablySorted

variable {rank : α → κ}

/-- An ascending list has all of what ranks lower before all of what ranks higher. -/
theorem eq_append_filter_of_ascending {xs : List α}
    (hxs : xs.Pairwise fun a b => rank a ≤ rank b) {p : α → Bool}
    (hp : ∀ a b, p a = false → p b = true → rank b < rank a) :
    xs = xs.filter p ++ xs.filter fun a => !p a := by
  induction xs with
  | nil => rfl
  | cons x xs ih =>
    cases hx : p x with
    | true => simpa [hx] using ih hxs.tail
    | false =>
      -- everything after `x` has a rank that is no smaller
      have hall : ∀ a ∈ xs, p a = false := by
        intro a ha
        have hle := List.rel_of_pairwise_cons hxs ha
        cases hpa : p a with
        | true => exact absurd hle (not_le_of_gt (hp x a hx hpa))
        | false => rfl
      have hnone : xs.filter p = [] := by simpa using hall
      have hself : (xs.filter fun a => !p a) = xs := by simpa using hall
      simp [hx, hnone, hself]

/-! ## The sort -/

variable {cmp : α → α → Except ε Ordering}

/-- Insertion puts an element before those of its rank and above, and behind those
of smaller rank. -/
theorem insertBy_stablySorted {x : α} {ys : List α} (hys : ys.Pairwise fun a b => rank a ≤ rank b)
    (hcmp : ∀ y ∈ ys, cmp x y = .ok (compare (rank x) (rank y))) :
    ∃ zs, insertBy cmp x ys = .ok zs ∧ StablySorted rank (x :: ys) zs := by
  induction ys with
  | nil => exact ⟨[x], rfl, .refl (List.pairwise_singleton _ _)⟩
  | cons y ys ih =>
    have hxy := hcmp y List.mem_cons_self
    rcases lt_or_ge (rank y) (rank x) with hlt | hle
    · -- `x` goes somewhere behind `y`
      obtain ⟨zs, hzs, hsorted⟩ := ih hys.tail fun a ha => hcmp a (List.mem_cons_of_mem y ha)
      rw [compare_gt_iff_gt.mpr hlt] at hxy
      refine ⟨y :: zs, ?_, ?_, fun k => ?_⟩
      · rw [insertBy, hxy]
        show Except.bind (insertBy cmp x ys) _ = _
        rw [hzs]
        rfl
      · refine List.pairwise_cons.mpr ⟨fun a ha => ?_, hsorted.ascending⟩
        rcases List.mem_cons.mp (hsorted.mem_iff.mp ha) with rfl | ha
        · exact le_of_lt hlt
        · exact List.rel_of_pairwise_cons hys ha
      · -- the two have different ranks, so no class notices that they changed places
        rw [List.filter_cons, hsorted.stable k, List.filter_cons, List.filter_cons,
          List.filter_cons]
        by_cases hy : rank y = k
        · have hx : ¬ rank x = k := fun hx => absurd (hy.trans hx.symm) (ne_of_lt hlt)
          simp [hx, hy]
        · simp [hy]
    · have hins : insertBy cmp x (y :: ys) = .ok (x :: y :: ys) := by
        rw [insertBy, hxy]
        rcases lt_or_eq_of_le hle with hlt | heq
        · rw [compare_lt_iff_lt.mpr hlt]
          rfl
        · rw [compare_eq_iff_eq.mpr heq]
          rfl
      refine ⟨x :: y :: ys, hins, .refl (List.pairwise_cons.mpr ⟨fun a ha => ?_, hys⟩)⟩
      rcases List.mem_cons.mp ha with rfl | ha
      · exact hle
      · exact le_trans hle (List.rel_of_pairwise_cons hys ha)

/-- **Sorting.** Where the comparison is that of ranks, sorting succeeds and finds
the sorted form. An element is compared with those that follow it, never with
itself. -/
theorem sortBy_stablySorted_of_pairwise {xs : List α}
    (hcmp : xs.Pairwise fun x y => cmp x y = .ok (compare (rank x) (rank y))) :
    ∃ ys, sortBy cmp xs = .ok ys ∧ StablySorted rank xs ys := by
  induction xs with
  | nil => exact ⟨[], rfl, .refl .nil⟩
  | cons x xs ih =>
    obtain ⟨hx, hxs⟩ := List.pairwise_cons.mp hcmp
    obtain ⟨ys, hys, hsorted⟩ := ih hxs
    obtain ⟨zs, hzs, hinsert⟩ := insertBy_stablySorted (x := x) hsorted.ascending fun y hy =>
      hx y (hsorted.mem_iff.mp hy)
    refine ⟨zs, ?_, hinsert.ascending, fun k => ?_⟩
    · rw [sortBy, hys]
      exact hzs
    · rw [hinsert.stable k, List.filter_cons, List.filter_cons, hsorted.stable k]

theorem sortBy_stablySorted {xs : List α}
    (hcmp : ∀ x ∈ xs, ∀ y ∈ xs, cmp x y = .ok (compare (rank x) (rank y))) :
    ∃ ys, sortBy cmp xs = .ok ys ∧ StablySorted rank xs ys :=
  sortBy_stablySorted_of_pairwise (List.pairwise_of_forall_mem_list hcmp)

end WatchLists
