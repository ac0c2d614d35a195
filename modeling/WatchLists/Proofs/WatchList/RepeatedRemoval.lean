import WatchLists.Proofs.WatchList.Operations

/-!
# Removing the first match, again and again

The element that takes the place of a removed one comes from the end. It can be a match
itself, and the next to be removed; so after a few removals no position says where an
element stood. What can be said is said of one removal by position, and of many by what is
left: every removal takes one match away, and the elements that are no match stay.

- `FirstAt`, `findIdx?_eq_some_iff_firstAt`: the position of the first match.
- `removeOnce`: one removal, of a list that is held.
- `getElem?_removeAt`, `removeOnce_eq_true_iff`, `removeOnce_eq_false_iff`: what stands
  where after it, and when it finds nothing.
- `removeEvery`: removals until one finds nothing.
- `removeEvery_exact`: how many there are, and what they leave.
-/

namespace WatchLists

variable {α : Type}

/-! ## The first match -/

/-- The position of the first element with a property. -/
structure FirstAt (P : α → Prop) (xs : List α) (i : Nat) : Prop where
  /-- It is a position of the list. -/
  lt : i < xs.length
  /-- The element there has the property. -/
  holds : P xs[i]
  /-- No element before it has. -/
  before : ∀ j (hj : j < i), ¬ P xs[j]

variable {p : α → Bool} {P : α → Prop} {xs ys : List α} {i : Nat}

theorem findIdx?_eq_some_iff_firstAt (hp : ∀ x, p x = true ↔ P x) :
    xs.findIdx? p = some i ↔ FirstAt P xs i := by
  rw [List.findIdx?_eq_some_iff_getElem]
  constructor
  · rintro ⟨hi, hx, hbefore⟩
    exact ⟨hi, (hp _).mp hx, fun j hj h => hbefore j hj ((hp _).mpr h)⟩
  · intro h
    exact ⟨h.lt, (hp _).mpr h.holds, fun j hj hx => h.before j hj ((hp _).mp hx)⟩

theorem findIdx?_eq_none_iff_forall (hp : ∀ x, p x = true ↔ P x) :
    xs.findIdx? p = none ↔ ∀ x ∈ xs, ¬ P x := by
  rw [List.findIdx?_eq_none_iff]
  refine forall₂_congr fun x _ => ?_
  rw [← hp, Bool.not_eq_true]

/-! ## One removal -/

/-- What stands where after the removal: the last element at the free position, and every
other element but the last where it stood. -/
theorem getElem?_removeAt (h : i < xs.length) (j : Nat) :
    (removeAt xs i)[j]?
      = if j + 1 < xs.length then if j = i then xs.getLast? else xs[j]? else none := by
  rcases List.eq_nil_or_concat xs with rfl | ⟨ys, x, rfl⟩
  · cases h
  rw [List.concat_eq_append] at h ⊢
  rw [List.length_append, List.length_singleton] at h ⊢
  rw [List.getLast?_concat]
  by_cases hj : j < ys.length
  · rw [if_pos (by omega), List.getElem?_append_left hj]
    by_cases hi : i < ys.length
    · rw [removeAt_append_singleton hi, List.getElem?_set]
      by_cases hji : j = i
      · rw [if_pos hji.symm, if_pos hji, if_pos hi]
      · rw [if_neg (Ne.symm hji), if_neg hji]
    · -- the last element goes, and nothing takes its place
      obtain rfl : i = ys.length := by omega
      rw [removeAt_append_singleton_last, if_neg (by omega)]
  · rw [if_neg (by omega), List.getElem?_eq_none]
    rw [length_removeAt, List.length_append, List.length_singleton]
    omega

/-- Removes the first match from the list that is held, and tells whether there is one. -/
def removeOnce (p : α → Bool) (xs : List α) : Bool × List α :=
  match removeFirst? p xs with
  | some ys => (true, ys)
  | none => (false, xs)

/-- A removal that finds a match takes it from its position, to which the last element
moves, and does nothing else. -/
theorem removeOnce_eq_true_iff :
    removeOnce p xs = (true, ys) ↔
      ∃ i, FirstAt (p · = true) xs i ∧ ys.length + 1 = xs.length ∧
        ∀ j, j < ys.length → ys[j]? = if j = i then xs.getLast? else xs[j]? := by
  have hremoved : removeOnce p xs = (true, ys) ↔
      ∃ i, xs.findIdx? p = some i ∧ removeAt xs i = ys := by
    unfold removeOnce removeFirst?
    cases xs.findIdx? p <;> simp
  rw [hremoved]
  refine exists_congr fun i => ?_
  rw [findIdx?_eq_some_iff_firstAt fun _ => Iff.rfl]
  refine and_congr_right fun hi => ?_
  have hlt := hi.lt
  constructor
  · rintro rfl
    rw [length_removeAt]
    refine ⟨by omega, fun j hj => ?_⟩
    rw [getElem?_removeAt hlt, if_pos (by omega)]
  · rintro ⟨hlen, hget⟩
    refine List.ext_getElem? fun j => ?_
    rw [getElem?_removeAt hlt]
    by_cases hj : j < ys.length
    · rw [if_pos (by omega), hget j hj]
    · rw [if_neg (by omega), List.getElem?_eq_none (by omega)]

/-- A removal that finds no match leaves the list, and there is none. -/
theorem removeOnce_eq_false_iff :
    removeOnce p xs = (false, ys) ↔ (∀ x ∈ xs, ¬ p x = true) ∧ ys = xs := by
  unfold removeOnce removeFirst?
  rw [← findIdx?_eq_none_iff_forall fun _ => Iff.rfl]
  cases xs.findIdx? p <;> simp [eq_comm]

/-- What a removal takes away is one match. -/
theorem exists_perm_of_removeOnce (h : removeOnce p xs = (true, ys)) :
    ∃ x, p x = true ∧ (x :: ys).Perm xs := by
  unfold removeOnce at h
  rcases removeFirst?_eq p xs with ⟨_, hnone⟩ | ⟨x, zs, hfind, hsome, hperm⟩
  · rw [hnone] at h
    cases h
  · rw [hsome] at h
    cases h
    exact ⟨x, List.find?_some hfind, hperm⟩

theorem length_lt_of_removeOnce (h : removeOnce p xs = (true, ys)) :
    ys.length < xs.length := by
  obtain ⟨x, _, hperm⟩ := exists_perm_of_removeOnce h
  rw [← hperm.length_eq]
  exact Nat.lt_succ_self _

/-! ## Many removals -/

/-- Removes until no match is found: how many removals found one, and the list then. -/
def removeEvery (p : α → Bool) (xs : List α) : Nat × List α :=
  match h : removeOnce p xs with
  | (true, ys) => ((removeEvery p ys).1 + 1, (removeEvery p ys).2)
  | (false, ys) => (0, ys)
termination_by xs.length
decreasing_by
  all_goals exact length_lt_of_removeOnce h

/-- There are as many removals as matches, and a rearrangement of the rest is left. -/
theorem removeEvery_perm (p : α → Bool) (xs : List α) :
    (removeEvery p xs).1 = xs.countP p ∧
      (removeEvery p xs).2.Perm (xs.filter fun x => !p x) := by
  -- the list gets shorter until there is no match in it
  induction xs using removeEvery.induct p with
  | case1 xs ys h ih =>
    obtain ⟨hcount, hrest⟩ := ih
    obtain ⟨x, hx, hperm⟩ := exists_perm_of_removeOnce h
    have hstep : removeEvery p xs = ((removeEvery p ys).1 + 1, (removeEvery p ys).2) := by
      rw [removeEvery, h]
    rw [hstep]
    constructor
    · rw [← hperm.countP_eq, List.countP_cons_of_pos hx, hcount]
    · have hfilter := hperm.filter fun x => !p x
      rw [List.filter_cons_of_neg (by rw [hx]; decide)] at hfilter
      exact hrest.trans hfilter
  | case2 xs ys h =>
    obtain ⟨hnone, rfl⟩ := removeOnce_eq_false_iff.mp h
    have hstop : removeEvery p ys = (0, ys) := by
      rw [removeEvery, h]
    rw [hstop]
    constructor
    · exact (List.countP_eq_zero.mpr hnone).symm
    · rw [List.filter_eq_self.mpr fun x hx => by rw [Bool.eq_false_iff.mpr (hnone x hx)]; rfl]

/-- **Removing again and again.** Removals are done until one finds no match. As many find
one as there are matches in the list, and what is left is a rearrangement of the elements
that are no match.

A removal finds a match exactly if its result is the list without the first match: the last
element stands at the position of that match, unless it is the match itself, and every other
element stands where it stood. It finds none exactly if there is none, and the list stays. -/
theorem removeEvery_exact (p : α → Bool) (xs : List α) :
    (removeEvery p xs).1 = xs.countP p ∧
      (removeEvery p xs).2.Perm (xs.filter fun x => !p x) ∧
      ∀ ys : List α,
        (removeOnce p xs = (true, ys) ↔
          ∃ i, FirstAt (p · = true) xs i ∧ ys.length + 1 = xs.length ∧
            ∀ j, j < ys.length → ys[j]? = if j = i then xs.getLast? else xs[j]?) ∧
        (removeOnce p xs = (false, ys) ↔ (∀ x ∈ xs, ¬ p x = true) ∧ ys = xs) := by
  obtain ⟨hcount, hrest⟩ := removeEvery_perm p xs
  exact ⟨hcount, hrest, fun ys => ⟨removeOnce_eq_true_iff, removeOnce_eq_false_iff⟩⟩

/-- A match that comes from the end takes the place of a match. -/
example : removeOnce (· = 2) [2, 1, 2] = (true, [2, 1]) := by decide

end WatchLists
