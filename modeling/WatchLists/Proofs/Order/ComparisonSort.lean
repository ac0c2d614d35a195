import Mathlib.Data.List.FinRange
import Mathlib.Order.Defs.LinearOrder
import WatchLists.Proofs.Order.StableSort

/-!
# Sorts that only compare

A sort that knows its elements by comparing them finds the same as any other, and is
refused where any other is. If two elements could stand either way round for all that
comparisons say without being refused, no sort can tell which way is right: one that ends
has put them in an order that is wrong for another list with the same answers.

- `ComparisonSort`, `run`: such a sort, by the positions of the elements.
- `Sorts`, `ComparesDistinct`: that it is a sort, and compares no element with itself.
- `run_of_answers`: what it finds depends on the answers that it gets, and on nothing else.
- `exists_sorted_of_ranks`, `exists_error_of_undecided`: where it succeeds, and where not.
- `byInsertion`, `sorted_byInsertion`: the sort of the library is one of these.
-/

namespace WatchLists

/-- A way to sort `n` elements that are known by their positions: two of them are compared,
and the outcome says how to go on; or all positions are in order. -/
inductive ComparisonSort (n : Nat)
  /-- The positions in the order that was found. -/
  | done (order : List (Fin n))
  /-- Two positions are compared. -/
  | compare (i j : Fin n) (next : Ordering → ComparisonSort n)

namespace ComparisonSort

variable {n : Nat} {ε ε' : Type}

/-- The order that is found, unless a comparison is refused. -/
def run (cmp : Fin n → Fin n → Except ε Ordering) : ComparisonSort n → Except ε (List (Fin n))
  | done order => .ok order
  | compare i j next =>
    match cmp i j with
    | .ok o => (next o).run cmp
    | .error e => .error e

/-- The comparison of ranks, which is never refused. -/
def ofRank {κ : Type} [LinearOrder κ] (rank : Fin n → κ) (i j : Fin n) : Except ε Ordering :=
  .ok (Ord.compare (rank i) (rank j))

/-- It is a sort: whatever ranks are compared, it ends with all positions ascending by
rank. -/
def Sorts (s : ComparisonSort n) : Prop :=
  ∀ (κ : Type) [LinearOrder κ] (rank : Fin n → κ),
    ∃ order, s.run (ofRank (ε := Empty) rank) = .ok order ∧ order.Perm (List.finRange n) ∧
      order.Pairwise fun i j => rank i ≤ rank j

/-- No element is compared with itself. -/
def ComparesDistinct : ComparisonSort n → Prop
  | done _ => True
  | compare i j next => i ≠ j ∧ ∀ o, (next o).ComparesDistinct

variable {s : ComparisonSort n} {cmp : Fin n → Fin n → Except ε Ordering}

/-- A run that is not refused is the same with any comparison that gives the same
answers. -/
theorem run_of_answers {cmp' : Fin n → Fin n → Except ε' Ordering} {order : List (Fin n)}
    (hs : s.ComparesDistinct) (h : ∀ i j o, i ≠ j → cmp i j = .ok o → cmp' i j = .ok o)
    (hrun : s.run cmp = .ok order) : s.run cmp' = .ok order := by
  induction s with
  | done order' =>
    cases hrun
    rfl
  | compare i j next ih =>
    obtain ⟨hij, hnext⟩ := hs
    cases hcmp : cmp i j with
    | error e =>
      rw [run, hcmp] at hrun
      cases hrun
    | ok o =>
      rw [run, hcmp] at hrun
      rw [run, h i j o hij hcmp]
      exact ih o (hnext o) hrun

/-- Where the comparison is that of ranks, a sort finds an ascending order. -/
theorem exists_run_of_ranks {κ : Type} [LinearOrder κ] {rank : Fin n → κ} (hsorts : s.Sorts)
    (hs : s.ComparesDistinct)
    (hcmp : ∀ i j, i ≠ j → cmp i j = .ok (Ord.compare (rank i) (rank j))) :
    ∃ order, s.run cmp = .ok order ∧ order.Perm (List.finRange n) ∧
      order.Pairwise fun i j => rank i ≤ rank j := by
  obtain ⟨order, hrun, hperm, hasc⟩ := hsorts κ rank
  refine ⟨order, run_of_answers hs (fun i j o hij ho => ?_) hrun, hperm, hasc⟩
  cases ho
  exact hcmp i j hij

/-- If the answers leave it open which of two elements ranks first, a sort meets a
comparison that is refused. -/
theorem exists_error_of_undecided {κ : Type} [LinearOrder κ] {rank rank' : Fin n → κ}
    (hsorts : s.Sorts) (hs : s.ComparesDistinct)
    (hrank : ∀ i j o, i ≠ j → cmp i j = .ok o → o = Ord.compare (rank i) (rank j))
    (hrank' : ∀ i j o, i ≠ j → cmp i j = .ok o → o = Ord.compare (rank' i) (rank' j))
    {i j : Fin n} (hlt : rank i < rank j) (hgt : rank' j < rank' i) :
    ∃ e, s.run cmp = .error e := by
  cases hrun : s.run cmp with
  | error e => exact ⟨e, rfl⟩
  | ok order =>
    -- the order that was found is ascending by both ranks
    have hascending {r : Fin n → κ}
        (hr : ∀ i j o, i ≠ j → cmp i j = .ok o → o = Ord.compare (r i) (r j)) :
        order.Perm (List.finRange n) ∧ order.Pairwise fun i j => r i ≤ r j := by
      obtain ⟨order', hrun', hperm, hasc⟩ := hsorts κ r
      have hanswers : ∀ i j o, i ≠ j → cmp i j = .ok o → ofRank (ε := Empty) r i j = .ok o :=
        fun i j o hij ho => congrArg Except.ok (hr i j o hij ho).symm
      obtain rfl : order' = order :=
        Except.ok.inj (hrun'.symm.trans (run_of_answers hs hanswers hrun))
      exact ⟨hperm, hasc⟩
    obtain ⟨hperm, hasc⟩ := hascending hrank
    obtain ⟨_, hasc'⟩ := hascending hrank'
    have hmem (k : Fin n) : k ∈ order := hperm.mem_iff.mpr (List.mem_finRange k)
    obtain ⟨a, ha, rfl⟩ := List.getElem_of_mem (hmem i)
    obtain ⟨b, hb, rfl⟩ := List.getElem_of_mem (hmem j)
    rcases lt_trichotomy a b with hab | rfl | hba
    · exact absurd hgt (not_lt_of_ge (List.pairwise_iff_getElem.mp hasc' a b ha hb hab))
    · exact absurd hlt (lt_irrefl _)
    · exact absurd hlt (not_lt_of_ge (List.pairwise_iff_getElem.mp hasc b a hb ha hba))

/-! ## Sorting a list -/

variable {α : Type} {xs : List α}

/-- The list that the sort makes of a list. -/
def sorted (s : ComparisonSort xs.length) (cmp : α → α → Except ε Ordering) :
    Except ε (List α) :=
  (s.run fun i j => cmp xs[i] xs[j]).map fun order => order.map xs.get

/-- Where different elements are compared by rank, the list is put in ascending order. -/
theorem exists_sorted_of_ranks {κ : Type} [LinearOrder κ] {rank : α → κ}
    {s : ComparisonSort xs.length} {cmp : α → α → Except ε Ordering} (hsorts : s.Sorts)
    (hs : s.ComparesDistinct)
    (hcmp : ∀ i j : Fin xs.length, i ≠ j →
      cmp xs[i] xs[j] = .ok (Ord.compare (rank xs[i]) (rank xs[j]))) :
    ∃ ys, s.sorted cmp = .ok ys ∧ ys.Perm xs ∧ ys.Pairwise fun a b => rank a ≤ rank b := by
  obtain ⟨order, hrun, hperm, hasc⟩ := exists_run_of_ranks hsorts hs hcmp
  refine ⟨order.map xs.get, ?_, ?_, List.pairwise_map.mpr hasc⟩
  · rw [sorted, hrun]
    rfl
  · have hmap := hperm.map xs.get
    rwa [List.map_get_finRange] at hmap

/-! ## Insertion -/

/-- Goes on with the positions `order` after `k` was inserted into them. -/
def inserting (k : Fin n) (order : List (Fin n)) (next : List (Fin n) → ComparisonSort n) :
    ComparisonSort n :=
  match order with
  | [] => next [k]
  | j :: js => .compare k j fun o =>
    match o with
    | .gt => inserting k js fun order => next (j :: order)
    | .lt | .eq => next (k :: j :: js)

/-- Goes on with positions after they were sorted. -/
def sorting (ks : List (Fin n)) (next : List (Fin n) → ComparisonSort n) : ComparisonSort n :=
  match ks with
  | [] => next []
  | k :: ks => sorting ks fun order => inserting k order next

/-- The sort by insertion. -/
def byInsertion (n : Nat) : ComparisonSort n := sorting (List.finRange n) .done

theorem run_inserting (cmp : Fin n → Fin n → Except ε Ordering) (k : Fin n)
    (order : List (Fin n)) (next : List (Fin n) → ComparisonSort n) :
    (inserting k order next).run cmp
      = (insertBy cmp k order).bind fun order => (next order).run cmp := by
  induction order generalizing next with
  | nil => rfl
  | cons j js ih =>
    rw [inserting, run, insertBy]
    cases hcmp : cmp k j with
    | error e => rfl
    | ok o =>
      cases o with
      | lt | eq => rfl
      | gt =>
        show (inserting k js _).run cmp = _
        rw [ih]
        cases insertBy cmp k js <;> rfl

theorem run_sorting (cmp : Fin n → Fin n → Except ε Ordering) (ks : List (Fin n))
    (next : List (Fin n) → ComparisonSort n) :
    (sorting ks next).run cmp = (sortBy cmp ks).bind fun order => (next order).run cmp := by
  induction ks generalizing next with
  | nil => rfl
  | cons k ks ih =>
    rw [sorting, ih, sortBy]
    cases sortBy cmp ks with
    | error e => rfl
    | ok order => exact run_inserting cmp k order next

theorem run_byInsertion (cmp : Fin n → Fin n → Except ε Ordering) :
    (byInsertion n).run cmp = sortBy cmp (List.finRange n) := by
  rw [byInsertion, run_sorting]
  cases sortBy cmp (List.finRange n) <;> rfl

theorem comparesDistinct_inserting {k : Fin n} {order : List (Fin n)}
    {next : List (Fin n) → ComparisonSort n} (hk : k ∉ order)
    (hnext : ∀ order', order'.Perm (k :: order) → (next order').ComparesDistinct) :
    (inserting k order next).ComparesDistinct := by
  induction order generalizing next with
  | nil => exact hnext [k] (.refl _)
  | cons j js ih =>
    rw [List.mem_cons, not_or] at hk
    obtain ⟨hkj, hkjs⟩ := hk
    refine ⟨hkj, fun o => ?_⟩
    cases o with
    | lt | eq => exact hnext _ (.refl _)
    | gt =>
      refine ih hkjs fun order' hperm => hnext _ ?_
      exact (hperm.cons j).trans (.swap k j js)

theorem comparesDistinct_sorting {ks : List (Fin n)} {next : List (Fin n) → ComparisonSort n}
    (hks : ks.Nodup) (hnext : ∀ order, order.Perm ks → (next order).ComparesDistinct) :
    (sorting ks next).ComparesDistinct := by
  induction ks generalizing next with
  | nil => exact hnext [] (.refl _)
  | cons k ks ih =>
    obtain ⟨hk, hks⟩ := List.nodup_cons.mp hks
    refine ih hks fun order hperm => ?_
    refine comparesDistinct_inserting (fun hmem => hk (hperm.mem_iff.mp hmem)) ?_
    exact fun order' hperm' => hnext order' (hperm'.trans (hperm.cons k))

theorem comparesDistinct_byInsertion (n : Nat) : (byInsertion n).ComparesDistinct :=
  comparesDistinct_sorting (List.nodup_finRange n) fun _ _ => trivial

theorem sorts_byInsertion (n : Nat) : (byInsertion n).Sorts := by
  intro κ _ rank
  have hcmp : ∀ i ∈ List.finRange n, ∀ j ∈ List.finRange n,
      ofRank (ε := Empty) rank i j = .ok (Ord.compare (rank i) (rank j)) := fun _ _ _ _ => rfl
  obtain ⟨order, hsort, hsorted⟩ := sortBy_stablySorted hcmp
  refine ⟨order, ?_, sortBy_perm hsort, hsorted.ascending⟩
  rw [run_byInsertion, hsort]

/-! ## The sort of a list by insertion -/

variable {β : Type} (cmp : α → α → Except ε Ordering)

theorem insertBy_map (f : β → α) (y : β) (ys : List β) :
    insertBy cmp (f y) (ys.map f)
      = (insertBy (fun a b => cmp (f a) (f b)) y ys).map (List.map f) := by
  induction ys with
  | nil => rfl
  | cons z ys ih =>
    rw [List.map_cons, insertBy, insertBy, ih]
    cases cmp (f y) (f z) with
    | error e => rfl
    | ok o =>
      cases o with
      | lt | eq => rfl
      | gt => cases insertBy (fun a b => cmp (f a) (f b)) y ys <;> rfl

theorem sortBy_map (f : β → α) (ys : List β) :
    sortBy cmp (ys.map f) = (sortBy (fun a b => cmp (f a) (f b)) ys).map (List.map f) := by
  induction ys with
  | nil => rfl
  | cons y ys ih =>
    rw [List.map_cons, sortBy, sortBy, ih]
    cases sortBy (fun a b => cmp (f a) (f b)) ys with
    | error e => rfl
    | ok zs => exact insertBy_map cmp f y zs

/-- **The sort of the library** is one that compares. -/
theorem sorted_byInsertion (xs : List α) :
    (byInsertion xs.length).sorted cmp = sortBy cmp xs := by
  have hmap := sortBy_map cmp xs.get (List.finRange xs.length)
  rw [List.map_get_finRange] at hmap
  rw [sorted, run_byInsertion, hmap]
  rfl

end ComparisonSort

end WatchLists
