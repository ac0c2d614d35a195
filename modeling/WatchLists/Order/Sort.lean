/-!
# Sorting with a comparison that can fail

Some elements have no place in an order, and comparing them is a fault. A sort
meets such an element when it compares it, and never compares an element with
itself: a list of one element is sorted whatever the element is. The sort is
stable, since an element is inserted before the elements it is equal to.

- `insertBy`, `sortBy` — sorting by insertion.
- `dropRepeats` — what removes duplicates from a sorted list.
- `sortBy_perm` — a sort that succeeds rearranges its list.
-/

namespace WatchLists

/-- Inserts `x` into a sorted list, before the first element that it is not
above. -/
def insertBy {α ε : Type} (cmp : α → α → Except ε Ordering) (x : α) :
    List α → Except ε (List α)
  | [] => .ok [x]
  | y :: ys => do
    match ← cmp x y with
    | .gt => return y :: (← insertBy cmp x ys)
    | .lt | .eq => return x :: y :: ys

/-- Sorts a list, keeping the order of equal elements. -/
def sortBy {α ε : Type} (cmp : α → α → Except ε Ordering) : List α → Except ε (List α)
  | [] => .ok []
  | x :: xs => do insertBy cmp x (← sortBy cmp xs)

/-- Keeps one of each run of equal elements. -/
def dropRepeats {α : Type} [DecidableEq α] : List α → List α
  | [] => []
  | [x] => [x]
  | x :: y :: xs => if x = y then dropRepeats (y :: xs) else x :: dropRepeats (y :: xs)

variable {α ε : Type} {cmp : α → α → Except ε Ordering}

/-- An element alone is not compared. -/
@[simp]
theorem sortBy_singleton (x : α) : sortBy cmp [x] = .ok [x] := rfl

/-- Insertion adds one element and loses none. -/
theorem insertBy_perm {x : α} {ys zs : List α} (h : insertBy cmp x ys = .ok zs) :
    zs.Perm (x :: ys) := by
  induction ys generalizing zs with
  | nil =>
    cases h
    exact .refl _
  | cons y ys ih =>
    unfold insertBy at h
    cases hc : cmp x y with
    | error e => simp [hc, bind, Except.bind] at h
    | ok o =>
      simp only [hc, bind, Except.bind] at h
      cases o with
      | gt =>
        cases hi : insertBy cmp x ys with
        | error e => simp [hi] at h
        | ok us =>
          simp only [hi, pure, Except.pure, Except.ok.injEq] at h
          subst h
          exact ((ih hi).cons y).trans (.swap x y ys)
      | lt | eq =>
        simp only [pure, Except.pure, Except.ok.injEq] at h
        subst h
        exact .refl _

/-- A sort rearranges. -/
theorem sortBy_perm {xs zs : List α} (h : sortBy cmp xs = .ok zs) : zs.Perm xs := by
  induction xs generalizing zs with
  | nil =>
    cases h
    exact .refl _
  | cons x xs ih =>
    unfold sortBy at h
    cases hs : sortBy cmp xs with
    | error e => simp [hs, bind, Except.bind] at h
    | ok ys =>
      simp only [hs, bind, Except.bind] at h
      exact (insertBy_perm h).trans ((ih hs).cons x)

end WatchLists
