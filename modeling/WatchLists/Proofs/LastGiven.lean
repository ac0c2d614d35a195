import Mathlib.Data.List.Basic

/-!
# The last that is given

Where each of several items may give a value anew, the last one given counts, and an earlier
one only where there is no later one.
-/

namespace WatchLists

variable {α β : Type}

/-- The first item counts where no other one gives a value. -/
theorem getLast?_filterMap_cons (f : α → Option β) (a : α) (l : List α) :
    ((a :: l).filterMap f).getLast? = (l.filterMap f).getLast?.or (f a) := by
  rw [List.filterMap_cons]
  cases f a with
  | none => exact (Option.or_none).symm
  | some b =>
    rw [List.getLast?_cons]
    cases (l.filterMap f).getLast? <;> rfl

/-- What the first item gives takes the place of the value that was there. -/
theorem getD_getLast?_filterMap_cons (f : α → Option β) (a : α) (l : List α) (b : β) :
    ((a :: l).filterMap f).getLast?.getD b = (l.filterMap f).getLast?.getD ((f a).getD b) := by
  rw [getLast?_filterMap_cons, Option.getD_or]

end WatchLists
