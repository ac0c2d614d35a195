import WatchLists.Order.Sort
import WatchLists.Watch.Text

/-!
# Occurrences

An occurrence of a literal in a clause: the literal with a watch of the clause.
Occurrences are compared by their watches: binary watches come first, ordered by
the other literal, and clause watches follow, ordered by offset. Bnn and idx
watches can be compared with binary watches only. The literals do not count in
this order; a list is sorted with ties broken by the literal and then by the two
words of the watch, so that only equal occurrences are equal in the sort.

- `Occurrence`, `Occurrence.placeholder`
- `Occurrence.compare`, `Occurrence.isBefore` — the order of the watches.
- `Occurrence.sortOrder` — the order with ties broken.
- `Occurrence.sort`, `Occurrence.dedup` — on lists of occurrences.
- `Occurrence.description`, `Occurrence.debugText`
-/

namespace WatchLists

/-- An occurrence of a literal in the clause of a watch. -/
structure Occurrence where
  /-- The literal that occurs. -/
  literal : Literal
  /-- A watch of the clause. -/
  watch : Watch
deriving DecidableEq

namespace Occurrence

/-- The undefined literal in no clause. -/
def placeholder : Occurrence := ⟨.undef, .placeholder⟩

instance : Inhabited Occurrence := ⟨placeholder⟩

/-- Compares the watches of two occurrences. -/
def compare (a b : Occurrence) : Except Fault Ordering :=
  match a.watch.kind, b.watch.kind with
  | .binary, .binary => do
    return Ord.compare (← a.watch.other) (← b.watch.other)
  | .binary, _ => .ok .lt
  | _, .binary => .ok .gt
  | .bnn, _ => .error (.unordered a.watch)
  | _, .bnn => .error (.unordered b.watch)
  | _, _ => do
    return Ord.compare (← a.watch.offset).val.val (← b.watch.offset).val.val

/-- Whether the watch of `a` comes before that of `b`. -/
def isBefore (a b : Occurrence) : Except Fault Bool := do
  return (← compare a b) == .lt

/-- Compares all of two occurrences, their watches first. -/
def sortOrder (a b : Occurrence) : Except Fault Ordering := do
  return (← compare a b)
    |>.then (Ord.compare a.literal b.literal)
    |>.then (Ord.compare a.watch.first.val b.watch.first.val)
    |>.then (Ord.compare a.watch.word.val b.watch.word.val)

/-- Sorts occurrences. The result does not depend on the order of the list. -/
def sort (xs : List Occurrence) : Except Fault (List Occurrence) :=
  sortBy sortOrder xs

/-- Sorts occurrences, keeping one of equal ones, and says how many went. -/
def dedup (xs : List Occurrence) : Except Fault (List Occurrence × Nat) := do
  let ys := dropRepeats (← sort xs)
  return (ys, xs.length - ys.length)

/-- A short description of an occurrence. -/
def description (x : Occurrence) : Except Fault String := do
  return x.literal.text ++ ": " ++ (← x.watch.description)

/-- Every field of an occurrence. -/
def debugText (x : Occurrence) : Except Fault String := do
  return "OccurClause \x7b lit: " ++ x.literal.text ++ ", ws: " ++ (← x.watch.debugText)
    ++ " \x7d"

end Occurrence

end WatchLists
