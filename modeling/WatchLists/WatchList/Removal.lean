import WatchLists.WatchList.Basic

/-!
# Removal from lists

A watch is detached in constant time: the last one takes its place, and the
order of the list is not kept. Only a sweep keeps the order of what remains.

- `removeAt` — removes the element at a position.
- `removeFirst?` — removes the first element that satisfies a predicate.
- `WatchList.detach`, `detachClause?`, `detachBinary?` — the same for watches, by
  position, by the offset of a clause, and by the fields of a binary clause.
- `WatchList.sweep` — removes the marked binary watches.
-/

namespace WatchLists

/-- Removes the element at a position; the last element takes its place. -/
def removeAt {α : Type} (xs : List α) (n : Nat) : List α :=
  match xs.getLast? with
  | some last => (xs.set n last).dropLast
  | none => []

/-- Removes the first element that satisfies `p`, and puts the last element in
its place; `none` if no element does. -/
def removeFirst? {α : Type} (p : α → Bool) (xs : List α) : Option (List α) :=
  (xs.findIdx? p).map (removeAt xs)

namespace WatchList

/-- Removes the watch at a position, which must be one of the list. -/
def detach (ws : WatchList) (n : Nat) : Except Fault WatchList :=
  if n < ws.length then .ok (removeAt ws n) else .error (.noSuchPosition n ws.length)

/-- Removes the first watch of the long clause at an offset; `none` if there is
none. -/
def detachClause? (ws : WatchList) (o : ClauseOffset) : Option WatchList :=
  removeFirst? (Watch.isClauseAt o) ws

/-- Removes the first watch of a binary clause, marked or not; `none` if there is
none. -/
def detachBinary? (ws : WatchList) (other : Literal) (red : Bool) (id : ClauseId) :
    Option WatchList :=
  removeFirst? (Watch.isBinaryOf other red id) ws

/-- The watches that are not marked binary watches, in their order. -/
def withoutMarked (ws : WatchList) : WatchList :=
  ws.filter fun w => !w.isMarkedBinary

/-- Removes the marked binary watches, and says how many there were. -/
def sweep (ws : WatchList) : WatchList × Nat :=
  (ws.withoutMarked, ws.length - ws.withoutMarked.length)

end WatchList

/-! ## What is removed -/

@[simp]
theorem length_removeAt {α : Type} (xs : List α) (n : Nat) :
    (removeAt xs n).length = xs.length - 1 := by
  unfold removeAt
  split
  · simp
  · next h => simp [List.getLast?_eq_none_iff.mp h]

/-- Removing the last element only shortens the list. -/
theorem removeAt_append_singleton_last {α : Type} (xs : List α) (x : α) :
    removeAt (xs ++ [x]) xs.length = xs := by
  simp [removeAt]

/-- Elsewhere the last element moves to the position. -/
theorem removeAt_append_singleton {α : Type} {xs : List α} {n : Nat} (h : n < xs.length)
    (x : α) : removeAt (xs ++ [x]) n = xs.set n x := by
  simp [removeAt, h]

end WatchLists
