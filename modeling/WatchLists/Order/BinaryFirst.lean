import WatchLists.Order.Sort
import WatchLists.WatchList.Basic

/-!
# The binary-first order

Propagation looks at binary clauses first, so a watch list starts with its
binary watches. These are ordered by the other literal, then irreducible before
redundant, then by identifier; a mark does not count. Clause and bnn watches
follow, and are equal to each other in this order. Idx watches have no place in
it: to ask about one is a fault.

- `BinaryKey`, `Watch.binaryKey` — what orders binary watches.
- `Watch.before`, `Watch.binaryFirstOrder` — the order on two watches.
- `WatchList.sortBinaryFirst`, `WatchList.isBinaryFirst` — sorting, and the check
  of neighbours from left to right.
-/

namespace WatchLists

/-- The fields that order binary watches. -/
structure BinaryKey where
  /-- The other literal of the clause. -/
  other : Literal
  /-- Whether the clause is redundant. -/
  red : Bool
  /-- The identifier of the clause. -/
  id : ClauseId
deriving DecidableEq

/-- Whether a key comes first: by literal, then irreducible before redundant,
then by identifier. -/
def BinaryKey.before (a b : BinaryKey) : Bool :=
  if a.other ≠ b.other then decide (a.other < b.other)
  else if a.red ≠ b.red then !a.red
  else decide (a.id.val.val < b.id.val.val)

namespace Watch

/-- The key of a binary watch. -/
def binaryKey (w : Watch) : Except Fault BinaryKey := do
  return ⟨← w.other, ← w.isRed, ← w.clauseId⟩

/-- Whether `a` must be placed before `b`. -/
def before (a b : Watch) : Except Fault Bool :=
  match a.kind, b.kind with
  | .idx, _ => .error (.unordered a)
  | _, .idx => .error (.unordered b)
  | .clause, _ | .bnn, _ => .ok false
  | .binary, .clause | .binary, .bnn => .ok true
  | .binary, .binary => do return (← a.binaryKey).before (← b.binaryKey)

/-- The order of two watches; neither is before an equal one. -/
def binaryFirstOrder (a b : Watch) : Except Fault Ordering := do
  if ← a.before b then return .lt
  if ← b.before a then return .gt
  return .eq

end Watch

namespace WatchList

/-- Sorts a list in binary-first order. Clause and bnn watches keep their order,
and so do binary watches that differ in the mark only. -/
def sortBinaryFirst (ws : WatchList) : Except Fault WatchList :=
  sortBy Watch.binaryFirstOrder ws

/-- Whether no watch must be placed before the one it follows. -/
def isBinaryFirst : WatchList → Except Fault Bool
  | a :: b :: ws => do if ← b.before a then return false else isBinaryFirst (b :: ws)
  | [_] | [] => .ok true

end WatchList

end WatchLists
