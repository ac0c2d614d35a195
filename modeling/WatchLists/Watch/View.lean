import WatchLists.Watch.Field

/-!
# Views of watches

The unpacked form of a watch: each kind with its own fields and nothing else.
The first word of a clause watch is viewed as a blocking literal or as an
abstraction, whichever the reader asks for.

- `View` — the unpacked form.
- `Watch.view` — unpacking, which asks every field of its own kind only.
- `View.toWatch` — packing.
-/

namespace WatchLists

/-- The unpacked form of a watch, whose clause data is of type `α`. -/
inductive View (α : Type)
  /-- A long clause, with what the first word holds. -/
  | clause (offset : ClauseOffset) (data : α)
  /-- A binary clause. -/
  | binary (other : Literal) (red marked : Bool) (id : ClauseId)
  /-- A literal of a thresholded constraint. -/
  | bnn (index : Word32) (role : Role)
  /-- An element of an external array. -/
  | idx (index : Word32)
deriving DecidableEq

/-- Unpacks a watch, reading the first word of a clause watch as an `α`. -/
def Watch.view (α : Type) [FirstWord α] (w : Watch) : Except Fault (View α) :=
  match w.kind with
  | .clause => do return .clause (← w.offset) (← w.firstAs α)
  | .binary => do return .binary (← w.other) (← w.isRed) (← w.isMarked) (← w.clauseId)
  | .bnn => do return .bnn (← w.bnnIndex) (← w.role)
  | .idx => do return .idx (← w.index)

/-- Packs a view. -/
def View.toWatch {α : Type} [FirstWord α] : View α → Watch
  | .clause o d => .ofClause o d
  | .binary l r m i => .packBinary l ⟨r, m⟩ i
  | .bnn i r => .ofBnn i r
  | .idx i => .ofIdx i

end WatchLists
