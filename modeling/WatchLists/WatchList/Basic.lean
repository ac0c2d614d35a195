import WatchLists.Watch.Field

/-!
# Watch lists

The watches of one literal, in a list whose order matters to propagation.

- `Watch.testClauseAt`, `testBinaryOf`, `testMarkedBinary` — what a watch is sought by,
  with no field asked of a watch of another kind; `isClauseAt` and so on for the answers.
- `WatchList`
- `WatchList.attachClause`, `attachBinary`, `attachBnn`, `attachIdx` —
  a new watch goes to the end.
- `WatchList.clausePosition?`, `replaceBlocker?` — by the offset of a clause.
- `WatchList.modifyAt` — changes one watch by its position.
- `WatchList.countKind` — how many watches of a kind there are.
-/

namespace WatchLists

/-- The watches of one literal. -/
abbrev WatchList := List Watch

namespace Watch

/-! ## Tests -/

/-- A test on the fields of a kind, which fails for the other kinds: these are not asked
for what they do not have. -/
def testIf (w : Watch) (k : Kind) (test : Except Fault Bool) : Except Fault Bool :=
  if w.isKind k then test else .ok false

/-- Nothing goes wrong in such a test. -/
theorem testIf_isSome {w : Watch} {k : Kind} {test : Except Fault Bool}
    (h : w.kind = k → test.toOption.isSome) : (w.testIf k test).toOption.isSome := by
  unfold testIf
  split
  · next hk => exact h (of_decide_eq_true hk)
  · rfl

theorem testIf_of_kind {w : Watch} {k : Kind} (h : w.kind = k) (test : Except Fault Bool) :
    w.testIf k test = test := if_pos (decide_eq_true h)

theorem testIf_of_ne {w : Watch} {k : Kind} (h : w.kind ≠ k) (test : Except Fault Bool) :
    w.testIf k test = .ok false := if_neg (by rw [isKind, decide_eq_true_iff]; exact h)

/-- Tests for the watch of the long clause at an offset. -/
def testClauseAt (o : ClauseOffset) (w : Watch) : Except Fault Bool :=
  w.testIf .clause (w.offset.map fun p => decide (p = o))

/-- Tests for a watch of the binary clause with these fields, marked or not. -/
def testBinaryOf (other : Literal) (red : Bool) (id : ClauseId) (w : Watch) :
    Except Fault Bool :=
  w.testIf .binary do
    return decide ((← w.other) = other) && decide ((← w.isRed) = red)
      && decide ((← w.clauseId) = id)

/-- Tests for a binary watch that is marked for removal. -/
def testMarkedBinary (w : Watch) : Except Fault Bool := w.testIf .binary w.isMarked

theorem testClauseAt_isSome (o : ClauseOffset) (w : Watch) :
    (w.testClauseAt o).toOption.isSome :=
  testIf_isSome fun h => by rw [offset, require_of_kind h]; rfl

theorem testBinaryOf_isSome (l : Literal) (r : Bool) (i : ClauseId) (w : Watch) :
    (w.testBinaryOf l r i).toOption.isSome :=
  testIf_isSome fun h => by
    rw [other, isRed, clauseId, require_of_kind h, require_of_kind h, require_of_kind h]
    rfl

theorem testMarkedBinary_isSome (w : Watch) : w.testMarkedBinary.toOption.isSome :=
  testIf_isSome fun h => by rw [isMarked, require_of_kind h]; rfl

/-- Whether this is the watch of the long clause at an offset. -/
def isClauseAt (o : ClauseOffset) (w : Watch) : Bool :=
  (w.testClauseAt o).toOption.get (testClauseAt_isSome o w)

/-- Whether this is a watch of the binary clause with these fields, marked or
not. -/
def isBinaryOf (other : Literal) (red : Bool) (id : ClauseId) (w : Watch) : Bool :=
  (w.testBinaryOf other red id).toOption.get (testBinaryOf_isSome other red id w)

/-- Whether this is a binary watch that is marked for removal. -/
def isMarkedBinary (w : Watch) : Bool :=
  w.testMarkedBinary.toOption.get (testMarkedBinary_isSome w)

end Watch

namespace WatchList

/-- Adds a watch of a long clause. -/
def attachClause {α : Type} [FirstWord α] (ws : WatchList) (o : ClauseOffset) (data : α) :
    WatchList :=
  ws ++ [.ofClause o data]

/-- Adds a watch of a binary clause, by its other literal. -/
def attachBinary (ws : WatchList) (other : Literal) (red : Bool) (id : ClauseId) :
    WatchList :=
  ws ++ [.ofBinary other red id]

/-- Adds a watch of a thresholded constraint. -/
def attachBnn (ws : WatchList) (index : Word32) (r : Role) : WatchList :=
  ws ++ [.ofBnn index r]

/-- Adds a watch of an element of an external array. -/
def attachIdx (ws : WatchList) (index : Word32) : WatchList :=
  ws ++ [.ofIdx index]

/-- The position of the first watch of the long clause at an offset. -/
def clausePosition? (ws : WatchList) (o : ClauseOffset) : Option Nat :=
  ws.findIdx? (Watch.isClauseAt o)

/-- Replaces the blocking literal of the first watch of the long clause at an
offset; `none` if there is none. -/
def replaceBlocker? (ws : WatchList) (o : ClauseOffset) (l : Literal) : Option WatchList :=
  (ws.clausePosition? o).map fun i => ws.modify i fun w => w.setFirst l.raw

/-- Changes the watch at a position, if the change suits its kind. -/
def modifyAt (ws : WatchList) (n : Nat) (change : Watch → Except Fault Watch) :
    Except Fault WatchList :=
  match ws[n]? with
  | some w => (change w).map fun w' => ws.set n w'
  | none => .error (.noSuchPosition n ws.length)

/-- How many watches of a kind there are. -/
def countKind (ws : WatchList) (k : Kind) : Nat :=
  ws.countP fun w => w.isKind k

end WatchList

end WatchLists
