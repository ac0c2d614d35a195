import WatchLists.Watch.Field

/-!
# Watches as messages

Two texts for people: a short description of a watch, and a debug form that
shows every field. They are not read back. The report of a fault is here too,
since it shows the watch that was asked.

- `Watch.description`, `Watch.debugText`
- `Fault.message?`
-/

namespace WatchLists

/-- The word for a truth value. -/
def truthText (b : Bool) : String := if b then "true" else "false"

/-- A short description of a watch. -/
def Watch.description (w : Watch) : Except Fault String :=
  match w.kind with
  | .clause => do return "Clause offset " ++ (← w.offset).text
  | .binary => do
    return "Bin lit " ++ (← w.other).text ++ " (red: " ++ truthText (← w.isRed) ++ " )"
  | .bnn => do
    return "BNN " ++ Numeral.decimal (← w.bnnIndex).val ++ " (" ++ (← w.role).text ++ ")"
  | .idx => do return "Idx " ++ Numeral.decimal (← w.index).val

/-- Every field of a watch. -/
def Watch.debugText (w : Watch) : Except Fault String :=
  match w.kind with
  | .clause => do
    return "W(" ++ (← w.offset).debugText ++ ", data:0x" ++ Numeral.hex w.first.val ++ ")"
  | .binary => do
    return "W(" ++ (← w.other).text ++ ", " ++ (← w.clauseId).debugText ++ ", "
      ++ w.flags.debugText ++ ")"
  | .bnn => do
    return "W(bnn:" ++ Numeral.decimal (← w.bnnIndex).val ++ ", " ++ (← w.role).text ++ ")"
  | .idx => do return "W(idx:" ++ Numeral.decimal (← w.index).val ++ ")"

/-- A watch of a kind, with its article. -/
def Kind.noun : Kind → String
  | clause => "a clause watch"
  | binary => "a binary watch"
  | bnn => "a bnn watch"
  | idx => "an idx watch"

/-- The report of a fault. Only a wrong kind has one. -/
def Fault.message? : Fault → Option String
  | .wrongKind w k =>
    match w.debugText with
    | .ok t => some (t ++ " isn't " ++ k.noun)
    | .error _ => none
  | .noRole _ | .unordered _ | .noSuchPosition _ _ => none

end WatchLists
