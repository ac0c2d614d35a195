import WatchLists.Text.Quoted

/-!
# Errors

Why a watch list, a watch file or a command line is refused.

- `Error` — the causes.
- `Error.label`, `Error.message` — how a cause is reported.
- `Error.atLine` — gives an error of one line its place in the text.
-/

namespace WatchLists

/-- Why an input is refused. -/
inductive Error
  /-- A clause offset needs more bits than a watch has for it. -/
  | offsetOverflow (offset : Nat)
  /-- The identifier of a binary clause needs more bits than a watch has for it. -/
  | idOverflow (id : Nat)
  /-- Zero, or a number whose variable is out of range. -/
  | invalidLiteral
  /-- A file cannot be read, created or written. -/
  | inaccessible
  /-- A line that describes no watch; lines count from one. -/
  | malformedLine (line : Nat)
  /-- A list that is not in binary-first order, or has no such order. -/
  | unsorted
  /-- An argument of the command line that cannot be used. -/
  | invalidOption (argument : String)
deriving DecidableEq, Repr

namespace Error

/-- The name under which an error is reported. -/
def label : Error → String
  | offsetOverflow _ => "OffsetOverflow"
  | idOverflow _ => "IdOverflow"
  | invalidLiteral => "InvalidLiteral"
  | inaccessible => "IOError"
  | malformedLine _ => "ParseError"
  | unsorted => "Unsorted"
  | invalidOption _ => "InvalidOption"

/-- The report of an error: its name, and in parentheses what it is about. -/
def message (e : Error) : String :=
  match e with
  | offsetOverflow n | idOverflow n | malformedLine n =>
    e.label ++ "(" ++ Numeral.decimal n ++ ")"
  | invalidOption a => e.label ++ "(" ++ Text.quoted a ++ ")"
  | invalidLiteral | inaccessible | unsorted => e.label

/-- Places the error of a single line at line `n`. Only a malformed line says
where it stands. -/
def atLine (n : Nat) : Error → Error
  | malformedLine _ => malformedLine n
  | e => e

end Error

end WatchLists
