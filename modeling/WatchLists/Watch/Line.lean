import WatchLists.Text.Split
import WatchLists.Watch.Field

/-!
# Watches as lines of text

One watch, one line:

| line                        | watch                                          |
|-----------------------------|------------------------------------------------|
| `c <offset> <blocker>`      | a long clause with a blocking literal          |
| `a <offset> <abstraction>`  | a long clause with an abstraction              |
| `b <other> <0 or 1> <id>`   | a binary clause, 1 for redundant               |
| `b <other> <0 or 1> <id> m` | a marked binary clause                         |
| `n <index> <pos, neg, out>` | a literal of a thresholded constraint          |
| `i <index>`                 | an index                                       |

Literals are DIMACS integers. A line without words, or whose first word starts
with `#`, describes nothing. A clause watch can be written in either of its two
forms; if its first word is no DIMACS literal, only the second one can be read
back, and it is the one that is written.

- `ClauseForm` — the choice of a form for clause watches.
- `Watch.line` — writing.
- `Watch.ofWords`, `Watch.ofLine?` — reading. The first part of the line that is
  wrong decides the error.
-/

namespace WatchLists

/-- The form in which clause watches are written. -/
inductive ClauseForm
  /-- With the blocking literal, where the first word is one. -/
  | blocker
  /-- With the abstraction. -/
  | abstraction
deriving DecidableEq, Repr

namespace Watch

/-! ## Writing -/

/-- The line of a clause watch: the blocking literal if it is wanted and can be
read back, the abstraction otherwise. -/
def clauseLine (form : ClauseForm) (o : ClauseOffset) (l : Literal) (a : Abstraction) :
    String :=
  match form, l.dimacs? with
  | .blocker, some x => "c " ++ o.text ++ " " ++ Numeral.signed x
  | _, _ => "a " ++ o.text ++ " " ++ Numeral.decimal a.bits.val

/-- The line of a watch, without the line feed. -/
def line (form : ClauseForm) (w : Watch) : Except Fault String :=
  match w.kind with
  | .clause => do return clauseLine form (← w.offset) (← w.blocker) (← w.abstraction)
  | .binary => do
    return "b " ++ Numeral.signed (← w.other).toInt ++ " " ++ (if ← w.isRed then "1" else "0")
      ++ " " ++ (← w.clauseId).text ++ (if ← w.isMarked then " m" else "")
  | .bnn => do
    return "n " ++ Numeral.decimal (← w.bnnIndex).val ++ " " ++ (← w.role).text
  | .idx => do return "i " ++ Numeral.decimal (← w.index).val

/-! ## Reading -/

/-- The refusal of a line whose place is not known yet. -/
def malformed {α : Type} : Except Error α := .error (.malformedLine 0)

/-- Reads a clause offset: a numeral of 64 bits, of which 62 may be used. -/
def readOffset (word : List Char) : Except Error ClauseOffset :=
  match Numeral.readFin? 0x10000000000000000 word with
  | some n => ClauseOffset.ofNat n.val
  | none => malformed

/-- Reads the identifier of a binary clause: a numeral of 64 bits, of which 60
may be used. -/
def readClauseId (word : List Char) : Except Error ClauseId :=
  match Numeral.readFin? 0x10000000000000000 word with
  | some n => ClauseId.ofNat n.val
  | none => malformed

/-- Reads a literal: a signed numeral of 64 bits, which must denote one. -/
def readLiteral (word : List Char) : Except Error Literal :=
  match Numeral.readInt64? word with
  | some x => Literal.ofDimacs x
  | none => malformed

/-- Reads a numeral of 32 bits. -/
def readWord32 (word : List Char) : Except Error Word32 :=
  match Numeral.readFin? 0x100000000 word with
  | some n => .ok n
  | none => malformed

/-- Reads a truth value, written as one digit. -/
def readDigit : List Char → Except Error Bool
  | ['0'] => .ok false
  | ['1'] => .ok true
  | _ => malformed

/-- Reads the word for a role. -/
def readRole : List Char → Except Error Role
  | ['p', 'o', 's'] => .ok .pos
  | ['n', 'e', 'g'] => .ok .neg
  | ['o', 'u', 't'] => .ok .out
  | _ => malformed

/-- Reads the fields of a binary watch, the flag before the literal and the
identifier last. -/
def readBinary (l r i : List Char) : Except Error (Bool × Literal × ClauseId) := do
  let red ← readDigit r
  let other ← readLiteral l
  let id ← readClauseId i
  return (red, other, id)

/-- Reads a watch from the first word of a line and the words after it. -/
def ofHead : List Char → List (List Char) → Except Error Watch
  | ['c'], [o, l] => do
    let offset ← readOffset o
    let blocker ← readLiteral l
    return .ofClause offset blocker
  | ['a'], [o, a] => do
    let offset ← readOffset o
    let bits ← readWord32 a
    return .ofClause offset (Abstraction.mk bits)
  | ['b'], [l, r, i] => do
    let (red, other, id) ← readBinary l r i
    return .packBinary other ⟨red, false⟩ id
  | ['b'], [l, r, i, m] => do
    let (red, other, id) ← readBinary l r i
    if m = ['m'] then return .packBinary other ⟨red, true⟩ id else malformed
  | ['n'], [i, r] => do
    let role ← readRole r
    let index ← readWord32 i
    return .ofBnn index role
  | ['i'], [i] => do
    let index ← readWord32 i
    return .ofIdx index
  | _, _ => malformed

/-- Reads the words of a line: nothing if there is none, or the first one starts
a comment. -/
def ofWords : List (List Char) → Except Error (Option Watch)
  | [] => .ok none
  | head :: args =>
    if head.head? = some '#' then .ok none else (ofHead head args).map some

/-- Reads a line. -/
def ofLine? (line : List Char) : Except Error (Option Watch) :=
  ofWords (Text.words line)

end Watch

end WatchLists
