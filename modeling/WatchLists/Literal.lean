import WatchLists.Error
import WatchLists.Word

/-!
# Literals

A literal is a variable with a sign. The literals of variable `v` are packed as
`2 * v` (negative) and `2 * v + 1` (positive); zero packs no literal, and the
word of all ones is the undefined literal. A DIMACS literal is a nonzero integer
whose variable is below 2147483647, so that neither its literal nor its negation
is undefined.

- `Literal` — a nonzero word, and `Literal.undef`.
- `Literal.ofRaw`, `ofVar?`, `ofInt?`, `ofDimacs` — from a word, from a variable
  and a sign, and from an integer that is or is not known to be a literal.
- `Literal.var`, `isPositive`, `toInt`, `dimacs?`, `negate` — the parts, the
  integer, and the negation.
- `Literal.text` — how a literal is shown.
-/

namespace WatchLists

/-- A literal, packed in a nonzero word. -/
structure Literal where
  /-- The packed literal. -/
  raw : Word32
  raw_ne_zero : raw.val ≠ 0
deriving DecidableEq

namespace Literal

/-- The undefined literal; every other literal is below it. -/
def undef : Literal := ⟨Word32.allOnes, by decide⟩

/-! ## Making literals -/

/-- The literal packed in a word. Zero packs none, and is read as undefined. -/
def ofRaw (w : Word32) : Literal :=
  if h : w.val = 0 then undef else ⟨w, h⟩

/-- The literal of a variable, positive or negative, if the variable is one. -/
def ofVar? (v : Nat) (positive : Bool) : Option Literal :=
  if h : 0 < v ∧ v < 2147483647 then
    have hp : positive.toNat ≤ 1 := positive.toNat_le
    some ⟨⟨2 * v + positive.toNat, by omega⟩, by simp only; omega⟩
  else none

/-- The literal that a nonzero integer in range denotes: its absolute value is
the variable. -/
def ofInt? (x : Int) : Option Literal :=
  if h : x ≠ 0 ∧ x.natAbs < 2147483647 then
    if 0 < x then some ⟨⟨2 * x.natAbs + 1, by omega⟩, by simp⟩
    else some ⟨⟨2 * x.natAbs, by omega⟩, by simp only; omega⟩
  else none

/-- The literal that an integer of unchecked origin denotes. -/
def ofDimacs (x : Int) : Except Error Literal :=
  match ofVar? x.natAbs (decide (0 < x)) with
  | some l => .ok l
  | none => .error .invalidLiteral

/-! ## Reading literals -/

/-- The variable of a literal. -/
def var (l : Literal) : Nat := l.raw.val / 2

/-- Whether a literal is positive. -/
def isPositive (l : Literal) : Bool := decide (l.raw.val % 2 = 1)

/-- Whether a literal is the undefined one. -/
def isUndef (l : Literal) : Bool := decide (l = undef)

/-- The variable of a literal, negated for a negative literal. -/
def toInt (l : Literal) : Int :=
  if l.raw.val % 2 = 0 then -(l.raw.val / 2 : Nat) else (l.raw.val / 2 : Nat)

/-- The integer of a literal, if it denotes the literal. -/
def dimacs? (l : Literal) : Option Int :=
  if 2 ≤ l.raw.val ∧ l.raw.val / 2 < 2147483647 then some l.toInt else none

/-- The literal of the same variable and the other sign; where the packed word
would be zero it is undefined. -/
def negate (l : Literal) : Literal :=
  ofRaw ⟨if l.raw.val % 2 = 0 then l.raw.val + 1 else l.raw.val - 1, by
    have := l.raw.isLt
    split <;> omega⟩

/-- Literals are ordered as their packed words are. -/
instance : Ord Literal := ⟨fun a b => compare a.raw.val b.raw.val⟩

instance : LT Literal := ⟨fun a b => a.raw.val < b.raw.val⟩

instance : LE Literal := ⟨fun a b => a.raw.val ≤ b.raw.val⟩

instance (a b : Literal) : Decidable (a < b) :=
  inferInstanceAs (Decidable (a.raw.val < b.raw.val))

instance (a b : Literal) : Decidable (a ≤ b) :=
  inferInstanceAs (Decidable (a.raw.val ≤ b.raw.val))

/-- How a literal is shown. -/
def text (l : Literal) : String :=
  if l.isUndef then "UndefL" else Numeral.signed l.toInt ++ "L"

/-! ## Packing and unpacking -/

@[ext]
theorem ext {a b : Literal} (h : a.raw.val = b.raw.val) : a = b := by
  obtain ⟨⟨_, _⟩, _⟩ := a
  obtain ⟨⟨_, _⟩, _⟩ := b
  cases h
  rfl

@[simp]
theorem ofRaw_raw (l : Literal) : ofRaw l.raw = l := by
  simp [ofRaw, l.raw_ne_zero]

theorem raw_ofRaw {w : Word32} (h : w.val ≠ 0) : (ofRaw w).raw = w := by
  simp [ofRaw, h]

end Literal

end WatchLists
