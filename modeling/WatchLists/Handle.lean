import WatchLists.Error
import WatchLists.Word

/-!
# Handles and the bit budget

What a watch refers to — a clause by its offset, a binary clause by its
identifier — and the bits that a watch has for each. Two bits of the wide word
tag the kind of the watch and leave 62 for the payload; a binary watch spends
two of those on its flags and has 60 left.

- `wordBits`, `tagBits`, `usableBits`, `flagBits`, `idBits` — the budget.
- `ClauseOffset`, `ClauseId` — handles with the bound in the type, and `ofNat`,
  which refuses a number that does not fit.
- `Abstraction` — the signature of a clause's literals.
- `BinaryFlags` — the flags of a binary watch.
-/

namespace WatchLists

/-! ## The bit budget -/

/-- The bits of the wide word of a watch. -/
def wordBits : Nat := 64

/-- The bits that tag the kind of a watch. -/
def tagBits : Nat := 2

/-- The bits left for a clause offset, or another payload. -/
def usableBits : Nat := wordBits - tagBits

/-- The bits of a payload that hold the flags of a binary watch. -/
def flagBits : Nat := 2

/-- The bits left for the identifier of a binary clause. -/
def idBits : Nat := usableBits - flagBits

/-- Payloads use all the usable bits. -/
theorem usableBits_eq : usableBits = 62 := rfl

/-- Identifiers use all the bits that the flags leave. -/
theorem idBits_eq : idBits = 60 := rfl

/-! ## Handles -/

/-- The offset of a long clause in the clause arena. -/
structure ClauseOffset where
  /-- The offset as a number. -/
  val : Payload
deriving DecidableEq

namespace ClauseOffset

/-- The largest offset, which the arena never hands out. -/
def max : ClauseOffset := ⟨⟨0x4000000000000000 - 1, by decide⟩⟩

/-- The offset `n`, unless `n` is too large for a payload. -/
def ofNat (n : Nat) : Except Error ClauseOffset :=
  if h : n < 0x4000000000000000 then .ok ⟨⟨n, h⟩⟩ else .error (.offsetOverflow n)

/-- How an offset is shown. -/
def text (o : ClauseOffset) : String := Numeral.decimal o.val.val

/-- How an offset is shown with its sort. -/
def debugText (o : ClauseOffset) : String := o.text ++ "O"

theorem ofNat_val (o : ClauseOffset) : ofNat o.val.val = .ok o := by
  simp [ofNat]

end ClauseOffset

/-- The identifier of a binary clause. -/
structure ClauseId where
  /-- The identifier as a number. -/
  val : Fin 0x1000000000000000
deriving DecidableEq

namespace ClauseId

/-- The largest identifier that fits beside the flags. -/
def max : ClauseId := ⟨⟨0x1000000000000000 - 1, by decide⟩⟩

/-- The identifier `n`, unless `n` is too large to fit beside the flags. -/
def ofNat (n : Nat) : Except Error ClauseId :=
  if h : n < 0x1000000000000000 then .ok ⟨⟨n, h⟩⟩ else .error (.idOverflow n)

/-- How an identifier is shown. -/
def text (i : ClauseId) : String := Numeral.decimal i.val.val

/-- How an identifier is shown with its sort. -/
def debugText (i : ClauseId) : String := i.text ++ "B"

theorem ofNat_val (i : ClauseId) : ofNat i.val.val = .ok i := by
  simp [ofNat]

end ClauseId

/-- The abstraction of a clause: a signature of its set of literals, opaque
here. -/
structure Abstraction where
  /-- The signature. -/
  bits : Word32
deriving DecidableEq

namespace Abstraction

/-- How an abstraction is shown: eight hexadecimal digits. -/
def text (a : Abstraction) : String := "0x" ++ Numeral.paddedHex 8 a.bits.val

/-- How an abstraction is shown with its sort. -/
def debugText (a : Abstraction) : String :=
  "ClauseAbstraction(" ++ Numeral.decimal a.bits.val ++ ")"

end Abstraction

/-! ## Flags -/

/-- The flags of a binary watch. -/
structure BinaryFlags where
  /-- The clause is redundant: learnt, and removable. -/
  red : Bool
  /-- The watch is marked for removal by a sweep. -/
  marked : Bool
deriving DecidableEq

namespace BinaryFlags

/-- The two low bits of a binary watch's payload. -/
def bits (f : BinaryFlags) : Nat := 2 * f.marked.toNat + f.red.toNat

/-- The flags in the two low bits of a number. -/
def ofBits (n : Nat) : BinaryFlags := ⟨decide (n % 2 = 1), decide (n / 2 % 2 = 1)⟩

/-- The flags of a number that has no other bit set. -/
def ofBits? (n : Nat) : Option BinaryFlags := if n < 4 then some (ofBits n) else none

/-- How flags are shown. -/
def debugText (f : BinaryFlags) : String :=
  match f.red, f.marked with
  | false, false => "FlagBin(0x0)"
  | true, false => "FlagBin(RED)"
  | false, true => "FlagBin(MARKED)"
  | true, true => "FlagBin(RED | MARKED)"

theorem bits_lt (f : BinaryFlags) : f.bits < 4 := by
  obtain ⟨r, m⟩ := f
  cases r <;> cases m <;> decide

/-- Flags are read back from under any multiple of four. -/
@[simp]
theorem ofBits_bits (n : Nat) (f : BinaryFlags) : ofBits (4 * n + f.bits) = f := by
  obtain ⟨r, m⟩ := f
  have hr : (4 * n + (2 * m.toNat + r.toNat)) % 2 = r.toNat := by
    have := r.toNat_le
    omega
  have hm : (4 * n + (2 * m.toNat + r.toNat)) / 2 % 2 = m.toNat := by
    have := r.toNat_le
    have := m.toNat_le
    omega
  simp only [ofBits, bits, hr, hm]
  cases r <;> cases m <;> rfl

end BinaryFlags

end WatchLists
