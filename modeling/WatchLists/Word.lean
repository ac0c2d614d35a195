/-!
# Machine words

A watch is packed in one word of 32 bits and one of 64 bits, and literals are
words of 32 bits. Words are bounded natural numbers here, with the bounds in
hexadecimal: every operation says with `/`, `%`, `*` and `+` what it does to the
number, so that linear arithmetic decides what a field holds.

- `Word32`, `Word64` — the two word sizes.
- `Payload` — the part of a wide word above the two tag bits.
- `Word32.ofNat?` — a number as a word, if it fits.
-/

namespace WatchLists

/-- A word of 32 bits. -/
abbrev Word32 := Fin 0x100000000

/-- A word of 64 bits. -/
abbrev Word64 := Fin 0x10000000000000000

/-- What is left of a 64-bit word above its two tag bits. -/
abbrev Payload := Fin 0x4000000000000000

/-- The word that holds `n`, if `n` fits. -/
def Word32.ofNat? (n : Nat) : Option Word32 :=
  if h : n < 0x100000000 then some ⟨n, h⟩ else none

/-- The word with every bit set. -/
def Word32.allOnes : Word32 := ⟨4294967295, by decide⟩

end WatchLists
