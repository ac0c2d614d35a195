/-!
# Numerals

Writing and reading whole numbers in text. A numeral is written in decimal
without leading zeros; when one is read, leading zeros and a leading `+` are
allowed, and only a signed numeral may start with `-`. Digits are the ten ASCII
digits, whatever the text around them. A number too large for its word is not a
numeral of that word.

- `decimal`, `signed`, `hex`, `paddedHex` — writing.
- `readDigits?`, `readNat?`, `readFin?`, `readInt64?` — reading.
- `readDigits?_decimal`, `readFin?_decimal`, `readInt64?_signed` — what is
  written is read back.
-/

namespace WatchLists.Numeral

/-! ## Writing -/

/-- A natural number in decimal. -/
def decimal (n : Nat) : String := String.ofList (Nat.toDigits 10 n)

/-- A whole number in decimal, with `-` in front of a negative one. -/
def signed : Int → String
  | .ofNat n => decimal n
  | .negSucc n => "-" ++ decimal (n + 1)

/-- A natural number in hexadecimal, with lower-case digits. -/
def hex (n : Nat) : String := String.ofList (Nat.toDigits 16 n)

/-- A natural number in hexadecimal, filled up with zeros to `width` digits. -/
def paddedHex (width n : Nat) : String :=
  String.ofList (List.replicate (width - (Nat.toDigits 16 n).length) '0') ++ hex n

/-! ## Reading -/

/-- Reads a run of decimal digits that is not empty. -/
def readDigits? (cs : List Char) : Option Nat :=
  if cs ≠ [] ∧ cs.all Char.isDigit then some (Nat.ofDigitChars 10 cs 0) else none

/-- Reads an unsigned numeral: digits, possibly after one `+`. -/
def readNat? : List Char → Option Nat
  | '+' :: cs => readDigits? cs
  | cs => readDigits? cs

/-- Reads an unsigned numeral whose value is below `bound`. -/
def readFin? (bound : Nat) (cs : List Char) : Option (Fin bound) :=
  (readNat? cs).bind fun n => if h : n < bound then some ⟨n, h⟩ else none

/-- Reads a signed numeral whose value fits in a two's complement word of 64
bits: digits, possibly after one `+` or `-`. -/
def readInt64? : List Char → Option Int
  | '-' :: cs =>
    (readDigits? cs).bind fun n => if n ≤ 0x8000000000000000 then some (-n) else none
  | cs => (readNat? cs).bind fun n => if n < 0x8000000000000000 then some n else none

/-! ## What is written is read back -/

@[simp]
theorem toList_decimal (n : Nat) : (decimal n).toList = Nat.toDigits 10 n := by
  simp [decimal]

/-- Decimal texts hold digits only. -/
theorem isDigit_of_mem_decimal {n : Nat} {c : Char} (h : c ∈ (decimal n).toList) :
    c.isDigit = true :=
  Nat.isDigit_of_mem_toDigits (b := 10) (n := n) (by decide) (by decide) (by simpa using h)

theorem decimal_ne_nil (n : Nat) : (decimal n).toList ≠ [] := by
  simp [Nat.toDigits_ne_nil]

theorem readDigits?_decimal (n : Nat) : readDigits? (decimal n).toList = some n := by
  have hall : (Nat.toDigits 10 n).all Char.isDigit = true :=
    List.all_eq_true.mpr fun c hc =>
      Nat.isDigit_of_mem_toDigits (by decide) (by decide) hc
  simp only [readDigits?, toList_decimal, ne_eq, Nat.toDigits_ne_nil, not_false_eq_true,
    hall, and_self, if_true, Nat.ofDigitChars_toDigits (b := 10) (by decide) (by decide)]

/-- A text that starts with a digit is read without looking for a sign. -/
theorem readNat?_of_isDigit {c : Char} (h : c.isDigit = true) (cs : List Char) :
    readNat? (c :: cs) = readDigits? (c :: cs) := by
  unfold readNat?
  split
  · next heq =>
    cases heq
    exact absurd h (by decide)
  · rfl

theorem readNat?_decimal (n : Nat) : readNat? (decimal n).toList = some n := by
  obtain ⟨c, cs, hcs⟩ := List.exists_cons_of_ne_nil (decimal_ne_nil n)
  have hc : c.isDigit = true := isDigit_of_mem_decimal (n := n) (by rw [hcs]; simp)
  rw [hcs, readNat?_of_isDigit hc, ← hcs, readDigits?_decimal]

theorem readFin?_decimal {bound : Nat} (n : Fin bound) :
    readFin? bound (decimal n.val).toList = some n := by
  simp only [readFin?, readNat?_decimal, Option.bind_some, n.isLt, dif_pos]

/-- A text that starts with a digit is read as an unsigned numeral is. -/
theorem readInt64?_of_isDigit {c : Char} (h : c.isDigit = true) (cs : List Char) :
    readInt64? (c :: cs)
      = (readNat? (c :: cs)).bind fun n =>
        if n < 0x8000000000000000 then some (n : Int) else none := by
  unfold readInt64?
  split
  · next heq =>
    cases heq
    exact absurd h (by decide)
  · rfl

/-- Every value of a signed 64-bit word is read back. -/
theorem readInt64?_signed {x : Int} (hlo : -0x8000000000000000 ≤ x)
    (hhi : x < 0x8000000000000000) :
    readInt64? (signed x).toList = some x := by
  cases x with
  | ofNat n =>
    have hn : n < 0x8000000000000000 := Int.ofNat_lt.mp hhi
    obtain ⟨c, cs, hcs⟩ := List.exists_cons_of_ne_nil (decimal_ne_nil n)
    have hc : c.isDigit = true := isDigit_of_mem_decimal (n := n) (by rw [hcs]; simp)
    have hread := readNat?_decimal n
    rw [hcs] at hread
    rw [show signed (Int.ofNat n) = decimal n from rfl, hcs, readInt64?_of_isDigit hc, hread,
      Option.bind_some, if_pos hn]
    rfl
  | negSucc n =>
    have hn : n + 1 ≤ 0x8000000000000000 := by omega
    have hread := readDigits?_decimal (n + 1)
    have htext : (signed (Int.negSucc n)).toList = '-' :: (decimal (n + 1)).toList := by
      rw [show signed (Int.negSucc n) = "-" ++ decimal (n + 1) from rfl, String.toList_append]
      rfl
    rw [htext]
    show (readDigits? (decimal (n + 1)).toList).bind _ = _
    rw [hread, Option.bind_some, if_pos hn]
    rfl

end WatchLists.Numeral
