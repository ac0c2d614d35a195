import WatchLists.Proofs.Bits
import WatchLists.Proofs.Literal

/-!
# The encodings of literals

A literal is made in three ways: of an integer that is known to denote one, of a variable and
a sign, and of an integer of unchecked origin. On a machine these are words of 32 and of 64
bits. An absolute value is taken, which for the least integer does not fit the signed word,
it is cut down and shifted over the sign, and a bound is asserted first. Two more places ask
for the bound without asserting it. Each of these steps is written down here as it is done on
words, without a value where its assertion fails, and each does what the model says about
numbers; so all of them draw the line at the same integers.

- `Literal.ofVarBits?`, `ofIntBits?`, `ofDimacsBits?`: making a literal of words.
- `Literal.toIntBits?`, `dimacsBits?`: the integer of a literal as a word.
- `ofVarBits?_eq`, `ofIntBits?_eq`, `ofDimacsBits?_eq`, `exists_toIntBits?`,
  `exists_dimacsBits?`: the words follow the numbers.
- `encodings_agree`: which integers denote literals, and that all ways to and fro agree.
-/

namespace WatchLists.Literal

/-! ## Steps on words -/

/-- The word of a literal as bits. -/
def bits (l : Literal) : BitVec 32 := .ofFin l.raw

/-- The literal that is packed in a word of bits. -/
def ofBits (b : BitVec 32) : Literal := ofRaw b.toFin

/-- The variable of a literal as a word of 64 bits. -/
def varBits (l : Literal) : BitVec 64 := (l.bits >>> 1).setWidth 64

/-- A variable shifted over the sign. -/
def packBits (v : BitVec 32) (positive : Bool) : Literal :=
  ofBits (v <<< 1 ||| (BitVec.ofBool positive).setWidth 32)

/-- The literal of a variable and a sign; the variable is asserted to be above zero and below
that of the undefined literal. -/
def ofVarBits? (v : BitVec 64) (positive : Bool) : Option Literal :=
  if 0 < v ∧ v < undef.varBits then some (packBits (v.setWidth 32) positive) else none

/-- The literal of an integer of 32 bits, whose absolute value is asserted to be a variable. -/
def ofIntBits? (x : BitVec 32) : Option Literal :=
  if x ≠ 0 ∧ x.abs < undef.varBits.setWidth 32 then some (packBits x.abs (BitVec.slt 0 x))
  else none

/-- The literal of an integer of 64 bits, which is refused if it is zero or too large, and
otherwise taken for a variable and a sign. -/
def ofDimacsBits? (x : BitVec 64) : Option (Except Error Literal) :=
  if x = 0 ∨ undef.varBits ≤ x.abs then some (.error .invalidLiteral)
  else (ofVarBits? x.abs (BitVec.slt 0 x)).map .ok

/-- The integer of a literal. To negate the least integer is asserted not to happen. -/
def toIntBits? (l : Literal) : Option (BitVec 32) :=
  if l.bits % 2 = 0 then
    if l.bits >>> 1 = BitVec.intMin 32 then none else some (-(l.bits >>> 1))
  else some (l.bits >>> 1)

/-- The integer of a literal, if its word is in range. -/
def dimacsBits? (l : Literal) : Option (Option (BitVec 32)) :=
  if 2 ≤ l.bits ∧ l.bits >>> 1 < undef.bits >>> 1 then l.toIntBits?.map some else some none

/-- The word of a literal without its sign is the variable. -/
theorem toNat_bits_shiftRight (l : Literal) : (l.bits >>> 1).toNat = l.raw.val / 2 := by
  rw [BitVec.toNat_ushiftRight, Nat.shiftRight_eq_div_pow]
  rfl

theorem toNat_varBits (l : Literal) : l.varBits.toNat = l.var := by
  have := l.raw.isLt
  rw [varBits, BitVec.toNat_setWidth, toNat_bits_shiftRight, var]
  omega

theorem var_undef : undef.var = 2147483647 := rfl

/-! ## Making literals -/

/-- An integer is taken for its absolute value with its sign. -/
theorem ofInt?_eq_ofVar? (x : Int) : ofInt? x = ofVar? x.natAbs (decide (0 < x)) := by
  unfold ofInt? ofVar?
  by_cases h : x ≠ 0 ∧ x.natAbs < 2147483647
  · have hvar : 0 < x.natAbs ∧ x.natAbs < 2147483647 := ⟨Int.natAbs_pos.mpr h.1, h.2⟩
    rw [dif_pos h, dif_pos hvar]
    by_cases hx : 0 < x
    · simp [hx]
    · simp [hx]
  · rw [dif_neg h, dif_neg fun hvar => h ⟨Int.natAbs_pos.mp hvar.1, hvar.2⟩]

theorem ofVar?_eq_none_iff (v : Nat) (b : Bool) :
    ofVar? v b = none ↔ ¬ (0 < v ∧ v < 2147483647) := by
  unfold ofVar?
  split <;> simp_all

theorem ofInt?_eq_none_iff (x : Int) :
    ofInt? x = none ↔ ¬ (0 < x.natAbs ∧ x.natAbs < 2147483647) := by
  rw [ofInt?_eq_ofVar?, ofVar?_eq_none_iff]

/-- A shifted variable leaves the lowest bit to the sign. -/
theorem toNat_shiftLeft_or_sign {v : BitVec 32} (hv : v.toNat < 2147483647) (b : Bool) :
    (v <<< 1 ||| (BitVec.ofBool b).setWidth 32).toNat = 2 * v.toNat + b.toNat := by
  have hsign : ((BitVec.ofBool b).setWidth 32).toNat = b.toNat := by
    cases b <;> rfl
  have hle := b.toNat_le
  rw [toNat_shiftLeft_or (by omega) (by omega), hsign]
  omega

/-- A variable in range is packed as the literal that it has. -/
theorem ofVar?_eq_packBits {v : BitVec 32} (hv : 0 < v.toNat ∧ v.toNat < 2147483647) (b : Bool) :
    ofVar? v.toNat b = some (packBits v b) := by
  have hval := toNat_shiftLeft_or_sign hv.2 b
  rw [ofVar?, dif_pos hv]
  refine congrArg some (Literal.ext ?_)
  have hne : (v <<< 1 ||| (BitVec.ofBool b).setWidth 32).toFin.val ≠ 0 := by
    rw [BitVec.val_toFin, hval]
    omega
  rw [packBits, ofBits, raw_ofRaw hne, BitVec.val_toFin, hval]

theorem ofVarBits?_eq (v : BitVec 64) (b : Bool) : ofVarBits? v b = ofVar? v.toNat b := by
  have hrange : (0 < v ∧ v < undef.varBits) ↔ 0 < v.toNat ∧ v.toNat < 2147483647 := by
    rw [BitVec.lt_def, BitVec.lt_def, toNat_varBits, var_undef]
    rfl
  unfold ofVarBits?
  by_cases h : 0 < v.toNat ∧ v.toNat < 2147483647
  · -- cut down to 32 bits, the variable is still the same
    have hcut : (v.setWidth 32).toNat = v.toNat := by
      rw [BitVec.toNat_setWidth]
      exact Nat.mod_eq_of_lt (by omega)
    rw [if_pos (hrange.mpr h), ← hcut]
    exact (ofVar?_eq_packBits (hcut ▸ h) b).symm
  · rw [if_neg (mt hrange.mp h), (ofVar?_eq_none_iff _ b).mpr h]

theorem ofIntBits?_eq (x : BitVec 32) : ofIntBits? x = ofInt? x.toInt := by
  have hrange : (x ≠ 0 ∧ x.abs < undef.varBits.setWidth 32)
      ↔ 0 < x.abs.toNat ∧ x.abs.toNat < 2147483647 := by
    rw [toNat_abs_eq, natAbs_toInt_pos_iff, BitVec.lt_def, toNat_abs_eq, BitVec.toNat_setWidth,
      toNat_varBits, var_undef]
  rw [ofInt?_eq_ofVar?, ofIntBits?, slt_zero_eq, ← toNat_abs_eq]
  by_cases h : 0 < x.abs.toNat ∧ x.abs.toNat < 2147483647
  · rw [if_pos (hrange.mpr h), ofVar?_eq_packBits h]
  · rw [if_neg (mt hrange.mp h), (ofVar?_eq_none_iff _ _).mpr h]

/-- The bound that is asked for keeps the one that is asserted. -/
theorem ofDimacsBits?_eq (x : BitVec 64) : ofDimacsBits? x = some (ofDimacs x.toInt) := by
  have hrange : (x = 0 ∨ undef.varBits ≤ x.abs)
      ↔ ¬ (0 < x.toInt.natAbs ∧ x.toInt.natAbs < 2147483647) := by
    rw [natAbs_toInt_pos_iff, BitVec.le_def, toNat_abs_eq, toNat_varBits, var_undef,
      Decidable.not_and_iff_not_or_not, Decidable.not_not, Nat.not_lt]
  rw [ofDimacsBits?, slt_zero_eq, ofVarBits?_eq, toNat_abs_eq, ofDimacs]
  by_cases h : 0 < x.toInt.natAbs ∧ x.toInt.natAbs < 2147483647
  · rw [if_neg fun hx => hrange.mp hx h, ofVar?, dif_pos h]
    rfl
  · rw [if_pos (hrange.mpr h), (ofVar?_eq_none_iff _ _).mpr h]

/-! ## Reading literals -/

/-- No variable is that of the integer whose negation is asserted not to be taken. -/
theorem exists_toIntBits? (l : Literal) : ∃ y, l.toIntBits? = some y ∧ y.toInt = l.toInt := by
  have hvar := toNat_bits_shiftRight l
  have hlt : l.raw.val / 2 < 2147483648 := by
    have := l.raw.isLt
    omega
  have hint : (l.bits >>> 1).toInt = (l.raw.val / 2 : Nat) := by
    rw [BitVec.toInt_eq_toNat_of_lt (by omega), hvar]
  have hsign : l.bits % 2 = 0 ↔ l.raw.val % 2 = 0 := by
    rw [← BitVec.toNat_inj, BitVec.toNat_umod]
    rfl
  unfold toIntBits? toInt
  by_cases h : l.raw.val % 2 = 0
  · have hne : l.bits >>> 1 ≠ BitVec.intMin 32 := by
      intro heq
      rw [heq, BitVec.toNat_intMin] at hvar
      omega
    refine ⟨-(l.bits >>> 1), ?_, ?_⟩
    · rw [if_pos (hsign.mpr h), if_neg hne]
    · rw [if_pos h, BitVec.toInt_neg, hint]
      exact Int.bmod_eq_of_le (by omega) (by omega)
  · refine ⟨l.bits >>> 1, ?_, ?_⟩
    · rw [if_neg (mt hsign.mp h)]
    · rw [if_neg h, hint]

/-- The range that is asked for in words is the one of the numbers. -/
theorem exists_dimacsBits? (l : Literal) :
    ∃ y, l.dimacsBits? = some y ∧ y.map BitVec.toInt = l.dimacs? := by
  have hrange : (2 ≤ l.bits ∧ l.bits >>> 1 < undef.bits >>> 1)
      ↔ 2 ≤ l.raw.val ∧ l.raw.val / 2 < 2147483647 := by
    rw [BitVec.le_def, BitVec.lt_def, toNat_bits_shiftRight, toNat_bits_shiftRight]
    rfl
  unfold dimacsBits? dimacs?
  by_cases h : 2 ≤ l.raw.val ∧ l.raw.val / 2 < 2147483647
  · obtain ⟨y, hy, hval⟩ := exists_toIntBits? l
    refine ⟨some y, ?_, ?_⟩
    · rw [if_pos (hrange.mpr h), hy]
      rfl
    · rw [if_pos h, ← hval]
      rfl
  · refine ⟨none, ?_, ?_⟩
    · rw [if_neg (mt hrange.mp h)]
    · rw [if_neg h]
      rfl

/-- What a literal of a variable and a sign is read as. -/
theorem parts_of_ofVar? {v : Nat} {b : Bool} {l : Literal} (h : ofVar? v b = some l) :
    l.var = v ∧ l.isPositive = b ∧ l.toInt = if b then (v : Int) else -v := by
  have hraw : l.raw.val = 2 * v + b.toNat := by
    unfold ofVar? at h
    split at h
    · cases h
      rfl
    · cases h
  have hle := b.toNat_le
  have hvar : l.raw.val / 2 = v := by omega
  have hsign : l.raw.val % 2 = b.toNat := by omega
  unfold var isPositive toInt
  rw [hvar, hsign]
  cases b with
  | false => exact ⟨rfl, rfl, rfl⟩
  | true => exact ⟨rfl, rfl, rfl⟩

/-! ## All encodings -/

/-- Cut down to 32 bits, an integer in range is still the same. -/
theorem toInt_setWidth_of_lt {x : BitVec 64} (h : x.toInt.natAbs < 2147483647) :
    (x.setWidth 32).toInt = x.toInt := by
  have hdvd : 2 ^ 32 ∣ 2 ^ 64 := Nat.pow_dvd_pow 2 (by decide)
  rw [BitVec.toInt_setWidth, ← Int.bmod_bmod_of_dvd hdvd, ← BitVec.toInt_eq_toNat_bmod]
  exact Int.bmod_eq_of_le (by omega) (by omega)

/-- The literal of an integer in range, and that the integer is found in it. -/
theorem exists_ofDimacs {x : Int} (h : 0 < x.natAbs ∧ x.natAbs < 2147483647) :
    ∃ l, ofDimacs x = .ok l ∧ ofVar? x.natAbs (decide (0 < x)) = some l ∧ l.var = x.natAbs ∧
      l.isPositive = decide (0 < x) ∧ l.toInt = x := by
  obtain ⟨l, hl⟩ : ∃ l, ofVar? x.natAbs (decide (0 < x)) = some l := ⟨_, dif_pos h⟩
  obtain ⟨hvar, hpositive, hint⟩ := parts_of_ofVar? hl
  refine ⟨l, by rw [ofDimacs, hl], hl, hvar, hpositive, ?_⟩
  rw [hint]
  by_cases hx : 0 < x
  · rw [decide_eq_true hx, if_pos rfl, Int.natAbs_of_nonneg (Int.le_of_lt hx)]
  · rw [decide_eq_false hx, if_neg (by decide)]
    omega

theorem ofDimacs_of_not_range {x : Int} (h : ¬ (0 < x.natAbs ∧ x.natAbs < 2147483647)) :
    ofDimacs x = .error .invalidLiteral := by
  rw [ofDimacs, (ofVar?_eq_none_iff _ _).mpr h]

/-- The literals of integers of 64 bits are those of DIMACS. -/
theorem exists_ofDimacs_iff (l : Literal) :
    (∃ x : BitVec 64, ofDimacs x.toInt = .ok l) ↔ l.IsDimacs := by
  constructor
  · rintro ⟨x, hx⟩
    exact isDimacs_of_ofDimacs hx
  · intro h
    have hbounds := toInt_bounds l
    refine ⟨BitVec.ofInt 64 l.toInt, ?_⟩
    rw [BitVec.toInt_ofInt, Int.bmod_eq_of_le (by omega) (by omega), ofDimacs_toInt, if_pos h]

/-- **The encodings agree.** An integer of 64 bits denotes a literal if it is not zero and
its absolute value is below 2147483647, and is refused otherwise. The literal is that of the
integer cut down to 32 bits, and that of its absolute value and sign; these and the integer are
found in it, and its word packs the same literal. The literals of such integers are those with
words from 2 to 4294967293, and these are the ones with a DIMACS integer, which is the integer
they are read as. An integer of 32 bits that is known to denote a literal, and a variable of 64,
are asserted to be in the same range. On words every step does what it does on numbers, and in
taking an integer of unchecked origin no assertion fails. -/
theorem encodings_agree :
    (∀ x : BitVec 64,
      (0 < x.toInt.natAbs ∧ x.toInt.natAbs < 2147483647 → ∃ l,
        ofDimacs x.toInt = .ok l ∧ ofInt? (x.setWidth 32).toInt = some l ∧
        ofVar? x.toInt.natAbs (decide (0 < x.toInt)) = some l ∧
        l.var = x.toInt.natAbs ∧ l.isPositive = decide (0 < x.toInt) ∧ l.toInt = x.toInt ∧
        ofRaw l.raw = l) ∧
      (¬ (0 < x.toInt.natAbs ∧ x.toInt.natAbs < 2147483647) →
        ofDimacs x.toInt = .error .invalidLiteral)) ∧
    (∀ l : Literal, (∃ x : BitVec 64, ofDimacs x.toInt = .ok l) ↔
      2 ≤ l.raw.val ∧ l.raw.val ≤ 4294967293) ∧
    (∀ l : Literal, l.dimacs? = if 2 ≤ l.raw.val ∧ l.raw.val ≤ 4294967293 then some l.toInt
      else none) ∧
    (∀ x : BitVec 32, ofInt? x.toInt = none ↔
      ¬ (0 < x.toInt.natAbs ∧ x.toInt.natAbs < 2147483647)) ∧
    (∀ (v : BitVec 64) (b : Bool), ofVar? v.toNat b = none ↔
      ¬ (0 < v.toNat ∧ v.toNat < 2147483647)) ∧
    (∀ x : BitVec 64, ofDimacsBits? x = some (ofDimacs x.toInt)) ∧
    (∀ x : BitVec 32, ofIntBits? x = ofInt? x.toInt) ∧
    (∀ (v : BitVec 64) (b : Bool), ofVarBits? v b = ofVar? v.toNat b) ∧
    (∀ l : Literal, ∃ y, l.toIntBits? = some y ∧ y.toInt = l.toInt) ∧
    ∀ l : Literal, ∃ y, l.dimacsBits? = some y ∧ y.map BitVec.toInt = l.dimacs? := by
  refine ⟨fun x => ⟨fun h => ?_, ofDimacs_of_not_range⟩, exists_ofDimacs_iff, dimacs?_eq,
    fun x => ofInt?_eq_none_iff x.toInt, fun v b => ofVar?_eq_none_iff v.toNat b,
    ofDimacsBits?_eq, ofIntBits?_eq, ofVarBits?_eq, exists_toIntBits?, exists_dimacsBits?⟩
  obtain ⟨l, hl, hvar, hparts⟩ := exists_ofDimacs h
  refine ⟨l, hl, ?_, hvar, hparts.1, hparts.2.1, hparts.2.2, ofRaw_raw l⟩
  rw [toInt_setWidth_of_lt h.2, ofInt?_eq_ofVar?, hvar]

/-- The negative literal of the last variable is the last but one in range; the least integer
of 64 bits, whose absolute value is no integer of 64 bits, is refused. -/
theorem encodings_agree_last :
    let x : BitVec 64 := BitVec.ofInt 64 (-2147483646)
    0 < x.toInt.natAbs ∧ x.toInt.natAbs < 2147483647 ∧
      (∃ l, ofDimacs x.toInt = .ok l ∧ l.raw.val = 4294967292 ∧
        ofInt? (x.setWidth 32).toInt = some l ∧ l.dimacs? = some (-2147483646)) ∧
      ofDimacsBits? (BitVec.intMin 64) = some (.error .invalidLiteral) := by
  intro x
  have hval : x.toInt = -2147483646 := by decide
  have hx : 0 < x.toInt.natAbs ∧ x.toInt.natAbs < 2147483647 := by
    rw [hval]
    decide
  obtain ⟨hint, _, hdimacs, _, _, hbits, _⟩ := encodings_agree
  obtain ⟨l, hl, hcut, _, hvar, hpositive, htoInt, _⟩ := (hint x).1 hx
  have hraw : l.raw.val = 4294967292 := by
    have hhalf : l.raw.val / 2 = 2147483646 := by
      rw [← var, hvar, hval]
      rfl
    have hsign : l.raw.val % 2 ≠ 1 := by
      rw [hval] at hpositive
      exact of_decide_eq_false hpositive
    omega
  refine ⟨hx.1, hx.2, ⟨l, hl, hraw, hcut, ?_⟩, ?_⟩
  · rw [hdimacs, if_pos (by omega), htoInt, hval]
  · rw [hbits, (hint (BitVec.intMin 64)).2 (by decide)]

end WatchLists.Literal
