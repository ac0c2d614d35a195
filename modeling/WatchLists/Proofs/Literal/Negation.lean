import Mathlib.Data.Bool.Basic
import Mathlib.Data.Prod.Lex
import WatchLists.Proofs.Literal.Encodings

/-!
# Negation and the order of literals

The lowest bit of a literal is its sign and the rest its variable. To negate a literal is to
flip that bit, and to compare two literals is to compare their variables first. So negation
goes to the other of two neighbours, and on the literals of integers it is the negation of
integers. One word has no neighbour to go to: below the positive literal of variable zero
there is only zero, which packs no literal, so the negation is undefined and does not lead
back. The word of all ones has the largest variable of a word, which is that of no integer, and
is above all other literals.

- `negate_raw_val`, `negate_of_raw_eq_one`: the word of a negation.
- `var_negate`, `isPositive_negate`: its parts.
- `negate_negate_iff`, `negate_ne`: what negation does twice, and once.
- `ofVar?_not`, `ofInt?_neg`, `ofDimacs_neg`: literals of negated integers.
- `rank`, `compare_eq`, `lt_iff`: the order is that of variables and signs.
- `covBy_iff`, `negate_covBy`, `covBy_negate`: the neighbours in the order.
- `parts_of_ofDimacs`, `compare_of_ofDimacs`, `lt_of_ofDimacs_iff`: the order on integers.
- `negateBits_eq`, `ofIntBits?_neg`, `ofDimacsBits?_neg`: the same on words.
- `negation_and_order`: all of it.
-/

namespace WatchLists.Literal

/-! ## The word of a negation -/

/-- The other word of the same variable. -/
theorem negate_raw_val {l : Literal} (h : l.raw.val ≠ 1) :
    l.negate.raw.val = if l.raw.val % 2 = 0 then l.raw.val + 1 else l.raw.val - 1 := by
  have hpos := l.raw_ne_zero
  have hne : (if l.raw.val % 2 = 0 then l.raw.val + 1 else l.raw.val - 1) ≠ 0 := by
    split <;> omega
  rw [negate, raw_ofRaw hne]

/-- The positive literal of variable zero has no negation. -/
theorem negate_of_raw_eq_one {l : Literal} (h : l.raw.val = 1) : l.negate = undef := by
  rw [negate, ofRaw, dif_pos]
  simp [h]

theorem raw_negate_undef : undef.negate.raw.val = 4294967294 := rfl

theorem var_negate {l : Literal} (h : l.raw.val ≠ 1) : l.negate.var = l.var := by
  have hpos := l.raw_ne_zero
  rw [var, var, negate_raw_val h]
  split <;> omega

theorem isPositive_negate {l : Literal} (h : l.raw.val ≠ 1) :
    l.negate.isPositive = !l.isPositive := by
  rw [isPositive, isPositive, negate_raw_val h, ← decide_not, decide_eq_decide]
  split <;> omega

/-- Only word 1 packs the literal of word 1. -/
theorem raw_ofRaw_eq_one_iff {w : Word32} : (ofRaw w).raw.val = 1 ↔ w.val = 1 := by
  by_cases h : w.val = 0
  · rw [ofRaw, dif_pos h, h]
    decide
  · rw [raw_ofRaw h]

/-- Literals of integers have a variable, which word 1 has not. -/
theorem raw_ne_one_of_isDimacs {l : Literal} (h : l.IsDimacs) : l.raw.val ≠ 1 := by
  have := h.1
  omega

/-! ## The order -/

/-- A literal as its variable and its sign. -/
def rank (l : Literal) : ℕ ×ₗ Bool := toLex (l.var, l.isPositive)

/-- Variable and sign are all there is to a literal. -/
theorem rank_injective : Function.Injective rank := by
  intro a b h
  obtain ⟨hvar, hsign⟩ := Prod.ext_iff.mp (toLex.injective h)
  have hhalf : a.raw.val / 2 = b.raw.val / 2 := hvar
  have hodd : a.raw.val % 2 = 1 ↔ b.raw.val % 2 = 1 := decide_eq_decide.mp hsign
  apply Literal.ext
  omega

/-- The negative literal of a variable is before the positive one, and both are before those of
a larger variable. -/
theorem lt_iff {a b : Literal} : a < b ↔ a.rank < b.rank := by
  rw [rank, rank, Prod.Lex.toLex_lt_toLex, Bool.lt_iff, isPositive, isPositive,
    decide_eq_false_iff_not, decide_eq_true_iff, var, var]
  show a.raw.val < b.raw.val ↔ _
  omega

theorem compare_eq (a b : Literal) : compare a b = compare a.rank b.rank := by
  show compare a.raw.val b.raw.val = _
  rcases lt_trichotomy a.rank b.rank with h | h | h
  · rw [compare_lt_iff_lt.mpr h, compare_lt_iff_lt]
    exact lt_iff.mpr h
  · rw [rank_injective h, compare_eq_iff_eq.mpr rfl, compare_eq_iff_eq.mpr rfl]
  · rw [compare_gt_iff_gt.mpr h, compare_gt_iff_gt]
    exact lt_iff.mpr h

/-- All words but zero are literals, so neighbours have words next to each other. -/
theorem covBy_iff {a b : Literal} : a ⋖ b ↔ b.raw.val = a.raw.val + 1 := by
  constructor
  · rintro ⟨hlt, hnone⟩
    have hlt : a.raw.val < b.raw.val := hlt
    by_contra hne
    have hlast := b.raw.isLt
    -- the literal of the next word is in between
    let c : Literal := ⟨⟨a.raw.val + 1, by omega⟩, Nat.succ_ne_zero _⟩
    have hac : a < c := Nat.lt_succ_self _
    have hcb : c < b := show a.raw.val + 1 < b.raw.val by omega
    exact hnone hac hcb
  · intro h
    refine ⟨show a.raw.val < b.raw.val by omega, fun c hac hcb => ?_⟩
    have hac : a.raw.val < c.raw.val := hac
    have hcb : c.raw.val < b.raw.val := hcb
    omega

/-- The negation of a positive literal is just below it. -/
theorem negate_covBy {l : Literal} (h : l.raw.val ≠ 1) (hsign : l.isPositive = true) :
    l.negate ⋖ l := by
  have hpos := l.raw_ne_zero
  have hodd : l.raw.val % 2 = 1 := of_decide_eq_true hsign
  rw [covBy_iff, negate_raw_val h, if_neg (by omega)]
  omega

/-- The negation of a negative literal is just above it. -/
theorem covBy_negate {l : Literal} (hsign : l.isPositive = false) : l ⋖ l.negate := by
  have heven : l.raw.val % 2 ≠ 1 := of_decide_eq_false hsign
  rw [covBy_iff, negate_raw_val (fun h => heven (by rw [h])), if_pos (by omega)]

theorem lt_undef {l : Literal} (h : l ≠ undef) : l < undef := by
  have hlt := l.raw.isLt
  have hne : l.raw.val ≠ 4294967295 := fun heq => h (Literal.ext heq)
  show l.raw.val < 4294967295
  omega

/-! ## Negation twice -/

theorem negate_negate {l : Literal} (h : l.raw.val ≠ 1) : l.negate.negate = l := by
  have hpos := l.raw_ne_zero
  have hraw := negate_raw_val h
  have hne : l.negate.raw.val ≠ 1 := by
    rw [hraw]
    split <;> omega
  apply rank_injective
  rw [rank, rank, var_negate hne, var_negate h, isPositive_negate hne, isPositive_negate h,
    Bool.not_not]

/-- Negation leads back from every literal but one. -/
theorem negate_negate_iff (l : Literal) : l.negate.negate = l ↔ l.raw.val ≠ 1 := by
  refine ⟨fun h heq => ?_, negate_negate⟩
  rw [negate_of_raw_eq_one heq] at h
  rw [← h, raw_negate_undef] at heq
  cases heq

theorem negate_ne (l : Literal) : l.negate ≠ l := by
  intro h
  by_cases hone : l.raw.val = 1
  · rw [negate_of_raw_eq_one hone] at h
    rw [← h] at hone
    cases hone
  · have hsign := isPositive_negate hone
    rw [h] at hsign
    exact Bool.not_ne_self _ hsign.symm

/-! ## Literals of negated integers -/

/-- The other sign of a variable makes the negation. -/
theorem ofVar?_not (v : Nat) (b : Bool) : ofVar? v (!b) = (ofVar? v b).map negate := by
  by_cases h : 0 < v ∧ v < 2147483647
  · obtain ⟨l, hl⟩ : ∃ l, ofVar? v b = some l := ⟨_, dif_pos h⟩
    obtain ⟨m, hm⟩ : ∃ m, ofVar? v (!b) = some m := ⟨_, dif_pos h⟩
    obtain ⟨hvar, hsign, _⟩ := parts_of_ofVar? hl
    obtain ⟨hvar', hsign', _⟩ := parts_of_ofVar? hm
    have hne := raw_ne_one_of_isDimacs ((isDimacs_iff_var l).mpr (hvar ▸ h))
    rw [hl, hm]
    refine congrArg some (rank_injective ?_)
    rw [rank, rank, var_negate hne, isPositive_negate hne, hvar, hvar', hsign, hsign']
  · rw [(ofVar?_eq_none_iff v b).mpr h, (ofVar?_eq_none_iff v (!b)).mpr h]
    rfl

/-- A negated integer has the same variable and the other sign; zero has none either way. -/
theorem ofVar?_natAbs_neg (x : Int) :
    ofVar? (-x).natAbs (decide (0 < -x)) = (ofVar? x.natAbs (decide (0 < x))).map negate := by
  rw [Int.natAbs_neg]
  by_cases hx : x = 0
  · rw [hx]
    rfl
  · have hsign : decide (0 < -x) = !decide (0 < x) := by
      rw [← decide_not, decide_eq_decide]
      omega
    rw [hsign, ofVar?_not]

/-- The negation of an integer is refused if the integer is, and denotes the negation of its
literal otherwise. -/
theorem ofInt?_neg (x : Int) : ofInt? (-x) = (ofInt? x).map negate := by
  rw [ofInt?_eq_ofVar?, ofInt?_eq_ofVar?, ofVar?_natAbs_neg]

theorem ofDimacs_neg (x : Int) : ofDimacs (-x) = (ofDimacs x).map negate := by
  rw [ofDimacs, ofDimacs, ofVar?_natAbs_neg]
  cases ofVar? x.natAbs (decide (0 < x)) with
  | none => rfl
  | some l => rfl

theorem ofDimacs_eq_ok_iff {x : Int} {l : Literal} : ofDimacs x = .ok l ↔ ofInt? x = some l := by
  rw [ofInt?_eq_ofVar?, ofDimacs]
  cases ofVar? x.natAbs (decide (0 < x)) with
  | none => simp
  | some l => simp

/-- The literal of an integer has its absolute value and its sign. -/
theorem parts_of_ofDimacs {x : Int} {l : Literal} (h : ofDimacs x = .ok l) :
    l.var = x.natAbs ∧ l.isPositive = decide (0 < x) := by
  rw [ofDimacs_eq_ok_iff, ofInt?_eq_ofVar?] at h
  obtain ⟨hvar, hsign, _⟩ := parts_of_ofVar? h
  exact ⟨hvar, hsign⟩

theorem rank_of_ofDimacs {x : Int} {l : Literal} (h : ofDimacs x = .ok l) :
    l.rank = toLex (x.natAbs, decide (0 < x)) := by
  obtain ⟨hvar, hsign⟩ := parts_of_ofDimacs h
  rw [rank, hvar, hsign]

/-! ## On words -/

/-- Negation as it is done on the word. -/
def negateBits (l : Literal) : Literal := ofBits (l.bits ^^^ 1)

theorem negateBits_eq (l : Literal) : l.negateBits = l.negate := by
  refine congrArg ofRaw (Fin.ext ?_)
  exact toNat_xor_one (by decide) l.bits

theorem negateBits_eq_negate : negateBits = negate := funext negateBits_eq

/-- The least integer, which is its own negation on words, denotes no literal. -/
theorem ofIntBits?_neg (x : BitVec 32) : ofIntBits? (-x) = (ofIntBits? x).map negateBits := by
  rw [ofIntBits?_eq, ofIntBits?_eq, negateBits_eq_negate]
  by_cases h : x = BitVec.intMin 32
  · rw [h]
    decide
  · rw [BitVec.toInt_neg_of_ne_intMin h, ofInt?_neg]

theorem ofDimacsBits?_neg (x : BitVec 64) :
    ofDimacsBits? (-x) = (ofDimacsBits? x).map (Except.map negateBits) := by
  rw [ofDimacsBits?_eq, ofDimacsBits?_eq, negateBits_eq_negate, Option.map_some]
  by_cases h : x = BitVec.intMin 64
  · rw [h]
    decide
  · rw [BitVec.toInt_neg_of_ne_intMin h, ofDimacs_neg]

/-! ## Negation and order -/

/-- What the comparison of two literals of integers says of the integers. -/
theorem compare_of_ofDimacs {x y : Int} {l m : Literal} (hl : ofDimacs x = .ok l)
    (hm : ofDimacs y = .ok m) :
    compare l m = compare (toLex (x.natAbs, decide (0 < x))) (toLex (y.natAbs, decide (0 < y))) := by
  rw [compare_eq, rank_of_ofDimacs hl, rank_of_ofDimacs hm]

theorem lt_of_ofDimacs_iff {x y : Int} {l m : Literal} (hl : ofDimacs x = .ok l)
    (hm : ofDimacs y = .ok m) :
    l < m ↔ x.natAbs < y.natAbs ∨ x.natAbs = y.natAbs ∧ x < 0 ∧ 0 < y := by
  rw [lt_iff, rank_of_ofDimacs hl, rank_of_ofDimacs hm, Prod.Lex.toLex_lt_toLex, Bool.lt_iff,
    decide_eq_false_iff_not, decide_eq_true_iff]
  omega

/-- **Negation and order of literals.** An integer that denotes a literal does so whichever way
the literal is made. The negation of the literal is then that of the negated integer and leads
back to it; the two are neighbours in the order, the negative one first, and below the undefined
literal. Such literals are in the order of the absolute values of their integers, and the
negative one first where these are equal. Of the literals of all words, none is its own
negation, and negation leads back from all but that of word 1, from which it leads to the
undefined literal and on to that of word 4294967294. On words, negation is one flipped bit, and
to take the literal of a negated integer is to negate its literal, if it has one. -/
theorem negation_and_order :
    (∀ (x : Int) (l : Literal), ofDimacs x = .ok l ↔ ofInt? x = some l) ∧
    (∀ (x : Int) (l : Literal), ofDimacs x = .ok l →
      ofDimacs (-x) = .ok l.negate ∧ l.negate.negate = l ∧
      (0 < x → l.negate ⋖ l) ∧ (x < 0 → l ⋖ l.negate) ∧ l < undef) ∧
    (∀ (x y : Int) (l m : Literal), ofDimacs x = .ok l → ofDimacs y = .ok m →
      compare l m = compare (toLex (x.natAbs, decide (0 < x)))
        (toLex (y.natAbs, decide (0 < y))) ∧
      (l < m ↔ x.natAbs < y.natAbs ∨ x.natAbs = y.natAbs ∧ x < 0 ∧ 0 < y)) ∧
    (∀ w : Word32, (ofRaw w).negate ≠ ofRaw w ∧
      ((ofRaw w).negate.negate = ofRaw w ↔ w.val ≠ 1)) ∧
    (∀ w : Word32, w.val = 1 → (ofRaw w).negate = undef ∧
      (ofRaw w).negate.negate.raw.val = 4294967294) ∧
    (∀ l : Literal, l.negateBits = l.negate) ∧
    (∀ x : BitVec 32, ofIntBits? (-x) = (ofIntBits? x).map negateBits) ∧
    ∀ x : BitVec 64, ofDimacsBits? (-x) = (ofDimacsBits? x).map (Except.map negateBits) := by
  refine ⟨fun x l => ofDimacs_eq_ok_iff, fun x l hl => ?_,
    fun x y l m hl hm => ⟨compare_of_ofDimacs hl hm, lt_of_ofDimacs_iff hl hm⟩,
    fun w => ⟨negate_ne _, ?_⟩, fun w hw => ?_, negateBits_eq, ofIntBits?_neg, ofDimacsBits?_neg⟩
  · have hrange : l.IsDimacs := isDimacs_of_ofDimacs hl
    have hone := raw_ne_one_of_isDimacs hrange
    have hsign := (parts_of_ofDimacs hl).2
    refine ⟨?_, negate_negate hone, fun hx => ?_, fun hx => ?_, lt_undef ?_⟩
    · rw [ofDimacs_neg, hl]
      rfl
    · exact negate_covBy hone (hsign.trans (decide_eq_true hx))
    · exact covBy_negate (hsign.trans (decide_eq_false (by omega)))
    · rintro rfl
      exact absurd hrange.2 (by decide)
  · rw [negate_negate_iff, ne_eq, raw_ofRaw_eq_one_iff]
  · have hundef := negate_of_raw_eq_one (raw_ofRaw_eq_one_iff.mpr hw)
    exact ⟨hundef, by rw [hundef, raw_negate_undef]⟩

/-- The two literals of the largest variable are next to each other; the least integer of 32
bits, which is its own negation there, has no literal. -/
theorem negation_and_order_last :
    ∃ l m : Literal, ofDimacs 2147483646 = .ok l ∧ ofDimacs (-2147483646) = .ok m ∧
      l.negate = m ∧ m.negate = l ∧ m ⋖ l ∧ m < l ∧ l < undef ∧
      ofIntBits? (-BitVec.intMin 32) = none ∧
      (ofRaw ⟨1, by decide⟩).negate.negate ≠ ofRaw ⟨1, by decide⟩ ∧
      (ofRaw ⟨1, by decide⟩).negate = undef := by
  obtain ⟨_, hparts, horder, htwice, hone, _, hbits, _⟩ := negation_and_order
  let l : Literal := ⟨⟨4294967293, by decide⟩, by decide⟩
  let m : Literal := ⟨⟨4294967292, by decide⟩, by decide⟩
  have hl : ofDimacs 2147483646 = .ok l := rfl
  have hm : ofDimacs (-2147483646) = .ok m := rfl
  obtain ⟨hneg, hback, hbelow, _, hundef⟩ := hparts _ l hl
  have hlm : l.negate = m := Except.ok.inj (hneg.symm.trans hm)
  refine ⟨l, m, hl, hm, hlm, hlm ▸ hback, hlm ▸ hbelow (by decide), ?_, hundef, ?_, ?_, ?_⟩
  · exact (horder _ _ m l hm hl).2.mpr (.inr ⟨rfl, by decide, by decide⟩)
  · rw [hbits]
    rfl
  · exact fun h => absurd ((htwice ⟨1, by decide⟩).2.mp h) (by decide)
  · exact (hone ⟨1, by decide⟩ rfl).1

end WatchLists.Literal
