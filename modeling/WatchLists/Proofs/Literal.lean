import WatchLists.Literal

/-!
# Literals and DIMACS integers

A literal is written as a signed variable whatever its word is. The integer is
read back exactly if it is a DIMACS integer, which leaves out three literals:
that of variable zero, and the two of the largest variable.

- `Literal.IsDimacs`: the packed words in between.
- `ofDimacs_toInt`: reading what was written, for every literal.
- `isDimacs_of_ofDimacs`: nothing else is read.
-/

namespace WatchLists.Literal

/-- The literals of DIMACS integers, by their packed words. -/
def IsDimacs (l : Literal) : Prop := 2 ≤ l.raw.val ∧ l.raw.val ≤ 4294967293

instance (l : Literal) : Decidable l.IsDimacs :=
  inferInstanceAs (Decidable (2 ≤ l.raw.val ∧ l.raw.val ≤ 4294967293))

theorem natAbs_toInt (l : Literal) : l.toInt.natAbs = l.var := by
  unfold toInt var
  split <;> omega

theorem toInt_pos_iff (l : Literal) : 0 < l.toInt ↔ l.raw.val % 2 = 1 ∧ 0 < l.var := by
  unfold toInt var
  split <;> omega

/-- A literal is written in far fewer than 64 bits. -/
theorem toInt_bounds (l : Literal) :
    -0x8000000000000000 ≤ l.toInt ∧ l.toInt < 0x8000000000000000 := by
  have := l.raw.isLt
  unfold toInt
  split <;> omega

theorem isDimacs_iff_var (l : Literal) : l.IsDimacs ↔ 0 < l.var ∧ l.var < 2147483647 := by
  unfold IsDimacs var
  omega

/-- The integer of a literal is read as the literal if it is a DIMACS integer,
and refused otherwise. -/
theorem ofDimacs_toInt (l : Literal) :
    ofDimacs l.toInt = if l.IsDimacs then .ok l else .error .invalidLiteral := by
  unfold ofDimacs ofVar?
  rw [natAbs_toInt]
  by_cases h : l.IsDimacs
  · have hvar := (isDimacs_iff_var l).mp h
    rw [dif_pos hvar, if_pos h]
    simp only [Except.ok.injEq]
    apply Literal.ext
    -- the lowest bit of the word is the sign of the integer
    have hsign : (decide (0 < l.toInt)).toNat = l.raw.val % 2 := by
      rcases Nat.mod_two_eq_zero_or_one l.raw.val with h2 | h2
      · simp [toInt_pos_iff, h2]
      · simp [toInt_pos_iff, h2, hvar.1]
    simp only [hsign, var]
    omega
  · rw [dif_neg (fun hvar => h ((isDimacs_iff_var l).mpr hvar)), if_neg h]

/-- What an integer is read as is the literal of a DIMACS integer. -/
theorem isDimacs_of_ofDimacs {x : Int} {l : Literal} (h : ofDimacs x = .ok l) :
    l.IsDimacs := by
  unfold ofDimacs ofVar? at h
  split at h
  · next l' hl =>
    cases h
    split at hl
    · next hvar =>
      cases hl
      have := (decide (0 < x)).toNat_le
      simp only [IsDimacs]
      omega
    · cases hl
  · cases h

/-- The blocking literals that are written are those of DIMACS integers. -/
theorem dimacs?_eq (l : Literal) : l.dimacs? = if l.IsDimacs then some l.toInt else none := by
  unfold dimacs?
  have hiff : (2 ≤ l.raw.val ∧ l.raw.val / 2 < 2147483647) ↔ l.IsDimacs := by
    unfold IsDimacs
    omega
  simp only [hiff]

end WatchLists.Literal
