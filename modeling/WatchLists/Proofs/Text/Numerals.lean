import Mathlib.Data.List.Induction
import WatchLists.Text.Numeral

/-!
# What numerals denote

A run of digits denotes a number by its place values: one more digit at the end
makes ten times the number and the digit. A numeral is such a run, perhaps with a
sign in front, whose number fits in a word. These are all the texts that are read,
and they are read as the numbers that they denote.

- `Digits`: runs of digits.
- `Unsigned`, `Signed64`: numerals of a word.
- `readDigits?_eq_some_iff`, `readFin?_eq_some_iff`, `readInt64?_eq_some_iff`: what
  is read is what is denoted.
-/

namespace WatchLists.Numeral

/-- A run of digits that is not empty, and its number. -/
inductive Digits : List Char → Nat → Prop
  /-- A single digit. -/
  | digit {d : Nat} (hd : d < 10) : Digits [d.digitChar] d
  /-- One more digit at the end. -/
  | snoc {cs : List Char} {n d : Nat} (h : Digits cs n) (hd : d < 10) :
    Digits (cs ++ [d.digitChar]) (10 * n + d)

/-- A numeral without a sign or with `+`, of a number below the bound. -/
inductive Unsigned (bound : Nat) : List Char → Fin bound → Prop
  /-- Digits only. -/
  | plain {cs : List Char} {n : Fin bound} (h : Digits cs n.val) : Unsigned bound cs n
  /-- Digits after `+`. -/
  | plus {cs : List Char} {n : Fin bound} (h : Digits cs n.val) : Unsigned bound ('+' :: cs) n

/-- A numeral, perhaps with a sign, of an integer of 64 bits. -/
inductive Signed64 : List Char → Int → Prop
  /-- An unsigned numeral below half the size of the word. -/
  | nonneg {cs : List Char} {n : Fin 0x8000000000000000} (h : Unsigned _ cs n) :
    Signed64 cs n.val
  /-- Digits after `-`. -/
  | neg {cs : List Char} {n : Nat} (h : Digits cs n) (hn : n ≤ 0x8000000000000000) :
    Signed64 ('-' :: cs) (-n)

variable {cs : List Char}

/-- Every digit is the digit of a number below ten. -/
theorem exists_digitChar {c : Char} (h : c.isDigit = true) : ∃ d < 10, d.digitChar = c := by
  simp only [Char.isDigit, Bool.and_eq_true, decide_eq_true_eq, ge_iff_le,
    UInt32.le_iff_toNat_le] at h
  have hlo : 48 ≤ c.toNat := h.1
  have hhi : c.toNat ≤ 57 := h.2
  have hd : c.toNat - 48 < 10 := by omega
  refine ⟨c.toNat - 48, hd, Char.toNat_inj.mp ?_⟩
  rw [Nat.toNat_digitChar_of_lt_ten hd]
  omega

theorem readDigits?_eq_some {n : Nat} :
    readDigits? cs = some n ↔
      cs ≠ [] ∧ (∀ c ∈ cs, c.isDigit = true) ∧ Nat.ofDigitChars 10 cs 0 = n := by
  unfold readDigits?
  rw [Option.ite_none_right_eq_some, List.all_eq_true, and_assoc, Option.some.injEq]

/-- A run of digits is read as the number it denotes, and nothing else is read. -/
theorem readDigits?_eq_some_iff {n : Nat} : readDigits? cs = some n ↔ Digits cs n := by
  rw [readDigits?_eq_some]
  constructor
  · induction cs using List.reverseRecOn generalizing n with
    | nil => exact fun ⟨hne, _⟩ => absurd rfl hne
    | append_singleton cs c ih =>
      rintro ⟨-, hdigit, rfl⟩
      obtain ⟨d, hd, rfl⟩ := exists_digitChar (hdigit c (by simp))
      rw [Nat.ofDigitChars_append, Nat.ofDigitChars_cons_digitChar_of_lt_ten hd,
        Nat.ofDigitChars_nil]
      by_cases hcs : cs = []
      · subst hcs
        rw [Nat.ofDigitChars_nil, Nat.mul_zero, Nat.zero_add]
        exact .digit hd
      · exact .snoc (ih ⟨hcs, fun c hc => hdigit c (by simp [hc]), rfl⟩) hd
  · intro h
    induction h with
    | @digit d hd =>
      refine ⟨List.cons_ne_nil _ _, fun c hc => ?_, ?_⟩
      · rw [List.mem_singleton.mp hc, Nat.isDigit_digitChar, decide_eq_true hd]
      · rw [Nat.ofDigitChars_cons_digitChar_of_lt_ten hd, Nat.ofDigitChars_nil, Nat.mul_zero,
          Nat.zero_add]
    | @snoc cs n d h hd ih =>
      obtain ⟨hne, hdigit, hn⟩ := ih
      refine ⟨by simp, fun c hc => ?_, ?_⟩
      · rcases List.mem_append.mp hc with hc | hc
        · exact hdigit c hc
        · rw [List.mem_singleton.mp hc, Nat.isDigit_digitChar, decide_eq_true hd]
      · rw [Nat.ofDigitChars_append, Nat.ofDigitChars_cons_digitChar_of_lt_ten hd,
          Nat.ofDigitChars_nil, hn]

/-- A run of digits starts with a digit. -/
theorem Digits.isDigit_head {c : Char} {n : Nat} (h : Digits (c :: cs) n) : c.isDigit = true :=
  (readDigits?_eq_some.mp (readDigits?_eq_some_iff.mpr h)).2.1 c List.mem_cons_self

theorem readNat?_eq_some_iff {n : Nat} :
    readNat? cs = some n ↔ Digits cs n ∨ ∃ ds, cs = '+' :: ds ∧ Digits ds n := by
  unfold readNat?
  split
  · next ds =>
    rw [readDigits?_eq_some_iff]
    refine ⟨fun h => .inr ⟨ds, rfl, h⟩, ?_⟩
    rintro (h | ⟨_, heq, h⟩)
    · exact absurd h.isDigit_head (by decide)
    · cases heq
      exact h
  · next hplus =>
    rw [readDigits?_eq_some_iff]
    refine ⟨.inl, ?_⟩
    rintro (h | ⟨ds, rfl, _⟩)
    · exact h
    · exact absurd rfl (hplus ds)

/-- A text is read as a number below the bound if it is a numeral of this number. -/
theorem readNat?_eq_some_val_iff {bound : Nat} {n : Fin bound} :
    readNat? cs = some n.val ↔ Unsigned bound cs n := by
  rw [readNat?_eq_some_iff]
  constructor
  · rintro (h | ⟨ds, rfl, h⟩)
    · exact .plain h
    · exact .plus h
  · rintro (h | h)
    · exact .inl h
    · exact .inr ⟨_, rfl, h⟩

theorem readFin?_eq_some_iff {bound : Nat} {n : Fin bound} :
    readFin? bound cs = some n ↔ Unsigned bound cs n := by
  rw [← readNat?_eq_some_val_iff]
  unfold readFin?
  constructor
  · intro h
    obtain ⟨m, hm, hn⟩ := Option.bind_eq_some_iff.mp h
    obtain ⟨_, hfin⟩ := Option.dite_none_right_eq_some.mp hn
    cases hfin
    exact hm
  · intro h
    rw [h, Option.bind_some, dif_pos n.isLt]

theorem readInt64?_eq_some_iff {x : Int} : readInt64? cs = some x ↔ Signed64 cs x := by
  unfold readInt64?
  split
  · next ds =>
    constructor
    · intro h
      obtain ⟨n, hn, hx⟩ := Option.bind_eq_some_iff.mp h
      obtain ⟨hle, hsome⟩ := Option.ite_none_right_eq_some.mp hx
      cases hsome
      exact .neg (readDigits?_eq_some_iff.mp hn) hle
    · intro h
      cases h with
      | neg h hn => rw [readDigits?_eq_some_iff.mpr h, Option.bind_some, if_pos hn]
      | nonneg h =>
        cases h with
        | plain h => exact absurd h.isDigit_head (by decide)
  · next hminus =>
    constructor
    · intro h
      obtain ⟨n, hn, hx⟩ := Option.bind_eq_some_iff.mp h
      obtain ⟨hlt, hsome⟩ := Option.ite_none_right_eq_some.mp hx
      cases hsome
      exact .nonneg ((readNat?_eq_some_val_iff (n := ⟨n, hlt⟩)).mp hn)
    · intro h
      cases h with
      | neg h hn => exact absurd rfl (hminus _)
      | @nonneg _ n h =>
        rw [readNat?_eq_some_val_iff.mpr h, Option.bind_some, if_pos n.isLt]

/-! ## Numbers are not confused -/

theorem digitChar_inj {m n : Nat} (hm : m < 16) (hn : n < 16)
    (h : m.digitChar = n.digitChar) : m = n := by
  have hfin : ∀ i j : Fin 16, i.val.digitChar = j.val.digitChar → i = j := by decide
  exact congrArg Fin.val (hfin ⟨m, hm⟩ ⟨n, hn⟩ h)

/-- Up to base sixteen no digit stands for two numbers, so the last digit and the ones
before it are those of the number. -/
theorem toDigits_inj {b m n : Nat} (hb : 1 < b) (hb' : b ≤ 16)
    (h : Nat.toDigits b m = Nat.toDigits b n) : m = n := by
  induction m using Nat.strongRecOn generalizing n with
  | ind m ih =>
    have hlast {k l : Nat} (hk : k < b) (hl : l < b) (h : k.digitChar = l.digitChar) : k = l :=
      digitChar_inj (by omega) (by omega) h
    rw [Nat.toDigits_eq_if hb, Nat.toDigits_eq_if (n := n) hb] at h
    split at h
    all_goals split at h
    · next hm hn => exact hlast hm hn (List.cons.inj h).1
    · next hm hn =>
      have hnil := (List.append_inj' (show [] ++ [m.digitChar] = _ from h) rfl).1
      exact absurd hnil.symm Nat.toDigits_ne_nil
    · next hm hn =>
      have hnil := (List.append_inj' (show _ = [] ++ [n.digitChar] from h) rfl).1
      exact absurd hnil Nat.toDigits_ne_nil
    · next hm hn =>
      obtain ⟨hinit, hdigit⟩ := List.append_inj' h rfl
      have hpos : 0 < b := by omega
      have hdiv : m / b = n / b := ih (m / b) (Nat.div_lt_self (by omega) hb) hinit
      have hmod : m % b = n % b :=
        hlast (Nat.mod_lt m hpos) (Nat.mod_lt n hpos) (List.cons.inj hdigit).1
      rw [← Nat.div_add_mod m b, hdiv, hmod, Nat.div_add_mod]

theorem decimal_injective : Function.Injective decimal := fun _ _ h =>
  toDigits_inj (by decide) (by decide) (String.ofList_injective h)

theorem hex_injective : Function.Injective hex := fun _ _ h =>
  toDigits_inj (by decide) (by decide) (String.ofList_injective h)

/-- A signed numeral holds digits and the sign. -/
theorem isDigit_of_mem_signed {x : Int} {c : Char} (h : c ∈ (signed x).toList) :
    c = '-' ∨ c.isDigit = true := by
  cases x with
  | ofNat n => exact .inr (isDigit_of_mem_decimal h)
  | negSucc n =>
    rw [signed, String.toList_append] at h
    rcases List.mem_append.mp h with h | h
    · exact .inl (List.mem_singleton.mp h)
    · exact .inr (isDigit_of_mem_decimal h)

theorem signed_injective : Function.Injective signed := by
  have hsign (m n : Nat) : decimal m ≠ "-" ++ decimal n := by
    intro h
    have hmem : '-' ∈ (decimal m).toList := by simp [h]
    exact absurd (isDigit_of_mem_decimal hmem) (by decide)
  intro x y h
  cases x with
  | ofNat m =>
    cases y with
    | ofNat n => exact congrArg Int.ofNat (decimal_injective h)
    | negSucc n => exact absurd h (hsign m (n + 1))
  | negSucc m =>
    cases y with
    | ofNat n => exact absurd h.symm (hsign n (m + 1))
    | negSucc n =>
      have hlists := congrArg String.toList h
      simp only [signed, String.toList_append] at hlists
      have hsucc := decimal_injective (String.toList_injective (List.append_cancel_left hlists))
      exact congrArg Int.negSucc (Nat.succ.inj hsucc)

/-- Every character of a number in any base is a digit of that base. -/
theorem exists_digitChar_of_mem_toDigits {b n : Nat} {c : Char} (hb : 1 < b)
    (h : c ∈ Nat.toDigits b n) : ∃ d, c = Nat.digitChar d := by
  induction n using Nat.strongRecOn with
  | ind n ih =>
    rw [Nat.toDigits_eq_if hb] at h
    split at h
    · exact ⟨n, List.mem_singleton.mp h⟩
    · rcases List.mem_append.mp h with h | h
      · exact ih (n / b) (Nat.div_lt_self (by omega) hb) h
      · exact ⟨n % b, List.mem_singleton.mp h⟩

end WatchLists.Numeral
