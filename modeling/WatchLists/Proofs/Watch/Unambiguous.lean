import WatchLists.Proofs.Text.Numerals
import WatchLists.Proofs.Watch.Invariant

/-!
# No two watches are shown alike

A line that can be read back is the line of one watch, for it is read as this watch. What
is left are binary watches whose other literal is refused, and these are told apart by the
words of their lines, where the literal is an integer. The debug text is never read; it is
split at its commas, and the number of its fields and the first of them tell the kind.

- `Literal.toInt_injective`, `Literal.text_injective`: no two literals are written alike.
- `lineText_injective`: nor are two views, in either form.
- `View.debugFields`, `debugFields_injective`, `view_eq_of_debugText`: nor are they in the
  debug form.
-/

namespace WatchLists

open Text

/-! ## Literals -/

namespace Literal

/-- A negative literal has an even word that is not zero, so minus zero is no integer of
a literal. -/
theorem toInt_injective : Function.Injective toInt := by
  intro a b h
  have ha := a.raw_ne_zero
  have hb := b.raw_ne_zero
  unfold toInt at h
  apply Literal.ext
  split at h <;> split at h <;> omega

/-- What is shown before the sort of a literal. -/
def digits (l : Literal) : String :=
  if l.isUndef then "Undef" else Numeral.signed l.toInt

theorem text_eq (l : Literal) : l.text = l.digits ++ "L" := by
  unfold text digits
  split <;> rfl

/-- The undefined literal is shown by a word that is no numeral. -/
theorem text_injective : Function.Injective text := by
  have hundef (x : Int) : Numeral.signed x ≠ "Undef" := by
    intro h
    have hmem : 'U' ∈ (Numeral.signed x).toList := by simp [h]
    exact absurd (Numeral.isDigit_of_mem_signed hmem) (by decide)
  intro a b h
  rw [text_eq, text_eq, String.append_left_inj] at h
  unfold digits at h
  split at h
  · next ha =>
    split at h
    · next hb => exact (of_decide_eq_true ha).trans (of_decide_eq_true hb).symm
    · exact absurd h.symm (hundef _)
  · split at h
    · exact absurd h (hundef _)
    · exact toInt_injective (Numeral.signed_injective h)

end Literal

/-! ## Other fields -/

theorem fin_eq_of_decimal {bound : Nat} {i j : Fin bound}
    (h : (Numeral.decimal i.val).toList = (Numeral.decimal j.val).toList) : i = j :=
  Fin.ext (Numeral.decimal_injective (String.toList_injective h))

theorem ClauseOffset.text_injective : Function.Injective text := by
  rintro ⟨a⟩ ⟨b⟩ h
  exact congrArg ClauseOffset.mk (fin_eq_of_decimal (congrArg String.toList h))

theorem ClauseId.text_injective : Function.Injective text := by
  rintro ⟨a⟩ ⟨b⟩ h
  exact congrArg ClauseId.mk (fin_eq_of_decimal (congrArg String.toList h))

theorem Role.text_injective : Function.Injective text := by
  intro r r' h
  have hread := Watch.readRole_text r
  rw [h, Watch.readRole_text] at hread
  exact (Except.ok.inj hread).symm

theorem BinaryFlags.debugText_injective : Function.Injective debugText := by
  rintro ⟨r, m⟩ ⟨r', m'⟩ h
  revert r m r' m'
  decide

theorem View.toWatch_injective : Function.Injective (toWatch : View Abstraction → Watch) := by
  intro v w h
  have hv := Watch.fields?_eq_some_iff.mpr (rfl : v.toWatch = v.toWatch)
  rw [Watch.fields?_eq_some_iff.mpr h.symm] at hv
  exact (Option.some.inj hv).symm

/-! ## Lines -/

namespace Watch

/-- The words of a binary watch are told apart whatever its literal is. -/
theorem binaryWords_inj {form : ClauseForm} {l l' : Literal} {r r' m m' : Bool} {i i' : ClauseId}
    (h : (View.binary l r m i).lineWords form = (View.binary l' r' m' i').lineWords form) :
    View.binary (α := Abstraction) l r m i = .binary l' r' m' i' := by
  simp only [View.lineWords, List.cons.injEq, true_and, and_true] at h
  obtain ⟨hl, hr, hi, hm⟩ := h
  obtain rfl : l = l' :=
    Literal.toInt_injective (Numeral.signed_injective (String.toList_injective hl))
  obtain rfl : i = i' := ClauseId.text_injective (String.toList_injective hi)
  obtain rfl : r = r' := by
    revert r r'
    decide
  obtain rfl : m = m' := by
    revert m m'
    decide
  rfl

/-- Only a binary watch has a literal that can be refused. -/
theorem exists_binary_of_not_isDimacs {v : View Abstraction} (h : ¬ v.IsDimacs) :
    ∃ l r m i, v = .binary l r m i := by
  cases v with
  | binary l r m i => exact ⟨l, r, m, i, rfl⟩
  | _ => exact absurd trivial h

/-- No two views have the same line. -/
theorem lineText_injective (form : ClauseForm) : Function.Injective (View.lineText form) := by
  intro v w h
  have hread := congrArg ofLine? h
  rw [ofLine?_lineText, ofLine?_lineText] at hread
  by_cases hv : v.IsDimacs
  · by_cases hw : w.IsDimacs
    · rw [if_pos hv, if_pos hw] at hread
      exact View.toWatch_injective (Option.some.inj (Except.ok.inj hread))
    · rw [if_pos hv, if_neg hw] at hread
      cases hread
  · by_cases hw : w.IsDimacs
    · rw [if_neg hv, if_pos hw] at hread
      cases hread
    · -- neither line can be read back
      obtain ⟨l, r, m, i, rfl⟩ := exists_binary_of_not_isDimacs hv
      obtain ⟨l', r', m', i', rfl⟩ := exists_binary_of_not_isDimacs hw
      have hwords := congrArg words h
      rw [words_lineText, words_lineText] at hwords
      exact binaryWords_inj hwords

end Watch

/-! ## Debug texts -/

/-- What the debug text shows between its commas. -/
def View.debugFields : View Abstraction → List (List Char)
  | .clause o d => [o.debugText.toList, " data:0x".toList ++ (Numeral.hex d.bits.val).toList]
  | .binary l r m i =>
    [l.text.toList, ' ' :: i.debugText.toList, ' ' :: (BinaryFlags.debugText ⟨r, m⟩).toList]
  | .bnn i r => ["bnn:".toList ++ (Numeral.decimal i.val).toList, ' ' :: r.text.toList]
  | .idx i => ["idx:".toList ++ (Numeral.decimal i.val).toList]

namespace Watch

/-- A packed view is shown as its fields with commas between, in parentheses. -/
theorem debugText_toWatch (v : View Abstraction) :
    ∃ t, v.toWatch.debugText = .ok t ∧
      t.toList = "W(".toList ++ ([','].intercalate v.debugFields ++ [')']) := by
  have hkind := View.kind_toWatch v
  have hans := answers_toWatch v
  cases v with
  | clause o d =>
    obtain ⟨hoffset, _⟩ := hans
    refine ⟨"W(" ++ o.debugText ++ ", data:0x" ++ Numeral.hex d.bits.val ++ ")", ?_, ?_⟩
    · simp only [debugText, hkind, View.kind, hoffset]
      rfl
    · simp [View.debugFields, List.intercalate_cons_cons]
  | binary l r m i =>
    obtain ⟨hother, _, _, hid⟩ := hans
    have hflags : (View.binary l r m i : View Abstraction).toWatch.flags = ⟨r, m⟩ :=
      flags_packBinary l ⟨r, m⟩ i
    refine ⟨"W(" ++ l.text ++ ", " ++ i.debugText ++ ", " ++ BinaryFlags.debugText ⟨r, m⟩ ++ ")",
      ?_, ?_⟩
    · simp only [debugText, hkind, View.kind, hother, hid, hflags]
      rfl
    · simp [View.debugFields, List.intercalate_cons_cons]
  | bnn i r =>
    obtain ⟨hindex, hrole⟩ := hans
    refine ⟨"W(bnn:" ++ Numeral.decimal i.val ++ ", " ++ r.text ++ ")", ?_, ?_⟩
    · simp only [debugText, hkind, View.kind, hindex, hrole]
      rfl
    · simp [View.debugFields, List.intercalate_cons_cons]
  | idx i =>
    refine ⟨"W(idx:" ++ Numeral.decimal i.val ++ ")", ?_, ?_⟩
    · simp only [debugText, hkind, View.kind, show index _ = _ from hans]
      rfl
    · simp [View.debugFields]

/-- Commas stand between fields only. -/
theorem comma_not_mem_debugFields {v : View Abstraction} {field : List Char}
    (h : field ∈ v.debugFields) : ',' ∉ field := by
  have hdigits {b : Nat} (hb : 1 < b) (n : Nat) : ',' ∉ Nat.toDigits b n := by
    intro hmem
    obtain ⟨d, hd⟩ := Numeral.exists_digitChar_of_mem_toDigits hb hmem
    exact Nat.digitChar_ne ',' (by decide) hd.symm
  have hliteral (l : Literal) : ',' ∉ l.text.toList := by
    have hsigned : ',' ∉ (Numeral.signed l.toInt).toList := fun hmem =>
      absurd (Numeral.isDigit_of_mem_signed hmem) (by decide)
    rw [Literal.text_eq, Literal.digits]
    split
    · decide
    · simp [hsigned]
  cases v with
  | clause o d =>
    simp only [View.debugFields, List.mem_cons, List.not_mem_nil, or_false] at h
    rcases h with rfl | rfl
    · simp [ClauseOffset.debugText, ClauseOffset.text, hdigits]
    · simp [Numeral.hex, hdigits]
  | binary l r m i =>
    simp only [View.debugFields, List.mem_cons, List.not_mem_nil, or_false] at h
    rcases h with rfl | rfl | rfl
    · exact hliteral l
    · simp [ClauseId.debugText, ClauseId.text, hdigits]
    · cases r <;> cases m <;> decide
  | bnn i r =>
    simp only [View.debugFields, List.mem_cons, List.not_mem_nil, or_false] at h
    rcases h with rfl | rfl
    · simp [hdigits]
    · cases r <;> decide
  | idx i =>
    cases List.mem_singleton.mp h
    simp [hdigits]

/-- The fields tell the kind: a clause watch and a bnn watch have two each, and only the
first one of a bnn watch has letters before its numeral. -/
theorem kind_eq_of_debugFields {v w : View Abstraction} (h : v.debugFields = w.debugFields) :
    v.kind = w.kind := by
  have hletter {o : ClauseOffset} {d : Abstraction} {i : Word32} {r : Role} :
      (View.clause o d).debugFields ≠ (View.bnn i r).debugFields := by
    intro h
    have hmem : 'b' ∈ o.debugText.toList := by
      rw [(List.cons.inj h).1]
      simp
    rcases List.mem_append.mp (String.toList_append ▸ hmem) with hmem | hmem
    · exact absurd (Numeral.isDigit_of_mem_decimal hmem) (by decide)
    · exact absurd hmem (by decide)
  cases v with
  | clause o d =>
    cases w with
    | clause o' d' => rfl
    | bnn i r => exact absurd h hletter
    | _ => simp [View.debugFields] at h
  | binary l r m i =>
    cases w with
    | binary l' r' m' i' => rfl
    | _ => simp [View.debugFields] at h
  | bnn i r =>
    cases w with
    | bnn i' r' => rfl
    | clause o d => exact absurd h.symm hletter
    | _ => simp [View.debugFields] at h
  | idx i =>
    cases w with
    | idx i' => rfl
    | _ => simp [View.debugFields] at h

/-- No two views have the same fields. -/
theorem debugFields_injective : Function.Injective View.debugFields := by
  intro v w h
  have hkind := kind_eq_of_debugFields h
  cases v with
  | clause o d =>
    obtain ⟨o', d', rfl⟩ := View.exists_clause_of_kind hkind.symm
    simp only [View.debugFields, List.cons.injEq, and_true] at h
    obtain ⟨ho, hd⟩ := h
    obtain rfl : o = o' :=
      ClauseOffset.text_injective ((String.append_left_inj _).mp (String.toList_injective ho))
    obtain ⟨bits⟩ := d
    obtain ⟨bits'⟩ := d'
    obtain rfl : bits = bits' :=
      Fin.ext (Numeral.hex_injective (String.toList_injective (List.append_cancel_left hd)))
    rfl
  | binary l r m i =>
    obtain ⟨l', r', m', i', rfl⟩ := View.exists_binary_of_kind hkind.symm
    simp only [View.debugFields, List.cons.injEq, true_and, and_true] at h
    obtain ⟨hl, hi, hf⟩ := h
    obtain rfl : l = l' := Literal.text_injective (String.toList_injective hl)
    obtain rfl : i = i' :=
      ClauseId.text_injective ((String.append_left_inj _).mp (String.toList_injective hi))
    cases BinaryFlags.debugText_injective (String.toList_injective hf)
    rfl
  | bnn i r =>
    cases w with
    | bnn i' r' =>
      simp only [View.debugFields, List.cons.injEq, true_and, and_true] at h
      obtain ⟨hi, hr⟩ := h
      obtain rfl : i = i' := fin_eq_of_decimal (List.append_cancel_left hi)
      obtain rfl : r = r' := Role.text_injective (String.toList_injective hr)
      rfl
    | _ => cases hkind
  | idx i =>
    cases w with
    | idx i' =>
      obtain rfl : i = i' := fin_eq_of_decimal (List.append_cancel_left (List.cons.inj h).1)
      rfl
    | _ => cases hkind

/-- The same result is the same text. -/
theorem toList_eq_of_eq {x y : Except Fault String} {cs ds : List Char}
    (hx : ∃ s, x = .ok s ∧ s.toList = cs) (hy : ∃ s, y = .ok s ∧ s.toList = ds) (h : x = y) :
    cs = ds := by
  obtain ⟨s, rfl, rfl⟩ := hx
  obtain ⟨t, rfl, rfl⟩ := hy
  rw [Except.ok.inj h]

/-- No two views have the same debug text. -/
theorem view_eq_of_debugText {v w : View Abstraction}
    (h : v.toWatch.debugText = w.toWatch.debugText) : v = w := by
  have hchars := toList_eq_of_eq (debugText_toWatch v) (debugText_toWatch w) h
  have hfields := List.append_cancel_right (List.append_cancel_left hchars)
  have hne (v : View Abstraction) : v.debugFields ≠ [] := by cases v <;> exact List.cons_ne_nil _ _
  have hsplit := congrArg (List.splitOn ',') hfields
  rw [List.splitOn_intercalate ',' (fun _ hf => comma_not_mem_debugFields hf) (hne v),
    List.splitOn_intercalate ',' (fun _ hf => comma_not_mem_debugFields hf) (hne w)] at hsplit
  exact debugFields_injective hsplit

end Watch

end WatchLists
