import WatchLists.Text.Numeral
import WatchLists.Text.Split

/-!
# Lines made of words

A line that is written is a sequence of words with one space between them.
Splitting gives the words back, and no such line holds a line feed.

- `IsWord`: a run of characters without a blank one.
- `words_intercalate`: what is put together is split again.
- `SplitsInto`, `words_eq_iff`: what splitting a line means, whatever the line.
- `lineFeed_not_mem_intercalate`: a line stays one line.
- `isWord_decimal`, `isWord_signed`: numerals are words.
-/

namespace WatchLists.Text

/-- What a line can hold between blanks. -/
def IsWord (w : List Char) : Prop := w ≠ [] ∧ ∀ c ∈ w, isBlank c = false

instance (w : List Char) : Decidable (IsWord w) :=
  decidable_of_iff (w.isEmpty = false ∧ (w.all fun c => !isBlank c) = true) (by simp [IsWord])

theorem words_of_isWord {w : List Char} (h : IsWord w) : words w = [w] := by
  simp [words, List.splitOnP_eq_singleton h.2, h.1]

/-- A word before a blank is split off. -/
theorem words_append_cons {w : List Char} {b : Char} (h : IsWord w) (hb : isBlank b = true)
    (rest : List Char) : words (w ++ b :: rest) = w :: words rest := by
  simp [words, List.splitOnP_append_cons_of_forall_mem h.2 b hb, h.1]

/-- The words of a line that was put together. -/
theorem words_intercalate {ws : List (List Char)} (h : ∀ w ∈ ws, IsWord w) :
    words ([' '].intercalate ws) = ws := by
  induction ws with
  | nil => rfl
  | cons w ws ih =>
    have hw := h w List.mem_cons_self
    have hws := ih fun w hw => h w (List.mem_cons_of_mem _ hw)
    cases ws with
    | nil =>
      rw [List.intercalate_singleton]
      exact words_of_isWord hw
    | cons w' ws =>
      rw [List.intercalate_cons_cons, List.append_assoc, List.singleton_append,
        words_append_cons hw (by decide), hws]

/-- A line feed is blank, so it is in no word; and it is no space. -/
theorem lineFeed_not_mem_intercalate {ws : List (List Char)} (h : ∀ w ∈ ws, IsWord w) :
    '\n' ∉ [' '].intercalate ws := by
  have hword : ∀ w ∈ ws, '\n' ∉ w := fun w hw hmem =>
    absurd ((h w hw).2 '\n' hmem) (by decide)
  induction ws with
  | nil => simp
  | cons w ws ih =>
    have hw := hword w List.mem_cons_self
    have hws := ih (fun w hw => h w (List.mem_cons_of_mem _ hw))
      (fun w hw => hword w (List.mem_cons_of_mem _ hw))
    cases ws with
    | nil =>
      rw [List.intercalate_singleton]
      exact hw
    | cons w' ws =>
      rw [List.intercalate_cons_cons, List.append_assoc, List.singleton_append]
      simp [hw, hws]

/-! ## Any line -/

/-- A line and the words that stand in it between blanks. -/
inductive SplitsInto : List Char → List (List Char) → Prop
  /-- The empty line. -/
  | nil : SplitsInto [] []
  /-- A blank in front. -/
  | blank {b : Char} {line : List Char} {ws : List (List Char)} (hb : isBlank b = true)
    (h : SplitsInto line ws) : SplitsInto (b :: line) ws
  /-- A word at the end. -/
  | last {w : List Char} (hw : IsWord w) : SplitsInto w [w]
  /-- A word before a blank. -/
  | word {w : List Char} {b : Char} {line : List Char} {ws : List (List Char)} (hw : IsWord w)
    (hb : isBlank b = true) (h : SplitsInto line ws) : SplitsInto (w ++ b :: line) (w :: ws)

/-- A blank in front of a line adds no word. -/
theorem words_cons_blank {b : Char} (hb : isBlank b = true) (line : List Char) :
    words (b :: line) = words line := by
  unfold words
  rw [show b :: line = [] ++ b :: line from rfl,
    List.splitOnP_append_cons_of_forall_mem (by simp) b hb line]
  rfl

theorem SplitsInto.words_eq {line : List Char} {ws : List (List Char)} (h : SplitsInto line ws) :
    words line = ws := by
  induction h with
  | nil => rfl
  | blank hb _ ih => rw [words_cons_blank hb, ih]
  | last hw => exact words_of_isWord hw
  | word hw hb _ ih => rw [words_append_cons hw hb, ih]

/-- A character that is not blank starts a word, or belongs to the one after it. -/
theorem SplitsInto.cons {c : Char} (hc : isBlank c = false) {line : List Char}
    {ws : List (List Char)} (h : SplitsInto line ws) : ∃ ws', SplitsInto (c :: line) ws' := by
  have hsingle : IsWord [c] := ⟨List.cons_ne_nil c [], fun _ hx => List.mem_singleton.mp hx ▸ hc⟩
  have hword : ∀ {w}, IsWord w → IsWord (c :: w) := fun hw =>
    ⟨List.cons_ne_nil c _, List.forall_mem_cons.mpr ⟨hc, hw.2⟩⟩
  cases h with
  | nil => exact ⟨_, .last hsingle⟩
  | blank hb h => exact ⟨_, .word hsingle hb h⟩
  | last hw => exact ⟨_, .last (hword hw)⟩
  | word hw hb h => exact ⟨_, .word (hword hw) hb h⟩

/-- Every line is split in one way. -/
theorem words_eq_iff {line : List Char} {ws : List (List Char)} :
    words line = ws ↔ SplitsInto line ws := by
  refine ⟨?_, SplitsInto.words_eq⟩
  rintro rfl
  suffices ∃ ws, SplitsInto line ws by
    obtain ⟨ws, h⟩ := this
    rwa [h.words_eq]
  induction line with
  | nil => exact ⟨[], .nil⟩
  | cons c line ih =>
    obtain ⟨ws, h⟩ := ih
    cases hc : isBlank c with
    | false => exact h.cons hc
    | true => exact ⟨ws, .blank hc h⟩

/-- A blank at the end of a line adds no word. -/
theorem SplitsInto.concat_blank {line : List Char} {ws : List (List Char)} {b : Char}
    (h : SplitsInto line ws) (hb : isBlank b = true) : SplitsInto (line ++ [b]) ws := by
  induction h with
  | nil => exact .blank hb .nil
  | blank hb' _ ih => exact .blank hb' ih
  | last hw => exact .word hw hb .nil
  | word hw hb' _ ih =>
    rw [List.append_assoc, List.cons_append]
    exact .word hw hb' ih

theorem words_concat_blank {b : Char} (hb : isBlank b = true) (line : List Char) :
    words (line ++ [b]) = words line :=
  words_eq_iff.mpr ((words_eq_iff.mp rfl).concat_blank hb)

/-! ## Numerals -/

theorem isWord_decimal (n : Nat) : IsWord (Numeral.decimal n).toList :=
  ⟨Numeral.decimal_ne_nil n,
    fun _ hc => isBlank_of_isDigit (Numeral.isDigit_of_mem_decimal hc)⟩

theorem isWord_signed (x : Int) : IsWord (Numeral.signed x).toList := by
  cases x with
  | ofNat n => exact isWord_decimal n
  | negSucc n =>
    have htext : (Numeral.signed (Int.negSucc n)).toList
        = '-' :: (Numeral.decimal (n + 1)).toList :=
      String.toList_append
    rw [htext]
    refine ⟨List.cons_ne_nil _ _, fun c hc => ?_⟩
    rcases List.mem_cons.mp hc with rfl | hc
    · decide
    · exact (isWord_decimal (n + 1)).2 c hc

end WatchLists.Text
