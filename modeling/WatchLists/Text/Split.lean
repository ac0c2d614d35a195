import WatchLists.Text.Blank

/-!
# Lines and words

A text is a sequence of lines, each ended by a line feed, the last perhaps
without one; a line is a sequence of words between blank characters. Splitting
forgets the separators, so an empty last line is no line, and no word is empty.

- `linesBy` — the lines of a sequence of characters, or of bytes.
- `words` — the words of a line.
-/

namespace WatchLists.Text

/-- The runs of a sequence that end at the elements that satisfy `isEnd`, or at
the end of the sequence if something is left. -/
def linesBy {α : Type} (isEnd : α → Bool) (xs : List α) : List (List α) :=
  let runs := xs.splitOnP isEnd
  match runs.getLast? with
  | some [] => runs.dropLast
  | _ => runs

/-- The lines of a text. -/
def lines (cs : List Char) : List (List Char) :=
  linesBy (fun c => decide (c = '\n')) cs

/-- The words of a line: its longest runs without a blank character. -/
def words (line : List Char) : List (List Char) :=
  (line.splitOnP isBlank).filter fun w => !w.isEmpty

example : lines "a\n\nb".toList = [['a'], [], ['b']] := by decide

example : lines "a\nb\n".toList = [['a'], ['b']] := by decide

example : words " b\t-3 1\r".toList = [['b'], ['-', '3'], ['1']] := by decide

/-! ## Ends of lines and words -/

@[simp]
theorem linesBy_nil {α : Type} (isEnd : α → Bool) : linesBy isEnd [] = [] := by
  simp [linesBy]

/-- A line that ends is split off. -/
theorem linesBy_append_cons {α : Type} {isEnd : α → Bool} {line : List α} {e : α}
    (hline : ∀ x ∈ line, isEnd x = false) (he : isEnd e = true) (rest : List α) :
    linesBy isEnd (line ++ e :: rest) = line :: linesBy isEnd rest := by
  have hne : rest.splitOnP isEnd ≠ [] := List.splitOnP_ne_nil isEnd rest
  have hsplit : (line ++ e :: rest).splitOnP isEnd = line :: rest.splitOnP isEnd :=
    List.splitOnP_append_cons_of_forall_mem hline e he rest
  obtain ⟨r, rs, hrs⟩ := List.exists_cons_of_ne_nil hne
  have hlast : (line :: r :: rs).getLast? = (r :: rs).getLast? := List.getLast?_cons_cons
  simp only [linesBy, hsplit, hrs, hlast]
  split <;> simp

/-- A line without an end is one line, unless it is empty. -/
theorem linesBy_eq_singleton {α : Type} {isEnd : α → Bool} {line : List α}
    (hline : ∀ x ∈ line, isEnd x = false) (hne : line ≠ []) :
    linesBy isEnd line = [line] := by
  simp only [linesBy, List.splitOnP_eq_singleton hline, List.getLast?_singleton]
  split
  · next h => simp_all
  · rfl

end WatchLists.Text
