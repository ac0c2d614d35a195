import Mathlib.Data.List.Forall2
import WatchLists.Text.Split

/-!
# Lines with their ends

A reader of a file takes one line after another, each with its end, until nothing is
left; a text is split into lines without their ends, be they a line feed alone or one
after a carriage return. Both find the lines that splitting at the ends finds.

- `takeLine`, `linesWithEnds`: the lines as a reader takes them.
- `stripLast?`, `textLines`: the lines as a text has them.
- `flatten_linesWithEnds`: nothing is lost.
- `forall₂_linesBy`: line by line, splitting forgets the end and nothing else.
- `EndsLine`, `linesBy_append`: where a sequence can be cut without cutting a line.
-/

namespace WatchLists.Text

variable {α : Type}

/-- The first line with its end, if it has one, and what follows it. -/
def takeLine (isEnd : α → Bool) : List α → List α × List α
  | [] => ([], [])
  | x :: xs =>
    if isEnd x then ([x], xs) else (x :: (takeLine isEnd xs).1, (takeLine isEnd xs).2)

variable {isEnd : α → Bool} {xs : List α}

theorem takeLine_append (isEnd : α → Bool) (xs : List α) :
    (takeLine isEnd xs).1 ++ (takeLine isEnd xs).2 = xs := by
  induction xs with
  | nil => rfl
  | cons x xs ih =>
    unfold takeLine
    split
    · rfl
    · exact congrArg (x :: ·) ih

theorem takeLine_ne_nil (isEnd : α → Bool) (h : xs ≠ []) : (takeLine isEnd xs).1 ≠ [] := by
  cases xs with
  | nil => exact absurd rfl h
  | cons x xs =>
    unfold takeLine
    split <;> exact List.cons_ne_nil _ _

/-- A line that is taken gets the rest shorter. -/
theorem length_takeLine_lt (h : xs ≠ []) : (takeLine isEnd xs).2.length < xs.length := by
  have hlength := congrArg List.length (takeLine_append isEnd xs)
  have hpos := List.length_pos_iff.mpr (takeLine_ne_nil isEnd h)
  rw [List.length_append] at hlength
  omega

/-- A line goes up to its end, or is all there is. -/
theorem takeLine_cases (isEnd : α → Bool) (xs : List α) :
    (∃ line e rest, (∀ x ∈ line, isEnd x = false) ∧ isEnd e = true ∧ xs = line ++ e :: rest ∧
      takeLine isEnd xs = (line ++ [e], rest)) ∨
    (∀ x ∈ xs, isEnd x = false) ∧ takeLine isEnd xs = (xs, []) := by
  induction xs with
  | nil => exact .inr ⟨nofun, rfl⟩
  | cons x xs ih =>
    unfold takeLine
    cases hx : isEnd x with
    | true => exact .inl ⟨[], x, xs, nofun, hx, rfl, rfl⟩
    | false =>
      obtain ⟨line, e, rest, hline, he, hxs, htake⟩ | ⟨hxs, htake⟩ := ih
      · refine .inl ⟨x :: line, e, rest, List.forall_mem_cons.mpr ⟨hx, hline⟩, he, ?_, ?_⟩
        · rw [hxs, List.cons_append]
        · rw [htake]
          rfl
      · refine .inr ⟨List.forall_mem_cons.mpr ⟨hx, hxs⟩, ?_⟩
        rw [htake]
        rfl

/-- The lines with their ends, taken one after another until nothing is left. -/
def linesWithEnds (isEnd : α → Bool) (xs : List α) : List (List α) :=
  if _h : xs = [] then []
  else (takeLine isEnd xs).1 :: linesWithEnds isEnd (takeLine isEnd xs).2
termination_by xs.length
decreasing_by exact length_takeLine_lt _h

@[simp] theorem linesWithEnds_nil (isEnd : α → Bool) : linesWithEnds isEnd [] = [] := by
  rw [linesWithEnds, dif_pos rfl]

theorem linesWithEnds_of_ne_nil (h : xs ≠ []) :
    linesWithEnds isEnd xs = (takeLine isEnd xs).1 :: linesWithEnds isEnd (takeLine isEnd xs).2 := by
  rw [linesWithEnds, dif_neg h]

theorem flatten_linesWithEnds (isEnd : α → Bool) (xs : List α) :
    (linesWithEnds isEnd xs).flatten = xs := by
  fun_induction linesWithEnds isEnd xs with
  | case1 => rfl
  | case2 xs h ih => rw [List.flatten_cons, ih, takeLine_append]

/-- Line by line, splitting forgets the end and nothing else. -/
theorem forall₂_linesBy (isEnd : α → Bool) (xs : List α) :
    List.Forall₂ (fun run line => (∀ x ∈ line, isEnd x = false) ∧
        (run = line ∨ ∃ e, isEnd e = true ∧ run = line ++ [e]))
      (linesWithEnds isEnd xs) (linesBy isEnd xs) := by
  fun_induction linesWithEnds isEnd xs with
  | case1 => rw [linesBy_nil]; exact .nil
  | case2 xs h ih =>
    obtain ⟨line, e, rest, hline, he, hxs, htake⟩ | ⟨hxs, htake⟩ := takeLine_cases isEnd xs
    · rw [htake] at ih ⊢
      rw [hxs, linesBy_append_cons hline he]
      exact .cons ⟨hline, .inr ⟨e, he, rfl⟩⟩ ih
    · rw [htake, linesWithEnds_nil, linesBy_eq_singleton hxs h]
      exact .cons ⟨hxs, .inl rfl⟩ .nil

/-! ## Sequences that end with an end -/

/-- The last element, if there is one, ends a line. -/
def EndsLine (isEnd : α → Bool) (xs : List α) : Prop :=
  ∀ x ∈ xs.getLast?, isEnd x = true

instance (isEnd : α → Bool) (xs : List α) : Decidable (EndsLine isEnd xs) :=
  inferInstanceAs (Decidable (∀ x ∈ xs.getLast?, isEnd x = true))

theorem EndsLine.rest {line rest : List α} {e : α} (h : EndsLine isEnd (line ++ e :: rest)) :
    EndsLine isEnd rest := by
  intro x hx
  have hne : rest ≠ [] := by
    rintro rfl
    cases hx
  refine h x ?_
  rwa [List.getLast?_append_of_ne_nil _ (List.cons_ne_nil e rest), List.getLast?_cons,
    List.getLast?_eq_some_getLast hne, Option.getD_some, ← List.getLast?_eq_some_getLast hne]

/-- A sequence that is not empty and ends with an end starts with a line and its end. -/
theorem EndsLine.exists_line (h : EndsLine isEnd xs) (hne : xs ≠ []) :
    ∃ line e rest, (∀ x ∈ line, isEnd x = false) ∧ isEnd e = true ∧ xs = line ++ e :: rest ∧
      (takeLine isEnd xs).2 = rest ∧ EndsLine isEnd rest := by
  obtain ⟨line, e, rest, hline, he, hxs, htake⟩ | ⟨hxs, _⟩ := takeLine_cases isEnd xs
  · exact ⟨line, e, rest, hline, he, hxs, congrArg Prod.snd htake, (hxs ▸ h).rest⟩
  · have hlast := hxs (xs.getLast hne) (List.getLast_mem hne)
    rw [h _ (List.getLast?_eq_some_getLast hne)] at hlast
    cases hlast

/-- Where no line is open at the end, the lines of what follows come behind. -/
theorem linesBy_append (h : EndsLine isEnd xs) (ys : List α) :
    linesBy isEnd (xs ++ ys) = linesBy isEnd xs ++ linesBy isEnd ys := by
  fun_induction linesWithEnds isEnd xs with
  | case1 => simp
  | case2 xs hne ih =>
    obtain ⟨line, e, rest, hline, he, rfl, hrest, hends⟩ := h.exists_line hne
    rw [hrest] at ih
    rw [List.append_assoc, List.cons_append, linesBy_append_cons hline he,
      linesBy_append_cons hline he, ih hends, List.cons_append]

/-- There are as many lines as ends then. -/
theorem length_linesBy (h : EndsLine isEnd xs) :
    (linesBy isEnd xs).length = xs.countP isEnd := by
  fun_induction linesWithEnds isEnd xs with
  | case1 => simp
  | case2 xs hne ih =>
    obtain ⟨line, e, rest, hline, he, rfl, hrest, hends⟩ := h.exists_line hne
    rw [hrest] at ih
    have hnone : line.countP isEnd = 0 := List.countP_eq_zero.mpr fun x hx => by simp [hline x hx]
    rw [linesBy_append_cons hline he, List.length_cons, ih hends, List.countP_append, hnone,
      List.countP_cons, if_pos he, Nat.zero_add]

/-! ## Lines of a text -/

/-- A sequence without its last element, if that is a given one. -/
def stripLast? [DecidableEq α] (x : α) (xs : List α) : Option (List α) :=
  if xs.getLast? = some x then some xs.dropLast else none

theorem eq_concat_of_stripLast? [DecidableEq α] {x : α} {xs ys : List α}
    (h : stripLast? x xs = some ys) : xs = ys ++ [x] := by
  unfold stripLast? at h
  split at h
  · next hlast =>
    cases h
    exact (List.dropLast_append_getLast? x hlast).symm
  · cases h

/-- A line without its end: a line feed, and a carriage return before it if there is
one. A carriage return alone is no end. -/
def stripEnd (line : List Char) : List Char :=
  match stripLast? '\n' line with
  | none => line
  | some line' => (stripLast? '\r' line').getD line'

/-- The lines of a text without their ends. -/
def textLines (cs : List Char) : List (List Char) :=
  (linesWithEnds (fun c => decide (c = '\n')) cs).map stripEnd

example : stripEnd "b 2 0 1\r\n".toList = "b 2 0 1".toList := by decide

example : stripEnd "b 2 0 1\r".toList = "b 2 0 1\r".toList := by decide

end WatchLists.Text
