import WatchLists.Proofs.Text.Encoding
import WatchLists.Proofs.Watch.Obtainable
import WatchLists.Proofs.WatchList.Lines

/-!
# Texts that read alike

Two texts can differ and yet be read as the same list. The bytes of a text are
read as the text is; and comment lines may be written before a dump, which is
how progress and result can share a stream.

- `ofBytes_encode`: a stored text.
- `exists_view_of_mem_ofBytes`: the watches that a file can hold.
- `IsComment`: a text that may stand before any other without a trace.
- `IsCommentLine`, `isComment_line`: a line that starts with `#` is one.
- `transcript`, `isComment_transcript`: so are any number of them.
-/

namespace WatchLists

/-- A line whose first character is `#` describes nothing. -/
theorem Watch.ofLine?_comment (cs : List Char) : ofLine? ('#' :: cs) = .ok none := by
  obtain ⟨r, rs, hcs⟩ := List.exists_cons_of_ne_nil (List.splitOnP_ne_nil Text.isBlank cs)
  have hsplit : ('#' :: cs).splitOnP Text.isBlank = ('#' :: r) :: rs := by
    rw [List.splitOnP_cons_eq_if_modifyHead, if_neg (by decide), hcs]
    rfl
  have hwords : Text.words ('#' :: cs) = ('#' :: r) :: rs.filter fun w => !w.isEmpty := by
    rw [Text.words, hsplit]
    rfl
  rw [ofLine?, hwords]
  rfl

namespace WatchList

open Text

/-! ## Stored texts -/

theorem ofByteLine?_encode (cs : List Char) : ofByteLine? (encode cs) = Watch.ofLine? cs := by
  rw [ofByteLine?, decode?_encode]

theorem linesFrom_map_encode (n : Nat) (ls : List (List Char)) :
    linesFrom ofByteLine? n (ls.map encode) = linesFrom Watch.ofLine? n ls :=
  linesFrom_congr (List.forall₂_map_left_iff.mpr
    (List.forall₂_same.mpr fun l _ => ofByteLine?_encode l)) n

/-- A file that holds a text is read as the text is. -/
theorem ofBytes_encode (text : String) : ofBytes (encode text.toList) = ofText text := by
  rw [ofBytes, ofText, linesBy_encode, ofLines_eq_linesFrom, ofLines_eq_linesFrom]
  exact linesFrom_map_encode 1 _

/-- A watch of a file packs a view that can be written and read again. -/
theorem exists_view_of_mem_ofBytes {bytes : List UInt8} {ws : WatchList}
    (h : ofBytes bytes = .ok ws) {w : Watch} (hw : w ∈ ws) :
    ∃ v : View Abstraction, v.toWatch = w ∧ v.IsDimacs := by
  rw [ofBytes, ofLines_eq_linesFrom] at h
  obtain ⟨line, _, hread⟩ := mem_of_linesFrom h hw
  unfold ofByteLine? at hread
  split at hread
  · exact Watch.exists_view_of_ofLine? hread
  · cases hread

/-! ## Comments -/

/-- A text that may stand before any other without a trace in the list. The rest
is then read with other line numbers, so errors may differ. -/
def IsComment (text : String) : Prop :=
  ∀ rest ws, ofText (text ++ rest) = .ok ws ↔ ofText rest = .ok ws

theorem isComment_empty : IsComment "" := by
  intro rest ws
  rw [String.empty_append]

theorem IsComment.append {s t : String} (hs : IsComment s) (ht : IsComment t) :
    IsComment (s ++ t) := by
  intro rest ws
  rw [String.append_assoc]
  exact (hs (t ++ rest) ws).trans (ht rest ws)

/-- A line of a comment: it starts as one, and is one line. -/
def IsCommentLine (line : String) : Prop :=
  line.toList.head? = some '#' ∧ '\n' ∉ line.toList

theorem ofLine?_of_isCommentLine {line : String} (h : IsCommentLine line) :
    Watch.ofLine? line.toList = .ok none := by
  obtain ⟨hhead, _⟩ := h
  cases hline : line.toList with
  | nil =>
    rw [hline] at hhead
    cases hhead
  | cons c cs =>
    rw [hline] at hhead
    cases hhead
    exact Watch.ofLine?_comment cs

/-- A line comes before the lines of what follows its end. -/
theorem lines_append_lineFeed {line : String} (h : '\n' ∉ line.toList) (rest : String) :
    lines (line ++ "\n" ++ rest).toList = line.toList :: lines rest.toList := by
  have htext : (line ++ "\n" ++ rest).toList = line.toList ++ '\n' :: rest.toList := by
    simp
  have hline : ∀ c ∈ line.toList, decide (c = '\n') = false := fun c hc =>
    decide_eq_false fun heq => h (heq ▸ hc)
  rw [htext]
  exact linesBy_append_cons hline (decide_eq_true rfl) _

/-- One line of a comment. -/
theorem isComment_line {line : String} (h : IsCommentLine line) : IsComment (line ++ "\n") := by
  intro rest ws
  rw [ofText, ofText, lines_append_lineFeed h.2, ofLines_eq_linesFrom, ofLines_eq_linesFrom,
    linesFrom_cons_none (ofLine?_of_isCommentLine h)]
  exact linesFrom_eq_ok_iff

/-- Comments alone are read as the empty list. -/
theorem ofText_of_isComment {text : String} (h : IsComment text) : ofText text = .ok [] := by
  have hempty := (h "" []).mpr rfl
  rwa [String.append_empty] at hempty

/-! ## Lines one after the other -/

/-- Lines, each ended by a line feed. -/
def transcript : List String → String
  | [] => ""
  | line :: ls => line ++ "\n" ++ transcript ls

theorem transcript_concat (ls : List String) (line : String) :
    transcript (ls ++ [line]) = transcript ls ++ (line ++ "\n") := by
  induction ls with
  | nil => simp [transcript]
  | cons l ls ih =>
    rw [List.cons_append, transcript, transcript, ih]
    exact String.append_assoc.symm

/-- What was written line by line has these lines. -/
theorem lines_transcript {ls : List String} (h : ∀ line ∈ ls, '\n' ∉ line.toList) :
    lines (transcript ls).toList = ls.map String.toList := by
  induction ls with
  | nil => rfl
  | cons line ls ih =>
    obtain ⟨hline, hls⟩ := List.forall_mem_cons.mp h
    rw [transcript, lines_append_lineFeed hline, ih hls, List.map_cons]

/-- Lines of comments make a comment. -/
theorem isComment_transcript {ls : List String} (h : ∀ line ∈ ls, IsCommentLine line) :
    IsComment (transcript ls) := by
  induction ls with
  | nil => exact isComment_empty
  | cons line ls ih =>
    obtain ⟨hline, hls⟩ := List.forall_mem_cons.mp h
    exact (isComment_line hline).append (ih hls)

end WatchList

end WatchLists
