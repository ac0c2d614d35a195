import WatchLists.Proofs.Text.Lines
import WatchLists.Proofs.Text.Words
import WatchLists.Proofs.WatchList.Lines

/-!
# Texts put together

Where a text is cut between two lines, its parts are read on their own: the watches of the
first part come before those of the second, and the first line that is refused, in the one
or the other, decides the error. The lines of the second part count from those of the
first, so a malformed line has its number moved on by as many; no other error has a number.
A line that is blank or a comment counts as a line and is nothing else.

- `Error.shift`: an error some lines further on.
- `linesFrom_shift`, `linesFrom_append`: reading from another number, and reading on.
- `ofText_append`: reading a text in two parts.
- `IsSkipped`, `ofLine?_eq_none_iff`: the lines that describe nothing.
- `ofText_compositional`: parts of a text, lines that are inserted, and the place of an error.
-/

namespace WatchLists

open Text

/-- The error of a text that stands behind `n` lines. Only a malformed line has a number. -/
def Error.shift (n : Nat) : Error → Error
  | malformedLine line => malformedLine (line + n)
  | e => e

theorem Error.shift_of_ne {e : Error} (h : ∀ n, e ≠ malformedLine n) (k : Nat) :
    e.shift k = e := by
  cases e with
  | malformedLine n => exact absurd rfl (h n)
  | _ => rfl

theorem Error.shift_atLine (k n : Nat) (e : Error) : (e.atLine n).shift k = e.atLine (n + k) := by
  cases e <;> rfl

/-! ## Lines that describe nothing -/

/-- A line that is blank, or a comment: the first character that is not blank, if there is
one, is `#`. -/
def IsSkipped (line : List Char) : Prop :=
  ∀ c ∈ line.find? fun c => !isBlank c, c = '#'

instance (line : List Char) : Decidable (IsSkipped line) :=
  decidable_of_iff (((line.find? fun c => !isBlank c).all fun c => decide (c = '#')) = true)
    (by simp [IsSkipped, Option.all_eq_true])

/-- The first word of a line starts with the first character that is not blank. -/
theorem head?_words (line : List Char) :
    (words line).head?.bind List.head? = line.find? fun c => !isBlank c := by
  have hword : ∀ {w : List Char} (rest : List Char), IsWord w →
      w.head? = (w ++ rest).find? fun c => !isBlank c := by
    rintro w rest ⟨hne, hblank⟩
    obtain ⟨c, cs, rfl⟩ := List.exists_cons_of_ne_nil hne
    simp [hblank c List.mem_cons_self]
  have hsplit := words_eq_iff.mp (rfl : words line = words line)
  generalize words line = ws at hsplit
  induction hsplit with
  | nil => rfl
  | blank hb _ ih => rw [ih, List.find?_cons, hb]; rfl
  | @last w hw => exact (hword [] hw).trans (by rw [List.append_nil])
  | word hw _ _ _ => exact hword _ hw

/-- These are the lines that are read as nothing. -/
theorem ofLine?_eq_none_iff {line : List Char} :
    Watch.ofLine? line = .ok none ↔ IsSkipped line := by
  unfold IsSkipped
  rw [← head?_words, Watch.ofLine?]
  cases hwords : words line with
  | nil => exact iff_of_true rfl nofun
  | cons head args =>
    have hhead : head ∈ words line := hwords ▸ List.mem_cons_self
    have hne : head ≠ [] := by simpa using (List.mem_filter.mp hhead).2
    obtain ⟨c, cs, rfl⟩ := List.exists_cons_of_ne_nil hne
    show (if some c = some '#' then _ else _) = _ ↔ ∀ d ∈ some c, d = '#'
    by_cases hc : c = '#'
    · rw [if_pos (congrArg some hc)]
      exact iff_of_true rfl fun d hd => (Option.mem_some.mp hd).symm.trans hc
    · rw [if_neg fun h => hc (Option.some.inj h)]
      refine iff_of_false (fun h => ?_) fun h => hc (h c (Option.mem_some_self c))
      obtain ⟨w, _, hw⟩ := exists_ok_of_map h
      cases hw

namespace WatchList

/-! ## Reading on -/

section Lines

variable {α : Type} {read : α → Except Error (Option Watch)}

/-- Lines with other numbers are read with these numbers in their errors. -/
theorem linesFrom_shift (n k : Nat) (ls : List α) :
    linesFrom read (n + k) ls = (linesFrom read n ls).mapError (Error.shift k) := by
  induction ls generalizing n with
  | nil => rfl
  | cons l ls ih =>
    rw [linesFrom_cons, linesFrom_cons]
    cases read l with
    | error e => exact congrArg Except.error (Error.shift_atLine k n e).symm
    | ok w? =>
      show (linesFrom read (n + k + 1) ls).map _ = ((linesFrom read (n + 1) ls).map _).mapError _
      rw [Nat.add_right_comm, ih, map_mapError]

/-- Lines are read up to a place, and on from there. -/
theorem linesFrom_append (n : Nat) (ls ls' : List α) :
    linesFrom read n (ls ++ ls') = (linesFrom read n ls).bind fun ws =>
      (linesFrom read (n + ls.length) ls').map (ws ++ ·) := by
  induction ls generalizing n with
  | nil =>
    show linesFrom read n ls' = (linesFrom read n ls').map ([] ++ ·)
    cases linesFrom read n ls' <;> rfl
  | cons l ls ih =>
    rw [List.cons_append, linesFrom_cons, linesFrom_cons]
    cases read l with
    | error e => rfl
    | ok w? =>
      show (linesFrom read (n + 1) (ls ++ ls')).map _ = _
      have hlength : n + (l :: ls).length = n + 1 + ls.length := by
        rw [List.length_cons]
        omega
      rw [ih, hlength]
      cases linesFrom read (n + 1) ls with
      | error e => rfl
      | ok ws => exact map_append_map w?.toList ws _

/-- Lines that describe nothing are passed over. -/
theorem linesFrom_skipped (n : Nat) {ls : List α} (h : ∀ l ∈ ls, read l = .ok none) :
    linesFrom read n ls = .ok [] := by
  induction ls generalizing n with
  | nil => rfl
  | cons l ls ih =>
    obtain ⟨hl, hls⟩ := List.forall_mem_cons.mp h
    rw [linesFrom_cons_none hl, ih _ hls]

/-- Lines that describe nothing, put between others, move the numbers behind them. -/
theorem linesFrom_insert (n : Nat) (pre : List α) {mid : List α}
    (hmid : ∀ l ∈ mid, read l = .ok none) (post : List α) :
    linesFrom read n (pre ++ mid ++ post) = (linesFrom read n pre).bind fun ws =>
      ((linesFrom read (n + pre.length) post).mapError (Error.shift mid.length)).map (ws ++ ·) := by
  rw [List.append_assoc, linesFrom_append]
  refine congrArg (Except.bind _) (funext fun ws => ?_)
  rw [linesFrom_append, linesFrom_skipped _ hmid, ← linesFrom_shift]
  cases linesFrom read (n + pre.length + mid.length) post <;> rfl

end Lines

/-! ## Texts -/

theorem ofText_eq_linesFrom (text : String) :
    ofText text = linesFrom Watch.ofLine? 1 (lines text.toList) :=
  ofLines_eq_linesFrom _

/-- A text is empty or ends with a line feed. -/
def EndsWithLineFeed (s : String) : Prop := EndsLine (fun c => decide (c = '\n')) s.toList

instance (s : String) : Decidable (EndsWithLineFeed s) :=
  inferInstanceAs (Decidable (EndsLine _ s.toList))

/-- A text that is cut between two lines is read part by part. -/
theorem ofText_append {s : String} (h : EndsWithLineFeed s) (t : String) :
    ofText (s ++ t) = (ofText s).bind fun ws =>
      ((ofText t).mapError (Error.shift (s.toList.count '\n'))).map (ws ++ ·) := by
  have hlines : lines (s ++ t).toList = lines s.toList ++ lines t.toList := by
    rw [String.toList_append]
    exact linesBy_append h t.toList
  have hcount : (lines s.toList).length = s.toList.count '\n' :=
    (length_linesBy h).trans (List.countP_congr fun c _ => by simp)
  simp only [ofText_eq_linesFrom]
  rw [hlines, linesFrom_append, linesFrom_shift, hcount]

/-- The list, or the error, of each part decides that of the whole. -/
theorem ofText_append_cases {s : String} (h : EndsWithLineFeed s) (t : String) :
    (∀ e, ofText s = .error e → ofText (s ++ t) = .error e) ∧
    ∀ ws, ofText s = .ok ws →
      (∀ ws', ofText t = .ok ws' → ofText (s ++ t) = .ok (ws ++ ws')) ∧
      (∀ n, ofText t = .error (.malformedLine n) →
        ofText (s ++ t) = .error (.malformedLine (n + s.toList.count '\n'))) ∧
      ∀ e, (∀ n, e ≠ .malformedLine n) → ofText t = .error e → ofText (s ++ t) = .error e := by
  rw [ofText_append h t]
  refine ⟨fun e hs => by rw [hs]; rfl, fun ws hs => ?_⟩
  rw [hs]
  refine ⟨fun ws' ht => by rw [ht]; rfl, fun n ht => by rw [ht]; rfl, fun e hne ht => ?_⟩
  rw [ht]
  exact congrArg Except.error (Error.shift_of_ne hne _)

/-- Where the lines of a text are those of another one and more that describe nothing, the
same list is read, and an error behind these lines has its number moved on. -/
theorem ofText_insert {text text' : String} {pre mid post : List (List Char)}
    (htext : lines text.toList = pre ++ post) (htext' : lines text'.toList = pre ++ mid ++ post)
    (hmid : ∀ line ∈ mid, IsSkipped line) :
    (∀ ws, ofText text' = .ok ws ↔ ofText text = .ok ws) ∧
    ((∃ line ∈ pre, ∃ e, Watch.ofLine? line = .error e) → ofText text' = ofText text) ∧
    ((∀ line ∈ pre, ∃ w?, Watch.ofLine? line = .ok w?) →
      ofText text' = (ofText text).mapError (Error.shift mid.length)) := by
  have hread := linesFrom_insert 1 pre (fun l hl => ofLine?_eq_none_iff.mpr (hmid l hl)) post
  rw [ofText_eq_linesFrom, ofText_eq_linesFrom, htext, htext', hread, linesFrom_append]
  cases hpre : linesFrom Watch.ofLine? 1 pre with
  | error e =>
    refine ⟨fun _ => Iff.rfl, fun _ => rfl, fun hok => ?_⟩
    obtain ⟨_, line, _, e', rfl, _, hline, _⟩ := linesFrom_eq_error_iff.mp hpre
    obtain ⟨w?, hw⟩ := hok line (List.mem_append_right _ List.mem_cons_self)
    cases hline.symm.trans hw
  | ok ws =>
    have hmoved := map_mapError (linesFrom Watch.ofLine? (1 + pre.length) post)
      (Error.shift mid.length) (ws ++ ·)
    refine ⟨fun vs => (Eq.congr_left hmoved).trans mapError_eq_ok_iff, ?_, fun _ => hmoved⟩
    rintro ⟨line, hline, e, he⟩
    obtain ⟨w?, hw⟩ := exists_ok_of_linesFrom hpre line hline
    cases he.symm.trans hw

/-- An error is that of the first line that is refused, at the number of this line. -/
theorem ofText_eq_error_iff {text : String} {e : Error} :
    ofText text = .error e ↔ ∃ pre line post e', lines text.toList = pre ++ line :: post ∧
      (∀ l ∈ pre, ∃ w?, Watch.ofLine? l = .ok w?) ∧
      Watch.ofLine? line = .error e' ∧ e = e'.atLine (pre.length + 1) := by
  rw [ofText_eq_linesFrom, linesFrom_eq_error_iff]
  simp only [Nat.add_comm 1]

/-- **Reading is compositional and locates errors.** Where a text is cut between two lines,
an error of the first part stays; otherwise the watches of the second part come behind, or
its error does, a malformed line with its number moved on by the line feeds before it.

Where lines that are blank or comments are put between the lines of a text, the same list
is read. An error before them stays, and one behind them is moved on by as many lines.

An error is that of the first line that is refused, and a malformed line has the number of
this line, from one. -/
theorem ofText_compositional :
    (∀ s t : String, EndsWithLineFeed s →
      (∀ e, ofText s = .error e → ofText (s ++ t) = .error e) ∧
      ∀ ws, ofText s = .ok ws →
        (∀ ws', ofText t = .ok ws' → ofText (s ++ t) = .ok (ws ++ ws')) ∧
        (∀ n, ofText t = .error (.malformedLine n) →
          ofText (s ++ t) = .error (.malformedLine (n + s.toList.count '\n'))) ∧
        ∀ e, (∀ n, e ≠ .malformedLine n) → ofText t = .error e → ofText (s ++ t) = .error e) ∧
    (∀ (text text' : String) (pre mid post : List (List Char)),
      lines text.toList = pre ++ post → lines text'.toList = pre ++ mid ++ post →
      (∀ line ∈ mid, IsSkipped line) →
      (∀ ws, ofText text' = .ok ws ↔ ofText text = .ok ws) ∧
      ((∃ line ∈ pre, ∃ e, Watch.ofLine? line = .error e) → ofText text' = ofText text) ∧
      ((∀ line ∈ pre, ∃ w?, Watch.ofLine? line = .ok w?) →
        ofText text' = (ofText text).mapError (Error.shift mid.length))) ∧
    ∀ (text : String) (e : Error), ofText text = .error e ↔ ∃ pre line post e',
      lines text.toList = pre ++ line :: post ∧
      (∀ l ∈ pre, ∃ w?, Watch.ofLine? l = .ok w?) ∧
      Watch.ofLine? line = .error e' ∧ e = e'.atLine (pre.length + 1) :=
  ⟨fun _ t h => ofText_append_cases h t, fun _ _ _ _ _ htext htext' hmid =>
    ofText_insert htext htext' hmid, fun _ _ => ofText_eq_error_iff⟩

/-- Three line feeds stand before the second part, whose second line is malformed. A lone
carriage return ends no line. Then two lines are put behind the first one. -/
theorem ofText_compositional_shifted :
    let s := "# c\r\nb 2 0 1\n\n"
    let t := "\rc 4 -5\nb 2"
    let t' := "\rc 4 -5\n \r\n\t# b\nb 2"
    EndsWithLineFeed s ∧ ofText s = .ok [.ofBinary (.ofRaw 5) false ⟨1, by decide⟩] ∧
      ofText t = .error (.malformedLine 2) ∧ ofText (s ++ t) = .error (.malformedLine 5) ∧
      ofText t' = .error (.malformedLine 4) := by
  intro s t t'
  have hends : EndsWithLineFeed s := by decide +kernel
  have hs : ofText s = .ok [.ofBinary (.ofRaw 5) false ⟨1, by decide⟩] := by decide +kernel
  have ht : ofText t = .error (.malformedLine 2) := by decide +kernel
  have hcount : s.toList.count '\n' = 3 := by decide +kernel
  have hfirst : Watch.ofLine? "\rc 4 -5".toList
      = .ok (some (.ofClause ⟨4, by decide⟩ (Literal.ofRaw 10))) := by decide +kernel
  obtain ⟨hcut, hput, _⟩ := ofText_compositional
  have hwhole := ((hcut s t hends).2 _ hs).2.1 2 ht
  have hlines := hput t t' ["\rc 4 -5".toList] [" \r".toList, "\t# b".toList] ["b 2".toList]
    (by decide +kernel) (by decide +kernel) (by decide +kernel)
  have hmoved := hlines.2.2 (List.forall_mem_singleton.mpr ⟨_, hfirst⟩)
  rw [hcount] at hwhole
  rw [ht] at hmoved
  exact ⟨hends, hs, ht, hwhole, hmoved⟩

end WatchList

end WatchLists
