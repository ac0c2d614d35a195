import WatchLists.Proofs.Inspector.Delivery
import WatchLists.Proofs.Text.Lines

/-!
# Files and texts are read alike

A file is read line by line as the lines come, each with its end and with a counter; a
text is split first, its lines lose their ends, and the lines are numbered. A file that
holds a text is read as the text is. One that holds no text is refused at its first bad
line, be it bad as bytes or as a line, so a malformed line hides bad bytes behind it.

- `readOn`, `readOn_eq`: the lines of a file as they come.
- `readEach`, `readEach_eq`: the lines of a text.
- `exists_line_of_decode?`: bytes that are no text have a line that is none.
- `load_agrees`: a file beside a text, and a file without one.
-/

namespace WatchLists.WatchList

open Text

/-! ## Two ways to read -/

/-- Whether a byte ends a line. -/
def isLineFeed (b : UInt8) : Bool := decide (b = 10)

/-- Reads the lines of a file with their ends until nothing is left, after some lines
that were counted, with the watches that were found in them. -/
def readOn (counted : Nat) (found : WatchList) (bytes : List UInt8) : Except Error WatchList :=
  if _h : bytes = [] then .ok found
  else
    match decode? (takeLine isLineFeed bytes).1 with
    | none => .error .inaccessible
    | some line =>
      match Watch.ofLine? line with
      | .ok w? => readOn (counted + 1) (found ++ w?.toList) (takeLine isLineFeed bytes).2
      | .error e => .error (e.atLine (counted + 1))
termination_by bytes.length
decreasing_by exact length_takeLine_lt _h

/-- Reads the lines of a text, the first of which has an index, with the watches that
were found before. -/
def readEach (i : Nat) (found : WatchList) : List (List Char) → Except Error WatchList
  | [] => .ok found
  | line :: rest =>
    match Watch.ofLine? line with
    | .ok w? => readEach (i + 1) (found ++ w?.toList) rest
    | .error e => .error (e.atLine (i + 1))

theorem ofByteLine?_eq_some {bs : List UInt8} {cs : List Char} (h : decode? bs = some cs) :
    ofByteLine? bs = Watch.ofLine? cs := by
  rw [ofByteLine?, h]

theorem ofByteLine?_eq_none {bs : List UInt8} (h : decode? bs = none) :
    ofByteLine? bs = .error .inaccessible := by
  rw [ofByteLine?, h]

variable {α : Type}

/-- The watches that were found come before those of the rest. -/
theorem map_linesFrom_cons {read : α → Except Error (Option Watch)} {l : α} {w? : Option Watch}
    (h : read l = .ok w?) (found : WatchList) (n : Nat) (ls : List α) :
    (linesFrom read n (l :: ls)).map (found ++ ·)
      = (linesFrom read (n + 1) ls).map (found ++ w?.toList ++ ·) := by
  rw [linesFrom_cons, h]
  exact map_append_map found w?.toList _

theorem readOn_eq (counted : Nat) (found : WatchList) (bytes : List UInt8) :
    readOn counted found bytes
      = (linesFrom ofByteLine? (counted + 1) (linesWithEnds isLineFeed bytes)).map
          (found ++ ·) := by
  fun_induction readOn counted found bytes with
  | case1 counted found =>
    rw [linesWithEnds_nil]
    exact congrArg Except.ok (List.append_nil found).symm
  | case2 counted found bytes h hbad =>
    rw [linesWithEnds_of_ne_nil h, linesFrom_cons, ofByteLine?_eq_none hbad]
    rfl
  | case3 counted found bytes h line hline w? hread ih =>
    rw [linesWithEnds_of_ne_nil h, ih,
      map_linesFrom_cons ((ofByteLine?_eq_some hline).trans hread)]
  | case4 counted found bytes h line hline e hread =>
    rw [linesWithEnds_of_ne_nil h, linesFrom_cons, ofByteLine?_eq_some hline, hread]
    rfl

theorem readEach_eq (i : Nat) (found : WatchList) (ls : List (List Char)) :
    readEach i found ls = (linesFrom Watch.ofLine? (i + 1) ls).map (found ++ ·) := by
  fun_induction readEach i found ls with
  | case1 i found => exact congrArg Except.ok (List.append_nil found).symm
  | case2 i found line rest w? hread ih => rw [map_linesFrom_cons hread, ih]
  | case3 i found line rest e hread =>
    rw [linesFrom_cons, hread]
    rfl

/-! ## Lines with and without their ends -/

/-- A blank at its end makes no difference to a line. -/
theorem ofLine?_concat_blank {b : Char} (hb : isBlank b = true) (line : List Char) :
    Watch.ofLine? (line ++ [b]) = Watch.ofLine? line := by
  rw [Watch.ofLine?, Watch.ofLine?, words_concat_blank hb]

theorem ofLine?_stripEnd (line : List Char) :
    Watch.ofLine? (stripEnd line) = Watch.ofLine? line := by
  unfold stripEnd
  cases hfeed : stripLast? '\n' line with
  | none => rfl
  | some line' =>
    rw [eq_concat_of_stripLast? hfeed, ofLine?_concat_blank (by decide)]
    show Watch.ofLine? ((stripLast? '\r' line').getD line') = _
    cases hreturn : stripLast? '\r' line' with
    | none => rfl
    | some line'' =>
      rw [eq_concat_of_stripLast? hreturn, ofLine?_concat_blank (by decide)]
      rfl

theorem ofByteLine?_concat_lineFeed {line : List UInt8} (h : ∀ b ∈ line, isLineFeed b = false) :
    ofByteLine? (line ++ [10]) = ofByteLine? line := by
  rw [ofByteLine?, ofByteLine?, decode?_concat_lineFeed h]
  cases decode? line with
  | none => rfl
  | some cs => exact ofLine?_concat_blank (by decide) cs

/-- **A file** is read as its lines come. -/
theorem ofBytes_eq_readOn (bytes : List UInt8) : ofBytes bytes = readOn 0 [] bytes := by
  have hlines : linesFrom ofByteLine? 1 (linesWithEnds isLineFeed bytes)
      = linesFrom ofByteLine? 1 (linesBy isLineFeed bytes) := by
    refine linesFrom_congr ((forall₂_linesBy isLineFeed bytes).imp ?_) 1
    rintro run line ⟨hline, rfl | ⟨e, he, rfl⟩⟩
    · rfl
    · rw [of_decide_eq_true he, ofByteLine?_concat_lineFeed hline]
  rw [readOn_eq, hlines]
  show ofLines ofByteLine? (linesBy isLineFeed bytes) = _
  rw [ofLines_eq_linesFrom]
  cases linesFrom ofByteLine? 1 (linesBy isLineFeed bytes) <;> rfl

/-- **A text** is read by its lines without their ends. -/
theorem ofText_eq_readEach (text : String) :
    ofText text = readEach 0 [] (textLines text.toList) := by
  have hlines : linesFrom Watch.ofLine? 1 (textLines text.toList)
      = linesFrom Watch.ofLine? 1 (lines text.toList) := by
    refine linesFrom_congr ?_ 1
    unfold textLines
    refine List.forall₂_map_left_iff.mpr ((forall₂_linesBy _ text.toList).imp ?_)
    rintro run line ⟨_, hrun⟩
    rw [ofLine?_stripEnd]
    rcases hrun with rfl | ⟨e, he, rfl⟩
    · rfl
    · rw [of_decide_eq_true he, ofLine?_concat_blank (by decide)]
  rw [readEach_eq, hlines, ofText, ofLines_eq_linesFrom]
  cases linesFrom Watch.ofLine? 1 (lines text.toList) <;> rfl

/-! ## Bytes that are no text -/

/-- Bytes that are no text have a line that is none. -/
theorem exists_line_of_decode? {bytes : List UInt8} (h : decode? bytes = none) :
    ∃ line ∈ linesBy isLineFeed bytes, decode? line = none := by
  by_contra hnone
  have hlines : ∀ line ∈ linesBy isLineFeed bytes, ∃ cs, decode? line = some cs :=
    fun line hline => Option.ne_none_iff_exists'.mp fun hbad => hnone ⟨line, hline, hbad⟩
  -- then every line is text with its end too, and so is all of them
  have hruns : ∀ run ∈ linesWithEnds isLineFeed bytes, ∃ cs, decode? run = some cs := by
    have hpairs := forall₂_linesBy isLineFeed bytes
    generalize linesWithEnds isLineFeed bytes = runs at hpairs
    generalize linesBy isLineFeed bytes = lines at hpairs hlines
    induction hpairs with
    | nil => nofun
    | cons hfirst _ ih =>
      obtain ⟨⟨cs, hcs⟩, hrest⟩ := List.forall_mem_cons.mp hlines
      refine List.forall_mem_cons.mpr ⟨?_, ih hrest⟩
      obtain ⟨hline, rfl | ⟨e, he, rfl⟩⟩ := hfirst
      · exact ⟨cs, hcs⟩
      · rw [of_decide_eq_true he, decode?_concat_lineFeed hline, hcs]
        exact ⟨_, rfl⟩
  obtain ⟨cs, hcs⟩ := exists_decode?_flatten hruns
  rw [flatten_linesWithEnds, h] at hcs
  cases hcs

/-- The lines are all runs between line feeds, but an empty one at the end. -/
theorem splitOnP_eq_linesBy_append (isEnd : α → Bool) (xs : List α) :
    ∃ rest, xs.splitOnP isEnd = linesBy isEnd xs ++ rest := by
  unfold linesBy
  dsimp only
  split
  · next hlast => exact ⟨[[]], (List.dropLast_append_getLast? [] hlast).symm⟩
  · exact ⟨[], (List.append_nil _).symm⟩

/-- **A file beside a text.** A file that can be read is read as its lines come. If it
holds a text, the list is that of the text, or the error is, with the same number; and
the text is read by its lines without their ends. If it holds none, there is a first
line between line feeds that is no text or is refused, and it decides the error. -/
theorem load_agrees [Surroundings] {d : Disk} {path : String} {bytes : List UInt8}
    (hread : ({ disk := d } : Session).readFile path = some bytes) :
    (d.load path = (readOn 0 [] bytes).mapError fun e => .refused e (some path)) ∧
    (∀ text : String, bytes = encode text.toList →
      (d.load path = (ofText text).mapError fun e => .refused e (some path)) ∧
      ofText text = readEach 0 [] (textLines text.toList)) ∧
    (decode? bytes = none → ∃ pre line post,
      bytes.splitOnP isLineFeed = pre ++ line :: post ∧
      (∀ l ∈ pre, ∃ cs w?, decode? l = some cs ∧ Watch.ofLine? cs = .ok w?) ∧
      (decode? line = none ∧ d.load path = .error (.refused .inaccessible (some path)) ∨
        ∃ cs e, decode? line = some cs ∧ Watch.ofLine? cs = .error e ∧
          d.load path = .error (.refused (e.atLine (pre.length + 1)) (some path)))) := by
  have hload : d.load path = (ofBytes bytes).mapError fun e => .refused e (some path) :=
    Session.load_eq hread
  refine ⟨?_, ?_, fun hbad => ?_⟩
  · rw [hload, ofBytes_eq_readOn]
  · rintro text rfl
    rw [hload, ofBytes_encode]
    exact ⟨rfl, ofText_eq_readEach text⟩
  · have hbytes : ofBytes bytes = linesFrom ofByteLine? 1 (linesBy isLineFeed bytes) :=
      ofLines_eq_linesFrom _
    rw [hbytes] at hload
    cases hlines : linesFrom ofByteLine? 1 (linesBy isLineFeed bytes) with
    | ok ws =>
      -- some line is no text
      obtain ⟨line, hline, hnone⟩ := exists_line_of_decode? hbad
      obtain ⟨w?, hok⟩ := exists_ok_of_linesFrom hlines line hline
      cases (ofByteLine?_eq_none hnone).symm.trans hok
    | error e =>
      rw [hlines] at hload
      obtain ⟨pre, line, post, e', hsplit, hpre, hline, rfl⟩ := linesFrom_eq_error_iff.mp hlines
      obtain ⟨rest, hruns⟩ := splitOnP_eq_linesBy_append isLineFeed bytes
      refine ⟨pre, line, post ++ rest, by rw [hruns, hsplit, List.append_assoc]; rfl,
        fun l hl => ?_, ?_⟩
      · obtain ⟨w?, hok⟩ := hpre l hl
        cases hcs : decode? l with
        | none => cases (ofByteLine?_eq_none hcs).symm.trans hok
        | some cs => exact ⟨cs, w?, rfl, (ofByteLine?_eq_some hcs).symm.trans hok⟩
      · cases hcs : decode? line with
        | none =>
          cases (ofByteLine?_eq_none hcs).symm.trans hline
          exact .inl ⟨rfl, hload⟩
        | some cs =>
          refine .inr ⟨cs, e', rfl, (ofByteLine?_eq_some hcs).symm.trans hline, ?_⟩
          rw [hload, Nat.add_comm 1]
          rfl

/-- Line ends are mixed in a text whose last line is malformed, and a malformed line comes
before bad bytes. -/
theorem load_agrees_malformed :
    let text := "b 2 0 1\r\n# c\r\n\n\rc 4 -5\nb 2\r"
    let bytes := encode "b 2\n".toList ++ [255, 10]
    let d : Disk := ⟨[(.inside ["t"], .file (encode text.toList)), (.inside ["u"], .file bytes)]⟩
    (({ disk := d } : Session).readFile "t" = some (encode text.toList) ∧
      d.load "t" = .error (.refused (.malformedLine 5) (some "t"))) ∧
    ({ disk := d } : Session).readFile "u" = some bytes ∧ decode? bytes = none ∧
      d.load "u" = .error (.refused (.malformedLine 1) (some "u")) := by
  intro text bytes d
  have ht : ({ disk := d } : Session).readFile "t" = some (encode text.toList) := by
    decide +kernel
  have hu : ({ disk := d } : Session).readFile "u" = some bytes := by decide +kernel
  have hbad : decode? bytes = none := by decide +kernel
  refine ⟨⟨ht, ?_⟩, hu, hbad, ?_⟩
  · have htext : ofText text = .error (.malformedLine 5) := by decide +kernel
    rw [((load_agrees ht).2.1 text rfl).1, htext]
    rfl
  · obtain ⟨pre, line, post, hsplit, hpre, hline⟩ := (load_agrees hu).2.2 hbad
    have hruns : bytes.splitOnP isLineFeed = [encode "b 2".toList, [255], []] := by
      decide +kernel
    have hmalformed : Watch.ofLine? "b 2".toList = .error (.malformedLine 0) := by decide +kernel
    rw [hruns] at hsplit
    cases pre with
    | nil =>
      cases hsplit
      rw [decode?_encode] at hline
      obtain ⟨hnone, _⟩ | ⟨cs, e, hcs, he, hload⟩ := hline
      · cases hnone
      · cases hcs
        cases hmalformed.symm.trans he
        exact hload
    | cons l pre =>
      -- the malformed line is not among those before the first bad one
      obtain ⟨rfl, _⟩ := List.cons.inj hsplit
      obtain ⟨cs, w?, hcs, hok⟩ := hpre _ List.mem_cons_self
      cases (decode?_encode _).symm.trans hcs
      cases hmalformed.symm.trans hok

end WatchLists.WatchList
