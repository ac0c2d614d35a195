import WatchLists.Proofs.Text.Words
import WatchLists.Proofs.Watch.Obtainable

/-!
# One watch, one line

Writing a watch and reading the line again. Both sides meet in the words of the
line: writing puts them together with spaces, reading splits the line and takes
each word for a field.

- `View.lineWords`, `View.lineText`: the words of a line, from the unpacked form.
- `line_toWatch`: writing yields these words.
- `ofWords_lineWords`, `ofLine?_lineText`: reading them yields the watch, or
  refuses its literal.
-/

namespace WatchLists

instance (v : View Abstraction) : Decidable v.IsDimacs :=
  match v with
  | .binary l _ _ _ => inferInstanceAs (Decidable l.IsDimacs)
  | .clause _ _ | .bnn _ _ | .idx _ => inferInstanceAs (Decidable True)

/-- The words of the line of a clause watch. -/
def clauseWords (form : ClauseForm) (o : ClauseOffset) (d : Abstraction) : List (List Char) :=
  match form, (Literal.ofRaw d.bits).dimacs? with
  | .blocker, some x => [['c'], o.text.toList, (Numeral.signed x).toList]
  | _, _ => [['a'], o.text.toList, (Numeral.decimal d.bits.val).toList]

/-- The words of the line of a view. -/
def View.lineWords (form : ClauseForm) : View Abstraction → List (List Char)
  | .clause o d => clauseWords form o d
  | .binary l r m i =>
    ['b'] :: (Numeral.signed l.toInt).toList :: [if r then '1' else '0'] :: i.text.toList ::
      if m then [['m']] else []
  | .bnn i r => [['n'], (Numeral.decimal i.val).toList, r.text.toList]
  | .idx i => [['i'], (Numeral.decimal i.val).toList]

/-- The line of a view: its words with a space between. -/
def View.lineText (form : ClauseForm) (v : View Abstraction) : List Char :=
  [' '].intercalate (v.lineWords form)

namespace Watch

open Text

/-! ## Writing -/

theorem isWord_of_mem_clauseWords {form : ClauseForm} {o : ClauseOffset} {d : Abstraction}
    {w : List Char} (h : w ∈ clauseWords form o d) : IsWord w := by
  unfold clauseWords at h
  split at h
  all_goals
    simp only [List.mem_cons, List.not_mem_nil, or_false] at h
    rcases h with rfl | rfl | rfl
  · decide
  · exact isWord_decimal _
  · exact isWord_signed _
  · decide
  · exact isWord_decimal _
  · exact isWord_decimal _

theorem isWord_of_mem_lineWords {form : ClauseForm} {v : View Abstraction} {w : List Char}
    (h : w ∈ v.lineWords form) : IsWord w := by
  cases v with
  | clause o d => exact isWord_of_mem_clauseWords h
  | binary l r m i =>
    simp only [View.lineWords, List.mem_cons] at h
    rcases h with rfl | rfl | rfl | rfl | h
    · decide
    · exact isWord_signed _
    · cases r <;> decide
    · exact isWord_decimal _
    · cases m
      · cases h
      · cases List.mem_singleton.mp h
        decide
  | bnn i r =>
    simp only [View.lineWords, List.mem_cons, List.not_mem_nil, or_false] at h
    rcases h with rfl | rfl | rfl
    · decide
    · exact isWord_decimal _
    · cases r <;> decide
  | idx i =>
    simp only [View.lineWords, List.mem_cons, List.not_mem_nil, or_false] at h
    rcases h with rfl | rfl
    · decide
    · exact isWord_decimal _

theorem toList_clauseLine (form : ClauseForm) (o : ClauseOffset) (d : Abstraction) :
    (clauseLine form o (.ofRaw d.bits) d).toList = [' '].intercalate (clauseWords form o d) := by
  unfold clauseLine clauseWords
  cases form <;> cases (Literal.ofRaw d.bits).dimacs? <;> simp [List.intercalate_cons_cons]

/-- A packed view is written as its words with spaces between. -/
theorem line_toWatch (form : ClauseForm) (v : View Abstraction) :
    ∃ s, v.toWatch.line form = .ok s ∧ s.toList = v.lineText form := by
  have hkind := View.kind_toWatch v
  have hans := answers_toWatch v
  cases v with
  | clause o d =>
    obtain ⟨hoffset, habstraction, hblocker, _⟩ := hans
    refine ⟨clauseLine form o (.ofRaw d.bits) d, ?_, toList_clauseLine form o d⟩
    simp only [line, hkind, View.kind, hoffset, habstraction, hblocker]
    rfl
  | binary l r m i =>
    obtain ⟨hother, hred, hmarked, hid⟩ := hans
    refine ⟨"b " ++ Numeral.signed l.toInt ++ " " ++ (if r then "1" else "0") ++ " "
      ++ i.text ++ (if m then " m" else ""), ?_, ?_⟩
    · simp only [line, hkind, View.kind, hother, hred, hmarked, hid]
      rfl
    · unfold View.lineText View.lineWords
      cases r <;> cases m <;> simp [List.intercalate_cons_cons]
  | bnn i r =>
    obtain ⟨hindex, hrole⟩ := hans
    refine ⟨"n " ++ Numeral.decimal i.val ++ " " ++ r.text, ?_, ?_⟩
    · simp only [line, hkind, View.kind, hindex, hrole]
      rfl
    · simp [View.lineText, View.lineWords, List.intercalate_cons_cons]
  | idx i =>
    refine ⟨"i " ++ Numeral.decimal i.val, ?_, ?_⟩
    · simp only [line, hkind, View.kind, show index _ = _ from hans]
      rfl
    · simp [View.lineText, View.lineWords, List.intercalate_cons_cons]

/-! ## Reading -/

theorem readOffset_text (o : ClauseOffset) : readOffset o.text.toList = .ok o := by
  have hlt : o.val.val < 0x10000000000000000 := Nat.lt_trans o.val.isLt (by decide)
  have hread := Numeral.readFin?_decimal (⟨o.val.val, hlt⟩ : Fin 0x10000000000000000)
  rw [readOffset, ClauseOffset.text, hread]
  exact ClauseOffset.ofNat_val o

theorem readClauseId_text (i : ClauseId) : readClauseId i.text.toList = .ok i := by
  have hlt : i.val.val < 0x10000000000000000 := Nat.lt_trans i.val.isLt (by decide)
  have hread := Numeral.readFin?_decimal (⟨i.val.val, hlt⟩ : Fin 0x10000000000000000)
  rw [readClauseId, ClauseId.text, hread]
  exact ClauseId.ofNat_val i

theorem readLiteral_toInt (l : Literal) :
    readLiteral (Numeral.signed l.toInt).toList
      = if l.IsDimacs then .ok l else .error .invalidLiteral := by
  obtain ⟨hlo, hhi⟩ := l.toInt_bounds
  rw [readLiteral, Numeral.readInt64?_signed hlo hhi]
  exact l.ofDimacs_toInt

theorem readWord32_decimal (w : Word32) : readWord32 (Numeral.decimal w.val).toList = .ok w := by
  rw [readWord32, Numeral.readFin?_decimal]

theorem readDigit_bool (b : Bool) : readDigit [if b then '1' else '0'] = .ok b := by
  cases b <;> rfl

theorem readRole_text (r : Role) : readRole r.text.toList = .ok r := by
  cases r <;> simp [Role.text, readRole]

/-- The words of a clause watch are read in either form; the blocking literal is
written only where it is the whole first word. -/
theorem ofWords_clauseWords (form : ClauseForm) (o : ClauseOffset) (d : Abstraction) :
    ofWords (clauseWords form o d) = .ok (some (ofClause o d)) := by
  unfold clauseWords
  split
  · next x hx =>
    rw [Literal.dimacs?_eq] at hx
    split at hx
    · next hdimacs =>
      cases hx
      -- the word of the literal is the first word, for zero would be undefined
      have hraw : (Literal.ofRaw d.bits).raw = d.bits := by
        apply Literal.raw_ofRaw
        intro h0
        have hundef : Literal.ofRaw d.bits = .undef := dif_pos h0
        rw [hundef] at hdimacs
        exact absurd hdimacs (by decide)
      show (ofHead ['c'] [_, _]).map some = _
      simp only [ofHead, readOffset_text, readLiteral_toInt, if_pos hdimacs]
      show Except.ok (some (pack (Literal.ofRaw d.bits).raw .clause o.val)) = _
      rw [hraw]
      rfl
    · cases hx
  · show (ofHead ['a'] [_, _]).map some = _
    simp only [ofHead, readOffset_text, readWord32_decimal]
    rfl

theorem readBinary_words (l : Literal) (r : Bool) (i : ClauseId) :
    readBinary (Numeral.signed l.toInt).toList [if r then '1' else '0'] i.text.toList
      = if l.IsDimacs then .ok (r, l, i) else .error .invalidLiteral := by
  simp only [readBinary, readDigit_bool, readLiteral_toInt, readClauseId_text]
  split <;> rfl

/-- The literal is read before the identifier and the mark, so its error is that of
the line. -/
theorem ofHead_binaryWords (l : Literal) (r m : Bool) (i : ClauseId) :
    ofHead ['b'] ((Numeral.signed l.toInt).toList :: [if r then '1' else '0'] ::
        i.text.toList :: if m then [['m']] else [])
      = if l.IsDimacs then .ok (.packBinary l ⟨r, m⟩ i) else .error .invalidLiteral := by
  have hread := readBinary_words l r i
  by_cases hl : l.IsDimacs
  · rw [if_pos hl] at hread ⊢
    cases m <;> simp only [ofHead, hread, if_true, Bool.false_eq_true, if_false] <;> rfl
  · rw [if_neg hl] at hread ⊢
    cases m <;> simp only [ofHead, hread, if_true, Bool.false_eq_true, if_false] <;> rfl

/-- The words of a line are read as the watch they were written for, unless it is
binary and its other literal is not one of DIMACS: then this is the error. -/
theorem ofWords_lineWords (form : ClauseForm) (v : View Abstraction) :
    ofWords (v.lineWords form)
      = if v.IsDimacs then .ok (some v.toWatch) else .error .invalidLiteral := by
  cases v with
  | clause o d =>
    refine Eq.trans ?_ (if_pos (show (View.clause o d).IsDimacs from trivial)).symm
    exact ofWords_clauseWords form o d
  | binary l r m i =>
    show (ofHead ['b'] _).map some = _
    rw [ofHead_binaryWords]
    by_cases hl : l.IsDimacs
    · refine Eq.trans ?_ (if_pos (show (View.binary l r m i).IsDimacs from hl)).symm
      rw [if_pos hl]
      rfl
    · refine Eq.trans ?_ (if_neg (show ¬ (View.binary l r m i).IsDimacs from hl)).symm
      rw [if_neg hl]
      rfl
  | bnn i r =>
    refine Eq.trans ?_ (if_pos (show (View.bnn i r).IsDimacs from trivial)).symm
    show (ofHead ['n'] [_, _]).map some = _
    simp only [ofHead, readRole_text, readWord32_decimal]
    rfl
  | idx i =>
    refine Eq.trans ?_ (if_pos (show (View.idx i).IsDimacs from trivial)).symm
    show (ofHead ['i'] [_]).map some = _
    simp only [ofHead, readWord32_decimal]
    rfl

theorem words_lineText (form : ClauseForm) (v : View Abstraction) :
    words (v.lineText form) = v.lineWords form :=
  words_intercalate fun _ hw => isWord_of_mem_lineWords hw

/-- **One watch, one line.** Reading the line of a packed view yields the watch
or refuses its literal. -/
theorem ofLine?_lineText (form : ClauseForm) (v : View Abstraction) :
    ofLine? (v.lineText form)
      = if v.IsDimacs then .ok (some v.toWatch) else .error .invalidLiteral := by
  rw [ofLine?, words_lineText]
  exact ofWords_lineWords form v

theorem lineFeed_not_mem_lineText (form : ClauseForm) (v : View Abstraction) :
    '\n' ∉ v.lineText form :=
  lineFeed_not_mem_intercalate fun _ hw => isWord_of_mem_lineWords hw

end Watch

end WatchLists
