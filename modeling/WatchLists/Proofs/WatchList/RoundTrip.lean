import WatchLists.Proofs.Watch.Line
import WatchLists.Proofs.WatchList.Lines

/-!
# A dump is read back

Every watch list that can be obtained can be written in both forms. The text is
read back as the same list exactly if the other literal of each of its binary
watches is one of DIMACS; any first word of a clause watch can be read back.

- `dumpText`: the text of a dump, from the unpacked watches.
- `lines_dumpText`: its lines are the lines of the watches.
- `ofText_dumpText`, `ofText_of_dump`: reading it, for every list.
- `reload_dump`: writing and reading together.
- `exists_ofText_iff`: the lists that a text can describe.
- `redump_of_ofText`: what was read can be written in either form again and again.
-/

namespace WatchLists

/-- The text that a dump writes for unpacked watches. -/
def dumpText (form : ClauseForm) (vs : List (View Abstraction)) : List Char :=
  vs.flatMap fun v => v.lineText form ++ ['\n']

namespace WatchList

open Text

/-- A list of watches that can be obtained packs a list of views. -/
theorem exists_views {ws : WatchList} (h : ∀ w ∈ ws, w.Obtainable) :
    ∃ vs : List (View Abstraction), vs.map View.toWatch = ws := by
  induction ws with
  | nil => exact ⟨[], rfl⟩
  | cons w ws ih =>
    obtain ⟨v, rfl⟩ := Watch.obtainable_iff.mp (h w List.mem_cons_self)
    obtain ⟨vs, rfl⟩ := ih fun w hw => h w (List.mem_cons_of_mem _ hw)
    exact ⟨v :: vs, rfl⟩

theorem obtainable_of_mem_map (vs : List (View Abstraction)) :
    ∀ w ∈ vs.map View.toWatch, w.Obtainable := by
  intro w hw
  obtain ⟨v, _, rfl⟩ := List.mem_map.mp hw
  exact .toWatch v

/-! ## Writing -/

theorem mapM_line (form : ClauseForm) (vs : List (View Abstraction)) :
    ∃ ls : List String, (vs.map View.toWatch).mapM (Watch.line form) = .ok ls ∧
      ls.map String.toList = vs.map (View.lineText form) := by
  induction vs with
  | nil => exact ⟨[], rfl, rfl⟩
  | cons v vs ih =>
    obtain ⟨s, hs, hline⟩ := Watch.line_toWatch form v
    obtain ⟨ls, hls, hlines⟩ := ih
    refine ⟨s :: ls, ?_, ?_⟩
    · rw [List.map_cons, List.mapM_cons, hs, hls]
      rfl
    · rw [List.map_cons, List.map_cons, hline, hlines]

/-- Packed views are always written, one line each. -/
theorem dump_map_toWatch (form : ClauseForm) (vs : List (View Abstraction)) :
    ∃ text, dump form (vs.map View.toWatch) = .ok text ∧ text.toList = dumpText form vs := by
  obtain ⟨ls, hls, hlines⟩ := mapM_line form vs
  refine ⟨String.join (ls.map fun l => l ++ "\n"), ?_, ?_⟩
  · rw [dump, hls]
    rfl
  · have hflat : dumpText form vs = (vs.map (View.lineText form)).flatMap (· ++ ['\n']) := by
      rw [List.flatMap_map]
      rfl
    rw [hflat, ← hlines, List.flatMap_map, String.toList_join, List.flatMap_map]
    simp

/-! ## Reading -/

theorem lines_dumpText (form : ClauseForm) (vs : List (View Abstraction)) :
    lines (dumpText form vs) = vs.map (View.lineText form) := by
  induction vs with
  | nil => rfl
  | cons v vs ih =>
    have htext : dumpText form (v :: vs) = v.lineText form ++ '\n' :: dumpText form vs := by
      simp [dumpText]
    have hline : ∀ c ∈ v.lineText form, decide (c = '\n') = false := fun c hc =>
      decide_eq_false fun h => Watch.lineFeed_not_mem_lineText form v (h ▸ hc)
    rw [htext, List.map_cons, ← ih]
    exact linesBy_append_cons hline (decide_eq_true rfl) _

/-- The lines of views are read as the watches, unless a literal is refused. That
error names no line, so it is the same wherever it stands. -/
theorem linesFrom_lineText (form : ClauseForm) (vs : List (View Abstraction)) (n : Nat) :
    linesFrom Watch.ofLine? n (vs.map (View.lineText form))
      = if ∀ v ∈ vs, v.IsDimacs then .ok (vs.map View.toWatch) else .error .invalidLiteral := by
  induction vs generalizing n with
  | nil => rfl
  | cons v vs ih =>
    rw [List.map_cons, linesFrom_cons, Watch.ofLine?_lineText, ih]
    -- the first literal that is refused may be that of `v` or a later one
    by_cases hv : v.IsDimacs
    · by_cases hvs : ∀ v ∈ vs, v.IsDimacs
      · have hcons : ∀ u ∈ v :: vs, u.IsDimacs := List.forall_mem_cons.mpr ⟨hv, hvs⟩
        rw [if_pos hv, if_pos hvs, if_pos hcons]
        rfl
      · have hcons : ¬ ∀ u ∈ v :: vs, u.IsDimacs := fun h =>
          hvs fun u hu => h u (List.mem_cons_of_mem _ hu)
        rw [if_pos hv, if_neg hvs, if_neg hcons]
        rfl
    · have hcons : ¬ ∀ u ∈ v :: vs, u.IsDimacs := fun h => hv (h v List.mem_cons_self)
      rw [if_neg hv, if_neg hcons]
      rfl

/-- What is read of the text of a dump. -/
theorem ofText_dumpText {form : ClauseForm} {vs : List (View Abstraction)} {text : String}
    (h : text.toList = dumpText form vs) :
    ofText text
      = if ∀ v ∈ vs, v.IsDimacs then .ok (vs.map View.toWatch) else .error .invalidLiteral := by
  rw [ofText, ofLines_eq_linesFrom, h, lines_dumpText]
  exact linesFrom_lineText form vs 1

/-! ## Both together -/

/-- The other literal of each binary watch is that of a DIMACS integer. -/
def IsDimacs (ws : WatchList) : Prop :=
  ∀ w ∈ ws, ∀ l, w.other = .ok l → 2 ≤ l.raw.val ∧ l.raw.val ≤ 4294967293

theorem isDimacs_toWatch (v : View Abstraction) :
    (∀ l, v.toWatch.other = .ok l → 2 ≤ l.raw.val ∧ l.raw.val ≤ 4294967293) ↔ v.IsDimacs := by
  have hans := Watch.answers_toWatch v
  have hkind := View.kind_toWatch v
  -- a view that is not binary has no other literal
  have hnone : v.kind ≠ .binary → v.IsDimacs →
      ((∀ l, v.toWatch.other = .ok l → 2 ≤ l.raw.val ∧ l.raw.val ≤ 4294967293) ↔ v.IsDimacs) := by
    intro hne hdimacs
    refine ⟨fun _ => hdimacs, fun _ l hl => ?_⟩
    rw [Watch.other, Watch.require_of_ne (hkind.symm ▸ hne)] at hl
    cases hl
  cases v with
  | binary l r m i =>
    obtain ⟨hother, _⟩ := hans
    rw [hother]
    exact ⟨fun h => h l rfl, fun h l' hl => Except.ok.inj hl ▸ h⟩
  | clause o d => exact hnone (show Kind.clause ≠ .binary by decide) trivial
  | bnn i r => exact hnone (show Kind.bnn ≠ .binary by decide) trivial
  | idx i => exact hnone (show Kind.idx ≠ .binary by decide) trivial

theorem isDimacs_map_toWatch (vs : List (View Abstraction)) :
    IsDimacs (vs.map View.toWatch) ↔ ∀ v ∈ vs, v.IsDimacs := by
  constructor
  · intro h v hv
    exact (isDimacs_toWatch v).mp (h v.toWatch (List.mem_map_of_mem hv))
  · intro h w hw
    obtain ⟨v, hv, rfl⟩ := List.mem_map.mp hw
    exact (isDimacs_toWatch v).mpr (h v hv)

/-- A list of watches that can be obtained has a dump. -/
theorem exists_dump {ws : WatchList} (hws : ∀ w ∈ ws, w.Obtainable) (form : ClauseForm) :
    ∃ text, ws.dump form = .ok text := by
  obtain ⟨vs, rfl⟩ := exists_views hws
  obtain ⟨text, hdump, _⟩ := dump_map_toWatch form vs
  exact ⟨text, hdump⟩

theorem ofText_of_dump {form : ClauseForm} {ws : WatchList} {text : String}
    (hws : ∀ w ∈ ws, w.Obtainable) (hdump : ws.dump form = .ok text) :
    (ws.IsDimacs → ofText text = .ok ws) ∧
      (¬ ws.IsDimacs → ofText text = .error .invalidLiteral) := by
  obtain ⟨vs, rfl⟩ := exists_views hws
  obtain ⟨text', hdump', htext⟩ := dump_map_toWatch form vs
  obtain rfl : text' = text := Except.ok.inj (hdump'.symm.trans hdump)
  rw [isDimacs_map_toWatch, ofText_dumpText htext]
  exact ⟨fun h => if_pos h, fun h => if_neg h⟩

/-- **Round trip of dumps.** Whichever form the clause watches are written in, a
list of watches that can be obtained is dumped, and the text is read as the same
list exactly if the other literal of each binary watch is one of DIMACS. If not,
the text is refused for its literal. -/
theorem reload_dump {ws : WatchList} (hws : ∀ w ∈ ws, w.Obtainable) (form : ClauseForm) :
    ∃ text, ws.dump form = .ok text ∧ (ofText text = .ok ws ↔ ws.IsDimacs) ∧
      (¬ ws.IsDimacs → ofText text = .error .invalidLiteral) := by
  obtain ⟨text, hdump⟩ := exists_dump hws form
  obtain ⟨hpos, hneg⟩ := ofText_of_dump hws hdump
  refine ⟨text, hdump, ⟨fun hread => ?_, hpos⟩, hneg⟩
  by_cases h : ws.IsDimacs
  · exact h
  · rw [hneg h] at hread
    cases hread

/-- The first words 0 and all ones, the last offset and identifier, a mark and the
last literal of DIMACS come back; the literal after it does not. -/
theorem reload_dump_bounds :
    (∃ text, dump .blocker ([.clause .max (Abstraction.mk 0), .clause ⟨0⟩ ⟨Word32.allOnes⟩,
        .binary ⟨4294967293, by decide⟩ true true .max].map View.toWatch) = .ok text ∧
      ofText text = .ok ([.clause .max (Abstraction.mk 0), .clause ⟨0⟩ ⟨Word32.allOnes⟩,
        .binary ⟨4294967293, by decide⟩ true true .max].map View.toWatch)) ∧
    (∃ text, dump .abstraction ([.idx 7, .binary ⟨4294967294, by decide⟩ false false ⟨0⟩].map
        (View.toWatch (α := Abstraction))) = .ok text ∧
      ofText text = .error .invalidLiteral) := by
  constructor
  · obtain ⟨text, hdump, hread, _⟩ := reload_dump (obtainable_of_mem_map
      [.clause .max ⟨0⟩, .clause ⟨0⟩ ⟨Word32.allOnes⟩,
        .binary ⟨4294967293, by decide⟩ true true .max]) .blocker
    exact ⟨text, hdump, hread.mpr ((isDimacs_map_toWatch _).mpr (by decide))⟩
  · obtain ⟨text, hdump, _, hread⟩ := reload_dump (obtainable_of_mem_map
      [.idx 7, .binary ⟨4294967294, by decide⟩ false false ⟨0⟩]) .abstraction
    exact ⟨text, hdump, hread fun h => absurd ((isDimacs_map_toWatch _).mp h) (by decide)⟩

/-! ## Writing what was read -/

/-- A watch of a text packs a view that can be written and read again. -/
theorem exists_view_of_mem_ofText {text : String} {ws : WatchList} (h : ofText text = .ok ws)
    {w : Watch} (hw : w ∈ ws) : ∃ v : View Abstraction, v.toWatch = w ∧ v.IsDimacs := by
  rw [ofText, ofLines_eq_linesFrom] at h
  obtain ⟨line, _, hread⟩ := mem_of_linesFrom h hw
  exact Watch.exists_view_of_ofLine? hread

/-- Reading keeps to what can be written. -/
theorem obtainable_of_mem_ofText {text : String} {ws : WatchList} (h : ofText text = .ok ws) :
    ∀ w ∈ ws, w.Obtainable := by
  intro w hw
  obtain ⟨v, rfl, _⟩ := exists_view_of_mem_ofText h hw
  exact .toWatch v

/-- Reading keeps to the literals of DIMACS. -/
theorem isDimacs_of_ofText {text : String} {ws : WatchList} (h : ofText text = .ok ws) :
    ws.IsDimacs := by
  intro w hw
  obtain ⟨v, rfl, hv⟩ := exists_view_of_mem_ofText h hw
  exact (isDimacs_toWatch v).mpr hv

/-- The lists that some text describes: each watch can be obtained, and is not a
binary one whose other literal is refused. -/
theorem exists_ofText_iff {ws : WatchList} :
    (∃ text, ofText text = .ok ws) ↔ (∀ w ∈ ws, w.Obtainable) ∧ ws.IsDimacs := by
  constructor
  · rintro ⟨text, h⟩
    exact ⟨obtainable_of_mem_ofText h, isDimacs_of_ofText h⟩
  · rintro ⟨hws, hdimacs⟩
    obtain ⟨text, hdump⟩ := exists_dump hws .abstraction
    exact ⟨text, (ofText_of_dump hws hdump).1 hdimacs⟩

/-- **Either form says the same.** A list that was read from any text, however that
was written, is dumped in both forms, and each of the two texts is read as the
list. So a dump of what one of them says, in its own form or the other, is again
one of the two, character by character. -/
theorem redump_of_ofText {text : String} {ws : WatchList} (h : ofText text = .ok ws)
    (form form' : ClauseForm) :
    ∃ first second, ws.dump form = .ok first ∧ ws.dump form' = .ok second ∧
      ofText first = .ok ws ∧ (ofText first).map (dump form') = .ok (.ok second) := by
  have hws := obtainable_of_mem_ofText h
  obtain ⟨first, hfirst⟩ := exists_dump hws form
  obtain ⟨second, hsecond⟩ := exists_dump hws form'
  have hread : ofText first = .ok ws := (ofText_of_dump hws hfirst).1 (isDimacs_of_ofText h)
  refine ⟨first, second, hfirst, hsecond, hread, ?_⟩
  rw [hread]
  exact congrArg Except.ok hsecond

/-- A text with signs, zeros in front, comments, empty lines and both forms of
clause watches; the word of the second one is the literal 3, and that of the third
is no literal. -/
theorem redump_of_ofText_odd :
    let text := "# odd\r\n\n c  +007 +6\t\r\n\ta 0 07\na +0 1\nb -03 1 09 m\n#"
    let ws : WatchList := [.ofClause ⟨7⟩ (Abstraction.mk 13), .ofClause ⟨0⟩ (Abstraction.mk 7),
      .ofClause ⟨0⟩ (Abstraction.mk 1), .packBinary ⟨6, by decide⟩ ⟨true, true⟩ ⟨9⟩]
    ofText text = .ok ws ∧
      ∃ first second, ws.dump .blocker = .ok first ∧ ws.dump .abstraction = .ok second ∧
        ofText first = .ok ws ∧ (ofText first).map (dump .abstraction) = .ok (.ok second) := by
  intro text ws
  have hread : ofText text = .ok ws := by decide +kernel
  exact ⟨hread, redump_of_ofText hread .blocker .abstraction⟩

end WatchList

end WatchLists
