import WatchLists.Proofs.Watch.Unambiguous
import WatchLists.Proofs.WatchList.Concatenation
import WatchLists.Proofs.WatchList.RoundTrip

/-!
# No two watch lists are written alike

What is written tells what was written, also where it cannot be read back: a binary watch
can have a literal that is refused in a text. A watch has a line of its own that is never
taken for a comment or for an empty one, so the lines of a dump are the watches of the
list one by one.

- `not_isSkipped_lineText`, `exists_line`: the line of a watch describes something.
- `eq_of_dump`: lists with the same dump are the same.
- `texts_unambiguous`: lines, debug texts and dumps.
-/

namespace WatchLists

open Text

namespace Watch

/-- The line of a watch is read as a watch or refused, so it is not passed over. -/
theorem not_isSkipped_lineText (form : ClauseForm) (v : View Abstraction) :
    ¬ IsSkipped (v.lineText form) := by
  rw [← ofLine?_eq_none_iff, ofLine?_lineText]
  split <;> nofun

/-- A line that is empty or starts with `#` is passed over. -/
theorem isSkipped_of_head? {line : List Char} (h : line = [] ∨ line.head? = some '#') :
    IsSkipped line := by
  rcases h with rfl | h
  · nofun
  · obtain ⟨rest, rfl⟩ := List.head?_eq_some_iff.mp h
    rintro c hc
    exact (Option.mem_some.mp hc).symm

/-- Each watch is written as one line that is not empty and is no comment. -/
theorem exists_line {w : Watch} (h : w.Obtainable) (form : ClauseForm) :
    ∃ s, w.line form = .ok s ∧ s ≠ "" ∧ '\n' ∉ s.toList ∧ s.toList.head? ≠ some '#' := by
  obtain ⟨v, rfl⟩ := obtainable_iff.mp h
  obtain ⟨s, hs, hline⟩ := line_toWatch form v
  have hskip := not_isSkipped_lineText form v
  refine ⟨s, hs, ?_, ?_, ?_⟩
  · rintro rfl
    exact hskip (isSkipped_of_head? (.inl hline.symm))
  · rw [hline]
    exact lineFeed_not_mem_lineText form v
  · rw [hline]
    exact fun hhead => hskip (isSkipped_of_head? (.inr hhead))

theorem eq_of_line {a b : Watch} (ha : a.Obtainable) (hb : b.Obtainable) {form : ClauseForm}
    (h : a.line form = b.line form) : a = b := by
  obtain ⟨v, rfl⟩ := obtainable_iff.mp ha
  obtain ⟨w, rfl⟩ := obtainable_iff.mp hb
  have hlines := toList_eq_of_eq (line_toWatch form v) (line_toWatch form w) h
  rw [lineText_injective form hlines]

theorem eq_of_debugText {a b : Watch} (ha : a.Obtainable) (hb : b.Obtainable)
    (h : a.debugText = b.debugText) : a = b := by
  obtain ⟨v, rfl⟩ := obtainable_iff.mp ha
  obtain ⟨w, rfl⟩ := obtainable_iff.mp hb
  rw [view_eq_of_debugText h]

end Watch

namespace WatchList

/-- The lines of a dump are those of the watches, which are all different. -/
theorem eq_of_dump {ws ws' : WatchList} (h : ∀ w ∈ ws, w.Obtainable)
    (h' : ∀ w ∈ ws', w.Obtainable) {form : ClauseForm} (hdump : dump form ws = dump form ws') :
    ws = ws' := by
  obtain ⟨vs, rfl⟩ := exists_views h
  obtain ⟨vs', rfl⟩ := exists_views h'
  have hchars :=
    Watch.toList_eq_of_eq (dump_map_toWatch form vs) (dump_map_toWatch form vs') hdump
  have hlines := congrArg lines hchars
  rw [lines_dumpText, lines_dumpText] at hlines
  rw [List.map_injective_iff.mpr (Watch.lineText_injective form) hlines]

/-- **No text is that of two.** Watches that can be obtained have the same line, in either
form, or the same debug text only if they are the same. Each is written as one line that is
not empty, holds no line feed and starts no comment. So lists of such watches have the same
dump only if they are the same. -/
theorem texts_unambiguous :
    (∀ a b : Watch, a.Obtainable → b.Obtainable →
      (∀ form, a.line form = b.line form → a = b) ∧ (a.debugText = b.debugText → a = b)) ∧
    (∀ w : Watch, w.Obtainable →
      (∀ form, ∃ s, w.line form = .ok s ∧ s ≠ "" ∧ '\n' ∉ s.toList ∧
        s.toList.head? ≠ some '#') ∧
      ∃ s, w.debugText = .ok s) ∧
    ∀ (form : ClauseForm) (ws ws' : WatchList), (∀ w ∈ ws, w.Obtainable) →
      (∀ w ∈ ws', w.Obtainable) →
      (∃ s, dump form ws = .ok s) ∧ (dump form ws = dump form ws' → ws = ws') := by
  refine ⟨fun a b ha hb => ⟨fun form => Watch.eq_of_line ha hb, Watch.eq_of_debugText ha hb⟩,
    fun w hw => ⟨Watch.exists_line hw, ?_⟩,
    fun form ws ws' h h' => ⟨exists_dump h form, eq_of_dump h h'⟩⟩
  obtain ⟨v, rfl⟩ := Watch.obtainable_iff.mp hw
  exact Watch.exists_debugText v

/-- The literals that no text can bring back are told apart: that of variable zero, the last
but one and the undefined one. And the watch of no clause is the clause watch that is
written like it. -/
theorem texts_unambiguous_refused :
    let a := Watch.ofBinary ⟨1, by decide⟩ false ⟨7, by decide⟩
    let b := Watch.ofBinary ⟨4294967294, by decide⟩ false ⟨7, by decide⟩
    let c := Watch.ofBinary .undef false ⟨7, by decide⟩
    let d := Watch.ofClause .max (Abstraction.mk Word32.allOnes)
    let text := "b 0 0 7\nb -2147483647 0 7\nb 2147483647 0 7\n"
    dump .blocker [a, b, c] = .ok text ∧ ofText text = .error .invalidLiteral ∧
      b.line .blocker ≠ c.line .blocker ∧ a.debugText ≠ b.debugText ∧
      dump .abstraction [a, b, c] ≠ dump .abstraction [a, c, b] ∧
      dump .blocker [.placeholder] = dump .blocker [d] ∧ [Watch.placeholder] = [d] := by
  intro a b c d text
  obtain ⟨hpair, _, hdump⟩ := texts_unambiguous
  have ha : a.Obtainable := .ofBinary _ _ _
  have hb : b.Obtainable := .ofBinary _ _ _
  have hc : c.Obtainable := .ofBinary _ _ _
  have hlist {x y z : Watch} (hx : x.Obtainable) (hy : y.Obtainable) (hz : z.Obtainable) :
      ∀ w ∈ [x, y, z], w.Obtainable := by
    simp [hx, hy, hz]
  have hsame : dump .blocker [.placeholder] = dump .blocker [d] := by decide +kernel
  refine ⟨by decide +kernel, by decide +kernel, fun h => ?_, fun h => ?_, fun h => ?_, hsame, ?_⟩
  · exact absurd ((hpair b c hb hc).1 _ h) (by decide)
  · exact absurd ((hpair a b ha hb).2 h) (by decide)
  · exact absurd ((hdump _ _ _ (hlist ha hb hc) (hlist ha hc hb)).2 h) (by decide)
  · exact (hdump _ _ _ (List.forall_mem_singleton.mpr .placeholder)
      (List.forall_mem_singleton.mpr (.ofClause _ _))).2 hsame

end WatchList

end WatchLists
