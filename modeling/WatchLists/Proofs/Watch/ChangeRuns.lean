import WatchLists.Proofs.LastGiven
import WatchLists.Proofs.Watch.Invariant

/-!
# Runs of changes of a binary watch

A binary watch is changed over and over: it gets another literal, its clause becomes
irreducible, it is marked and unmarked. The literal and the flags share no bit, so the
changes of one never meddle with another, and what is left of a run is little: the last
literal that was given, the last that was said about the mark, and whether the clause became
irreducible at any time. The identifier is out of reach, and no change makes a clause
redundant.

- `Change.applyAll`, `Change.applyAllBits?`: a run of changes, of the fields and of the
  packed words; it ends where a change is refused or an assertion fails.
- `runAll_of_applyAll`, `applyAllBits?_of_applyAll`: a run that comes to its end is the same
  for the watch that is held and on the words.
- `Change.lastLiteral`, `Change.lastMark`, `Change.redAfter`: what is left of a run.
- `applyAll_packBinary`: the run of a binary watch in closed form.
- `run_of_changes`: for every binary watch that can be obtained.
-/

namespace WatchLists

namespace Change

/-- Changes a watch by one change after another, unless one is refused. -/
def applyAll (cs : List Change) (w : Watch) : Except Fault Watch :=
  cs.foldlM (fun w c => c.apply w) w

/-- Changes the packed words by one change after another, unless an assertion fails. -/
def applyAllBits? (cs : List Change) (w : Watch) : Option Watch :=
  cs.foldlM (fun w c => c.applyBits? w) w

/-- The literal that a change gives to a binary watch, if it gives one. -/
def literal? : Change → Option Literal
  | setOther l => some l
  | setBlocker _ | clearRed | mark | unmark => none

/-- Whether a binary watch is marked after a change, if the change is about the mark. -/
def mark? : Change → Option Bool
  | mark => some true
  | unmark => some false
  | setBlocker _ | setOther _ | clearRed => none

/-! ## What is left of a run -/

/-- The last literal that is given, or the one that was there. -/
def lastLiteral (cs : List Change) (l : Literal) : Literal :=
  (cs.filterMap literal?).getLast?.getD l

/-- Whether the last change about the mark sets it, or whether it was set if there is no
such change. -/
def lastMark (cs : List Change) (m : Bool) : Bool :=
  (cs.filterMap mark?).getLast?.getD m

/-- Whether the clause was redundant and never became irreducible. -/
def redAfter (cs : List Change) (r : Bool) : Bool :=
  r && decide (clearRed ∉ cs)

theorem lastLiteral_cons (c : Change) (cs : List Change) (l : Literal) :
    lastLiteral (c :: cs) l = lastLiteral cs (c.literal?.getD l) :=
  getD_getLast?_filterMap_cons literal? c cs l

theorem lastMark_cons (c : Change) (cs : List Change) (m : Bool) :
    lastMark (c :: cs) m = lastMark cs (c.mark?.getD m) :=
  getD_getLast?_filterMap_cons mark? c cs m

theorem redAfter_cons (c : Change) (cs : List Change) (r : Bool) :
    redAfter (c :: cs) r = redAfter cs (r && decide (c ≠ clearRed)) := by
  simp only [redAfter, List.mem_cons, not_or, Bool.decide_and, Bool.and_assoc, ne_comm]

/-! ## A run by its first change -/

/-- A run that is done did its first change. -/
theorem exists_of_applyAll_cons {c : Change} {cs : List Change} {w w' : Watch}
    (h : applyAll (c :: cs) w = .ok w') : ∃ w₁, c.apply w = .ok w₁ ∧ applyAll cs w₁ = .ok w' := by
  rw [applyAll, List.foldlM_cons] at h
  exact exists_ok_of_bind h

/-- A run that is done leaves the watch that is held the same. -/
theorem runAll_of_applyAll {cs : List Change} {w w' : Watch} (h : applyAll cs w = .ok w') :
    runAll cs w = w' := by
  induction cs generalizing w with
  | nil =>
    cases h
    rfl
  | cons c cs ih =>
    obtain ⟨w₁, hw₁, h⟩ := exists_of_applyAll_cons h
    have hrun : (c.run w).2 = w₁ := by rw [run, hw₁]
    rw [runAll, List.foldl_cons, hrun]
    exact ih h

/-- A run that is done on the fields is done on the words, and no assertion fails. -/
theorem applyAllBits?_of_applyAll {cs : List Change} {w w' : Watch}
    (h : applyAll cs w = .ok w') : applyAllBits? cs w = some w' := by
  induction cs generalizing w with
  | nil =>
    cases h
    rfl
  | cons c cs ih =>
    obtain ⟨w₁, hw₁, h⟩ := exists_of_applyAll_cons h
    rw [applyAllBits?, List.foldlM_cons, Watch.applyBits?_of_apply hw₁]
    exact ih h

end Change

namespace Watch

open Change

/-! ## Runs of a binary watch -/

/-- One change of a binary watch: each field is what the change makes of it, or what it
was. -/
theorem apply_packBinary {c : Change} (hc : c.kind = .binary) (l : Literal) (r m : Bool)
    (i : ClauseId) :
    c.apply (packBinary l ⟨r, m⟩ i)
      = .ok (packBinary (c.literal?.getD l) ⟨r && decide (c ≠ .clearRed), c.mark?.getD m⟩ i) := by
  refine (apply_toWatch c (.binary l r m i)).trans ?_
  cases c with
  | setBlocker l' => cases hc
  | clearRed | setOther l' | mark | unmark => simp [View.change?, View.toWatch, literal?, mark?]

/-- A run of changes of a binary watch is done to its end, and leaves the last literal, the
last mark and the identifier. -/
theorem applyAll_packBinary {cs : List Change} (hcs : ∀ c ∈ cs, c.kind = .binary) (l : Literal)
    (r m : Bool) (i : ClauseId) :
    applyAll cs (packBinary l ⟨r, m⟩ i)
      = .ok (packBinary (lastLiteral cs l) ⟨redAfter cs r, lastMark cs m⟩ i) := by
  -- the fields before the rest of the run are those after its first change
  induction cs generalizing l r m with
  | nil =>
    rw [redAfter, decide_eq_true List.not_mem_nil, Bool.and_true]
    rfl
  | cons c cs ih =>
    obtain ⟨hc, hcs⟩ := List.forall_mem_cons.mp hcs
    rw [lastLiteral_cons, lastMark_cons, redAfter_cons, ← ih hcs, applyAll, List.foldlM_cons,
      apply_packBinary hc]
    rfl

/-- What is found in a binary watch after a run. -/
theorem exists_answers_after {cs : List Change} (hcs : ∀ c ∈ cs, c.kind = .binary) (l : Literal)
    (r m : Bool) (i : ClauseId) :
    ∃ w', applyAll cs (packBinary l ⟨r, m⟩ i) = .ok w' ∧
      runAll cs (packBinary l ⟨r, m⟩ i) = w' ∧
      applyAllBits? cs (packBinary l ⟨r, m⟩ i) = some w' ∧ w'.kind = .binary ∧
      w'.Answers (.binary (lastLiteral cs l) (redAfter cs r) (lastMark cs m) i) := by
  have happly := applyAll_packBinary hcs l r m i
  exact ⟨_, happly, runAll_of_applyAll happly, applyAllBits?_of_applyAll happly, kind_pack ..,
    answers_toWatch (.binary (lastLiteral cs l) (redAfter cs r) (lastMark cs m) i)⟩

/-- A run does not make the clause of a watch redundant. -/
theorem isRed_of_applyAll {cs : List Change} (hcs : ∀ c ∈ cs, c.kind = .binary) {w w' : Watch}
    (hw : w.Obtainable) (hk : w.kind = .binary) (hirred : w.isRed = .ok false)
    (h : applyAll cs w = .ok w') : w'.isRed = .ok false := by
  obtain ⟨l, ⟨r, m⟩, i, rfl⟩ := hw.exists_packBinary hk
  obtain ⟨_, hred, _⟩ := answers_toWatch (.binary l r m i)
  obtain rfl : r = false := Except.ok.inj (hred.symm.trans hirred)
  obtain ⟨w₁, hw₁, _, _, _, hans⟩ := exists_answers_after hcs l false m i
  obtain rfl : w₁ = w' := Except.ok.inj (hw₁.symm.trans h)
  exact hans.2.1

/-- **Runs of changes.** Whatever is done to a binary watch that can be obtained, no change
is refused and no assertion fails, and the watch is binary with the identifier it had. Its
other literal is the last that was given, or the one it had. It is marked if the last change
about the mark sets it, or if there is no such change and it was marked. Its clause is
redundant if it was and never became irreducible. Two runs that agree in these three leave
the same words; and no run makes redundant what an earlier one left irreducible. -/
theorem run_of_changes {w : Watch} (hw : w.Obtainable) (hk : w.kind = .binary) :
    ∃ l r m i, w.Answers (.binary l r m i) ∧
      (∀ cs : List Change, (∀ c ∈ cs, c.kind = .binary) →
        ∃ w', applyAll cs w = .ok w' ∧ runAll cs w = w' ∧ applyAllBits? cs w = some w' ∧
          w'.kind = .binary ∧
          w'.Answers (.binary (lastLiteral cs l) (redAfter cs r) (lastMark cs m) i)) ∧
      (∀ cs cs' : List Change, (∀ c ∈ cs, c.kind = .binary) → (∀ c ∈ cs', c.kind = .binary) →
        lastLiteral cs l = lastLiteral cs' l → redAfter cs r = redAfter cs' r →
        lastMark cs m = lastMark cs' m →
        ∃ w', applyAll cs w = .ok w' ∧ applyAll cs' w = .ok w') ∧
      ∀ cs cs' : List Change, (∀ c ∈ cs, c.kind = .binary) → (∀ c ∈ cs', c.kind = .binary) →
        ∃ w₁ w₂, applyAll cs w = .ok w₁ ∧ applyAll cs' w₁ = .ok w₂ ∧
          (w₁.isRed = .ok false → w₂.isRed = .ok false) := by
  obtain ⟨l, ⟨r, m⟩, i, rfl⟩ := hw.exists_packBinary hk
  refine ⟨l, r, m, i, answers_toWatch (.binary l r m i),
    fun cs hcs => exists_answers_after hcs l r m i, fun cs cs' hcs hcs' hl hr hm => ?_,
    fun cs cs' hcs hcs' => ?_⟩
  · refine ⟨_, applyAll_packBinary hcs l r m i, ?_⟩
    rw [hl, hr, hm]
    exact applyAll_packBinary hcs' l r m i
  · have hrest := applyAll_packBinary hcs' (lastLiteral cs l) (redAfter cs r) (lastMark cs m) i
    refine ⟨_, _, applyAll_packBinary hcs l r m i, hrest, fun hirred => ?_⟩
    exact isRed_of_applyAll hcs' (.toWatch (.binary _ _ _ i : View Abstraction)) (kind_pack ..)
      hirred hrest

/-- Of the last identifier, a redundant watch is given two literals in one run and one in the
other, and marked and unmarked in between. The runs end with the same literal and with a mark,
and each made the clause irreducible once at least. -/
theorem run_of_changes_reordered :
    let w : Watch := .ofBinary ⟨2, by decide⟩ true .max
    let cs : List Change :=
      [.mark, .setOther ⟨9, by decide⟩, .clearRed, .unmark, .setOther ⟨5, by decide⟩, .mark]
    let cs' : List Change := [.clearRed, .mark, .clearRed, .setOther ⟨5, by decide⟩]
    w.Obtainable ∧ w.kind = .binary ∧ (∀ c ∈ cs, c.kind = .binary) ∧
      (∀ c ∈ cs', c.kind = .binary) ∧
      ∃ w', applyAll cs w = .ok w' ∧ applyAll cs' w = .ok w' ∧
        w'.Answers (.binary ⟨5, by decide⟩ false true .max) := by
  intro w cs cs'
  have hw : w.Obtainable := .ofBinary ⟨2, by decide⟩ true .max
  have hcs : ∀ c ∈ cs, c.kind = .binary := by decide
  have hcs' : ∀ c ∈ cs', c.kind = .binary := by decide
  obtain ⟨l, r, m, i, hans, hrun, hsame, _⟩ := run_of_changes hw (kind_pack ..)
  obtain ⟨hl, hr, hm, hi⟩ := answers_toWatch (.binary ⟨2, by decide⟩ true false .max)
  obtain rfl := Except.ok.inj (hans.1.symm.trans hl)
  obtain rfl := Except.ok.inj (hans.2.1.symm.trans hr)
  obtain rfl := Except.ok.inj (hans.2.2.1.symm.trans hm)
  obtain rfl := Except.ok.inj (hans.2.2.2.symm.trans hi)
  obtain ⟨w', hw', _, _, _, hans'⟩ := hrun cs hcs
  obtain ⟨w₁, hw₁, hw₁'⟩ := hsame cs cs' hcs hcs' (by decide) (by decide) (by decide)
  obtain rfl : w₁ = w' := Except.ok.inj (hw₁.symm.trans hw')
  exact ⟨hw, kind_pack .., hcs, hcs', w₁, hw₁, hw₁', hans'⟩

end Watch

end WatchLists
