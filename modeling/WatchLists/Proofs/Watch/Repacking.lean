import WatchLists.Proofs.Watch.Invariant

/-!
# Unpacking and packing again

A view names the fields of a watch, and packing writes them back. The fields of a binary, a
bnn and an idx watch come back as they were. The first word of a clause watch goes through a
reading: it is decoded for the view and encoded from it. An abstraction is the word itself,
so nothing is lost. A literal is any word but zero, which is read as the undefined literal
and written as that; this is the only word that does not come back.

- `FirstWord.IsLossless`: what is encoded is decoded.
- `view_toWatch_of_isLossless`: a view that was packed is unpacked.
- `exists_repacked`: a watch that was unpacked and packed, under any reading.
- `unpacking_inverts_packing`: both ways, under both readings.
-/

namespace WatchLists

/-! ## Readings of a first word -/

/-- A reading that gets back whatever it stored. -/
def FirstWord.IsLossless (α : Type) [FirstWord α] : Prop :=
  ∀ d : α, FirstWord.decode (FirstWord.encode d) = d

theorem Literal.isLossless : FirstWord.IsLossless Literal := ofRaw_raw

theorem Abstraction.isLossless : FirstWord.IsLossless Abstraction := fun _ => rfl

/-- The word that is written for the literal that is read from a word. -/
theorem Literal.encode_decode (f : Word32) :
    FirstWord.encode (FirstWord.decode f : Literal) = if f.val = 0 then Word32.allOnes else f := by
  show (Literal.ofRaw f).raw = _
  by_cases h : f.val = 0
  · rw [if_pos h, ofRaw, dif_pos h]
    rfl
  · rw [if_neg h, raw_ofRaw h]

namespace View

/-- A view is the one that is read from what is stored of it. -/
theorem readAs_stored {α : Type} [FirstWord α] (hα : FirstWord.IsLossless α) (v : View α) :
    v.stored.readAs α = v := by
  cases v with
  | clause o d => exact congrArg (View.clause o) (hα d)
  | binary l r m i => rfl
  | bnn i r => rfl
  | idx i => rfl

/-- Packing what was read writes the first word of a clause watch again, and leaves every
other watch. -/
theorem toWatch_readAs (α : Type) [FirstWord α] (v : View Abstraction) :
    (v.readAs α).toWatch
      = if v.toWatch.kind = .clause then
          v.toWatch.setFirst (FirstWord.encode (FirstWord.decode v.toWatch.first : α))
        else v.toWatch := by
  rw [kind_toWatch]
  cases v with
  | clause o d => rfl
  | binary l r m i => rfl
  | bnn i r => rfl
  | idx i => rfl

end View

namespace Watch

/-! ## Packing, then unpacking -/

/-- A view that was packed is unpacked under its reading. -/
theorem view_toWatch_of_isLossless {α : Type} [FirstWord α] (hα : FirstWord.IsLossless α)
    (v : View α) : v.toWatch.view α = .ok v := by
  rw [← v.toWatch_stored, view_toWatch, View.readAs_stored hα]

/-! ## Unpacking, then packing -/

/-- A watch that can be obtained is unpacked under every reading. Packed again it is the
same watch, but that a clause watch has the first word which the reading makes of it. -/
theorem exists_repacked (α : Type) [FirstWord α] {w : Watch} (hw : w.Obtainable) :
    ∃ v : View α, w.view α = .ok v ∧
      v.toWatch = if w.kind = .clause then
          w.setFirst (FirstWord.encode (FirstWord.decode w.first : α))
        else w := by
  obtain ⟨v, rfl⟩ := obtainable_iff.mp hw
  exact ⟨v.readAs α, view_toWatch α v, View.toWatch_readAs α v⟩

/-- As an abstraction every first word comes back. -/
theorem exists_repacked_abstraction {w : Watch} (hw : w.Obtainable) :
    ∃ v, w.view Abstraction = .ok v ∧ v.toWatch = w := by
  obtain ⟨v, hv, hrepacked⟩ := exists_repacked Abstraction hw
  refine ⟨v, hv, ?_⟩
  rw [hrepacked]
  split <;> rfl

/-- As a literal every first word comes back but zero, which becomes the undefined one. -/
theorem exists_repacked_literal {w : Watch} (hw : w.Obtainable) :
    ∃ v, w.view Literal = .ok v ∧
      v.toWatch = if w.kind = .clause ∧ w.first.val = 0 then ⟨Word32.allOnes, w.word⟩ else w := by
  obtain ⟨v, hv, hrepacked⟩ := exists_repacked Literal hw
  refine ⟨v, hv, ?_⟩
  rw [hrepacked, Literal.encode_decode]
  by_cases hkind : w.kind = .clause
  · rw [if_pos hkind]
    by_cases hzero : w.first.val = 0
    · rw [if_pos hzero, if_pos ⟨hkind, hzero⟩]
      rfl
    · rw [if_neg hzero, if_neg fun h => hzero h.2]
      rfl
  · rw [if_neg hkind, if_neg fun h => hkind h.1]

/-- **Unpacking and packing are inverse.** A watch that can be obtained is unpacked with the
first word of a clause watch as an abstraction, and packed again it is the same watch. With
this word as a literal it is the same exactly if it is no clause watch with the first word
zero; such a watch gets the word of all ones there, and nothing else changes. A view of
either sort that is packed is unpacked as it was. So two watches are equal exactly if the
views with abstractions are. -/
theorem unpacking_inverts_packing :
    (∀ w, Obtainable w →
      (∃ v, w.view Abstraction = .ok v ∧ v.toWatch = w) ∧
      ∃ v, w.view Literal = .ok v ∧
        (v.toWatch = w ↔ ¬ (w.kind = .clause ∧ w.first.val = 0)) ∧
        (w.kind = .clause ∧ w.first.val = 0 → v.toWatch = ⟨4294967295, w.word⟩)) ∧
    (∀ v : View Literal, v.toWatch.view Literal = .ok v) ∧
    (∀ v : View Abstraction, v.toWatch.view Abstraction = .ok v) ∧
    ∀ w w', Obtainable w → Obtainable w' →
      ∃ v v', w.view Abstraction = .ok v ∧ w'.view Abstraction = .ok v' ∧ (w = w' ↔ v = v') := by
  refine ⟨fun w hw => ⟨exists_repacked_abstraction hw, ?_⟩,
    view_toWatch_of_isLossless Literal.isLossless,
    view_toWatch_of_isLossless Abstraction.isLossless, ?_⟩
  · obtain ⟨v, hv, hrepacked⟩ := exists_repacked_literal hw
    refine ⟨v, hv, ?_, fun h => hrepacked.trans (if_pos h)⟩
    rw [hrepacked]
    constructor
    · intro heq h
      rw [if_pos h] at heq
      -- the word of all ones is not zero
      have hfirst : Word32.allOnes = w.first := congrArg Watch.first heq
      rw [← hfirst] at h
      exact absurd h.2 (by decide)
    · intro h
      rw [if_neg h]
  · intro w w' hw hw'
    obtain ⟨v, hv, hvw⟩ := exists_repacked_abstraction hw
    obtain ⟨v', hv', hvw'⟩ := exists_repacked_abstraction hw'
    refine ⟨v, v', hv, hv', ?_, ?_⟩
    · rintro rfl
      exact Except.ok.inj (hv.symm.trans hv')
    · rintro rfl
      exact hvw.symm.trans hvw'

/-- A clause watch with the first word zero and one with the undefined literal have the same
view with literals, and different ones with abstractions. -/
theorem unpacking_inverts_packing_zero :
    let w : Watch := .ofClause .max (Abstraction.mk 0)
    let w' : Watch := .ofClause .max Literal.undef
    Obtainable w ∧ Obtainable w' ∧ w.kind = .clause ∧ w.first.val = 0 ∧
      (∃ v, w.view Literal = .ok v ∧ w'.view Literal = .ok v ∧ v.toWatch = w') ∧
      ∃ v v', w.view Abstraction = .ok v ∧ w'.view Abstraction = .ok v' ∧ v ≠ v' := by
  intro w w'
  have hw : Obtainable w := .ofClause .max (Abstraction.mk 0)
  have hw' : Obtainable w' := .ofClause .max Literal.undef
  have hkind : w.kind = .clause := kind_pack ..
  have hzero : w.first.val = 0 := rfl
  obtain ⟨hrepacked, hliteral, _, heq⟩ := unpacking_inverts_packing
  obtain ⟨v, hv, _, hundef⟩ := (hrepacked w hw).2
  obtain ⟨u, u', hu, hu', hiff⟩ := heq w w' hw hw'
  have hvw : v.toWatch = w' := hundef ⟨hkind, hzero⟩
  have hne : w ≠ w' := by decide
  exact ⟨hw, hw', hkind, hzero, ⟨v, hv, hvw ▸ hliteral v, hvw⟩, u, u', hu, hu',
    fun h => hne (hiff.mpr h)⟩

end Watch

end WatchLists
