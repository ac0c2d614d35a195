import WatchLists.Proofs.Watch.Asserted
import WatchLists.Proofs.Watch.Line
import WatchLists.Watch.Text

/-!
# The invariant of packed watches

Of the words that tag a kind, not all are a watch. Those that are have a bound on the
payload of a bnn and of an idx watch and a first word that is not zero in a binary one.
This is what all questions about a watch rest on, and every change keeps it.

- `WellFormed`, `wellFormed_iff`: the bounds, and that they say exactly which words pack
  a view.
- `view_toWatch`, `exists_description`, `exists_debugText`: a packed view is unpacked and
  shown.
- `SameHandle`, `sameHandle_run`, `sameHandle_runAll`: what no change touches, after
  one change and after any number of them.
- `exists_run_of_kind`: which changes are done.
-/

namespace WatchLists

/-- The payloads that stand for a role are the first three. -/
theorem Role.exists_ofPayload?_iff {p : Payload} :
    (∃ r, ofPayload? p = some r) ↔ p.val ≤ 2 := by
  unfold ofPayload?
  generalize p.val = n
  match n with
  | 0 | 1 | 2 => simp
  | n + 3 => exact iff_of_false (by nofun) (Nat.not_le.mpr (Nat.le_add_left 3 n))

/-- A view with the first word of a clause watch read as an `α`. -/
def View.readAs (α : Type) [FirstWord α] : View Abstraction → View α
  | .clause o d => .clause o (FirstWord.decode d.bits)
  | .binary l r m i => .binary l r m i
  | .bnn i r => .bnn i r
  | .idx i => .idx i

/-- Changes the watch that is held by each of the changes; those that are refused do
nothing. -/
def Change.runAll (cs : List Change) (w : Watch) : Watch :=
  cs.foldl (fun w c => (c.run w).2) w

namespace Watch

/-! ## The bounds -/

/-- The bounds that the words of a watch keep, by its kind. The payload is one of 62
bits as it is. -/
structure WellFormed (w : Watch) : Prop where
  /-- A bnn watch holds one of three roles. -/
  bnn : w.kind = .bnn → w.payload.val ≤ 2
  /-- An idx watch holds nothing but its index. -/
  idx : w.kind = .idx → w.payload.val = 0
  /-- A binary watch holds a literal. -/
  binary : w.kind = .binary → w.first.val ≠ 0

/-- The bounds hold of the words that stand for a view and of no others. -/
theorem wellFormed_iff_fields? {w : Watch} :
    w.WellFormed ↔ ∃ v : View Abstraction, w.fields? = some v := by
  rw [fields?_eq]
  constructor
  · intro h
    cases hk : w.kind with
    | clause => exact ⟨_, rfl⟩
    | binary => exact ⟨_, dif_pos (h.binary hk)⟩
    | bnn =>
      obtain ⟨r, hr⟩ := Role.exists_ofPayload?_iff.mpr (h.bnn hk)
      exact ⟨.bnn w.first r, by simp only [hr, Option.map_some]⟩
    | idx => exact ⟨_, if_pos (h.idx hk)⟩
  · rintro ⟨v, h⟩
    -- the bound of a kind is the guard of its case
    refine ⟨fun hk => ?_, fun hk => ?_, fun hk => ?_⟩
    · simp only [hk, Option.map_eq_some_iff] at h
      obtain ⟨r, hr, _⟩ := h
      exact Role.exists_ofPayload?_iff.mp ⟨r, hr⟩
    · simp only [hk] at h
      split at h
      · assumption
      · cases h
    · simp only [hk] at h
      split at h
      · assumption
      · cases h

/-- The watches that can be obtained are those that keep the bounds. -/
theorem wellFormed_iff {w : Watch} : w.WellFormed ↔ w.Obtainable := by
  rw [wellFormed_iff_fields?, obtainable_iff]
  exact exists_congr fun v => fields?_eq_some_iff

/-! ## Unpacking and showing -/

/-- A packed view is unpacked in either reading of a first word. -/
theorem view_toWatch (α : Type) [FirstWord α] (v : View Abstraction) :
    v.toWatch.view α = .ok (v.readAs α) := by
  have hkind := View.kind_toWatch v
  have hans := answers_toWatch v
  cases v with
  | clause o d =>
    obtain ⟨hoffset, _, _, hfirst⟩ := hans
    simp only [view, hkind, View.kind, hoffset, hfirst α]
    rfl
  | binary l r m i =>
    obtain ⟨hother, hred, hmarked, hid⟩ := hans
    simp only [view, hkind, View.kind, hother, hred, hmarked, hid]
    rfl
  | bnn i r =>
    obtain ⟨hindex, hrole⟩ := hans
    simp only [view, hkind, View.kind, hindex, hrole]
    rfl
  | idx i =>
    simp only [view, hkind, View.kind, show index _ = _ from hans]
    rfl

/-- A packed view is described. -/
theorem exists_description (v : View Abstraction) : ∃ t, v.toWatch.description = .ok t := by
  have hkind := View.kind_toWatch v
  have hans := answers_toWatch v
  unfold description
  rw [hkind]
  cases v with
  | clause o d =>
    rw [hans.1]
    exact ⟨_, rfl⟩
  | binary l r m i =>
    rw [hans.1, hans.2.1]
    exact ⟨_, rfl⟩
  | bnn i r =>
    rw [hans.1, hans.2]
    exact ⟨_, rfl⟩
  | idx i =>
    rw [show index _ = _ from hans]
    exact ⟨_, rfl⟩

/-- Every field of a packed view is shown. -/
theorem exists_debugText (v : View Abstraction) : ∃ t, v.toWatch.debugText = .ok t := by
  have hkind := View.kind_toWatch v
  have hans := answers_toWatch v
  unfold debugText
  rw [hkind]
  cases v with
  | clause o d =>
    rw [hans.1]
    exact ⟨_, rfl⟩
  | binary l r m i =>
    rw [hans.1, hans.2.2.2]
    exact ⟨_, rfl⟩
  | bnn i r =>
    rw [hans.1, hans.2]
    exact ⟨_, rfl⟩
  | idx i =>
    rw [show index _ = _ from hans]
    exact ⟨_, rfl⟩

/-! ## What no change touches -/

/-- Another watch of the same constraint: of the same kind, and with the offset, the
identifier or the role that the watch has. -/
structure SameHandle (w w' : Watch) : Prop where
  /-- The kind. -/
  kind : w'.kind = w.kind
  /-- The offset of a clause watch. -/
  offset : w.kind = .clause → w'.offset = w.offset
  /-- The identifier of a binary watch. -/
  clauseId : w.kind = .binary → w'.clauseId = w.clauseId
  /-- The role of a bnn watch. -/
  role : w.kind = .bnn → w'.role = w.role

theorem SameHandle.refl (w : Watch) : w.SameHandle w :=
  ⟨rfl, fun _ => rfl, fun _ => rfl, fun _ => rfl⟩

theorem SameHandle.trans {u v w : Watch} (huv : u.SameHandle v) (hvw : v.SameHandle w) :
    u.SameHandle w where
  kind := hvw.kind.trans huv.kind
  offset h := (hvw.offset (huv.kind.trans h)).trans (huv.offset h)
  clauseId h := (hvw.clauseId (huv.kind.trans h)).trans (huv.clauseId h)
  role h := (hvw.role (huv.kind.trans h)).trans (huv.role h)

/-- The handle is in the payload: a clause watch has the whole of it for the offset, a
binary one what is above the flags for the identifier. -/
theorem sameHandle_of_payload {w w' : Watch} (hbnn : w.kind ≠ .bnn) (hk : w'.kind = w.kind)
    (hpayload : w.kind = .clause → w'.payload = w.payload) (hid : w'.idField = w.idField) :
    w.SameHandle w' where
  kind := hk
  offset h := by
    rw [Watch.offset, Watch.offset, require_of_kind h, require_of_kind (hk.trans h), hpayload h]
  clauseId h := by
    rw [Watch.clauseId, Watch.clauseId, require_of_kind h, require_of_kind (hk.trans h), hid]
  role h := absurd h hbnn

/-- One change of any watch, whether it suits the kind or not. -/
theorem sameHandle_run (c : Change) (w : Watch) : w.SameHandle (c.run w).2 := by
  by_cases hk : w.kind = c.kind
  · have hbnn : w.kind ≠ .bnn := by
      rw [hk]
      cases c <;> nofun
    have hdone {x : Watch} (hx : c.apply w = .ok x) : (c.run w).2 = x := by
      rw [Change.run, hx]
    cases c with
    | setBlocker l | setOther l =>
      rw [hdone (require_of_kind hk _)]
      exact sameHandle_of_payload hbnn (kind_setFirst w l.raw) (fun _ => rfl) rfl
    | clearRed | mark | unmark =>
      rw [hdone (require_of_kind hk _)]
      exact sameHandle_of_payload hbnn (kind_setFlags w _) (fun h => nomatch h.symm.trans hk)
        (idField_setFlags w _)
  · have hrefused : c.apply w = .error (.wrongKind w c.kind) := by
      cases c <;> exact require_of_ne hk _
    rw [Change.run, hrefused]
    exact .refl w

/-- Any number of changes. -/
theorem sameHandle_runAll (cs : List Change) (w : Watch) : w.SameHandle (Change.runAll cs w) := by
  induction cs generalizing w with
  | nil => exact .refl w
  | cons c cs ih => exact (sameHandle_run c w).trans (ih (c.run w).2)

/-- A change that suits the kind is done, and on the words no assertion fails. -/
theorem exists_run_of_kind {c : Change} {w : Watch} (h : w.kind = c.kind) :
    ∃ w', c.run w = (.ok (), w') ∧ c.applyBits? w = some w' := by
  obtain ⟨w', happly⟩ : ∃ w', c.apply w = .ok w' := by
    cases c <;> exact ⟨_, require_of_kind h _⟩
  refine ⟨w', ?_, applyBits?_of_apply happly⟩
  rw [Change.run, happly]

end Watch

end WatchLists
