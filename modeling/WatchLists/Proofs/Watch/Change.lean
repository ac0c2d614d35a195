import WatchLists.Proofs.Watch.Fields

/-!
# Asking and changing a packed watch

What a watch answers and what a change makes of it, said on its unpacked form.
A view knows its fields; `Answers` and `Refuses` say that the packed watch gives
exactly these, and `View.change?` updates one of them.

- `Change`, `Change.apply`, `Change.run`: the changes as values, on a watch that
  is given and on one that is held.
- `View.change?`: the same change of the unpacked form.
- `answers_toWatch`, `refuses_toWatch`, `apply_toWatch`: the packed form follows
  the unpacked one.
-/

namespace WatchLists

/-- A change of one field. -/
inductive Change
  /-- Another blocking literal. -/
  | setBlocker (l : Literal)
  /-- Another other literal. -/
  | setOther (l : Literal)
  /-- The clause is irreducible. -/
  | clearRed
  /-- The watch is marked. -/
  | mark
  /-- The watch is not marked. -/
  | unmark
deriving DecidableEq

namespace Change

/-- The kind of watch that a change is for. -/
def kind : Change → Kind
  | setBlocker _ => .clause
  | setOther _ | clearRed | mark | unmark => .binary

/-- The changed watch. -/
def apply (c : Change) (w : Watch) : Except Fault Watch :=
  match c with
  | setBlocker l => w.setBlocker l
  | setOther l => w.setOther l
  | clearRed => w.clearRed
  | mark => w.mark
  | unmark => w.unmark

/-- Changes the watch that is held. That a refused change leaves it as it is holds by this
definition, for a build whose assertions are checked before anything is written. -/
def run (c : Change) : StateM Watch (Except Fault Unit) := fun w =>
  match c.apply w with
  | .ok w' => (.ok (), w')
  | .error f => (.error f, w)

end Change

/-- A view with one field changed, if it has the field. -/
def View.change? (c : Change) (v : View Abstraction) : Option (View Abstraction) :=
  match c, v with
  | .setBlocker l, .clause o _ => some (.clause o ⟨l.raw⟩)
  | .setOther l, .binary _ r m i => some (.binary l r m i)
  | .clearRed, .binary l _ m i => some (.binary l false m i)
  | .mark, .binary l r _ i => some (.binary l r true i)
  | .unmark, .binary l r _ i => some (.binary l r false i)
  | _, _ => none

/-- The field is there exactly on views of the change's kind. -/
theorem View.isSome_change?_iff (c : Change) (v : View Abstraction) :
    (v.change? c).isSome ↔ v.kind = c.kind := by
  cases c <;> cases v <;> simp [change?, kind, Change.kind]

namespace Watch

/-! ## Answers -/

/-- A watch answers with the fields of a view. -/
def Answers (w : Watch) : View Abstraction → Prop
  | .clause o d =>
    w.offset = .ok o ∧ w.abstraction = .ok d ∧ w.blocker = .ok (.ofRaw d.bits) ∧
      ∀ (α : Type) [FirstWord α], w.firstAs α = .ok (FirstWord.decode d.bits)
  | .binary l r m i =>
    w.other = .ok l ∧ w.isRed = .ok r ∧ w.isMarked = .ok m ∧ w.clauseId = .ok i
  | .bnn i r => w.bnnIndex = .ok i ∧ w.role = .ok r
  | .idx i => w.index = .ok i

/-- A watch refuses every question about a kind, naming itself and the kind. -/
def Refuses (w : Watch) (k : Kind) : Prop :=
  match k with
  | .clause =>
    w.offset = .error (.wrongKind w k) ∧ w.abstraction = .error (.wrongKind w k) ∧
      w.blocker = .error (.wrongKind w k) ∧
      ∀ (α : Type) [FirstWord α], w.firstAs α = .error (.wrongKind w k)
  | .binary =>
    w.other = .error (.wrongKind w k) ∧ w.isRed = .error (.wrongKind w k) ∧
      w.isMarked = .error (.wrongKind w k) ∧ w.clauseId = .error (.wrongKind w k)
  | .bnn => w.bnnIndex = .error (.wrongKind w k) ∧ w.role = .error (.wrongKind w k)
  | .idx => w.index = .error (.wrongKind w k)

/-- A packed view answers with its own fields. -/
theorem answers_toWatch (v : View Abstraction) : v.toWatch.Answers v := by
  cases v with
  | clause o d =>
    have hkind : (View.clause o d).toWatch.kind = .clause := kind_pack ..
    have hpayload : (View.clause o d).toWatch.payload = o.val := payload_pack ..
    refine ⟨?_, require_of_kind hkind _, require_of_kind hkind _,
      fun α _ => require_of_kind hkind _⟩
    rw [offset, require_of_kind hkind, hpayload]
  | binary l r m i =>
    have hkind : (View.binary l r m i : View Abstraction).toWatch.kind = .binary := kind_pack ..
    refine ⟨?_, ?_, ?_, ?_⟩
    · rw [other, require_of_kind hkind]
      exact congrArg Except.ok (Literal.ofRaw_raw l)
    · rw [isRed, require_of_kind hkind, View.toWatch, flags_packBinary]
    · rw [isMarked, require_of_kind hkind, View.toWatch, flags_packBinary]
    · rw [clauseId, require_of_kind hkind, View.toWatch, idField_packBinary]
  | bnn i r =>
    have hkind : (View.bnn i r : View Abstraction).toWatch.kind = .bnn := kind_pack ..
    have hpayload : (View.bnn i r : View Abstraction).toWatch.payload = r.payload :=
      payload_pack ..
    refine ⟨require_of_kind hkind _, ?_⟩
    rw [role, require_of_kind hkind, hpayload]
    simp [Except.bind]
  | idx i =>
    have hkind : (View.idx i : View Abstraction).toWatch.kind = .idx := kind_pack ..
    exact require_of_kind hkind _

/-- A watch refuses what is asked about any other kind. -/
theorem refuses_of_kind_ne {w : Watch} {k : Kind} (h : w.kind ≠ k) : w.Refuses k := by
  cases k with
  | clause =>
    exact ⟨require_of_ne h _, require_of_ne h _, require_of_ne h _,
      fun α _ => require_of_ne h _⟩
  | binary =>
    exact ⟨require_of_ne h _, require_of_ne h _, require_of_ne h _, require_of_ne h _⟩
  | bnn =>
    refine ⟨require_of_ne h _, ?_⟩
    rw [role, require_of_ne h]
    rfl
  | idx => exact require_of_ne h _

/-! ## Changes -/

/-- New flags replace the old ones and nothing else. -/
theorem setFlags_packBinary (l : Literal) (f f' : BinaryFlags) (i : ClauseId) :
    (packBinary l f i).setFlags f' = packBinary l f' i := by
  rw [setFlags, idField_packBinary, setPayload, packBinary, kind_pack, first_pack]
  rfl

/-- A change of a packed view packs the changed view, and is refused where the
view has no such field. -/
theorem apply_toWatch (c : Change) (v : View Abstraction) :
    c.apply v.toWatch = match v.change? c with
      | some v' => .ok v'.toWatch
      | none => .error (.wrongKind v.toWatch c.kind) := by
  have hkind : v.toWatch.kind = v.kind := View.kind_toWatch v
  by_cases hk : v.kind = c.kind
  · have hreq : v.toWatch.kind = c.kind := hkind.trans hk
    cases c with
    | setBlocker l =>
      obtain ⟨o, d, rfl⟩ := View.exists_clause_of_kind hk
      exact require_of_kind hreq _
    | setOther l =>
      obtain ⟨l', r, m, i, rfl⟩ := View.exists_binary_of_kind hk
      exact require_of_kind hreq _
    | clearRed =>
      obtain ⟨l, r, m, i, rfl⟩ := View.exists_binary_of_kind hk
      refine (require_of_kind hreq _).trans ?_
      rw [View.toWatch, flags_packBinary, setFlags_packBinary]
      rfl
    | mark =>
      obtain ⟨l, r, m, i, rfl⟩ := View.exists_binary_of_kind hk
      refine (require_of_kind hreq _).trans ?_
      rw [View.toWatch, flags_packBinary, setFlags_packBinary]
      rfl
    | unmark =>
      obtain ⟨l, r, m, i, rfl⟩ := View.exists_binary_of_kind hk
      refine (require_of_kind hreq _).trans ?_
      rw [View.toWatch, flags_packBinary, setFlags_packBinary]
      rfl
  · have hnone : v.change? c = none := by
      rw [← Option.not_isSome_iff_eq_none, View.isSome_change?_iff]
      exact hk
    have hreq : v.toWatch.kind ≠ c.kind := fun h => hk (hkind.symm.trans h)
    rw [hnone]
    -- each change asks for the kind first
    cases c <;> exact require_of_ne hreq _

end Watch

end WatchLists
