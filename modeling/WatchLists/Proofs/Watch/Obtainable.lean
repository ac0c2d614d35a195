import WatchLists.Proofs.Except
import WatchLists.Proofs.Literal
import WatchLists.Proofs.Watch.Change
import WatchLists.Watch.Line

/-!
# Watches that can be obtained

Not every two words are a watch that a user can hold. A watch is made by a
constructor, from a view or from a line, and changed through its fields.

- `Obtainable`: the watches that come about in this way.
- `obtainable_iff`: these are the packed views, no more and no less.
- `exists_view_of_ofLine?`: a watch that was read from a line packs a view whose
  other literal, if it is binary, is one of DIMACS.
-/

namespace WatchLists

/-- The other literal of a view, if it is binary, is that of a DIMACS integer. -/
def View.IsDimacs {α : Type} : View α → Prop
  | .binary l _ _ _ => l.IsDimacs
  | _ => True

namespace Watch

/-- The watches that the operations of the library yield. -/
inductive Obtainable : Watch → Prop
  /-- The watch of no clause. -/
  | placeholder : Obtainable .placeholder
  /-- A watch of a long clause. -/
  | ofClause {α : Type} [FirstWord α] (o : ClauseOffset) (d : α) : Obtainable (.ofClause o d)
  /-- A watch of a binary clause. -/
  | ofBinary (l : Literal) (r : Bool) (i : ClauseId) : Obtainable (.ofBinary l r i)
  /-- A watch of a thresholded constraint. -/
  | ofBnn (i : Word32) (r : Role) : Obtainable (.ofBnn i r)
  /-- A watch of an element of an external array. -/
  | ofIdx (i : Word32) : Obtainable (.ofIdx i)
  /-- A watch that packs a view. -/
  | toWatch {α : Type} [FirstWord α] (v : View α) : Obtainable v.toWatch
  /-- A watch that was read from a line. -/
  | ofLine {line : List Char} {w : Watch} (h : ofLine? line = .ok (some w)) : Obtainable w
  /-- A watch that was changed. -/
  | change {w w' : Watch} (c : Change) (hw : Obtainable w) (h : c.apply w = .ok w') :
    Obtainable w'

/-! ## Watches from lines -/

/-- A literal that was read is one of DIMACS. -/
theorem isDimacs_of_readLiteral {word : List Char} {l : Literal}
    (h : readLiteral word = .ok l) : l.IsDimacs := by
  unfold readLiteral at h
  split at h
  · exact Literal.isDimacs_of_ofDimacs h
  · cases h

/-- The literal among the fields that were read of a binary watch is one of
DIMACS. -/
theorem isDimacs_of_readBinary {l r i : List Char} {red : Bool} {other : Literal}
    {id : ClauseId} (h : readBinary l r i = .ok (red, other, id)) : other.IsDimacs := by
  obtain ⟨_, _, h⟩ := exists_ok_of_bind h
  obtain ⟨_, hl, h⟩ := exists_ok_of_bind h
  obtain ⟨_, _, h⟩ := exists_ok_of_bind h
  cases h
  exact isDimacs_of_readLiteral hl

/-- The words of a line make a packed view. -/
theorem exists_view_of_ofHead {head : List Char} {args : List (List Char)} {w : Watch}
    (h : ofHead head args = .ok w) : ∃ v : View Abstraction, v.toWatch = w ∧ v.IsDimacs := by
  unfold ofHead at h
  -- one case for each shape of line, in the order of the table
  split at h
  · obtain ⟨o, _, h⟩ := exists_ok_of_bind h
    obtain ⟨l, _, h⟩ := exists_ok_of_bind h
    cases h
    exact ⟨.clause o ⟨l.raw⟩, rfl, trivial⟩
  · obtain ⟨o, _, h⟩ := exists_ok_of_bind h
    obtain ⟨a, _, h⟩ := exists_ok_of_bind h
    cases h
    exact ⟨.clause o ⟨a⟩, rfl, trivial⟩
  · obtain ⟨⟨r, l, i⟩, hb, h⟩ := exists_ok_of_bind h
    cases h
    exact ⟨.binary l r false i, rfl, isDimacs_of_readBinary hb⟩
  · obtain ⟨⟨r, l, i⟩, hb, h⟩ := exists_ok_of_bind h
    dsimp only at h
    split at h
    · cases h
      exact ⟨.binary l r true i, rfl, isDimacs_of_readBinary hb⟩
    · cases h
  · obtain ⟨r, _, h⟩ := exists_ok_of_bind h
    obtain ⟨i, _, h⟩ := exists_ok_of_bind h
    cases h
    exact ⟨.bnn i r, rfl, trivial⟩
  · obtain ⟨i, _, h⟩ := exists_ok_of_bind h
    cases h
    exact ⟨.idx i, rfl, trivial⟩
  · cases h

/-- A line makes a packed view. -/
theorem exists_view_of_ofLine? {line : List Char} {w : Watch}
    (h : ofLine? line = .ok (some w)) :
    ∃ v : View Abstraction, v.toWatch = w ∧ v.IsDimacs := by
  unfold ofLine? ofWords at h
  split at h
  · cases h
  · split at h
    · cases h
    · obtain ⟨w', hw, heq⟩ := exists_ok_of_map h
      cases heq
      exact exists_view_of_ofHead hw

/-! ## The watches that are obtained -/

/-- The watches that can be obtained are the packed views. -/
theorem obtainable_iff {w : Watch} : Obtainable w ↔ ∃ v : View Abstraction, v.toWatch = w := by
  constructor
  · intro h
    -- one case for each origin; a change keeps to packed views
    induction h with
    | placeholder => exact ⟨.clause .max ⟨Word32.allOnes⟩, rfl⟩
    | ofClause o d => exact ⟨.clause o ⟨FirstWord.encode d⟩, rfl⟩
    | ofBinary l r i => exact ⟨.binary l r false i, rfl⟩
    | ofBnn i r => exact ⟨.bnn i r, rfl⟩
    | ofIdx i => exact ⟨.idx i, rfl⟩
    | toWatch v => exact ⟨v.stored, v.toWatch_stored⟩
    | ofLine h =>
      obtain ⟨v, hv, _⟩ := exists_view_of_ofLine? h
      exact ⟨v, hv⟩
    | change c _ h ih =>
      obtain ⟨v, rfl⟩ := ih
      rw [apply_toWatch] at h
      split at h
      · next v' _ =>
        cases h
        exact ⟨v', rfl⟩
      · cases h
  · rintro ⟨v, rfl⟩
    exact .toWatch v

/-- A binary watch that can be obtained packs its fields. -/
theorem Obtainable.exists_packBinary {w : Watch} (h : w.Obtainable) (hk : w.kind = .binary) :
    ∃ l f i, packBinary l f i = w := by
  obtain ⟨v, rfl⟩ := obtainable_iff.mp h
  rw [View.kind_toWatch] at hk
  obtain ⟨l, r, m, i, rfl⟩ := View.exists_binary_of_kind hk
  exact ⟨l, ⟨r, m⟩, i, rfl⟩

/-- A watch that can be obtained stands for a view. -/
theorem Obtainable.exists_fields {w : Watch} (h : Obtainable w) :
    ∃ v : View Abstraction, w.fields? = some v ∧ v.toWatch = w := by
  obtain ⟨v, hv⟩ := obtainable_iff.mp h
  exact ⟨v, fields?_eq_some_iff.mpr hv, hv⟩

end Watch

end WatchLists
