import WatchLists.Proofs.WatchList.RepeatedRemoval

/-!
# Detaching what was attached

A new watch goes to the end of the list, and a detached watch leaves its place to the last
one. So if a watch is attached and one with its fields is detached, there are two cases. If
the new one is the only one it is found at the end and just goes; the list is what it was.
If there was one before, the new one is never looked at and moves to the place of that one.
A clause watch is then replaced. A binary watch is sought whatever its mark is, and the new
one has none; so of the old one, only the mark is lost.

- `removeFirst?_append_of_forall`, `removeFirst?_append_of_firstAt`: the two cases of any
  removal.
- `Watch.HasFields`, `unmark_of_hasFields`: binary watches that differ in the mark.
- `detach_attached`: both kinds of watches.
-/

namespace WatchLists

/-! ## Removal behind an addition -/

section Removal

variable {α : Type} {p : α → Bool} {P : α → Prop} {xs : List α} {x : α} {i : Nat}

/-- What was added is removed if nothing before it matches. -/
theorem removeFirst?_append_of_forall (hp : ∀ y, p y = true ↔ P y) (h : ∀ y ∈ xs, ¬ P y)
    (hx : P x) : removeFirst? p (xs ++ [x]) = some xs := by
  have hnone : xs.findIdx? p = none := (findIdx?_eq_none_iff_forall hp).mpr h
  have hlast : (xs ++ [x]).findIdx? p = some xs.length := by
    rw [List.findIdx?_append, hnone, List.findIdx?_singleton, if_pos ((hp x).mpr hx)]
    simp
  rw [removeFirst?, hlast, Option.map_some, removeAt_append_singleton_last]

/-- What was added takes the place of the first match before it. -/
theorem removeFirst?_append_of_firstAt (hp : ∀ y, p y = true ↔ P y) (h : FirstAt P xs i)
    (x : α) : removeFirst? p (xs ++ [x]) = some (xs.set i x) := by
  have hfirst : (xs ++ [x]).findIdx? p = some i := by
    rw [List.findIdx?_append, (findIdx?_eq_some_iff_firstAt hp).mpr h, Option.some_or]
  rw [removeFirst?, hfirst, Option.map_some, removeAt_append_singleton h.lt]

end Removal

/-! ## The watch that is attached -/

namespace Watch

/-- The other literal, the red flag and the identifier of a binary watch, whatever its mark
is. -/
def HasFields (l : Literal) (r : Bool) (i : ClauseId) (w : Watch) : Prop :=
  w.other = .ok l ∧ w.isRed = .ok r ∧ w.clauseId = .ok i

instance (l : Literal) (r : Bool) (i : ClauseId) (w : Watch) : Decidable (w.HasFields l r i) :=
  inferInstanceAs (Decidable (_ ∧ _))

theorem offset_ofClause {α : Type} [FirstWord α] (o : ClauseOffset) (d : α) :
    (ofClause o d).offset = .ok o := by
  have hkind : (ofClause o d).kind = .clause := kind_pack ..
  rw [offset, require_of_kind hkind, ofClause, payload_pack]

theorem hasFields_ofBinary (l : Literal) (r : Bool) (i : ClauseId) :
    (ofBinary l r i).HasFields l r i := by
  obtain ⟨hother, hred, _, hid⟩ := answers_toWatch (.binary l r false i)
  exact ⟨hother, hred, hid⟩

theorem kind_of_hasFields {l : Literal} {r : Bool} {i : ClauseId} {w : Watch}
    (h : w.HasFields l r i) : w.kind = .binary := by
  by_contra hkind
  have hrefused := (refuses_of_kind_ne hkind).1
  rw [h.1] at hrefused
  cases hrefused

/-- Without its mark a binary watch is the one that is made of its fields. -/
theorem unmark_of_hasFields {l : Literal} {r : Bool} {i : ClauseId} {w : Watch}
    (hw : w.Obtainable) (h : w.HasFields l r i) : w.unmark = .ok (ofBinary l r i) := by
  obtain ⟨l', ⟨r', m⟩, i', rfl⟩ := hw.exists_packBinary (kind_of_hasFields h)
  obtain ⟨hother, hred, _, hid⟩ := answers_toWatch (.binary l' r' m i')
  obtain ⟨h₁, h₂, h₃⟩ := h
  obtain rfl : l' = l := Except.ok.inj (hother.symm.trans h₁)
  obtain rfl : r' = r := Except.ok.inj (hred.symm.trans h₂)
  obtain rfl : i' = i := Except.ok.inj (hid.symm.trans h₃)
  exact apply_toWatch .unmark (.binary l' r' m i')

end Watch

/-! ## Attaching and detaching -/

namespace WatchList

variable {ws ws' : WatchList} {l : Literal} {r : Bool} {id : ClauseId} {i : Nat}

theorem run_detachClause_of_some {o : ClauseOffset}
    (h : removeFirst? (Operation.detachClause o).seeks ws = some ws') :
    (Operation.detachClause o).run ws = .ok (.found true, ws') := by
  show Except.ok (Operation.orUnchanged ws (ws.detachClause? o)) = _
  rw [Operation.detachClause?_eq, h]
  rfl

theorem run_detachBinary_of_some
    (h : removeFirst? (Operation.detachBinary l r id).seeks ws = some ws') :
    (Operation.detachBinary l r id).run ws = .ok (.found true, ws') := by
  show Except.ok (Operation.orUnchanged ws (ws.detachBinary? l r id)) = _
  rw [Operation.detachBinary?_eq, h]
  rfl

/-- The mark of a watch is cleared by the new watch in its place. -/
theorem modifyAt_unmark (hws : ∀ w ∈ ws, w.Obtainable)
    (h : FirstAt (Watch.HasFields l r id) ws i) :
    ws.modifyAt i Watch.unmark = .ok (ws.set i (.ofBinary l r id)) := by
  have hi := h.lt
  have hobt : ws[i].Obtainable := hws _ (List.getElem_mem hi)
  rw [modifyAt, List.getElem?_eq_getElem hi]
  show (ws[i].unmark).map _ = _
  rw [Watch.unmark_of_hasFields hobt h.holds]
  rfl

/-- **Detaching what was attached.** A watch of a long clause is attached, and one at its
offset is detached. There is one to detach; if the list had none at the offset it is what it
was, and otherwise the first of them is replaced in its place by the new one.

A watch of a binary clause is attached, and one with its literal, flag and identifier is
detached. There is one to detach; if the list had none with these fields it is what it was,
and otherwise the first of them has its mark cleared. -/
theorem detach_attached (ws : WatchList) :
    (∀ (α : Type) [FirstWord α] (o : ClauseOffset) (d : α),
      ((∀ w ∈ ws, w.offset ≠ .ok o) →
        (Operation.detachClause o).run (ws.attachClause o d) = .ok (.found true, ws)) ∧
      ∀ i, FirstAt (fun w => w.offset = .ok o) ws i →
        (Operation.detachClause o).run (ws.attachClause o d)
          = .ok (.found true, ws.set i (.ofClause o d))) ∧
    ∀ (l : Literal) (r : Bool) (id : ClauseId),
      ((∀ w ∈ ws, ¬ w.HasFields l r id) →
        (Operation.detachBinary l r id).run (ws.attachBinary l r id)
          = .ok (.found true, ws)) ∧
      ∀ i, FirstAt (Watch.HasFields l r id) ws i → (∀ w ∈ ws, w.Obtainable) →
        ∃ ws', ws.modifyAt i Watch.unmark = .ok ws' ∧
          (Operation.detachBinary l r id).run (ws.attachBinary l r id)
            = .ok (.found true, ws') := by
  constructor
  · intro α _ o d
    have hseeks (w : Watch) : (Operation.detachClause o).seeks w = true ↔ w.offset = .ok o :=
      decide_eq_true_iff
    constructor
    · intro hfresh
      have hnew := Watch.offset_ofClause o d
      exact run_detachClause_of_some (removeFirst?_append_of_forall hseeks hfresh hnew)
    · intro i hfirst
      exact run_detachClause_of_some (removeFirst?_append_of_firstAt hseeks hfirst _)
  · intro l r id
    have hseeks (w : Watch) :
        (Operation.detachBinary l r id).seeks w = true ↔ w.HasFields l r id :=
      decide_eq_true_iff
    constructor
    · intro hfresh
      have hnew := Watch.hasFields_ofBinary l r id
      exact run_detachBinary_of_some (removeFirst?_append_of_forall hseeks hfresh hnew)
    · intro i hfirst hws
      refine ⟨_, modifyAt_unmark hws hfirst, ?_⟩
      exact run_detachBinary_of_some (removeFirst?_append_of_firstAt hseeks hfirst _)

/-- Of two clause watches at an offset the first is replaced, and of two binary watches with
the same fields the first loses its mark; a watch at another offset goes again. -/
theorem detach_attached_twins :
    let o : ClauseOffset := ⟨40⟩
    let l : Literal := ⟨5, by decide⟩
    let twins (first : Literal) (marked : Bool) : WatchList := [.ofIdx 3,
      .packBinary l ⟨false, marked⟩ ⟨4⟩, .ofClause o first, .ofClause o (Abstraction.mk 0),
      .packBinary l ⟨false, true⟩ ⟨4⟩]
    let ws := twins ⟨6, by decide⟩ true
    (∀ w ∈ ws, w.Obtainable) ∧ (∀ w ∈ ws, w.offset ≠ .ok .max) ∧
      FirstAt (fun w => w.offset = .ok o) ws 2 ∧ FirstAt (Watch.HasFields l false ⟨4⟩) ws 1 ∧
      (Operation.detachClause .max).run (ws.attachClause .max (Abstraction.mk 7))
        = .ok (.found true, ws) ∧
      (Operation.detachClause o).run (ws.attachClause o (⟨9, by decide⟩ : Literal))
        = .ok (.found true, twins ⟨9, by decide⟩ true) ∧
      (Operation.detachBinary l false ⟨4⟩).run (ws.attachBinary l false ⟨4⟩)
        = .ok (.found true, twins ⟨6, by decide⟩ false) := by
  intro o l twins ws
  have hmarked : (Watch.packBinary l ⟨false, true⟩ ⟨4⟩).Obtainable :=
    .toWatch (.binary l false true ⟨4⟩ : View Abstraction)
  have hws : ∀ w ∈ ws, w.Obtainable := by
    intro w hw
    simp only [ws, twins, List.mem_cons, List.not_mem_nil, or_false] at hw
    rcases hw with rfl | rfl | rfl | rfl | rfl
    · exact .ofIdx 3
    · exact hmarked
    · exact .ofClause o _
    · exact .ofClause o _
    · exact hmarked
  have hfresh : ∀ w ∈ ws, w.offset ≠ .ok .max := by decide
  have hclause : FirstAt (fun w => w.offset = .ok o) ws 2 := ⟨by decide, by decide, by decide⟩
  have hbinary : FirstAt (Watch.HasFields l false ⟨4⟩) ws 1 :=
    ⟨by decide, by decide, by decide⟩
  obtain ⟨hclauses, hbinaries⟩ := detach_attached ws
  obtain ⟨ws', hunmark, hrun⟩ := (hbinaries l false ⟨4⟩).2 1 hbinary hws
  obtain rfl : ws' = twins ⟨6, by decide⟩ false := Except.ok.inj (hunmark.symm.trans (by decide))
  exact ⟨hws, hfresh, hclause, hbinary, (hclauses Abstraction .max ⟨7⟩).1 hfresh,
    (hclauses Literal o ⟨9, by decide⟩).2 2 hclause, hrun⟩

end WatchList

end WatchLists
