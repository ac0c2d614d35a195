import WatchLists.Proofs.Watch.Obtainable

/-!
# The packed watch refines the unpacked one

A user who only ever sees views cannot tell that watches are packed: whatever a
watch is made of is found in its bits, is answered when it is asked for, and is
changed one field at a time.
-/

namespace WatchLists.Watch

/-- A change that suits the kind yields the changed view, and any other change is
refused and does nothing. -/
theorem run_change {w : Watch} {v : View Abstraction} (hw : v.toWatch = w) (c : Change) :
    (c.kind = v.kind → ∃ v' w', v.change? c = some v' ∧ c.run w = (.ok (), w') ∧
      w'.fields? = some v') ∧
    (c.kind ≠ v.kind → c.run w = (.error (.wrongKind w c.kind), w)) := by
  subst hw
  have happly := apply_toWatch c v
  constructor
  · intro hk
    obtain ⟨v', hv'⟩ := Option.isSome_iff_exists.mp ((View.isSome_change?_iff c v).mpr hk.symm)
    rw [hv'] at happly
    refine ⟨v', v'.toWatch, hv', ?_, fields?_eq_some_iff.mpr rfl⟩
    unfold Change.run
    rw [happly]
  · intro hk
    have hnone : v.change? c = none :=
      Option.not_isSome_iff_eq_none.mp fun h => hk ((View.isSome_change?_iff c v).mp h).symm
    rw [hnone] at happly
    unfold Change.run
    rw [happly]

/-- An identifier is taken up to the last that fits beside the flags. -/
theorem ofBinaryId_eq (l : Literal) (r : Bool) (n : Nat) :
    ofBinaryId l r n
      = if h : n < 0x1000000000000000 then .ok (ofBinary l r ⟨⟨n, h⟩⟩)
        else .error (.idOverflow n) := by
  unfold ofBinaryId ClauseId.ofNat
  split <;> rfl

/-- **Refinement of views.** Each constructor stores exactly its arguments: no
bit of one field is found in another, up to the last offset and the last
identifier, and an identifier of more than 60 bits is refused. A watch that can be
obtained stands for a view. It answers with the fields of that view, refuses
what belongs to another kind, and follows every change: one field of the view is
another then, or the change is of another kind and the watch stays as it is. -/
theorem packed_refines_view :
    (∀ (α : Type) [FirstWord α] (o : ClauseOffset) (d : α),
      (ofClause o d).fields? = some (.clause o ⟨FirstWord.encode d⟩)) ∧
    (∀ l r i, (ofBinary l r i).fields? = some (.binary l r false i)) ∧
    (∀ l r n,
      (∀ h : n < 0x1000000000000000, ∃ w, ofBinaryId l r n = .ok w ∧
        w.fields? = some (.binary l r false ⟨⟨n, h⟩⟩)) ∧
      (0x1000000000000000 ≤ n → ofBinaryId l r n = .error (.idOverflow n))) ∧
    (∀ i r, (ofBnn i r).fields? = some (.bnn i r)) ∧
    (∀ i, (ofIdx i).fields? = some (.idx i)) ∧
    (∀ (α : Type) [FirstWord α] (v : View α), v.toWatch.fields? = some v.stored) ∧
    (∀ w, Obtainable w → ∃ v, w.fields? = some v ∧ w.kind = v.kind ∧ w.Answers v ∧
      (∀ k, k ≠ v.kind → w.Refuses k) ∧
      ∀ c : Change,
        (c.kind = v.kind → ∃ v' w', v.change? c = some v' ∧ c.run w = (.ok (), w') ∧
          w'.fields? = some v') ∧
        (c.kind ≠ v.kind → c.run w = (.error (.wrongKind w c.kind), w))) := by
  have hbinary : ∀ l r i, (ofBinary l r i).fields? = some (.binary l r false i) :=
    fun l r i => fields?_toWatch (View.binary l r false i : View Abstraction)
  refine ⟨fun α _ o d => fields?_toWatch (View.clause o d), hbinary, fun l r n => ⟨?_, ?_⟩,
    fun i r => fields?_toWatch (View.bnn i r : View Abstraction),
    fun i => fields?_toWatch (View.idx i : View Abstraction),
    fun α _ v => fields?_toWatch v, ?_⟩
  · intro h
    exact ⟨_, (ofBinaryId_eq l r n).trans (dif_pos h), hbinary l r ⟨⟨n, h⟩⟩⟩
  · intro h
    exact (ofBinaryId_eq l r n).trans (dif_neg (Nat.not_lt.mpr h))
  · intro w hw
    obtain ⟨v, hfields, rfl⟩ := hw.exists_fields
    refine ⟨v, hfields, View.kind_toWatch v, answers_toWatch v, fun k hk => ?_,
      run_change rfl⟩
    exact refuses_of_kind_ne fun h => hk (h.symm.trans (View.kind_toWatch v))

/-- The last identifier is stored beside the flag and stays when the watch is marked;
the next one is refused, and so is the mark on an idx watch. -/
theorem packed_refines_view_last :
    (∃ w, ofBinaryId ⟨2, by decide⟩ true 0xFFFFFFFFFFFFFFF = .ok w ∧
      w.fields? = some (.binary ⟨2, by decide⟩ true false .max)) ∧
    ofBinaryId ⟨2, by decide⟩ true 0x1000000000000000
      = .error (.idOverflow 0x1000000000000000) ∧
    (∃ w', Change.mark.run (ofBinary ⟨2, by decide⟩ true .max) = (.ok (), w') ∧
      w'.fields? = some (.binary ⟨2, by decide⟩ true true .max)) ∧
    Change.mark.run (ofIdx 3) = (.error (.wrongKind (ofIdx 3) .binary), ofIdx 3) := by
  obtain ⟨_, hbinary, hid, _, hidx, _, hall⟩ := packed_refines_view
  refine ⟨(hid _ _ _).1 (by decide), (hid _ _ _).2 (by decide), ?_, ?_⟩
  · obtain ⟨v, hv, _, _, _, hchange⟩ := hall _ (.ofBinary ⟨2, by decide⟩ true .max)
    obtain rfl := Option.some.inj ((hbinary _ _ _).symm.trans hv)
    obtain ⟨v', w', hv', hrun, hfields⟩ := (hchange .mark).1 rfl
    cases hv'
    exact ⟨w', hrun, hfields⟩
  · obtain ⟨v, hv, _, _, _, hchange⟩ := hall _ (.ofIdx 3)
    obtain rfl := Option.some.inj ((hidx _).symm.trans hv)
    exact (hchange .mark).2 (by decide)

end WatchLists.Watch
