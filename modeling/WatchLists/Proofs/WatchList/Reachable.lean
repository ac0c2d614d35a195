import WatchLists.Proofs.Watch.Invariant
import WatchLists.Proofs.WatchList.OrderKept
import WatchLists.Proofs.WatchList.Reading
import WatchLists.Proofs.WatchList.RoundTrip

/-!
# Everything that can be reached

Whatever is done to watches and to lists of them, in any order and any number of
times: they are made, put into lists, taken out again, moved, copied, changed, read from
texts and from files. All of this keeps to watches that pack a view, so that the bounds
on the packed words hold and no question about a watch of the right kind fails.

- `Reachable`: the lists that come about, and `Watch.Reachable`, the watches in them.
- `obtainable_of_run`, `obtainable_of_modifyAt`: what one operation on a list keeps.
- `Reachable.obtainable`: what all of them keep.
- `reachable_invariant`: what follows for each watch.
-/

namespace WatchLists

open WatchList

/-! ## What one operation keeps -/

section Steps

variable {ws ws' : WatchList}

/-- Replacing one watch keeps to what both it and the list keep to. -/
theorem forall_mem_set {p : Watch → Prop} (h : ∀ w ∈ ws, p w) {w : Watch} (hw : p w) (n : Nat) :
    ∀ v ∈ ws.set n w, p v := by
  intro v hv
  rcases List.mem_or_eq_of_mem_set hv with hv | rfl
  · exact h v hv
  · exact hw

/-- Removing the first of the watches that are looked for. -/
theorem mem_of_removeFirst? {p : Watch → Bool} (h : removeFirst? p ws = some ws') {w : Watch}
    (hw : w ∈ ws') : w ∈ ws := by
  rcases removeFirst?_eq p ws with ⟨_, hnone⟩ | ⟨v, vs, _, hsome, hperm⟩
  · cases hnone.symm.trans h
  · cases hsome.symm.trans h
    exact hperm.mem_iff.mp (List.mem_cons_of_mem v hw)

/-- A change in place. -/
theorem obtainable_of_modifyAt (hws : ∀ w ∈ ws, w.Obtainable) {n : Nat} {c : Change}
    (h : ws.modifyAt n c.apply = .ok ws') : ∀ w ∈ ws', w.Obtainable := by
  unfold modifyAt at h
  split at h
  · next w hget =>
    obtain ⟨w', hchange, rfl⟩ := exists_ok_of_map h
    exact forall_mem_set hws (.change c (hws w (List.mem_of_getElem? hget)) hchange) n
  · cases h

/-- Another blocking literal for the watch at an offset, which is one of a clause. -/
theorem obtainable_replaceBlocker (hws : ∀ w ∈ ws, w.Obtainable) (o : ClauseOffset)
    (l : Literal) : ∀ w ∈ (ws.replaceBlocker? o l).getD ws, w.Obtainable := by
  cases hfind : ws.findIdx? (Watch.isClauseAt o) with
  | none =>
    rw [replaceBlocker?_eq_none hfind]
    exact hws
  | some i =>
    obtain ⟨hi, hkind⟩ := Operation.kind_of_findIdx? hfind
    have hchange : (Change.setBlocker l).apply ws[i] = .ok (ws[i].setFirst l.raw) :=
      Watch.require_of_kind hkind _
    rw [replaceBlocker?_eq_some hi hfind]
    exact forall_mem_set hws (.change _ (hws _ (List.getElem_mem hi)) hchange) i

/-- **One operation** of any kind keeps to watches that can be obtained. -/
theorem obtainable_of_run (hws : ∀ w ∈ ws, w.Obtainable) {op : Operation} {answer : Answer}
    (h : op.run ws = .ok (answer, ws')) : ∀ w ∈ ws', w.Obtainable := by
  -- of the watches that are looked for, one may go
  have hremoved (p : Watch → Bool) : ∀ w ∈ (removeFirst? p ws).getD ws, w.Obtainable := by
    intro w hw
    cases hfirst : removeFirst? p ws with
    | none => exact hws w (by rwa [hfirst] at hw)
    | some vs => exact hws w (mem_of_removeFirst? hfirst (by rwa [hfirst] at hw))
  cases op with
  | attachClause o data =>
    cases h
    exact List.forall_mem_append.mpr ⟨hws, List.forall_mem_singleton.mpr (.ofClause o data)⟩
  | attachBinary l r i =>
    cases h
    exact List.forall_mem_append.mpr ⟨hws, List.forall_mem_singleton.mpr (.ofBinary l r i)⟩
  | attachBnn i r =>
    cases h
    exact List.forall_mem_append.mpr ⟨hws, List.forall_mem_singleton.mpr (.ofBnn i r)⟩
  | attachIdx i =>
    cases h
    exact List.forall_mem_append.mpr ⟨hws, List.forall_mem_singleton.mpr (.ofIdx i)⟩
  | detach n =>
    obtain ⟨vs, hdetach, heq⟩ := exists_ok_of_map h
    cases heq
    unfold detach at hdetach
    split at hdetach
    · next hn =>
      cases hdetach
      exact fun w hw => hws w ((removeAt_perm hn).mem_iff.mp (List.mem_cons_of_mem _ hw))
    · cases hdetach
  | detachClause o =>
    cases h
    exact hremoved _
  | detachBinary l r i =>
    cases h
    exact hremoved _
  | replaceBlocker o l =>
    cases h
    exact obtainable_replaceBlocker hws o l
  | sweep =>
    cases h
    exact fun w hw => hws w (List.mem_of_mem_filter hw)
  | sort =>
    obtain ⟨vs, hsort, heq⟩ := exists_ok_of_map h
    cases heq
    exact fun w hw => hws w ((sortBy_perm hsort).mem_iff.mp hw)

end Steps

/-! ## What all of them keep -/

/-- The lists that come about. -/
inductive WatchList.Reachable : WatchList → Prop
  /-- The list without watches. -/
  | empty : Reachable []
  /-- A watch that was made by itself is put into a list. -/
  | insert {ws : WatchList} {w : Watch} (hws : Reachable ws) (hw : w.Obtainable) :
    Reachable (w :: ws)
  /-- A watch that was made by an unchecked identifier is put into a list. -/
  | insertById {ws : WatchList} {w : Watch} {l : Literal} {r : Bool} {id : Nat}
    (hws : Reachable ws) (hw : Watch.ofBinaryId l r id = .ok w) : Reachable (w :: ws)
  /-- Two lists are joined. -/
  | append {ws vs : WatchList} (hws : Reachable ws) (hvs : Reachable vs) : Reachable (ws ++ vs)
  /-- Watches of a list are taken, in any order and any number of times. -/
  | gather {ws vs : WatchList} (hws : Reachable ws) (hvs : vs ⊆ ws) : Reachable vs
  /-- A watch of a list is changed. -/
  | modifyAt {ws ws' : WatchList} {n : Nat} {c : Change} (hws : Reachable ws)
    (h : ws.modifyAt n c.apply = .ok ws') : Reachable ws'
  /-- An operation is done on a list. -/
  | run {ws ws' : WatchList} {op : Operation} {answer : Answer} (hws : Reachable ws)
    (h : op.run ws = .ok (answer, ws')) : Reachable ws'
  /-- The first of the watches that are looked for goes. -/
  | removeFirst {ws ws' : WatchList} {p : Watch → Bool} (hws : Reachable ws)
    (h : removeFirst? p ws = some ws') : Reachable ws'
  /-- A text is read. -/
  | ofText {text : String} {ws : WatchList} (h : WatchList.ofText text = .ok ws) : Reachable ws
  /-- A file is read. -/
  | ofBytes {bytes : List UInt8} {ws : WatchList} (h : WatchList.ofBytes bytes = .ok ws) :
    Reachable ws

/-- A watch of a list that comes about. -/
def Watch.Reachable (w : Watch) : Prop := ∃ ws : WatchList, ws.Reachable ∧ w ∈ ws

/-- **Every run** keeps to watches that can be obtained. -/
theorem WatchList.Reachable.obtainable {ws : WatchList} (h : ws.Reachable) :
    ∀ w ∈ ws, w.Obtainable := by
  -- one case for each way to get on
  induction h with
  | empty => nofun
  | insert _ hw ih => exact List.forall_mem_cons.mpr ⟨hw, ih⟩
  | insertById _ hw ih =>
    obtain ⟨i, _, rfl⟩ := exists_ok_of_map hw
    exact List.forall_mem_cons.mpr ⟨.ofBinary _ _ i, ih⟩
  | append _ _ ihw ihv => exact List.forall_mem_append.mpr ⟨ihw, ihv⟩
  | gather _ hvs ih => exact fun w hw => ih w (hvs hw)
  | modifyAt _ h ih => exact obtainable_of_modifyAt ih h
  | run _ h ih => exact obtainable_of_run ih h
  | removeFirst _ h ih => exact fun w hw => ih w (mem_of_removeFirst? h hw)
  | ofText h => exact obtainable_of_mem_ofText h
  | ofBytes h =>
    intro w hw
    obtain ⟨v, rfl, _⟩ := exists_view_of_mem_ofBytes h hw
    exact .toWatch v

namespace Watch

/-- A change of a watch can be done by itself. -/
theorem Reachable.run {w : Watch} (h : w.Reachable) (c : Change) : (c.run w).2.Reachable := by
  obtain ⟨ws, hws, hw⟩ := h
  unfold Change.run
  cases hchange : c.apply w with
  | error f => exact ⟨ws, hws, hw⟩
  | ok w' =>
    have hsingle : WatchList.Reachable [w] :=
      hws.gather (List.cons_subset.mpr ⟨hw, List.nil_subset ws⟩)
    have hmodify : WatchList.modifyAt [w] 0 c.apply = .ok [w'] := by
      show (c.apply w).map _ = _
      rw [hchange]
      rfl
    exact ⟨[w'], hsingle.modifyAt hmodify, List.mem_singleton_self w'⟩

theorem Reachable.runAll {w : Watch} (h : w.Reachable) (cs : List Change) :
    (Change.runAll cs w).Reachable := by
  induction cs generalizing w with
  | nil => exact h
  | cons c cs ih => exact ih (h.run c)

/-- **The invariant of watches.** Whatever was done before, a watch keeps the bounds on its
packed words. So it is what packing some view yields, no assertion of its packing or
unpacking fails, it answers every question of its kind, and it can be viewed, shown and
written. Any changes leave its kind and its offset, identifier or role as they were; after
them all of this holds again, and the next change that suits the kind is done on the words
without an assertion that fails. -/
theorem reachable_invariant {w : Watch} (h : w.Reachable) :
    w.WellFormed ∧
    (∃ v : View Abstraction, v.packBits? = some w ∧ w.viewBits? = some v ∧ w.kind = v.kind ∧
      w.Answers v ∧ ∀ (α : Type) [FirstWord α], w.view α = .ok (v.readAs α)) ∧
    (∃ t, w.description = .ok t) ∧ (∃ t, w.debugText = .ok t) ∧
    (∀ form, ∃ t, w.line form = .ok t) ∧
    ∀ cs : List Change, (Change.runAll cs w).Reachable ∧ w.SameHandle (Change.runAll cs w) ∧
      ∀ c : Change, c.kind = w.kind → ∃ w', c.run (Change.runAll cs w) = (.ok (), w') ∧
        c.applyBits? (Change.runAll cs w) = some w' := by
  obtain ⟨ws, hws, hw⟩ := h
  obtain ⟨v, hfields, rfl⟩ := (hws.obtainable w hw).exists_fields
  refine ⟨wellFormed_iff.mpr (.toWatch v), ⟨v, v.packBits?_eq, viewBits?_of_fields? hfields,
    View.kind_toWatch v, answers_toWatch v, fun α _ => view_toWatch α v⟩, exists_description v,
    exists_debugText v, fun form => ?_, fun cs => ?_⟩
  · obtain ⟨t, hline, _⟩ := line_toWatch form v
    exact ⟨t, hline⟩
  · have hsame := sameHandle_runAll cs v.toWatch
    exact ⟨Reachable.runAll ⟨ws, hws, hw⟩ cs, hsame, fun c hc =>
      exists_run_of_kind (hsame.kind.trans hc.symm)⟩

/-- A watch that was read with the last identifier and a mark, and then sorted to the
front. -/
theorem reachable_invariant_sorted :
    let w : Watch := .packBinary ⟨6, by decide⟩ ⟨true, true⟩ .max
    w.Reachable ∧ w.WellFormed ∧
      ∃ v : View Abstraction, v.packBits? = some w ∧ w.viewBits? = some v := by
  intro w
  have hread : WatchList.ofText "n 7 out\nb -3 1 1152921504606846975 m\n"
      = .ok [.ofBnn 7 .out, w] := by decide +kernel
  have hsort : Operation.sort.run [.ofBnn 7 .out, w] = .ok (.done, [w, .ofBnn 7 .out]) := by
    decide +kernel
  have hw : w.Reachable := ⟨_, .run (.ofText hread) hsort, List.mem_cons_self⟩
  obtain ⟨hwell, ⟨v, hpack, hview, _⟩, _⟩ := reachable_invariant hw
  exact ⟨hw, hwell, v, hpack, hview⟩

end Watch

end WatchLists
