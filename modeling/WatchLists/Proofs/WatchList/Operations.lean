import Mathlib.Data.List.Forall2
import Mathlib.Data.Multiset.AddSub
import Mathlib.Data.Multiset.Filter
import WatchLists.Proofs.Order.BinaryFirst
import WatchLists.WatchList.Removal

/-!
# Operations on watch lists as changes of a multiset

A watch list is changed by operations of different style: a new watch goes to the
end, the last watch takes the place of a detached one, a sweep keeps the order and
a sort does not. None of this matters to which watches there are. An operation adds
and takes away whole watches, as it would in a multiset, and the order of the list
only decides which one of several is taken.

- `Operation`, `Operation.run`, `runAll`: the operations as values, and a run.
- `Operation.picked`: the watch that an operation takes, by its place in the list.
- `Operation.onMultiset`, `runModel`: the same operations on a multiset.
- `removeAt_perm`, `removeFirst?_eq`: removal takes away one element.
- `run_eq`: one operation follows the model.
- `runAll_agrees`: so does every run, and the kinds are counted right.
-/

namespace WatchLists

/-! ## Removal -/

section Removal

variable {α : Type} {p : α → Bool} {xs : List α}

/-- What is removed and what is left make up the list. -/
theorem removeAt_perm {n : Nat} (h : n < xs.length) : (xs[n] :: removeAt xs n).Perm xs := by
  have herase : (removeAt xs n).Perm (xs.eraseIdx n) := by
    rcases List.eq_nil_or_concat xs with rfl | ⟨ys, x, rfl⟩
    · cases h
    rw [List.concat_eq_append] at h ⊢
    rw [List.length_append, List.length_singleton] at h
    by_cases hn : n < ys.length
    · -- the last element moves to the place that is free
      rw [removeAt_append_singleton hn, List.eraseIdx_append_of_lt_length hn]
      exact (List.set_perm_cons_eraseIdx hn x).trans (List.perm_append_singleton x _).symm
    · obtain rfl : n = ys.length := by omega
      rw [removeAt_append_singleton_last, List.eraseIdx_append_of_length_le (le_refl _)]
      simp
  exact (herase.cons _).trans (List.getElem_cons_eraseIdx_perm h)

/-- The position of the first element that satisfies a predicate is the place where
it is found. -/
theorem findIdx?_of_find? {x : α} (h : xs.find? p = some x) :
    ∃ (i : Nat) (hi : i < xs.length), xs.findIdx? p = some i ∧ xs[i] = x := by
  obtain ⟨hx, i, hi, rfl, hbefore⟩ := List.find?_eq_some_iff_getElem.mp h
  refine ⟨i, hi, List.findIdx?_eq_some_iff_getElem.mpr ⟨hi, hx, fun j hj => ?_⟩, rfl⟩
  simpa using hbefore j hj

theorem findIdx?_of_find?_eq_none (h : xs.find? p = none) : xs.findIdx? p = none :=
  List.findIdx?_eq_none_iff.mpr fun x hx => by simpa using List.find?_eq_none.mp h x hx

/-- Removing the first element that satisfies a predicate takes away this one, or
nothing if there is none. -/
theorem removeFirst?_eq (p : α → Bool) (xs : List α) :
    (xs.find? p = none ∧ removeFirst? p xs = none) ∨
      ∃ x ys, xs.find? p = some x ∧ removeFirst? p xs = some ys ∧ (x :: ys).Perm xs := by
  unfold removeFirst?
  cases hfind : xs.find? p with
  | none =>
    rw [findIdx?_of_find?_eq_none hfind]
    exact .inl ⟨rfl, rfl⟩
  | some x =>
    obtain ⟨i, hi, hidx, rfl⟩ := findIdx?_of_find? hfind
    rw [hidx]
    exact .inr ⟨_, _, rfl, rfl, removeAt_perm hi⟩

end Removal

namespace Watch

theorem isClauseAt_eq (o : ClauseOffset) (w : Watch) :
    w.isClauseAt o = decide (w.offset = .ok o) := by
  unfold isClauseAt testClauseAt offset
  by_cases hk : w.kind = .clause
  · simp [testIf_of_kind hk, require_of_kind hk, Except.map, Except.toOption]
  · simp [testIf_of_ne hk, require_of_ne hk, Except.toOption]

theorem isBinaryOf_eq (l : Literal) (r : Bool) (i : ClauseId) (w : Watch) :
    w.isBinaryOf l r i = decide (w.other = .ok l ∧ w.isRed = .ok r ∧ w.clauseId = .ok i) := by
  unfold isBinaryOf testBinaryOf other isRed clauseId
  by_cases hk : w.kind = .binary
  · simp [testIf_of_kind hk, require_of_kind hk, Except.toOption, Bool.and_assoc, pure, Except.pure,
      bind, Except.bind]
  · simp [testIf_of_ne hk, require_of_ne hk, Except.toOption]

theorem isMarkedBinary_eq (w : Watch) : w.isMarkedBinary = decide (w.isMarked = .ok true) := by
  unfold isMarkedBinary testMarkedBinary isMarked
  by_cases hk : w.kind = .binary
  · simp [testIf_of_kind hk, require_of_kind hk, Except.toOption]
  · simp [testIf_of_ne hk, require_of_ne hk, Except.toOption]

end Watch

namespace WatchList

variable {ws : WatchList} {o : ClauseOffset}

theorem replaceBlocker?_eq_none (h : ws.findIdx? (Watch.isClauseAt o) = none) (l : Literal) :
    ws.replaceBlocker? o l = none := by
  rw [replaceBlocker?, clausePosition?, h]
  rfl

/-- The watch that is found by an offset gets its new first word in its place. -/
theorem replaceBlocker?_eq_some {i : Nat} (hi : i < ws.length)
    (h : ws.findIdx? (Watch.isClauseAt o) = some i) (l : Literal) :
    ws.replaceBlocker? o l = some (ws.set i (ws[i].setFirst l.raw)) := by
  rw [replaceBlocker?, clausePosition?, h, Option.map_some, List.modify_eq_set_getElem?,
    List.getElem?_eq_getElem hi]
  rfl

end WatchList

/-! ## Operations -/

/-- An operation on a watch list. -/
inductive Operation : Type 1
  /-- A watch of a long clause is added. -/
  | attachClause {α : Type} [FirstWord α] (o : ClauseOffset) (data : α)
  /-- A watch of a binary clause is added. -/
  | attachBinary (other : Literal) (red : Bool) (id : ClauseId)
  /-- A watch of a thresholded constraint is added. -/
  | attachBnn (index : Word32) (r : Role)
  /-- A watch of an element of an external array is added. -/
  | attachIdx (index : Word32)
  /-- The watch at a position goes. -/
  | detach (n : Nat)
  /-- The first watch of the long clause at an offset goes. -/
  | detachClause (o : ClauseOffset)
  /-- The first watch of a binary clause goes, marked or not. -/
  | detachBinary (other : Literal) (red : Bool) (id : ClauseId)
  /-- The first watch of the long clause at an offset gets another blocking
  literal. -/
  | replaceBlocker (o : ClauseOffset) (l : Literal)
  /-- The marked binary watches go. -/
  | sweep
  /-- The list is put in binary-first order. -/
  | sort

/-- What an operation tells. -/
inductive Answer
  /-- Nothing but that it is done. -/
  | done
  /-- Whether there was such a watch. -/
  | found (yes : Bool)
  /-- How many watches went. -/
  | removed (n : Nat)
deriving DecidableEq

namespace Operation

/-- The answer and the list, if an operation may find nothing and then leaves the
list as it is. -/
def orUnchanged (ws : WatchList) (ws'? : Option WatchList) : Answer × WatchList :=
  (.found ws'?.isSome, ws'?.getD ws)

/-- Does an operation. -/
def run : Operation → WatchList → Except Fault (Answer × WatchList)
  | attachClause o data, ws => .ok (.done, ws.attachClause o data)
  | attachBinary l r i, ws => .ok (.done, ws.attachBinary l r i)
  | attachBnn i r, ws => .ok (.done, ws.attachBnn i r)
  | attachIdx i, ws => .ok (.done, ws.attachIdx i)
  | detach n, ws => (ws.detach n).map fun ws' => (.done, ws')
  | detachClause o, ws => .ok (orUnchanged ws (ws.detachClause? o))
  | detachBinary l r i, ws => .ok (orUnchanged ws (ws.detachBinary? l r i))
  | replaceBlocker o l, ws => .ok (orUnchanged ws (ws.replaceBlocker? o l))
  | sweep, ws => .ok (.removed ws.sweep.2, ws.sweep.1)
  | sort, ws => ws.sortBinaryFirst.map fun ws' => (.done, ws')

/-- What an operation requires of a list: a position is one of the list, and a list
that is sorted has no idx watch. -/
def Allowed (op : Operation) (ws : WatchList) : Prop :=
  match op with
  | detach n => n < ws.length
  | sort => ∀ w ∈ ws, w.kind ≠ .idx
  | _ => True

instance (op : Operation) (ws : WatchList) : Decidable (op.Allowed ws) :=
  match op with
  | detach n => inferInstanceAs (Decidable (n < ws.length))
  | sort => inferInstanceAs (Decidable (∀ w ∈ ws, w.kind ≠ .idx))
  | attachClause .. | attachBinary .. | attachBnn .. | attachIdx .. | detachClause ..
  | detachBinary .. | replaceBlocker .. | sweep => .isTrue trivial

/-- The watches that an operation looks for, by their fields. -/
def seeks : Operation → Watch → Bool
  | detachClause o, w | replaceBlocker o _, w => decide (w.offset = .ok o)
  | detachBinary l r i, w =>
    decide (w.other = .ok l ∧ w.isRed = .ok r ∧ w.clauseId = .ok i)
  | _, _ => false

/-- The watch that an operation takes: the one at a position, or the first of those
it looks for. -/
def picked : Operation → WatchList → Option Watch
  | detach n, ws => ws[n]?
  | op, ws => ws.find? op.seeks

/-- The operation on a multiset, from which it takes what it `picked`. -/
def onMultiset (op : Operation) (picked : Option Watch) (M : Multiset Watch) :
    Answer × Multiset Watch :=
  match op with
  | attachClause o data => (.done, Watch.ofClause o data ::ₘ M)
  | attachBinary l r i => (.done, Watch.ofBinary l r i ::ₘ M)
  | attachBnn i r => (.done, Watch.ofBnn i r ::ₘ M)
  | attachIdx i => (.done, Watch.ofIdx i ::ₘ M)
  | detach _ => (.done, M - ↑picked.toList)
  | detachClause _ | detachBinary _ _ _ =>
    (.found (decide (0 < M.countP fun w => op.seeks w = true)), M - ↑picked.toList)
  | replaceBlocker _ l =>
    (.found (decide (0 < M.countP fun w => op.seeks w = true)),
      -- the word with the offset stays
      M - ↑picked.toList + ↑(picked.toList.map fun w => (⟨l.raw, w.word⟩ : Watch)))
  | sweep =>
    (.removed (M.countP fun w => w.isMarked = .ok true), M.filter fun w => ¬ w.isMarked = .ok true)
  | sort => (.done, M)

/-! ## One operation -/

variable {ws : WatchList}

/-- Whether something is found does not depend on the order of the list. -/
theorem decide_countP_seeks (op : Operation) (ws : WatchList) :
    decide (0 < (ws : Multiset Watch).countP fun w => op.seeks w = true)
      = (ws.find? op.seeks).isSome := by
  rw [Bool.eq_iff_iff, decide_eq_true_iff, Multiset.countP_pos, List.find?_isSome]
  rfl

theorem detachClause?_eq (o : ClauseOffset) (ws : WatchList) :
    ws.detachClause? o = removeFirst? (detachClause o).seeks ws := by
  unfold WatchList.detachClause?
  rw [show Watch.isClauseAt o = (detachClause o).seeks from funext (Watch.isClauseAt_eq o)]

theorem detachBinary?_eq (l : Literal) (r : Bool) (i : ClauseId) (ws : WatchList) :
    ws.detachBinary? l r i = removeFirst? (detachBinary l r i).seeks ws := by
  unfold WatchList.detachBinary?
  rw [show Watch.isBinaryOf l r i = (detachBinary l r i).seeks from
    funext (Watch.isBinaryOf_eq l r i)]

/-- Of the watches that an operation looks for, the first is taken away. -/
theorem orUnchanged_removeFirst? (op : Operation) (ws : WatchList) :
    ∃ ws', orUnchanged ws (removeFirst? op.seeks ws)
        = (.found (decide (0 < (ws : Multiset Watch).countP fun w => op.seeks w = true)), ws') ∧
      (ws' : Multiset Watch) = ws - ↑(ws.find? op.seeks).toList := by
  rw [decide_countP_seeks]
  rcases removeFirst?_eq op.seeks ws with ⟨hfind, hnone⟩ | ⟨w, ws', hfind, hsome, hperm⟩
  · rw [hfind, hnone]
    exact ⟨ws, rfl, (Multiset.sub_zero _).symm⟩
  · rw [hfind, hsome, ← Multiset.coe_eq_coe.mpr hperm]
    exact ⟨ws', rfl, (Multiset.erase_cons_head w _).symm.trans (Multiset.sub_singleton w _).symm⟩

/-- Of the watches at an offset, the first gets another first word. -/
theorem orUnchanged_replaceBlocker? (o : ClauseOffset) (l : Literal) (ws : WatchList) :
    ∃ ws', orUnchanged ws (ws.replaceBlocker? o l)
        = (.found (decide (0 < (ws : Multiset Watch).countP fun w =>
            (replaceBlocker o l).seeks w = true)), ws') ∧
      (ws' : Multiset Watch) = ws - ↑(ws.find? (replaceBlocker o l).seeks).toList
        + ↑((ws.find? (replaceBlocker o l).seeks).toList.map fun w => w.setFirst l.raw) := by
  have hseeks : Watch.isClauseAt o = (replaceBlocker o l).seeks := funext (Watch.isClauseAt_eq o)
  rw [decide_countP_seeks]
  cases hfind : ws.find? (replaceBlocker o l).seeks with
  | none =>
    rw [WatchList.replaceBlocker?_eq_none (hseeks ▸ findIdx?_of_find?_eq_none hfind)]
    exact ⟨ws, rfl, by simp⟩
  | some w =>
    obtain ⟨i, hi, hidx, rfl⟩ := findIdx?_of_find? hfind
    rw [WatchList.replaceBlocker?_eq_some hi (hseeks ▸ hidx)]
    refine ⟨_, rfl, ?_⟩
    -- around the place nothing changes
    have hbefore : (ws : Multiset Watch) = ws[i] ::ₘ ↑(ws.eraseIdx i) :=
      Multiset.coe_eq_coe.mpr (List.getElem_cons_eraseIdx_perm hi).symm
    have hafter : ((ws.set i (ws[i].setFirst l.raw) : List Watch) : Multiset Watch)
        = ws[i].setFirst l.raw ::ₘ ↑(ws.eraseIdx i) :=
      Multiset.coe_eq_coe.mpr (List.set_perm_cons_eraseIdx hi _)
    show ((ws.set i (ws[i].setFirst l.raw) : List Watch) : Multiset Watch)
      = ↑ws - ↑[ws[i]] + ↑[ws[i].setFirst l.raw]
    rw [hafter, Multiset.coe_singleton, Multiset.coe_singleton, Multiset.sub_singleton,
      Multiset.add_comm, Multiset.singleton_add]
    congr 1
    conv_rhs => rw [hbefore]
    rw [Multiset.erase_cons_head]

/-- The watches of a list that a sweep keeps. -/
theorem withoutMarked_eq (ws : WatchList) :
    ws.withoutMarked = ws.filter fun w => decide (¬ w.isMarked = .ok true) :=
  List.filter_congr fun w _ => by rw [Watch.isMarkedBinary_eq, decide_not]

/-- A sweep says how many watches it does not keep. -/
theorem length_sub_withoutMarked (ws : WatchList) :
    ws.length - ws.withoutMarked.length = ws.countP fun w => decide (w.isMarked = .ok true) := by
  have hsplit :=
    List.length_eq_countP_add_countP (fun w => decide (w.isMarked = .ok true)) (l := ws)
  have hkept : ws.withoutMarked.length
      = ws.countP fun w => decide (¬ decide (w.isMarked = .ok true) = true) := by
    rw [withoutMarked_eq, List.countP_eq_length_filter]
    simp only [decide_eq_true_eq]
  omega

/-- **One operation** does to the list as a multiset what the model does, with the
watch that it takes by its place in the list, and tells the same. -/
theorem run_eq {op : Operation} (h : op.Allowed ws) :
    ∃ ws', op.run ws = .ok ((op.onMultiset (op.picked ws) ws).1, ws') ∧
      (ws' : Multiset Watch) = (op.onMultiset (op.picked ws) ws).2 := by
  cases op with
  | attachClause o data =>
    exact ⟨_, rfl, Multiset.coe_eq_coe.mpr (List.perm_append_singleton _ _)⟩
  | attachBinary l r i =>
    exact ⟨_, rfl, Multiset.coe_eq_coe.mpr (List.perm_append_singleton _ _)⟩
  | attachBnn i r =>
    exact ⟨_, rfl, Multiset.coe_eq_coe.mpr (List.perm_append_singleton _ _)⟩
  | attachIdx i =>
    exact ⟨_, rfl, Multiset.coe_eq_coe.mpr (List.perm_append_singleton _ _)⟩
  | detach n =>
    have hn : n < ws.length := h
    have hdetach : ws.detach n = .ok (removeAt ws n) := if_pos hn
    have hpicked : (detach n).picked ws = some ws[n] := List.getElem?_eq_getElem hn
    refine ⟨removeAt ws n, ?_, ?_⟩
    · show (ws.detach n).map _ = _
      rw [hdetach]
      rfl
    · rw [hpicked, ← Multiset.coe_eq_coe.mpr (removeAt_perm hn)]
      exact (Multiset.erase_cons_head _ _).symm.trans (Multiset.sub_singleton _ _).symm
  | detachClause o =>
    obtain ⟨ws', hrun, hws'⟩ := orUnchanged_removeFirst? (detachClause o) ws
    rw [← detachClause?_eq] at hrun
    exact ⟨ws', congrArg Except.ok hrun, hws'⟩
  | detachBinary l r i =>
    obtain ⟨ws', hrun, hws'⟩ := orUnchanged_removeFirst? (detachBinary l r i) ws
    rw [← detachBinary?_eq] at hrun
    exact ⟨ws', congrArg Except.ok hrun, hws'⟩
  | replaceBlocker o l =>
    obtain ⟨ws', hrun, hws'⟩ := orUnchanged_replaceBlocker? o l ws
    exact ⟨ws', congrArg Except.ok hrun, hws'⟩
  | sweep =>
    refine ⟨ws.withoutMarked, ?_, ?_⟩
    · show Except.ok (Answer.removed (ws.length - ws.withoutMarked.length), ws.withoutMarked)
        = .ok (.removed (Multiset.countP _ _), ws.withoutMarked)
      rw [length_sub_withoutMarked, Multiset.coe_countP]
    · show _ = (ws : Multiset Watch).filter fun w => ¬ w.isMarked = .ok true
      rw [withoutMarked_eq, Multiset.filter_coe]
  | sort =>
    obtain ⟨ws', hsort, _⟩ := WatchList.sortBinaryFirst_stablySorted h
    refine ⟨ws', ?_, Multiset.coe_eq_coe.mpr (sortBy_perm hsort)⟩
    show ws.sortBinaryFirst.map _ = _
    rw [hsort]
    rfl

end Operation

/-! ## Runs -/

/-- A step of a run: an operation, the lists before and after it, and what it tells. -/
structure Step : Type 1 where
  /-- The operation. -/
  op : Operation
  /-- The list before it. -/
  before : WatchList
  /-- What it tells. -/
  answer : Answer
  /-- The list after it. -/
  after : WatchList

/-- Does the operations in turn, each on the list that the one before it left. -/
def runAll : List Operation → WatchList → Except Fault (List Step)
  | [], _ => .ok []
  | op :: ops, ws => (op.run ws).bind fun (answer, ws') =>
    (runAll ops ws').map fun steps => ⟨op, ws, answer, ws'⟩ :: steps

/-- Each operation of a run is allowed on the list that it finds. -/
def AllowedAll : List Operation → WatchList → Prop
  | [], _ => True
  | op :: ops, ws => op.Allowed ws ∧ ∀ s ∈ (op.run ws).toOption, AllowedAll ops s.2

instance AllowedAll.decidable : ∀ ops ws, Decidable (AllowedAll ops ws)
  | [], _ => .isTrue trivial
  | op :: ops, ws =>
    have : ∀ s : Answer × WatchList, Decidable (AllowedAll ops s.2) := fun s => decidable ops s.2
    inferInstanceAs (Decidable (op.Allowed ws ∧ ∀ s ∈ (op.run ws).toOption, AllowedAll ops s.2))

/-- What the operations tell and leave on a multiset, each with the watch that it
picks. -/
def runModel : List (Operation × Option Watch) → Multiset Watch → List (Answer × Multiset Watch)
  | [], _ => []
  | (op, picked) :: moves, M =>
    op.onMultiset picked M :: runModel moves (op.onMultiset picked M).2

/-- A step tells and leaves what the model does, and the kinds are counted right. -/
structure Agrees (s : Step) (m : Answer × Multiset Watch) : Prop where
  /-- What is told. -/
  answer : s.answer = m.1
  /-- What is left, as a multiset. -/
  watches : (s.after : Multiset Watch) = m.2
  /-- The number of watches of each kind. -/
  count : ∀ k, s.after.countKind k = m.2.countP fun w => w.kind = k
  /-- These numbers make up the length. -/
  total : s.after.countKind .clause + s.after.countKind .binary + s.after.countKind .bnn
    + s.after.countKind .idx = s.after.length

/-- Every watch is of one of the four kinds. -/
theorem countKind_total (ws : WatchList) :
    ws.countKind .clause + ws.countKind .binary + ws.countKind .bnn + ws.countKind .idx
      = ws.length := by
  induction ws with
  | nil => rfl
  | cons w ws ih =>
    rw [List.length_cons, ← ih]
    unfold WatchList.countKind Watch.isKind
    simp only [List.countP_cons]
    cases w.kind <;> simp <;> omega

/-- If the multiset is right, so are the counts. -/
theorem Agrees.of_eq {s : Step} {m : Answer × Multiset Watch} (answer : s.answer = m.1)
    (watches : (s.after : Multiset Watch) = m.2) : Agrees s m where
  answer := answer
  watches := watches
  count k := by
    rw [← watches]
    rfl
  total := countKind_total s.after

/-- **Nothing is lost, doubled or altered.** Over any run the list, as a multiset,
goes through the same states as a multiset on which the operations are done: it
gains the watch that is attached, loses the one at the position or the first of
those looked for, has the first word of one watch replaced, or loses the marked
binary watches, and nothing else. What is told is true of the multiset, and after
each step the counts by kind are those of the multiset and make up the length. -/
theorem runAll_agrees {ops : List Operation} {ws : WatchList} (h : AllowedAll ops ws) :
    ∃ steps, runAll ops ws = .ok steps ∧ steps.map Step.op = ops ∧
      List.Forall₂ Agrees steps
        (runModel (steps.map fun s => (s.op, s.op.picked s.before)) ws) := by
  induction ops generalizing ws with
  | nil => exact ⟨[], rfl, rfl, .nil⟩
  | cons op ops ih =>
    obtain ⟨ws', hrun, hws'⟩ := Operation.run_eq h.1
    have hrest : AllowedAll ops ws' := h.2 (_, ws') (by rw [hrun]; rfl)
    obtain ⟨steps, hsteps, hops, hagrees⟩ := ih hrest
    refine ⟨⟨op, ws, (op.onMultiset (op.picked ws) ws).1, ws'⟩ :: steps, ?_,
      congrArg (op :: ·) hops, ?_⟩
    · show (op.run ws).bind _ = _
      rw [hrun]
      show (runAll ops ws').map _ = _
      rw [hsteps]
      rfl
    · refine .cons (.of_eq rfl hws') ?_
      show List.Forall₂ Agrees steps (runModel _ (op.onMultiset (op.picked ws) ws).2)
      rw [← hws']
      exact hagrees

/-- Of two watches of one clause the first goes, and the last takes its place; of two
binary watches that differ in the mark the unmarked one goes, for it is first, and
the sweep takes the other. -/
theorem runAll_agrees_twins :
    let marked : Watch := .packBinary ⟨5, by decide⟩ ⟨false, true⟩ ⟨4⟩
    let ops : List Operation := [.detachClause .max, .detachBinary ⟨5, by decide⟩ false ⟨4⟩,
      .replaceBlocker .max ⟨9, by decide⟩, .sort, .sweep]
    let ws : WatchList :=
      [.placeholder, .ofBinary ⟨5, by decide⟩ false ⟨4⟩, marked, .placeholder]
    let clause : Watch := Watch.placeholder.setFirst 9
    AllowedAll ops ws ∧ ∃ steps, runAll ops ws = .ok steps ∧
      (steps.map fun s => (s.answer, s.after)) =
        [(.found true, [.placeholder, .ofBinary ⟨5, by decide⟩ false ⟨4⟩, marked]),
          (.found true, [.placeholder, marked]), (.found true, [clause, marked]),
          (.done, [marked, clause]), (.removed 1, [clause])] ∧
      List.Forall₂ Agrees steps
        (runModel (steps.map fun s => (s.op, s.op.picked s.before)) ws) := by
  intro marked ops ws clause
  have hops : AllowedAll ops ws := by decide +kernel
  obtain ⟨steps, hsteps, -, hagrees⟩ := runAll_agrees hops
  refine ⟨hops, steps, hsteps, ?_, hagrees⟩
  have hrun : ((runAll ops ws).map fun steps => steps.map fun s => (s.answer, s.after)) =
      .ok [(.found true, [.placeholder, .ofBinary ⟨5, by decide⟩ false ⟨4⟩, marked]),
        (.found true, [.placeholder, marked]), (.found true, [clause, marked]),
        (.done, [marked, clause]), (.removed 1, [clause])] := by
    decide +kernel
  rw [hsteps] at hrun
  exact Except.ok.inj hrun

end WatchLists
