import WatchLists.Proofs.Order.BinaryFirst

/-!
# The check decides the order

The check looks at neighbours only, from left to right. Without idx watches it always
comes to an answer, and since ranks are linearly ordered the answer is about the whole
list: whether it is ascending by rank.

- `IsAscending`: no watch stands before one of smaller rank.
- `isBinaryFirst_cons_cons`: the check at the first two watches.
- `exists_isBinaryFirst`: what the check says of a list without idx watches.
-/

namespace WatchLists.WatchList

variable {ws : WatchList}

/-- No watch of the list stands before one of smaller rank. -/
def IsAscending (ws : WatchList) : Prop := ws.Pairwise fun a b => a.rank ≤ b.rank

theorem isAscending_cons_cons {a b : Watch} :
    IsAscending (a :: b :: ws) ↔ a.rank ≤ b.rank ∧ IsAscending (b :: ws) := by
  constructor
  · intro h
    exact ⟨List.rel_of_pairwise_cons h List.mem_cons_self, List.Pairwise.of_cons h⟩
  · rintro ⟨hab, h⟩
    refine List.pairwise_cons.mpr ⟨fun c hc => ?_, h⟩
    rcases List.mem_cons.mp hc with rfl | hc
    · exact hab
    · exact le_trans hab (List.rel_of_pairwise_cons h hc)

/-- The first two watches are out of order, or the rest decides. -/
theorem isBinaryFirst_cons_cons {a b : Watch} (ha : a.kind ≠ .idx) (hb : b.kind ≠ .idx) :
    isBinaryFirst (a :: b :: ws)
      = if b.rank < a.rank then .ok false else isBinaryFirst (b :: ws) := by
  rw [isBinaryFirst, Watch.before_eq hb ha]
  by_cases h : b.rank < a.rank
  · rw [if_pos h, decide_eq_true h]
    rfl
  · rw [if_neg h, decide_eq_false h]
    rfl

/-- **The check.** Of a list without idx watches it says whether the list is
ascending. -/
theorem exists_isBinaryFirst (hws : ∀ w ∈ ws, w.kind ≠ .idx) :
    ∃ b, ws.isBinaryFirst = .ok b ∧ (b = true ↔ ws.IsAscending) := by
  induction ws with
  | nil => exact ⟨true, rfl, fun _ => .nil, fun _ => rfl⟩
  | cons a ws ih =>
    cases ws with
    | nil => exact ⟨true, rfl, fun _ => List.pairwise_singleton _ _, fun _ => rfl⟩
    | cons b ws =>
      have ha := hws a List.mem_cons_self
      have hb := hws b (List.mem_cons_of_mem a List.mem_cons_self)
      rw [isBinaryFirst_cons_cons ha hb, isAscending_cons_cons]
      by_cases h : b.rank < a.rank
      · rw [if_pos h]
        exact ⟨false, rfl, nofun, fun hasc => absurd h (not_lt_of_ge hasc.1)⟩
      · rw [if_neg h]
        obtain ⟨c, hc, hiff⟩ := ih fun w hw => hws w (List.mem_cons_of_mem a hw)
        exact ⟨c, hc, hiff.trans (and_iff_right (le_of_not_gt h)).symm⟩

theorem isBinaryFirst_eq_true_iff (hws : ∀ w ∈ ws, w.kind ≠ .idx) :
    ws.isBinaryFirst = .ok true ↔ ws.IsAscending := by
  obtain ⟨b, hb, hiff⟩ := exists_isBinaryFirst hws
  rw [hb, Except.ok.injEq, hiff]

end WatchLists.WatchList
