import WatchLists.Proofs.Order.ComparisonSort
import WatchLists.Proofs.Order.Occurrence
import WatchLists.Proofs.Order.Refusal

/-!
# Where occurrence lists are refused

A bnn or idx watch can be compared with binary watches only. So a list is refused if such
a watch meets another one that is not binary, and a sort cannot help to bring the two
together: no comparison with a binary watch says which of them is to come first. This
holds of any sort that compares, and so does what comes out where nothing is refused. A
bnn or idx watch that is alone among binary watches goes to the end.

- `compare_error_iff`, `isBefore_error_iff`: two occurrences.
- `pairwise_comparable_iff`, `sort_error_iff`, `dedup_error_iff`: a list.
- `placedAt`, `sorted_eq_sort`: any sort that compares, beside the one of the library.
- `refused_iff`: all of this, and the watch at the end.
-/

namespace WatchLists

theorem getLast?_dropRepeats {α : Type} [DecidableEq α] (xs : List α) :
    (dropRepeats xs).getLast? = xs.getLast? := by
  fun_induction dropRepeats xs with
  | case1 | case2 => rfl
  | case3 x ys ih => rw [ih, List.getLast?_cons_cons]
  | case4 x y ys hne ih =>
    obtain ⟨z, zs, hzs⟩ : ∃ z zs, dropRepeats (y :: ys) = z :: zs :=
      List.exists_cons_of_ne_nil fun hnil =>
        absurd (mem_dropRepeats.mpr List.mem_cons_self) (hnil ▸ List.not_mem_nil (a := y))
    rw [hzs, List.getLast?_cons_cons, ← hzs, ih, List.getLast?_cons_cons]

namespace Occurrence

variable {a b x : Occurrence} {xs : List Occurrence}

/-! ## Two occurrences -/

theorem Unplaced.kind_ne (h : x.Unplaced) :
    x.watch.kind ≠ .binary ∧ x.watch.kind ≠ .clause := by
  rcases h with h | h <;> rw [h] <;> decide

theorem unplaced_of_kind_ne (hbinary : x.watch.kind ≠ .binary)
    (hclause : x.watch.kind ≠ .clause) : x.Unplaced := by
  unfold Unplaced
  cases hk : x.watch.kind with
  | binary => exact absurd hk hbinary
  | clause => exact absurd hk hclause
  | bnn => exact .inl rfl
  | idx => exact .inr rfl

/-- Beside a watch without a place only binary watches can be compared. -/
theorem Unplaced.comparable_iff (h : a.Unplaced) : Comparable a b ↔ b.watch.kind = .binary := by
  refine ⟨fun hab => ?_, fun hb => .inr (.inl hb)⟩
  rcases hab with ha | hb | ⟨ha, _⟩
  · exact absurd ha h.kind_ne.1
  · exact hb
  · exact absurd ha h.kind_ne.2

theorem not_comparable_iff :
    ¬ Comparable a b ↔
      a.watch.kind ≠ .binary ∧ b.watch.kind ≠ .binary ∧ (a.Unplaced ∨ b.Unplaced) := by
  constructor
  · intro h
    have ha : a.watch.kind ≠ .binary := fun ha => h (.inl ha)
    have hb : b.watch.kind ≠ .binary := fun hb => h (.inr (.inl hb))
    refine ⟨ha, hb, ?_⟩
    by_cases hca : a.watch.kind = .clause
    · exact .inr (unplaced_of_kind_ne hb fun hcb => h (.inr (.inr ⟨hca, hcb⟩)))
    · exact .inl (unplaced_of_kind_ne ha hca)
  · rintro ⟨ha, hb, hun | hun⟩ hab
    · exact hb (hun.comparable_iff.mp hab)
    · exact ha (hun.comparable_iff.mp (Std.Symm.symm _ _ hab))

theorem compare_error_iff : (∃ f, compare a b = .error f) ↔ ¬ Comparable a b := by
  constructor
  · rintro ⟨f, hf⟩ hab
    cases hf.symm.trans (compare_eq hab)
  · intro h
    obtain ⟨x, _, _, hx⟩ := compare_of_not_comparable h
    exact ⟨_, hx⟩

/-- To ask which comes first is to compare. -/
theorem isBefore_error_iff {f : Fault} : isBefore a b = .error f ↔ compare a b = .error f := by
  constructor
  · intro h
    rcases error_of_bind h with herr | ⟨o, _, hok⟩
    · exact herr
    · cases hok
  · intro h
    rw [isBefore, h]
    rfl

/-- A comparison fails on account of a watch without a place. -/
theorem exists_refusal_of_compare {f : Fault} (h : compare a b = .error f) :
    ∃ x, (x = a ∨ x = b) ∧ x.Unplaced ∧ f = x.refusal := by
  obtain ⟨x, hx, hun, herr⟩ := compare_of_not_comparable (compare_error_iff.mp ⟨f, h⟩)
  exact ⟨x, hx, hun, Except.error.inj (h.symm.trans herr)⟩

/-! ## Lists -/

/-- A list of which any two can be compared has no other form than those that are
orderable. -/
theorem pairwise_comparable_iff : xs.Pairwise Comparable ↔ Orderable xs := by
  refine ⟨fun h => ?_, Orderable.pairwise⟩
  by_contra hnot
  obtain ⟨hclause, hmany⟩ := not_or.mp hnot
  obtain ⟨x, hx, hkx, hcx⟩ : ∃ x ∈ xs, x.watch.kind ≠ .binary ∧ x.watch.kind ≠ .clause := by
    simpa using hclause
  -- one of the others is not binary either, and `x` was compared with it
  have hperm : xs.Perm (x :: xs.erase x) := List.perm_cons_erase hx
  have hrest : 0 < (xs.erase x).countP fun x => decide (x.watch.kind ≠ .binary) := by
    rw [hperm.countP_eq, List.countP_cons, if_pos (decide_eq_true hkx)] at hmany
    omega
  obtain ⟨y, hy, hky⟩ := List.countP_pos_iff.mp hrest
  have hxy : Comparable x y :=
    List.rel_of_pairwise_cons (pairwise_comparable_of_perm h hperm) hy
  exact of_decide_eq_true hky ((unplaced_of_kind_ne hkx hcx).comparable_iff.mp hxy)

theorem not_orderable_iff :
    ¬ Orderable xs ↔
      2 ≤ xs.countP (fun x => decide (x.watch.kind ≠ .binary)) ∧ ∃ x ∈ xs, x.Unplaced := by
  unfold Orderable
  rw [not_or, not_le, and_comm]
  refine and_congr_right fun _ => ?_
  constructor
  · intro h
    obtain ⟨x, hx, hkx, hcx⟩ : ∃ x ∈ xs, x.watch.kind ≠ .binary ∧ x.watch.kind ≠ .clause := by
      simpa using h
    exact ⟨x, hx, unplaced_of_kind_ne hkx hcx⟩
  · rintro ⟨x, hx, hun⟩ hall
    exact hun.kind_ne.2 (hall x hx hun.kind_ne.1)

theorem sort_error_iff : (∃ f, sort xs = .error f) ↔ ¬ Orderable xs := by
  rw [← pairwise_comparable_iff]
  refine ⟨?_, sort_of_not_comparable⟩
  rintro ⟨f, hf⟩ hxs
  obtain ⟨ys, hys, _⟩ := sort_of_comparable hxs
  cases hf.symm.trans hys

/-- Repeats are dropped of a sorted list, so the fault is that of the sort. -/
theorem dedup_error_iff {f : Fault} : dedup xs = .error f ↔ sort xs = .error f := by
  constructor
  · intro h
    rcases error_of_bind h with herr | ⟨ys, _, hok⟩
    · exact herr
    · cases hok
  · intro h
    rw [dedup, h]
    rfl

/-- A list is refused on account of a watch without a place. -/
theorem exists_refusal_of_sort {f : Fault} (h : sort xs = .error f) :
    ∃ x ∈ xs, x.Unplaced ∧ f = x.refusal := by
  obtain ⟨a, ha, b, hb, hcmp⟩ := exists_cmp_of_sortBy_error h
  have hab : compare a b = .error f := by
    rcases error_of_bind hcmp with herr | ⟨o, _, hok⟩
    · exact herr
    · cases hok
  obtain ⟨x, rfl | rfl, hun, hf⟩ := exists_refusal_of_compare hab
  · exact ⟨x, ha, hun, hf⟩
  · exact ⟨x, hb, hun, hf⟩

/-- A watch that is not binary goes behind all that are. -/
theorem getLast?_sort {bs cs : List Occurrence} (hbinary : ∀ b ∈ bs ++ cs, b.watch.kind = .binary)
    (hx : x.watch.kind ≠ .binary) :
    ∃ ys, sort (bs ++ x :: cs) = .ok ys ∧ ys.Perm (bs ++ x :: cs) ∧ ys.getLast? = some x := by
  have hcmp : (bs ++ x :: cs).Pairwise Comparable := by
    refine (List.pairwise_middle fun h => Std.Symm.symm _ _ h).mpr ?_
    refine List.pairwise_cons.mpr ⟨fun b hb => .inr (.inl (hbinary b hb)), ?_⟩
    exact List.pairwise_of_forall_mem_list fun b hb _ _ => .inl (hbinary b hb)
  obtain ⟨ys, hys, hperm, hasc⟩ := sort_of_comparable hcmp
  refine ⟨ys, hys, hperm, ?_⟩
  have hcons : ys.Perm (x :: (bs ++ cs)) := hperm.trans List.perm_middle
  obtain ⟨us, vs, rfl⟩ := List.append_of_mem (hcons.mem_iff.mpr List.mem_cons_self)
  cases vs with
  | nil => exact List.getLast?_concat
  | cons v vs =>
    -- what stands behind `x` is binary, so it is not above it
    have hrest : (us ++ v :: vs).Perm (bs ++ cs) :=
      (List.perm_middle.symm.trans hcons).cons_inv
    have hv : v.watch.kind = .binary := hbinary v (hrest.mem_iff.mp (by simp))
    have hle : x.key ≤ v.key :=
      List.rel_of_pairwise_cons (List.pairwise_append.mp hasc).2.1 List.mem_cons_self
    exact absurd (key_lt_of_binary hv hx) (not_lt_of_ge hle)

/-! ## Any sort -/

/-- Keys with a place for one occurrence that others are not compared with: the binary
watches are below it, and all others are below or above it together. -/
def placedAt (i : Fin xs.length) (low : ℕ) (k : Fin xs.length) :
    ℕ ×ₗ (Bool ×ₗ ℕ) ×ₗ ℕ ×ₗ ℕ ×ₗ ℕ :=
  toLex (if k = i then low else if xs[k].watch.kind = .binary then 0 else 2, xs[k].key)

theorem placedAt_self (i : Fin xs.length) (low : ℕ) :
    placedAt i low i = toLex (low, xs[i].key) := by
  rw [placedAt, if_pos rfl]

theorem placedAt_of_ne {i k : Fin xs.length} (h : k ≠ i) (low : ℕ) :
    placedAt i low k = toLex (if xs[k].watch.kind = .binary then 0 else 2, xs[k].key) := by
  rw [placedAt, if_neg h]

/-- Wherever the one is placed behind the binary watches, comparable occurrences keep
their order. -/
theorem placedAt_lt {i k l : Fin xs.length} {low : ℕ} (hi : xs[i].Unplaced) (hlow : 0 < low)
    (hcmp : Comparable xs[k] xs[l]) (hlt : xs[k].key < xs[l].key) :
    placedAt i low k < placedAt i low l := by
  have hbinary : xs[l].watch.kind = .binary → xs[k].watch.kind = .binary := by
    intro hl
    by_contra hk
    exact absurd hlt (lt_asymm (key_lt_of_binary hl hk))
  have hki : k ≠ i := by
    rintro rfl
    exact hi.kind_ne.1 (hbinary (hi.comparable_iff.mp hcmp))
  rw [placedAt_of_ne hki]
  by_cases hli : l = i
  · subst hli
    rw [placedAt_self, if_pos (hi.comparable_iff.mp (Std.Symm.symm _ _ hcmp))]
    exact Prod.Lex.toLex_lt_toLex.mpr (.inl hlow)
  rw [placedAt_of_ne hli, Prod.Lex.toLex_lt_toLex]
  by_cases hk : xs[k].watch.kind = .binary
  · by_cases hl : xs[l].watch.kind = .binary
    · rw [if_pos hk, if_pos hl]
      exact .inr ⟨rfl, hlt⟩
    · rw [if_pos hk, if_neg hl]
      exact .inl Nat.two_pos
  · rw [if_neg hk, if_neg fun hl => hk (hbinary hl)]
    exact .inr ⟨rfl, hlt⟩

/-- So all that is learnt from comparisons is true of these keys. -/
theorem eq_compare_placedAt {i k l : Fin xs.length} {low : ℕ} {o : Ordering}
    (hi : xs[i].Unplaced) (hlow : 0 < low) (h : sortOrder xs[k] xs[l] = .ok o) :
    o = Ord.compare (placedAt i low k) (placedAt i low l) := by
  have hcmp : Comparable xs[k] xs[l] := by
    by_contra hnot
    obtain ⟨f, hf⟩ := sortOrder_of_not_comparable hnot
    cases h.symm.trans hf
  rw [sortOrder_eq hcmp] at h
  cases h
  rcases lt_trichotomy xs[k].key xs[l].key with hlt | heq | hgt
  · rw [compare_lt_iff_lt.mpr hlt, compare_lt_iff_lt.mpr (placedAt_lt hi hlow hcmp hlt)]
  · have hkl : xs[k] = xs[l] := key_injective heq
    -- a watch without a place is not comparable with one like it
    have hne : ∀ j : Fin xs.length, xs[j] = xs[k] → j ≠ i := by
      rintro j hj rfl
      rw [← hkl, ← hj] at hcmp
      exact hi.kind_ne.1 (hi.comparable_iff.mp hcmp)
    have hplaced : placedAt i low k = placedAt i low l := by
      rw [placedAt_of_ne (hne k rfl), placedAt_of_ne (hne l hkl.symm), hkl]
    rw [compare_eq_iff_eq.mpr heq, compare_eq_iff_eq.mpr hplaced]
  · have hgt' := placedAt_lt hi hlow (Std.Symm.symm _ _ hcmp) hgt
    rw [compare_gt_iff_gt.mpr hgt, compare_gt_iff_gt.mpr hgt']

/-- If a list is not orderable, the place of one of its watches is undecided. -/
theorem exists_undecided (h : ¬ xs.Pairwise Comparable) :
    ∃ i j : Fin xs.length, xs[i].Unplaced ∧ placedAt i 1 i < placedAt i 1 j ∧
      placedAt i 3 j < placedAt i 3 i := by
  obtain ⟨a, b, ha, hb, hab, hnot⟩ :
      ∃ a b, ∃ (ha : a < xs.length) (hb : b < xs.length), a < b ∧ ¬ Comparable xs[a] xs[b] := by
    simpa [List.pairwise_iff_getElem] using h
  obtain ⟨hka, hkb, hun⟩ := not_comparable_iff.mp hnot
  -- what is not binary stands between the two places
  have hplaced {i j : Fin xs.length} (hij : j ≠ i) (hi : xs[i].Unplaced)
      (hj : xs[j].watch.kind ≠ .binary) :
      xs[i].Unplaced ∧ placedAt i 1 i < placedAt i 1 j ∧ placedAt i 3 j < placedAt i 3 i := by
    rw [placedAt_self, placedAt_self, placedAt_of_ne hij, placedAt_of_ne hij, if_neg hj]
    exact ⟨hi, Prod.Lex.toLex_lt_toLex.mpr (.inl (Nat.lt_succ_self 1)),
      Prod.Lex.toLex_lt_toLex.mpr (.inl (Nat.lt_succ_self 2))⟩
  rcases hun with hun | hun
  · exact ⟨⟨a, ha⟩, ⟨b, hb⟩, hplaced (Fin.ne_of_gt hab) hun hkb⟩
  · exact ⟨⟨b, hb⟩, ⟨a, ha⟩, hplaced (Fin.ne_of_lt hab) hun hka⟩

/-- **Any sort** that compares finds what the library finds, and is refused where the
library is. -/
theorem sorted_eq_sort {s : ComparisonSort xs.length} (hsorts : s.Sorts)
    (hs : s.ComparesDistinct) : (s.sorted sortOrder).toOption = (sort xs).toOption := by
  by_cases hxs : xs.Pairwise Comparable
  · have hcmp (i j : Fin xs.length) (hij : i ≠ j) : Comparable xs[i] xs[j] := by
      rcases lt_or_gt_of_ne hij with hlt | hgt
      · exact List.pairwise_iff_getElem.mp hxs i j i.isLt j.isLt hlt
      · exact Std.Symm.symm _ _ (List.pairwise_iff_getElem.mp hxs j i j.isLt i.isLt hgt)
    obtain ⟨ys, hys, hperm, hasc⟩ := ComparisonSort.exists_sorted_of_ranks hsorts hs
      fun i j hij => sortOrder_eq (hcmp i j hij)
    obtain ⟨zs, hzs, hperm', hasc'⟩ := sort_of_comparable hxs
    rw [hys, hzs,
      eq_of_perm_of_ascending key_injective hasc hasc' (hperm.trans hperm'.symm)]
  · obtain ⟨i, j, hi, hlt, hgt⟩ := exists_undecided hxs
    have hanswers (low : ℕ) (hlow : 0 < low) (k l : Fin xs.length) (o : Ordering) (_ : k ≠ l)
        (h : sortOrder xs[k] xs[l] = .ok o) :
        o = Ord.compare (placedAt i low k) (placedAt i low l) := eq_compare_placedAt hi hlow h
    obtain ⟨e, he⟩ := ComparisonSort.exists_error_of_undecided hsorts hs
      (hanswers 1 Nat.one_pos) (hanswers 3 (Nat.succ_pos 2)) hlt hgt
    obtain ⟨f, hf⟩ := sort_of_not_comparable hxs
    rw [ComparisonSort.sorted, he, hf]
    rfl

/-! ## All together -/

/-- **Where occurrences are refused.** Two occurrences are refused exactly if neither
watch is binary and one of them is a bnn or idx watch, whether they are compared or it is
asked which comes first. A list is refused exactly if two watches or more are not binary
and one of these is a bnn or idx watch, whether it is sorted or repeats are dropped too.
The fault names such a watch. Any other sort that compares, and no element with itself,
is refused in the same cases and finds the same otherwise. A bnn or idx watch alone among
binary watches is refused by neither, and comes last. -/
theorem refused_iff :
    (∀ a b : Occurrence,
      ((∃ f, compare a b = .error f) ↔
        a.watch.kind ≠ .binary ∧ b.watch.kind ≠ .binary ∧ (a.Unplaced ∨ b.Unplaced)) ∧
      ((∃ f, isBefore a b = .error f) ↔
        a.watch.kind ≠ .binary ∧ b.watch.kind ≠ .binary ∧ (a.Unplaced ∨ b.Unplaced)) ∧
      ∀ f, compare a b = .error f ∨ isBefore a b = .error f →
        ∃ x, (x = a ∨ x = b) ∧ x.Unplaced ∧ f = x.refusal) ∧
    (∀ xs : List Occurrence,
      ((∃ f, sort xs = .error f) ↔
        2 ≤ xs.countP (fun x => decide (x.watch.kind ≠ .binary)) ∧ ∃ x ∈ xs, x.Unplaced) ∧
      ((∃ f, dedup xs = .error f) ↔
        2 ≤ xs.countP (fun x => decide (x.watch.kind ≠ .binary)) ∧ ∃ x ∈ xs, x.Unplaced) ∧
      (∀ f, sort xs = .error f ∨ dedup xs = .error f → ∃ x ∈ xs, x.Unplaced ∧ f = x.refusal) ∧
      ∀ s : ComparisonSort xs.length, s.Sorts → s.ComparesDistinct →
        (s.sorted sortOrder).toOption = (sort xs).toOption) ∧
    ∀ (bs cs : List Occurrence) (x : Occurrence), (∀ b ∈ bs ++ cs, b.watch.kind = .binary) →
      x.Unplaced → ∃ ys zs n, sort (bs ++ x :: cs) = .ok (ys ++ [x]) ∧ ys.Perm (bs ++ cs) ∧
        dedup (bs ++ x :: cs) = .ok (zs ++ [x], n) := by
  refine ⟨fun a b => ⟨?_, ?_, ?_⟩, fun xs => ⟨?_, ?_, ?_, fun s => sorted_eq_sort⟩, ?_⟩
  · exact compare_error_iff.trans not_comparable_iff
  · exact (exists_congr fun f => isBefore_error_iff).trans
      (compare_error_iff.trans not_comparable_iff)
  · rintro f (h | h)
    · exact exists_refusal_of_compare h
    · exact exists_refusal_of_compare (isBefore_error_iff.mp h)
  · exact sort_error_iff.trans not_orderable_iff
  · exact (exists_congr fun f => dedup_error_iff).trans (sort_error_iff.trans not_orderable_iff)
  · rintro f (h | h)
    · exact exists_refusal_of_sort h
    · exact exists_refusal_of_sort (dedup_error_iff.mp h)
  · intro bs cs x hbinary hx
    obtain ⟨us, hsort, hperm, hlast⟩ := getLast?_sort hbinary hx.kind_ne.1
    obtain ⟨ys, rfl⟩ := List.getLast?_eq_some_iff.mp hlast
    obtain ⟨zs, hzs⟩ := List.getLast?_eq_some_iff.mp ((getLast?_dropRepeats _).trans hlast)
    refine ⟨ys, zs, (bs ++ x :: cs).length - (dropRepeats (ys ++ [x])).length, hsort, ?_, ?_⟩
    · exact ((List.perm_append_singleton x ys).symm.trans
        (hperm.trans List.perm_middle)).cons_inv
    · rw [dedup, hsort, ← hzs]
      rfl

/-- An idx watch is no trouble among binary twins, but is refused where there is a clause
watch too, however it is sorted. -/
theorem refused_iff_alone :
    let x : Occurrence := ⟨⟨2, by decide⟩, .ofIdx 7⟩
    let b : Occurrence := ⟨⟨5, by decide⟩, .ofBinary ⟨9, by decide⟩ true ⟨1⟩⟩
    let xs : List Occurrence := [.placeholder, b, x]
    let s : ComparisonSort xs.length := .byInsertion 3
    (∀ y ∈ [b] ++ [b], y.watch.kind = .binary) ∧ x.Unplaced ∧
      (∃ ys zs n, sort ([b] ++ x :: [b]) = .ok (ys ++ [x]) ∧ ys.Perm ([b] ++ [b]) ∧
        dedup ([b] ++ x :: [b]) = .ok (zs ++ [x], n)) ∧
      s.Sorts ∧ s.ComparesDistinct ∧ (s.sorted sortOrder).toOption = none ∧
      dedup xs = .error (.wrongKind (.ofIdx 7) .clause) := by
  intro x b xs s
  have hbinary : ∀ y ∈ [b] ++ [b], y.watch.kind = .binary := by decide
  have hx : x.Unplaced := by decide
  have hsorts : s.Sorts := ComparisonSort.sorts_byInsertion 3
  have hs : s.ComparesDistinct := ComparisonSort.comparesDistinct_byInsertion 3
  obtain ⟨hsort, _, _, hany⟩ := refused_iff.2.1 xs
  obtain ⟨f, hf⟩ := hsort.mpr (by decide)
  refine ⟨hbinary, hx, refused_iff.2.2 [b] [b] x hbinary hx, hsorts, hs, ?_, by decide⟩
  rw [hany s hsorts hs, hf]
  rfl

end Occurrence

end WatchLists
