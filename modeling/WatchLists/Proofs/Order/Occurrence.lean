import Mathlib.Data.Finset.Card
import Mathlib.Data.List.Pairwise
import Mathlib.Data.Prod.Lex
import Mathlib.Order.WithBot
import WatchLists.Order.Occurrence
import WatchLists.Proofs.Order.StableSort
import WatchLists.Proofs.Watch.Fields

/-!
# The canonical form of an occurrence list

Two occurrences can be compared unless neither watch is binary and one of them is
a bnn or idx watch. Where they can, the order with ties broken is the order of
their keys, and occurrences with the same key are the same. So a sorted list is
determined by what is in it, however the sort goes about it, and to drop repeats
among neighbours is to drop all of them.

- `Comparable`, `Orderable`: two occurrences, and the lists, that have an order.
- `key`, `key_injective`, `sortOrder_eq`: the order as a comparison of keys.
- `dropRepeats_ascending`: what is left of an ascending list without repeats.
- `sort_of_comparable`, `sort_of_not_comparable`: when a list can be sorted.
- `dedup_canonical`: the canonical form.
-/

namespace WatchLists

/-! ## Repeats -/

section Repeats

variable {α κ : Type} [LinearOrder κ] {rank : α → κ}

theorem nodup_of_ascending {xs : List α} (h : xs.Pairwise fun a b => rank a < rank b) :
    xs.Nodup :=
  h.imp fun hlt heq => absurd (congrArg rank heq) (ne_of_lt hlt)

/-- Rearranged, an ascending list is no longer ascending. -/
theorem eq_of_perm_of_ascending (hrank : Function.Injective rank) {xs ys : List α}
    (hxs : xs.Pairwise fun a b => rank a ≤ rank b) (hys : ys.Pairwise fun a b => rank a ≤ rank b)
    (h : xs.Perm ys) : xs = ys :=
  h.eq_of_pairwise (fun _ _ _ _ hab hba => hrank (le_antisymm hab hba)) hxs hys

variable [DecidableEq α]

@[simp]
theorem mem_dropRepeats {xs : List α} {a : α} : a ∈ dropRepeats xs ↔ a ∈ xs := by
  fun_induction dropRepeats xs with
  | case1 | case2 => rfl
  | case3 x ys ih =>
    rw [ih]
    simp
  | case4 x y ys hne ih => rw [List.mem_cons, ih, List.mem_cons (l := y :: ys)]

theorem dropRepeats_sublist (xs : List α) : (dropRepeats xs).Sublist xs := by
  fun_induction dropRepeats xs with
  | case1 | case2 => exact .refl _
  | case3 x ys ih => exact ih.cons x
  | case4 x y ys hne ih => exact ih.cons_cons x

/-- In an ascending list equal elements are neighbours, so none is left twice. -/
theorem dropRepeats_ascending (hrank : Function.Injective rank) {xs : List α}
    (h : xs.Pairwise fun a b => rank a ≤ rank b) :
    (dropRepeats xs).Pairwise fun a b => rank a < rank b := by
  fun_induction dropRepeats xs with
  | case1 => exact .nil
  | case2 x => exact List.pairwise_singleton _ x
  | case3 x ys ih => exact ih h.tail
  | case4 x y ys hne ih =>
    refine List.pairwise_cons.mpr ⟨fun a ha => ?_, ih h.tail⟩
    have hxy : rank x < rank y :=
      lt_of_le_of_ne (List.rel_of_pairwise_cons h List.mem_cons_self) fun heq => hne (hrank heq)
    rcases List.mem_cons.mp (mem_dropRepeats.mp ha) with rfl | ha
    · exact hxy
    · exact lt_of_lt_of_le hxy (List.rel_of_pairwise_cons h.tail ha)

end Repeats

namespace Occurrence

/-! ## The order as a comparison of keys -/

/-- Whether two occurrences have an order: at least one watch is binary, or both
are clause watches. -/
def Comparable (a b : Occurrence) : Prop :=
  a.watch.kind = .binary ∨ b.watch.kind = .binary ∨
    a.watch.kind = .clause ∧ b.watch.kind = .clause

instance : Std.Symm Comparable :=
  ⟨fun _ _ h => h.elim (fun ha => .inr (.inl ha))
    fun h => h.elim .inl fun ⟨ha, hb⟩ => .inr (.inr ⟨hb, ha⟩)⟩

/-- The place of a watch: binary watches by the other literal, then the rest by the
payload, which for a clause watch is the offset. -/
def place (x : Occurrence) : Bool ×ₗ ℕ :=
  if x.watch.kind = .binary then toLex (false, (Literal.ofRaw x.watch.first).raw.val)
  else toLex (true, x.watch.payload.val)

/-- All of an occurrence: the place of its watch, then the literal, then the words. -/
def key (x : Occurrence) : (Bool ×ₗ ℕ) ×ₗ ℕ ×ₗ ℕ ×ₗ ℕ :=
  toLex (x.place, toLex (x.literal.raw.val, toLex (x.watch.first.val, x.watch.word.val)))

theorem place_of_binary {x : Occurrence} (h : x.watch.kind = .binary) :
    x.place = toLex (false, (Literal.ofRaw x.watch.first).raw.val) := if_pos h

theorem place_of_ne {x : Occurrence} (h : x.watch.kind ≠ .binary) :
    x.place = toLex (true, x.watch.payload.val) := if_neg h

theorem key_injective : Function.Injective key := by
  rintro ⟨l, f, w⟩ ⟨l', f', w'⟩ h
  obtain ⟨_, hrest⟩ := Prod.ext_iff.mp (toLex.injective h)
  obtain ⟨hl, hrest⟩ := Prod.ext_iff.mp (toLex.injective hrest)
  obtain ⟨hf, hw⟩ := Prod.ext_iff.mp (toLex.injective hrest)
  obtain rfl : l = l' := Literal.ext hl
  obtain rfl : f = f' := Fin.ext hf
  obtain rfl : w = w' := Fin.ext hw
  rfl

/-- Every binary watch comes before every other one. -/
theorem key_lt_of_binary {a b : Occurrence} (ha : a.watch.kind = .binary)
    (hb : b.watch.kind ≠ .binary) : a.key < b.key := by
  refine Prod.Lex.toLex_lt_toLex.mpr (.inl ?_)
  rw [place_of_binary ha, place_of_ne hb, Prod.Lex.toLex_lt_toLex]
  exact .inl Bool.false_lt_true

theorem compare_eq {a b : Occurrence} (h : Comparable a b) :
    compare a b = .ok (Ord.compare a.place b.place) := by
  unfold compare
  by_cases ha : a.watch.kind = .binary
  · by_cases hb : b.watch.kind = .binary
    · rw [ha, hb, place_of_binary ha, place_of_binary hb]
      show (do return Ord.compare (← a.watch.other) (← b.watch.other)) = _
      rw [Watch.other, Watch.other, Watch.require_of_kind ha, Watch.require_of_kind hb]
      rfl
    · rw [ha, place_of_binary ha, place_of_ne hb]
      cases hkb : b.watch.kind
      case binary => exact absurd hkb hb
      all_goals rfl
  · by_cases hb : b.watch.kind = .binary
    · rw [hb, place_of_ne ha, place_of_binary hb]
      cases hka : a.watch.kind
      case binary => exact absurd hka ha
      all_goals rfl
    · obtain ⟨hka, hkb⟩ := (h.resolve_left ha).resolve_left hb
      rw [hka, hkb, place_of_ne ha, place_of_ne hb]
      show (do return Ord.compare (← a.watch.offset).val.val (← b.watch.offset).val.val) = _
      rw [Watch.offset, Watch.offset, Watch.require_of_kind hka, Watch.require_of_kind hkb]
      rfl

/-- A bnn or an idx watch, which has a place beside binary watches only. -/
def Unplaced (x : Occurrence) : Prop := x.watch.kind = .bnn ∨ x.watch.kind = .idx

instance (x : Occurrence) : Decidable x.Unplaced :=
  inferInstanceAs (Decidable (_ ∨ _))

/-- What is wrong with a watch that has no place: a bnn watch is left out of the order,
and any other one is asked for an offset. -/
def refusal (x : Occurrence) : Fault :=
  if x.watch.kind = .bnn then .unordered x.watch else .wrongKind x.watch .clause

/-- Two occurrences without an order are refused, on account of a watch without a place. -/
theorem compare_of_not_comparable {a b : Occurrence} (h : ¬ Comparable a b) :
    ∃ x, (x = a ∨ x = b) ∧ x.Unplaced ∧ compare a b = .error x.refusal := by
  have ha : a.watch.kind ≠ .binary := fun ha => h (.inl ha)
  have hb : b.watch.kind ≠ .binary := fun hb => h (.inr (.inl hb))
  have hclause : ¬ (a.watch.kind = .clause ∧ b.watch.kind = .clause) :=
    fun hc => h (.inr (.inr hc))
  unfold compare refusal
  cases hka : a.watch.kind with
  | binary => exact absurd hka ha
  | bnn =>
    refine ⟨a, .inl rfl, .inl hka, ?_⟩
    rw [if_pos hka]
    cases hkb : b.watch.kind with
    | binary => exact absurd hkb hb
    | clause | bnn | idx => rfl
  | idx => cases hkb : b.watch.kind with
    | binary => exact absurd hkb hb
    | bnn =>
      refine ⟨b, .inr rfl, .inl hkb, ?_⟩
      rw [if_pos hkb]
    | clause | idx =>
      refine ⟨a, .inl rfl, .inr hka, ?_⟩
      show (do return Ord.compare (← a.watch.offset).val.val (← b.watch.offset).val.val) = _
      rw [Watch.offset, Watch.require_of_ne (by rw [hka]; nofun), if_neg (by rw [hka]; nofun)]
      rfl
  | clause => cases hkb : b.watch.kind with
    | binary => exact absurd hkb hb
    | clause => exact absurd ⟨hka, hkb⟩ hclause
    | bnn =>
      refine ⟨b, .inr rfl, .inl hkb, ?_⟩
      rw [if_pos hkb]
    | idx =>
      refine ⟨b, .inr rfl, .inr hkb, ?_⟩
      show (do return Ord.compare (← a.watch.offset).val.val (← b.watch.offset).val.val) = _
      rw [Watch.offset, Watch.offset, Watch.require_of_kind hka,
        Watch.require_of_ne (by rw [hkb]; nofun), if_neg (by rw [hkb]; nofun)]
      rfl

theorem sortOrder_eq {a b : Occurrence} (h : Comparable a b) :
    sortOrder a b = .ok (Ord.compare a.key b.key) := by
  unfold sortOrder
  rw [compare_eq h]
  refine congrArg Except.ok ?_
  rw [Ordering.then_assoc, Ordering.then_assoc]
  rfl

theorem sortOrder_of_not_comparable {a b : Occurrence} (h : ¬ Comparable a b) :
    ∃ f, sortOrder a b = .error f := by
  obtain ⟨x, _, _, hx⟩ := compare_of_not_comparable h
  refine ⟨x.refusal, ?_⟩
  rw [sortOrder, hx]
  rfl

/-! ## Sorting -/

/-- All non-binary watches of a list are clause watches, or there is one at most. -/
def Orderable (xs : List Occurrence) : Prop :=
  (∀ x ∈ xs, x.watch.kind ≠ .binary → x.watch.kind = .clause) ∨
    xs.countP (fun x => decide (x.watch.kind ≠ .binary)) ≤ 1

instance (xs : List Occurrence) : Decidable (Orderable xs) :=
  inferInstanceAs (Decidable (_ ∨ _))

/-- In such a list any two occurrences can be compared. -/
theorem Orderable.pairwise {xs : List Occurrence} (h : Orderable xs) :
    xs.Pairwise Comparable := by
  rcases h with hclause | hone
  · refine List.pairwise_of_forall_mem_list fun a ha b hb => ?_
    by_cases hka : a.watch.kind = .binary
    · exact .inl hka
    by_cases hkb : b.watch.kind = .binary
    · exact .inr (.inl hkb)
    exact .inr (.inr ⟨hclause a ha hka, hclause b hb hkb⟩)
  · induction xs with
    | nil => exact .nil
    | cons x xs ih =>
      rw [List.countP_cons] at hone
      refine List.pairwise_cons.mpr ⟨fun y hy => ?_, ih (by omega)⟩
      by_cases hkx : x.watch.kind = .binary
      · exact .inl hkx
      · -- `x` is the one, so all others are binary
        have hzero : xs.countP (fun x => decide (x.watch.kind ≠ .binary)) = 0 := by
          rw [if_pos (decide_eq_true hkx)] at hone
          omega
        exact .inr (.inl (by simpa using List.countP_eq_zero.mp hzero y hy))

theorem Orderable.perm {xs ys : List Occurrence} (h : Orderable xs) (hp : ys.Perm xs) :
    Orderable ys := by
  rcases h with hclause | hone
  · exact .inl fun x hx => hclause x (hp.mem_iff.mp hx)
  · exact .inr (by rwa [hp.countP_eq])

theorem Orderable.sublist {xs ys : List Occurrence} (h : Orderable xs) (hs : ys.Sublist xs) :
    Orderable ys := by
  rcases h with hclause | hone
  · exact .inl fun x hx => hclause x (hs.subset hx)
  · exact .inr (le_trans (hs.countP_le) hone)

/-- Where any two occurrences can be compared, the list is sorted by keys. -/
theorem sort_of_comparable {xs : List Occurrence} (h : xs.Pairwise Comparable) :
    ∃ ys, sort xs = .ok ys ∧ ys.Perm xs ∧ ys.Pairwise fun a b => a.key ≤ b.key := by
  obtain ⟨ys, hys, hsorted⟩ := sortBy_stablySorted_of_pairwise (h.imp sortOrder_eq)
  exact ⟨ys, hys, sortBy_perm hys, hsorted.ascending⟩

/-- An occurrence passes the binary ones and is refused at the first other one. -/
theorem insertBy_error {x : Occurrence} {ys : List Occurrence} (hx : x.watch.kind ≠ .binary)
    (hrefused : ∀ y ∈ ys, y.watch.kind ≠ .binary → ¬ Comparable x y)
    (hys : ∃ y ∈ ys, y.watch.kind ≠ .binary) : ∃ f, insertBy sortOrder x ys = .error f := by
  induction ys with
  | nil =>
    obtain ⟨y, hy, _⟩ := hys
    cases hy
  | cons y ys ih =>
    by_cases hky : y.watch.kind = .binary
    · have hgt : sortOrder x y = .ok .gt := by
        rw [sortOrder_eq (.inr (.inl hky)), compare_gt_iff_gt.mpr (key_lt_of_binary hky hx)]
      have hrest : ∃ z ∈ ys, z.watch.kind ≠ .binary := by
        obtain ⟨z, hz, hkz⟩ := hys
        rcases List.mem_cons.mp hz with rfl | hz
        · exact absurd hky hkz
        · exact ⟨z, hz, hkz⟩
      obtain ⟨f, hf⟩ := ih (fun z hz => hrefused z (List.mem_cons_of_mem y hz)) hrest
      refine ⟨f, ?_⟩
      rw [insertBy, hgt]
      show Except.bind (insertBy sortOrder x ys) _ = _
      rw [hf]
      rfl
    · obtain ⟨f, hf⟩ := sortOrder_of_not_comparable (hrefused y List.mem_cons_self hky)
      refine ⟨f, ?_⟩
      rw [insertBy, hf]
      rfl

/-- Where two occurrences cannot be compared, the sort gets to them. -/
theorem sort_of_not_comparable {xs : List Occurrence} (h : ¬ xs.Pairwise Comparable) :
    ∃ f, sort xs = .error f := by
  induction xs with
  | nil => exact absurd .nil h
  | cons x xs ih =>
    by_cases hxs : xs.Pairwise Comparable
    · obtain ⟨ys, hys, hperm, _⟩ := sort_of_comparable hxs
      have hnot : ∃ y ∈ xs, ¬ Comparable x y := by
        by_contra hall
        refine h (List.pairwise_cons.mpr ⟨fun y hy => ?_, hxs⟩)
        by_contra hxy
        exact hall ⟨y, hy, hxy⟩
      obtain ⟨y, hy, hxy⟩ := hnot
      have hkx : x.watch.kind ≠ .binary := fun hk => hxy (.inl hk)
      have hky : y.watch.kind ≠ .binary := fun hk => hxy (.inr (.inl hk))
      have hrefused : ∀ z ∈ ys, z.watch.kind ≠ .binary → ¬ Comparable x z := by
        intro z hz hkz hxz
        obtain ⟨hcx, hcz⟩ := (hxz.resolve_left hkx).resolve_left hkz
        -- `z` is a clause watch and `y` is none, so the rest would not be comparable
        have hcy : y.watch.kind ≠ .clause := fun hcy => hxy (.inr (.inr ⟨hcx, hcy⟩))
        have hne : z ≠ y := fun heq => hcy (heq ▸ hcz)
        have hzy := hxs.forall (hperm.mem_iff.mp hz) hy hne
        exact hcy ((hzy.resolve_left hkz).resolve_left hky).2
      obtain ⟨f, hf⟩ := insertBy_error hkx hrefused ⟨y, hperm.mem_iff.mpr hy, hky⟩
      refine ⟨f, ?_⟩
      show Except.bind (sort xs) _ = _
      rw [hys]
      exact hf
    · obtain ⟨f, hf⟩ := ih hxs
      refine ⟨f, ?_⟩
      show Except.bind (sort xs) _ = _
      rw [hf]
      rfl

theorem pairwise_comparable_of_perm {xs ys : List Occurrence} (h : xs.Pairwise Comparable)
    (hp : xs.Perm ys) : ys.Pairwise Comparable :=
  (hp.pairwise_iff fun h => Std.Symm.symm _ _ h).mp h

/-- Rearranged, a list is sorted into the same list or refused as before. -/
theorem sort_perm {xs ys : List Occurrence} (h : ys.Perm xs) :
    (sort ys).toOption = (sort xs).toOption := by
  by_cases hxs : xs.Pairwise Comparable
  · obtain ⟨xs', hxs', hp, hasc⟩ := sort_of_comparable hxs
    obtain ⟨ys', hys', hp', hasc'⟩ := sort_of_comparable (pairwise_comparable_of_perm hxs h.symm)
    rw [hxs', hys',
      eq_of_perm_of_ascending key_injective hasc' hasc ((hp'.trans h).trans hp.symm)]
  · obtain ⟨f, hf⟩ := sort_of_not_comparable hxs
    obtain ⟨f', hf'⟩ := sort_of_not_comparable fun hys => hxs (pairwise_comparable_of_perm hys h)
    rw [hf, hf']
    rfl

/-- A list that is sorted can be compared throughout, and is put in the order of keys. -/
theorem ascending_of_sort {xs zs : List Occurrence} (h : sort xs = .ok zs) :
    zs.Pairwise Comparable ∧ zs.Pairwise fun a b => a.key ≤ b.key := by
  have hxs : xs.Pairwise Comparable := by
    by_contra hnot
    obtain ⟨f, hf⟩ := sort_of_not_comparable hnot
    rw [h] at hf
    cases hf
  obtain ⟨zs', hzs', hperm, hasc⟩ := sort_of_comparable hxs
  obtain rfl : zs' = zs := Except.ok.inj (hzs'.symm.trans h)
  exact ⟨pairwise_comparable_of_perm hxs hperm.symm, hasc⟩

/-! ## The canonical form -/

theorem isBefore_eq_false {a b : Occurrence} (h : Comparable a b) (hle : a.key ≤ b.key) :
    isBefore b a = .ok false := by
  have hplace : a.place ≤ b.place := by
    rcases lt_or_eq_of_le hle with hlt | heq
    · rcases Prod.Lex.toLex_lt_toLex.mp hlt with hlt | ⟨heq, _⟩
      · exact le_of_lt hlt
      · exact le_of_eq heq
    · rw [key_injective heq]
  rw [isBefore, compare_eq (Std.Symm.symm _ _ h)]
  have hnot : Ord.compare b.place a.place ≠ .lt := fun hlt =>
    absurd (compare_lt_iff_lt.mp hlt) (not_lt_of_ge hplace)
  exact congrArg Except.ok (beq_false_of_ne hnot)

/-- What is left without repeats is ascending, and holds each occurrence once. -/
theorem dedup_of_comparable {xs : List Occurrence} (h : xs.Pairwise Comparable) :
    ∃ ys, dedup xs = .ok (ys, xs.length - xs.toFinset.card) ∧
      (ys.Pairwise fun a b => a.key < b.key) ∧ (∀ x, x ∈ ys ↔ x ∈ xs) ∧
      ∃ zs, ys.Sublist zs ∧ zs.Perm xs := by
  obtain ⟨zs, hzs, hperm, hasc⟩ := sort_of_comparable h
  have hlt := dropRepeats_ascending key_injective hasc
  have hmem : ∀ x, x ∈ dropRepeats zs ↔ x ∈ xs := fun x =>
    mem_dropRepeats.trans hperm.mem_iff
  have hcard : (dropRepeats zs).length = xs.toFinset.card := by
    rw [← List.toFinset_card_of_nodup (nodup_of_ascending hlt)]
    congr 1
    ext x
    rw [List.mem_toFinset, List.mem_toFinset, hmem]
  refine ⟨dropRepeats zs, ?_, hlt, hmem, zs, dropRepeats_sublist zs, hperm⟩
  rw [dedup, hzs, ← hcard]
  rfl

/-- **The canonical form.** A list is sorted into the same list however it is
rearranged, or refused however it is rearranged, and in a sorted list nothing later
is before anything earlier. If all its non-binary watches are clause watches, or
there is one at most, a list is sorted, and no other arrangement would do. Without
repeats it then holds each occurrence once and is strictly ascending; the number
that went is that of the repeats; every such list of the same occurrences comes to
this one; and nothing goes the next time. -/
theorem dedup_canonical :
    (∀ xs ys : List Occurrence, ys.Perm xs → (sort ys).toOption = (sort xs).toOption) ∧
    (∀ xs zs : List Occurrence, sort xs = .ok zs →
      zs.Pairwise fun a b => isBefore b a = .ok false) ∧
    ∀ xs, Orderable xs →
      (∃ zs, sort xs = .ok zs ∧ zs.Perm xs ∧
        ∀ zs', zs'.Perm xs → (zs'.Pairwise fun a b => sortOrder a b ≠ .ok .gt) → zs' = zs) ∧
      ∃ ys, dedup xs = .ok (ys, xs.length - xs.toFinset.card) ∧
        (∀ x, ys.count x = if x ∈ xs then 1 else 0) ∧
        (ys.Pairwise fun a b => sortOrder a b = .ok .lt) ∧
        (∀ xs', Orderable xs' → (∀ x, x ∈ xs' ↔ x ∈ xs) →
          dedup xs' = .ok (ys, xs'.length - xs'.toFinset.card)) ∧
        dedup ys = .ok (ys, 0) := by
  refine ⟨fun xs ys => sort_perm, fun xs zs hzs => ?_, fun xs hxs => ⟨?_, ?_⟩⟩
  · obtain ⟨hcmp, hasc⟩ := ascending_of_sort hzs
    exact (hasc.and hcmp).imp fun ⟨hle, hcmp⟩ => isBefore_eq_false hcmp hle
  · obtain ⟨zs, hzs, hperm, hasc⟩ := sort_of_comparable hxs.pairwise
    refine ⟨zs, hzs, hperm, fun zs' hperm' hasc' => ?_⟩
    refine eq_of_perm_of_ascending key_injective ?_ hasc (hperm'.trans hperm.symm)
    refine (hasc'.and (hxs.perm hperm').pairwise).imp fun ⟨hgt, hcmp⟩ => ?_
    rw [sortOrder_eq hcmp] at hgt
    exact le_of_not_gt fun hlt => hgt (congrArg Except.ok (compare_gt_iff_gt.mpr hlt))
  · obtain ⟨ys, hys, hlt, hmem, zs, hsub, hperm⟩ := dedup_of_comparable hxs.pairwise
    have hordered : Orderable ys := (hxs.perm hperm).sublist hsub
    have hnodup := nodup_of_ascending hlt
    -- strictly ascending lists of the same occurrences are equal
    have hunique : ∀ xs', Orderable xs' → (∀ x, x ∈ xs' ↔ x ∈ xs) →
        dedup xs' = .ok (ys, xs'.length - xs'.toFinset.card) := by
      intro xs' hxs' hsame
      obtain ⟨ys', hys', hlt', hmem', _⟩ := dedup_of_comparable hxs'.pairwise
      have hperm : ys'.Perm ys :=
        (List.perm_ext_iff_of_nodup (nodup_of_ascending hlt') hnodup).mpr fun x => by
          rw [hmem', hmem, hsame]
      rw [hys', eq_of_perm_of_ascending key_injective (hlt'.imp le_of_lt) (hlt.imp le_of_lt) hperm]
    refine ⟨ys, hys, fun x => ?_, ?_, hunique, ?_⟩
    · rw [hnodup.count]
      exact if_congr (hmem x) rfl rfl
    · refine (hlt.and hordered.pairwise).imp fun ⟨hlt, hcmp⟩ => ?_
      rw [sortOrder_eq hcmp, compare_lt_iff_lt.mpr hlt]
    · rw [hunique ys hordered hmem, List.toFinset_card_of_nodup hnodup, Nat.sub_self]

/-- A bnn watch alone among binary twins goes to the end, and one of the twins goes. -/
theorem dedup_canonical_twins :
    ∃ x b : Occurrence, x = ⟨⟨2, by decide⟩, .ofBnn 7 .out⟩ ∧
      b = ⟨⟨5, by decide⟩, .ofBinary ⟨9, by decide⟩ true ⟨1⟩⟩ ∧ Orderable [x, b, b] ∧
      sort [x, b, b] = .ok [b, b, x] ∧ dedup [x, b, b] = .ok ([b, x], 1) ∧
      dedup [b, x, b] = .ok ([b, x], 1) ∧ dedup [b, x] = .ok ([b, x], 0) := by
  have hordered : Orderable [⟨⟨2, by decide⟩, .ofBnn 7 .out⟩,
      ⟨⟨5, by decide⟩, .ofBinary ⟨9, by decide⟩ true ⟨1⟩⟩,
      ⟨⟨5, by decide⟩, .ofBinary ⟨9, by decide⟩ true ⟨1⟩⟩] := by decide
  have hvalue : dedup [⟨⟨2, by decide⟩, .ofBnn 7 .out⟩,
      ⟨⟨5, by decide⟩, .ofBinary ⟨9, by decide⟩ true ⟨1⟩⟩,
      ⟨⟨5, by decide⟩, .ofBinary ⟨9, by decide⟩ true ⟨1⟩⟩]
      = .ok ([⟨⟨5, by decide⟩, .ofBinary ⟨9, by decide⟩ true ⟨1⟩⟩,
        ⟨⟨2, by decide⟩, .ofBnn 7 .out⟩], 1) := by decide
  obtain ⟨_, ys, hys, _, _, hsame, hagain⟩ := dedup_canonical.2.2 _ hordered
  obtain rfl := congrArg Prod.fst (Except.ok.inj (hvalue.symm.trans hys))
  exact ⟨_, _, rfl, rfl, hordered, by decide, hvalue,
    hsame _ (by decide) (by simp [or_comm]), hagain⟩

end Occurrence

end WatchLists
