import WatchLists.Proofs.Order.BinaryFirst
import WatchLists.Proofs.Order.Occurrence

/-!
# Comparisons as orders

A sort relies on laws of its comparison: an element is equal to itself, the answer is reversed
when the sides are swapped, and what is not after something is not after what comes later. Here
a comparison may refuse some elements, so the laws are about the elements of a set on which it
answers. Both orders of this library compare ranks, and a comparison of ranks has all laws; what
is left is to say which elements are equal.

- `StrictWeakOrderOn`, `TotalPreorderOn`: the laws, of a test that says which of two elements
  is placed first, and of a comparison.
- `strictWeakOrderOn_of_rank`, `totalPreorderOn_of_rank`: they hold of ranks.
- `before_strictWeakOrder`: the order of a watch list, and which watches are equal in it.
- `Occurrence.SamePlace`, `Occurrence.compare_preorder`: the order of occurrences, what it
  does not look at, and the order that breaks its ties.
-/

namespace WatchLists

section Laws

variable {α ε : Type}

/-- Neither of two elements is placed before the other. -/
def Incomparable (before : α → α → Except ε Bool) (a b : α) : Prop :=
  before a b = .ok false ∧ before b a = .ok false

/-- The first of two elements is not after the second. -/
def NotAfter (cmp : α → α → Except ε Ordering) (a b : α) : Prop :=
  cmp a b = .ok .lt ∨ cmp a b = .ok .eq

/-- A test that says, of any two elements of a set, whether the first must be placed before
the second, without contradicting itself. -/
structure StrictWeakOrderOn (before : α → α → Except ε Bool) (s : α → Prop) : Prop where
  /-- No element is refused. -/
  decided : ∀ a b, s a → s b → ∃ x, before a b = .ok x
  /-- Nothing is before itself. -/
  irrefl : ∀ a, s a → before a a = .ok false
  /-- Of two elements one at most is before the other. -/
  asymm : ∀ a b, s a → s b → before a b = .ok true → before b a = .ok false
  /-- What is before an element is before all that is after it. -/
  trans : ∀ a b c, s a → s b → s c → before a b = .ok true → before b c = .ok true →
    before a c = .ok true
  /-- Elements that cannot be told apart from a third cannot be told apart. -/
  incomparable_trans : ∀ a b c, s a → s b → s c → Incomparable before a b →
    Incomparable before b c → Incomparable before a c

/-- A comparison that answers for any two elements of a set, without contradicting itself. -/
structure TotalPreorderOn (cmp : α → α → Except ε Ordering) (s : α → Prop) : Prop where
  /-- Any element is equal to itself. -/
  refl : ∀ a, s a → cmp a a = .ok .eq
  /-- No two elements are refused, and the other way round the answer is reversed. -/
  swap : ∀ a b, s a → s b → ∃ o, cmp a b = .ok o ∧ cmp b a = .ok o.swap
  /-- What is not after an element is not after what that is not after. -/
  trans : ∀ a b c, s a → s b → s c → NotAfter cmp a b → NotAfter cmp b c → NotAfter cmp a c
  /-- What is before an element is before all that is after it. -/
  lt_trans : ∀ a b c, s a → s b → s c → cmp a b = .ok .lt → cmp b c = .ok .lt →
    cmp a c = .ok .lt
  /-- Elements that are equal to a third are equal. -/
  eq_trans : ∀ a b c, s a → s b → s c → cmp a b = .ok .eq → cmp b c = .ok .eq →
    cmp a c = .ok .eq

variable {κ : Type} [LinearOrder κ] {rank : α → κ} {s : α → Prop}

/-- A smaller rank is placed first. -/
theorem strictWeakOrderOn_of_rank {before : α → α → Except ε Bool}
    (h : ∀ a b, s a → s b → before a b = .ok (decide (rank a < rank b))) :
    StrictWeakOrderOn before s := by
  have htrue : ∀ a b, s a → s b → (before a b = .ok true ↔ rank a < rank b) := by
    intro a b ha hb
    rw [h a b ha hb, Except.ok.injEq, decide_eq_true_iff]
  have hfalse : ∀ a b, s a → s b → (before a b = .ok false ↔ rank b ≤ rank a) := by
    intro a b ha hb
    rw [h a b ha hb, Except.ok.injEq, decide_eq_false_iff_not, not_lt]
  have hincomparable : ∀ a b, s a → s b → (Incomparable before a b ↔ rank a = rank b) := by
    intro a b ha hb
    rw [Incomparable, hfalse a b ha hb, hfalse b a hb ha, and_comm]
    exact le_antisymm_iff.symm
  refine ⟨fun a b ha hb => ⟨_, h a b ha hb⟩, fun a ha => (hfalse a a ha ha).mpr (le_refl _),
    fun a b ha hb hab => ?_, fun a b c ha hb hc hab hbc => ?_,
    fun a b c ha hb hc hab hbc => ?_⟩
  · exact (hfalse b a hb ha).mpr (le_of_lt ((htrue a b ha hb).mp hab))
  · exact (htrue a c ha hc).mpr
      (lt_trans ((htrue a b ha hb).mp hab) ((htrue b c hb hc).mp hbc))
  · exact (hincomparable a c ha hc).mpr
      (((hincomparable a b ha hb).mp hab).trans ((hincomparable b c hb hc).mp hbc))

/-- Elements are compared as their ranks are. -/
theorem totalPreorderOn_of_rank {cmp : α → α → Except ε Ordering}
    (h : ∀ a b, s a → s b → cmp a b = .ok (compare (rank a) (rank b))) :
    TotalPreorderOn cmp s := by
  have hlt : ∀ a b, s a → s b → (cmp a b = .ok .lt ↔ rank a < rank b) := by
    intro a b ha hb
    rw [h a b ha hb, Except.ok.injEq, compare_lt_iff_lt]
  have heq : ∀ a b, s a → s b → (cmp a b = .ok .eq ↔ rank a = rank b) := by
    intro a b ha hb
    rw [h a b ha hb, Except.ok.injEq, compare_eq_iff_eq]
  have hle : ∀ a b, s a → s b → (NotAfter cmp a b ↔ rank a ≤ rank b) := by
    intro a b ha hb
    rw [NotAfter, hlt a b ha hb, heq a b ha hb, le_iff_lt_or_eq]
  refine ⟨fun a ha => (heq a a ha ha).mpr rfl, fun a b ha hb => ⟨_, h a b ha hb, ?_⟩,
    fun a b c ha hb hc hab hbc => ?_, fun a b c ha hb hc hab hbc => ?_,
    fun a b c ha hb hc hab hbc => ?_⟩
  · rw [h b a hb ha, Std.OrientedOrd.eq_swap]
  · exact (hle a c ha hc).mpr (le_trans ((hle a b ha hb).mp hab) ((hle b c hb hc).mp hbc))
  · exact (hlt a c ha hc).mpr (lt_trans ((hlt a b ha hb).mp hab) ((hlt b c hb hc).mp hbc))
  · exact (heq a c ha hc).mpr (((heq a b ha hb).mp hab).trans ((heq b c hb hc).mp hbc))

end Laws

/-! ## The order of a watch list -/

namespace Watch

/-- Binary watches have the same key if they give the same answers. -/
theorem key_eq_iff {a b : Watch} (ha : a.kind = .binary) (hb : b.kind = .binary) :
    a.key = b.key ↔ a.other = b.other ∧ a.isRed = b.isRed ∧ a.clauseId = b.clauseId := by
  rw [other, other, isRed, isRed, clauseId, clauseId]
  simp only [require_of_kind ha, require_of_kind hb, Except.ok.injEq, key, BinaryKey.mk.injEq]

/-- Two watches have the same rank if neither is binary, or both are and have the same key. -/
theorem rank_eq_iff (a b : Watch) :
    a.rank = b.rank ↔ a.kind ≠ .binary ∧ b.kind ≠ .binary ∨
      a.kind = .binary ∧ b.kind = .binary ∧ a.key = b.key := by
  by_cases ha : a.kind = .binary
  · by_cases hb : b.kind = .binary
    · rw [rank_of_binary ha, rank_of_binary hb, WithTop.coe_inj, BinaryKey.lex_injective.eq_iff]
      simp [ha, hb]
    · rw [rank_of_binary ha, rank_of_ne hb]
      simp [ha, hb]
  · by_cases hb : b.kind = .binary
    · rw [rank_of_ne ha, rank_of_binary hb]
      simp [ha, hb]
    · rw [rank_of_ne ha, rank_of_ne hb]
      simp [ha, hb]

/-- **The binary-first order.** Without idx watches, to be placed before another is a strict
weak order, and the comparison is its total preorder: the smaller one is placed first, and of
equal ones neither is. Watches are equal if neither is binary, or both are, with the same
other literal, both redundant or both not, and the same identifier. -/
theorem before_strictWeakOrder :
    StrictWeakOrderOn Watch.before (fun w => w.kind ≠ .idx) ∧
    TotalPreorderOn binaryFirstOrder (fun w => w.kind ≠ .idx) ∧
    ∀ a b : Watch, a.kind ≠ .idx → b.kind ≠ .idx →
      (binaryFirstOrder a b = .ok .lt ↔ a.before b = .ok true) ∧
      (binaryFirstOrder a b = .ok .eq ↔ Incomparable Watch.before a b) ∧
      (binaryFirstOrder a b = .ok .eq ↔ a.kind ≠ .binary ∧ b.kind ≠ .binary ∨
        a.kind = .binary ∧ b.kind = .binary ∧
          a.other = b.other ∧ a.isRed = b.isRed ∧ a.clauseId = b.clauseId) := by
  refine ⟨strictWeakOrderOn_of_rank fun a b => before_eq,
    totalPreorderOn_of_rank fun a b => binaryFirstOrder_eq, fun a b ha hb => ⟨?_, ?_, ?_⟩⟩
  · rw [binaryFirstOrder_eq ha hb, before_eq ha hb, Except.ok.injEq, Except.ok.injEq,
      compare_lt_iff_lt, decide_eq_true_iff]
  · rw [binaryFirstOrder_eq ha hb, Incomparable, before_eq ha hb, before_eq hb ha,
      Except.ok.injEq, Except.ok.injEq, Except.ok.injEq, compare_eq_iff_eq,
      decide_eq_false_iff_not, decide_eq_false_iff_not, not_lt, not_lt, and_comm]
    exact le_antisymm_iff
  · rw [binaryFirstOrder_eq ha hb, Except.ok.injEq, compare_eq_iff_eq, rank_eq_iff]
    refine or_congr_right (and_congr_right fun hka => and_congr_right fun hkb => ?_)
    exact key_eq_iff hka hkb

/-- Of a binary watch, a marked twin of it and a bnn watch, the twins are equal and before the
bnn watch, which is equal to a clause watch. -/
theorem before_strictWeakOrder_twins :
    let a : Watch := .ofBinary ⟨9, by decide⟩ true .max
    let b : Watch := .packBinary ⟨9, by decide⟩ ⟨true, true⟩ .max
    let c : Watch := .ofBnn 7 .out
    a.kind ≠ .idx ∧ b.kind ≠ .idx ∧ c.kind ≠ .idx ∧ placeholder.kind ≠ .idx ∧
      binaryFirstOrder a b = .ok .eq ∧ a.before c = .ok true ∧ c.before a = .ok false ∧
      binaryFirstOrder c placeholder = .ok .eq ∧ NotAfter binaryFirstOrder a placeholder := by
  intro a b c
  have ha : a.kind ≠ .idx := by decide
  have hb : b.kind ≠ .idx := by decide
  have hc : c.kind ≠ .idx := by decide
  have hp : placeholder.kind ≠ .idx := by decide
  obtain ⟨hbefore, horder, hlaws⟩ := before_strictWeakOrder
  have hac : a.before c = .ok true := by decide
  have hab : binaryFirstOrder a b = .ok .eq :=
    (hlaws a b ha hb).2.2.mpr (.inr (by decide))
  have hcp : binaryFirstOrder c placeholder = .ok .eq :=
    (hlaws c _ hc hp).2.2.mpr (.inl ⟨by decide, by decide⟩)
  have hlt : binaryFirstOrder a c = .ok .lt := (hlaws a c ha hc).1.mpr hac
  exact ⟨ha, hb, hc, hp, hab, hac, hbefore.asymm a c ha hc hac, hcp,
    horder.trans a c _ ha hc hp (.inl hlt) (.inr hcp)⟩

end Watch

/-! ## The order of occurrences -/

namespace Occurrence

/-- An occurrence with a watch that has a place in the order. -/
def Placed (x : Occurrence) : Prop := x.watch.kind = .binary ∨ x.watch.kind = .clause

/-- Occurrences with watches of one kind, and of one other literal if they are binary, or of
one offset if they are clause watches. -/
structure SamePlace (x y : Occurrence) : Prop where
  kind : x.watch.kind = y.watch.kind
  other : x.watch.kind = .binary → x.watch.other = y.watch.other
  offset : x.watch.kind = .clause → x.watch.offset = y.watch.offset

/-- The literal, the flags and the identifier do not make a place. -/
theorem samePlace_binary (x y l : Literal) (r r' m m' : Bool) (i j : ClauseId) :
    SamePlace ⟨x, .packBinary l ⟨r, m⟩ i⟩ ⟨y, .packBinary l ⟨r', m'⟩ j⟩ where
  kind := (Watch.kind_pack ..).trans (Watch.kind_pack ..).symm
  other _ := (Watch.answers_toWatch (.binary l r m i)).1.trans
    (Watch.answers_toWatch (.binary l r' m' j)).1.symm
  offset h := absurd ((Watch.kind_pack ..).symm.trans h) (by decide)

/-- The literal and the first word of a clause watch do not make a place. -/
theorem samePlace_clause (x y : Literal) (o : ClauseOffset) (d e : Abstraction) :
    SamePlace ⟨x, .ofClause o d⟩ ⟨y, .ofClause o e⟩ where
  kind := (Watch.kind_pack ..).trans (Watch.kind_pack ..).symm
  other h := absurd ((Watch.kind_pack ..).symm.trans h) (by decide)
  offset _ := (Watch.answers_toWatch (.clause o d)).1.trans
    (Watch.answers_toWatch (.clause o e)).1.symm

theorem Placed.comparable {a b : Occurrence} (ha : a.Placed) (hb : b.Placed) :
    Comparable a b := by
  rcases ha with ha | ha
  · exact .inl ha
  · exact .inr (hb.imp_right fun hb => ⟨ha, hb⟩)

/-- The place that orders a watch is its kind, with the other literal or the offset. -/
theorem place_eq_iff {a b : Occurrence} (ha : a.Placed) (hb : b.Placed) :
    a.place = b.place ↔ SamePlace a b := by
  rcases ha with ha | ha <;> rcases hb with hb | hb
  · have hother : a.watch.other = b.watch.other
        ↔ Literal.ofRaw a.watch.first = Literal.ofRaw b.watch.first := by
      rw [Watch.other, Watch.other, Watch.require_of_kind ha, Watch.require_of_kind hb,
        Except.ok.injEq]
    rw [place_of_binary ha, place_of_binary hb, toLex.injective.eq_iff, Prod.mk.injEq]
    constructor
    · rintro ⟨-, h⟩
      exact ⟨ha.trans hb.symm, fun _ => hother.mpr (Literal.ext h),
        fun hc => absurd (ha.symm.trans hc) (by decide)⟩
    · intro h
      exact ⟨rfl, congrArg (fun l => l.raw.val) (hother.mp (h.other ha))⟩
  · -- a binary watch is before a clause watch
    have hne : b.watch.kind ≠ .binary := by rw [hb]; decide
    rw [place_of_binary ha, place_of_ne hne]
    exact iff_of_false (by simp) fun h => hne (h.kind.symm.trans ha)
  · have hne : a.watch.kind ≠ .binary := by rw [ha]; decide
    rw [place_of_ne hne, place_of_binary hb]
    exact iff_of_false (by simp) fun h => hne (h.kind.trans hb)
  · have hne : ∀ {w : Watch}, w.kind = .clause → w.kind ≠ .binary := fun hc => by rw [hc]; decide
    have hoffset : a.watch.offset = b.watch.offset ↔ a.watch.payload = b.watch.payload := by
      rw [Watch.offset, Watch.offset, Watch.require_of_kind ha, Watch.require_of_kind hb,
        Except.ok.injEq, ClauseOffset.mk.injEq]
    rw [place_of_ne (hne ha), place_of_ne (hne hb), toLex.injective.eq_iff, Prod.mk.injEq]
    constructor
    · rintro ⟨-, h⟩
      exact ⟨ha.trans hb.symm, fun hc => absurd hc (hne ha), fun _ => hoffset.mpr (Fin.ext h)⟩
    · intro h
      exact ⟨rfl, congrArg Fin.val (hoffset.mp (h.offset ha))⟩

/-- Occurrences of one place are in one relation to all others. -/
theorem compare_congr {a a' b b' : Occurrence} (ha : a.Placed) (ha' : a'.Placed) (hb : b.Placed)
    (hb' : b'.Placed) (haa : SamePlace a a') (hbb : SamePlace b b') :
    compare a b = compare a' b' := by
  rw [compare_eq (ha.comparable hb), compare_eq (ha'.comparable hb'),
    (place_eq_iff ha ha').mpr haa, (place_eq_iff hb hb').mpr hbb]

/-- Breaking ties does not touch what is no tie. -/
theorem sortOrder_of_compare {a b : Occurrence} {o : Ordering} (h : compare a b = .ok o)
    (ho : o ≠ .eq) : sortOrder a b = .ok o := by
  rw [sortOrder, h]
  cases o with
  | eq => exact absurd rfl ho
  | lt | gt => rfl

/-- **The orders of occurrences.** The comparison of occurrences of binary and clause watches
is a total preorder. Every binary watch comes before every clause watch; equal are binary
watches of one other literal and clause watches of one offset, and nothing else of an
occurrence has a say: not its literal, nor the flags and the identifier, nor the first word of
a clause watch. The order of the sort is a total preorder as well, keeps all that is no tie,
and takes only an occurrence for equal to itself. -/
theorem compare_preorder :
    TotalPreorderOn compare Placed ∧
    (∀ a b : Occurrence, a.watch.kind = .binary → b.watch.kind = .clause →
      compare a b = .ok .lt) ∧
    (∀ a b : Occurrence, a.Placed → b.Placed → (compare a b = .ok .eq ↔ SamePlace a b)) ∧
    (∀ a a' b b' : Occurrence, a.Placed → a'.Placed → b.Placed → b'.Placed →
      SamePlace a a' → SamePlace b b' → compare a b = compare a' b') ∧
    (∀ (x y l : Literal) (r r' m m' : Bool) (i j : ClauseId),
      SamePlace ⟨x, .packBinary l ⟨r, m⟩ i⟩ ⟨y, .packBinary l ⟨r', m'⟩ j⟩) ∧
    (∀ (x y : Literal) (o : ClauseOffset) (d e : Abstraction),
      SamePlace ⟨x, .ofClause o d⟩ ⟨y, .ofClause o e⟩) ∧
    TotalPreorderOn sortOrder Placed ∧
    ∀ a b : Occurrence, a.Placed → b.Placed →
      (∀ o, compare a b = .ok o → o ≠ .eq → sortOrder a b = .ok o) ∧
      (sortOrder a b = .ok .eq ↔ a = b) := by
  refine ⟨totalPreorderOn_of_rank fun a b ha hb => compare_eq (ha.comparable hb),
    fun a b ha hb => ?_, fun a b ha hb => ?_, fun a a' b b' => compare_congr, samePlace_binary,
    samePlace_clause, totalPreorderOn_of_rank fun a b ha hb => sortOrder_eq (ha.comparable hb),
    fun a b ha hb => ⟨fun o => sortOrder_of_compare, ?_⟩⟩
  · rw [compare, ha, hb]
  · rw [compare_eq (ha.comparable hb), Except.ok.injEq, compare_eq_iff_eq, place_eq_iff ha hb]
  · rw [sortOrder_eq (ha.comparable hb), Except.ok.injEq, compare_eq_iff_eq,
      key_injective.eq_iff]

/-- Two occurrences in binary watches that share the other literal only are equal, until ties
are broken; a clause watch of any offset comes after them. -/
theorem compare_preorder_shared :
    let a : Occurrence := ⟨⟨8, by decide⟩, .packBinary ⟨5, by decide⟩ ⟨true, true⟩ .max⟩
    let b : Occurrence := ⟨⟨7, by decide⟩, .packBinary ⟨5, by decide⟩ ⟨false, false⟩ ⟨0⟩⟩
    let c : Occurrence := ⟨⟨2, by decide⟩, .ofClause ⟨0⟩ (Abstraction.mk 0)⟩
    a.Placed ∧ b.Placed ∧ c.Placed ∧ compare a b = .ok .eq ∧ sortOrder a b = .ok .gt ∧
      sortOrder b a = .ok .lt ∧ sortOrder a c = .ok .lt ∧ sortOrder b c = .ok .lt := by
  intro a b c
  have ha : a.Placed := .inl (by decide)
  have hb : b.Placed := .inl (by decide)
  have hc : c.Placed := .inr (by decide)
  obtain ⟨_, hbefore, hequal, _, hbinary, _, hsort, hties⟩ := compare_preorder
  have hab : sortOrder a b = .ok .gt := by decide
  obtain ⟨o, ho, hswap⟩ := hsort.swap a b ha hb
  obtain rfl : o = .gt := Except.ok.inj (ho.symm.trans hab)
  have hac : sortOrder a c = .ok .lt :=
    (hties a c ha hc).1 .lt (hbefore a c (by decide) (by decide)) (by decide)
  exact ⟨ha, hb, hc, (hequal a b ha hb).mpr (hbinary _ _ _ _ _ _ _ _ _), hab, hswap, hac,
    hsort.lt_trans b a c hb ha hc hswap hac⟩

end Occurrence

end WatchLists
