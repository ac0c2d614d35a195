import Mathlib.Data.Bool.Basic
import Mathlib.Data.Prod.Lex
import Mathlib.Order.WithBot
import WatchLists.Order.BinaryFirst
import WatchLists.Proofs.Order.StableSort
import WatchLists.Proofs.Watch.Obtainable

/-!
# Binary-first order is stable sorting

Without idx watches the order of two watches is the order of their ranks. The
rank of a binary watch is its key, read lexicographically; every other watch has
the greatest rank. So the sort finds the one stably sorted list, and the rank
takes this list apart: binary watches by key, then the rest as it stood.

- `BinaryKey.lex`, `Watch.key`: the key of a watch, from its fields.
- `Watch.rank`, `binaryFirstOrder_eq`: the order as a comparison of ranks.
- `sortBinaryFirst_eq`: what the sort yields, and that nothing else would do.
-/

namespace WatchLists

/-- A key as the word of the literal, the flag and the number of the clause. -/
def BinaryKey.lex (k : BinaryKey) : ℕ ×ₗ Bool ×ₗ ℕ :=
  toLex (k.other.raw.val, toLex (k.red, k.id.val.val))

theorem BinaryKey.lex_injective : Function.Injective BinaryKey.lex := by
  rintro ⟨o, r, i⟩ ⟨o', r', i'⟩ h
  obtain ⟨ho, hrest⟩ := Prod.ext_iff.mp (toLex.injective h)
  obtain ⟨hr, hi⟩ := Prod.ext_iff.mp (toLex.injective hrest)
  obtain rfl : o = o' := Literal.ext ho
  obtain rfl : r = r' := hr
  obtain rfl : i = i' := congrArg ClauseId.mk (Fin.ext hi)
  rfl

/-- The order of keys is lexicographic. -/
theorem BinaryKey.before_eq (a b : BinaryKey) : a.before b = decide (a.lex < b.lex) := by
  have hlt : a.lex < b.lex ↔ a.other.raw.val < b.other.raw.val ∨
      a.other.raw.val = b.other.raw.val ∧ (a.red < b.red ∨
        a.red = b.red ∧ a.id.val.val < b.id.val.val) := by
    unfold lex
    rw [Prod.Lex.toLex_lt_toLex, Prod.Lex.toLex_lt_toLex]
  unfold before
  by_cases ho : a.other = b.other
  · by_cases hr : a.red = b.red
    · simp [hlt, ho, hr]
    · -- the flags differ, so the irreducible one is the smaller one
      have hflag : (!a.red) = decide (a.red < b.red) := by
        revert hr
        cases a.red <;> cases b.red <;> decide
      simp [hlt, ho, hr, hflag]
  · have hne : a.other.raw.val ≠ b.other.raw.val := fun h => ho (Literal.ext h)
    rw [if_pos ho, decide_eq_decide, hlt]
    exact ⟨.inl, fun h => h.resolve_right fun h' => hne h'.1⟩

namespace Watch

/-- The fields of a binary watch that order it. -/
def key (w : Watch) : BinaryKey := ⟨.ofRaw w.first, w.flags.red, w.idField⟩

theorem binaryKey_eq {w : Watch} (h : w.kind = .binary) : w.binaryKey = .ok w.key := by
  unfold binaryKey other isRed clauseId
  rw [require_of_kind h, require_of_kind h, require_of_kind h]
  rfl

/-- The place of a watch in the order: its key, or behind every key. -/
def rank (w : Watch) : WithTop (ℕ ×ₗ Bool ×ₗ ℕ) :=
  if w.kind = .binary then w.key.lex else ⊤

theorem rank_of_binary {w : Watch} (h : w.kind = .binary) : w.rank = w.key.lex := if_pos h

theorem rank_of_ne {w : Watch} (h : w.kind ≠ .binary) : w.rank = ⊤ := if_neg h

/-- Whether a watch must be placed before another is a matter of rank. -/
theorem before_eq {a b : Watch} (ha : a.kind ≠ .idx) (hb : b.kind ≠ .idx) :
    a.before b = .ok (decide (a.rank < b.rank)) := by
  unfold before
  cases hka : a.kind with
  | idx => exact absurd hka ha
  -- nothing ranks above a clause or bnn watch
  | clause | bnn =>
    have hfalse : ¬ a.rank < b.rank := by
      rw [rank_of_ne (by rw [hka]; nofun)]
      exact not_top_lt
    rw [decide_eq_false hfalse]
    cases hkb : b.kind <;> first | rfl | exact absurd hkb hb
  | binary =>
    rw [rank_of_binary hka]
    cases hkb : b.kind with
    | idx => exact absurd hkb hb
    | clause | bnn =>
      rw [rank_of_ne (by rw [hkb]; nofun), decide_eq_true (WithTop.coe_lt_top _)]
    | binary =>
      rw [rank_of_binary hkb, decide_eq_decide.mpr WithTop.coe_lt_coe, ← BinaryKey.before_eq]
      show (do return (← a.binaryKey).before (← b.binaryKey)) = _
      rw [binaryKey_eq hka, binaryKey_eq hkb]
      rfl

theorem binaryFirstOrder_eq {a b : Watch} (ha : a.kind ≠ .idx) (hb : b.kind ≠ .idx) :
    binaryFirstOrder a b = .ok (compare a.rank b.rank) := by
  unfold binaryFirstOrder
  rw [before_eq ha hb, before_eq hb ha]
  rcases lt_trichotomy a.rank b.rank with h | h | h
  · rw [compare_lt_iff_lt.mpr h, decide_eq_true h]
    rfl
  · rw [compare_eq_iff_eq.mpr h, decide_eq_false (h ▸ lt_irrefl _),
      decide_eq_false (h ▸ lt_irrefl _)]
    rfl
  · rw [compare_gt_iff_gt.mpr h, decide_eq_false (lt_asymm h), decide_eq_true h]
    rfl

theorem key_packBinary (l : Literal) (f : BinaryFlags) (i : ClauseId) :
    (packBinary l f i).key = ⟨l, f.red, i⟩ := by
  unfold key
  rw [flags_packBinary, idField_packBinary]
  exact congrArg (BinaryKey.mk · f.red i) (Literal.ofRaw_raw l)

theorem isMarked_packBinary (l : Literal) (f : BinaryFlags) (i : ClauseId) :
    (packBinary l f i).isMarked = .ok f.marked := by
  rw [isMarked, flags_packBinary]
  exact require_of_kind (kind_pack ..) f.marked

/-- Watches with the same key differ in nothing but the mark. -/
theorem mark_eq_of_key_eq {a b : Watch} (ha : a.Obtainable) (hb : b.Obtainable)
    (hka : a.kind = .binary) (hkb : b.kind = .binary) (h : a.key = b.key) :
    a.mark = b.mark := by
  obtain ⟨l, ⟨r, m⟩, i, rfl⟩ := ha.exists_packBinary hka
  obtain ⟨l', ⟨r', m'⟩, i', rfl⟩ := hb.exists_packBinary hkb
  rw [key_packBinary, key_packBinary] at h
  cases h
  -- marked, both are the same packed view
  exact (apply_toWatch .mark (.binary l r m i)).trans
    (apply_toWatch .mark (.binary l r m' i)).symm

/-- Watches with the same key and mark are the same. -/
theorem eq_of_key_eq {a b : Watch} (ha : a.Obtainable) (hb : b.Obtainable)
    (hka : a.kind = .binary) (hkb : b.kind = .binary) (hkey : a.key = b.key)
    (hmark : a.isMarked = b.isMarked) : a = b := by
  obtain ⟨l, ⟨r, m⟩, i, rfl⟩ := ha.exists_packBinary hka
  obtain ⟨l', ⟨r', m'⟩, i', rfl⟩ := hb.exists_packBinary hkb
  rw [key_packBinary, key_packBinary] at hkey
  rw [isMarked_packBinary, isMarked_packBinary] at hmark
  cases hkey
  cases hmark
  rfl

end Watch

namespace WatchList

variable {ws : WatchList}

/-- The binary watches of a list, as they stand. -/
def binaries (ws : WatchList) : WatchList := ws.filter fun w => w.isKind .binary

/-- The clause and bnn watches of a list, as they stand. -/
def clausesAndBnns (ws : WatchList) : WatchList :=
  ws.filter fun w => w.isKind .clause || w.isKind .bnn

theorem kind_of_mem_binaries {w : Watch} (h : w ∈ ws.binaries) : w.kind = .binary :=
  of_decide_eq_true (List.mem_filter.mp h).2

theorem sortBinaryFirst_stablySorted (hws : ∀ w ∈ ws, w.kind ≠ .idx) :
    ∃ ys, ws.sortBinaryFirst = .ok ys ∧ StablySorted Watch.rank ws ys :=
  sortBy_stablySorted fun a ha b hb => Watch.binaryFirstOrder_eq (hws a ha) (hws b hb)

theorem filter_isKind_ne_binary (hws : ∀ w ∈ ws, w.kind ≠ .idx) :
    (ws.filter fun w => !w.isKind .binary) = ws.clausesAndBnns := by
  refine List.filter_congr fun w hw => ?_
  have hne := hws w hw
  unfold Watch.isKind
  cases hk : w.kind <;> simp_all

/-- A list in stable order is its binary watches by key, then its other watches as
they stood. -/
theorem eq_append_of_stablySorted {ys : WatchList} (h : StablySorted Watch.rank ws ys) :
    ys = ys.binaries ++ ws.filter fun w => !w.isKind .binary := by
  have hother : ∀ w : Watch, (!w.isKind .binary) = true → w.rank = ⊤ := by
    intro w hw
    exact Watch.rank_of_ne (by simpa [Watch.isKind] using hw)
  -- the other watches all rank alike, so they are in order as they stand
  have hrest : (ys.filter fun w => !w.isKind .binary) = ws.filter fun w => !w.isKind .binary := by
    refine (h.filter _).unique (.refl (List.pairwise_of_forall_mem_list fun a ha b hb => ?_))
    rw [hother a (List.mem_filter.mp ha).2, hother b (List.mem_filter.mp hb).2]
  rw [← hrest]
  refine eq_append_filter_of_ascending h.ascending fun a b ha hb => ?_
  rw [hother a (by rw [ha]; rfl), Watch.rank_of_binary (of_decide_eq_true hb)]
  exact WithTop.coe_lt_top _

/-- **The canonical order.** A list without idx watches is sorted into its binary
watches, stably sorted by key, and then its clause and bnn watches as they stood.
Nothing else is in this order; nothing is lost or added; and sorting the result
changes nothing. Watches of one key, whose order is kept, differ in the mark. -/
theorem sortBinaryFirst_eq (hws : ∀ w ∈ ws, w.kind ≠ .idx) :
    ∃ bs, ws.sortBinaryFirst = .ok (bs ++ ws.clausesAndBnns) ∧
      StablySorted (fun w => w.key.lex) ws.binaries bs ∧
      (∀ bs', StablySorted (fun w => w.key.lex) ws.binaries bs' → bs' = bs) ∧
      (bs ++ ws.clausesAndBnns).Perm ws ∧
      sortBinaryFirst (bs ++ ws.clausesAndBnns) = .ok (bs ++ ws.clausesAndBnns) ∧
      ∀ a ∈ bs, ∀ b ∈ bs, a.Obtainable → b.Obtainable → a.key.lex = b.key.lex →
        a.mark = b.mark := by
  obtain ⟨ys, hys, hsorted⟩ := sortBinaryFirst_stablySorted hws
  have hsplit := eq_append_of_stablySorted hsorted
  rw [filter_isKind_ne_binary hws] at hsplit
  have hbs : StablySorted (fun w => w.key.lex) ws.binaries ys.binaries :=
    (hsorted.filter _).of_coe fun w hw => Watch.rank_of_binary (kind_of_mem_binaries hw)
  refine ⟨ys.binaries, ?_, hbs, fun bs' h => h.unique hbs, ?_, ?_, ?_⟩
  · rw [← hsplit]
    exact hys
  · rw [← hsplit]
    exact sortBy_perm hys
  · rw [← hsplit]
    -- the result has no idx watch either, and is its own sorted form
    obtain ⟨zs, hzs, hagain⟩ := sortBinaryFirst_stablySorted fun w hw =>
      hws w (hsorted.mem_iff.mp hw)
    rw [hzs, hagain.unique (.refl hsorted.ascending)]
  · intro a ha b hb hoa hob hkey
    exact Watch.mark_eq_of_key_eq hoa hob (kind_of_mem_binaries ha) (kind_of_mem_binaries hb)
      (BinaryKey.lex_injective hkey)

/-- A marked watch stays before the unmarked one of the same key, and both go before
the watch of a larger literal. -/
theorem sortBinaryFirst_mixed :
    (∀ w ∈ [Watch.ofBinary ⟨9, by decide⟩ true ⟨3⟩, .placeholder,
        .packBinary ⟨5, by decide⟩ ⟨false, true⟩ ⟨4⟩, .ofBinary ⟨5, by decide⟩ false ⟨4⟩],
      w.kind ≠ .idx) ∧
    ∃ bs, bs = [.packBinary ⟨5, by decide⟩ ⟨false, true⟩ ⟨4⟩, .ofBinary ⟨5, by decide⟩ false ⟨4⟩,
        .ofBinary ⟨9, by decide⟩ true ⟨3⟩] ∧
      sortBinaryFirst [.ofBinary ⟨9, by decide⟩ true ⟨3⟩, .placeholder,
        .packBinary ⟨5, by decide⟩ ⟨false, true⟩ ⟨4⟩, .ofBinary ⟨5, by decide⟩ false ⟨4⟩]
        = .ok (bs ++ [.placeholder]) ∧
      StablySorted (fun w : Watch => w.key.lex)
        [.ofBinary ⟨9, by decide⟩ true ⟨3⟩, .packBinary ⟨5, by decide⟩ ⟨false, true⟩ ⟨4⟩,
          .ofBinary ⟨5, by decide⟩ false ⟨4⟩] bs := by
  have hws : ∀ w ∈ [Watch.ofBinary ⟨9, by decide⟩ true ⟨3⟩, .placeholder,
      .packBinary ⟨5, by decide⟩ ⟨false, true⟩ ⟨4⟩, .ofBinary ⟨5, by decide⟩ false ⟨4⟩],
      w.kind ≠ .idx := by decide
  obtain ⟨bs, hsort, hstable, _⟩ := sortBinaryFirst_eq hws
  refine ⟨hws, bs, ?_, hsort, hstable⟩
  exact (List.append_left_inj [Watch.placeholder]).mp (Except.ok.inj (hsort.symm.trans (by decide)))

end WatchList

end WatchLists
