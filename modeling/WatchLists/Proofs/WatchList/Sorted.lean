import Mathlib.Data.List.TFAE
import WatchLists.Proofs.Order.Refusal
import WatchLists.Proofs.WatchList.OrderKept

/-!
# Sorted lists

A list without idx watches is in order or not, and there are several ways to find out:
the check of neighbours, a look at all pairs, the sort, which leaves it alone, and the
form that such a list has. To sweep a list and to sort it are independent of each other.
What the sort makes of a list depends on how the list was arranged in two respects only:
clause and bnn watches keep their order, and so do twins, binary watches that differ in
nothing but the mark.

- `InOrder.sortBinaryFirst`, `isBinaryFirst_of_sort`: a sorted list is in order, and a
  list in order is sorted.
- `IsBinaryRun`, `binaryFirst_tfae`: the ways to say that a list is in order.
- `eq_filter_iff`, `sortBinaryFirst_filter`, `sweep_sort_comm`: sweeping and sorting.
- `HasNoTwins`, `sort_of_perm`: what is left of the arrangement of a list.
-/

namespace WatchLists

/-- What a filter keeps: a part of the list, in its order, and all of what satisfies the
predicate and nothing else. -/
theorem eq_filter_iff {α : Type} [DecidableEq α] {p : α → Bool} {xs kept : List α} :
    kept = xs.filter p ↔
      kept.Sublist xs ∧ ∀ a, kept.count a = if p a = true then xs.count a else 0 := by
  have hcount : ∀ a, (xs.filter p).count a = if p a = true then xs.count a else 0 := by
    intro a
    split
    · next h => exact List.count_filter h
    · next h => exact List.count_eq_zero.mpr fun ha => h (List.mem_filter.mp ha).2
  constructor
  · rintro rfl
    exact ⟨List.filter_sublist, hcount⟩
  · rintro ⟨hsub, hkept⟩
    have hperm : kept.Perm (xs.filter p) :=
      List.perm_iff_count.mpr fun a => (hkept a).trans (hcount a).symm
    -- all that was kept satisfies the predicate, so it is a part of what the filter keeps
    have hall : kept.filter p = kept :=
      List.filter_eq_self.mpr fun a ha => (List.mem_filter.mp (hperm.mem_iff.mp ha)).2
    exact (hall ▸ hsub.filter p).eq_of_length hperm.length_eq

namespace WatchList

variable {ws ws' ys : WatchList}

/-! ## Lists in order -/

/-- A list in order is sorted already. -/
theorem InOrder.sortBinaryFirst (h : ws.InOrder) : ws.sortBinaryFirst = .ok ws := by
  obtain ⟨zs, hsort, hsorted⟩ := sortBinaryFirst_stablySorted h.noIdx
  rw [hsort, hsorted.unique (StablySorted.refl h.ascending)]

/-- Whatever is sorted passes the check, also a list of one idx watch. -/
theorem isBinaryFirst_of_sort (h : ws.sortBinaryFirst = .ok ys) :
    ys.isBinaryFirst = .ok true := by
  by_cases hlen : 2 ≤ ws.length
  · obtain ⟨zs, hsort, hinorder⟩ := InOrder.sorted (ne_idx_of_sort h hlen)
    obtain rfl : ys = zs := Except.ok.inj (h.symm.trans hsort)
    exact hinorder.isBinaryFirst
  · obtain rfl : ws = ys :=
      Except.ok.inj ((sortBinaryFirst_of_length_lt (lt_of_not_ge hlen)).symm.trans h)
    exact check_eq_true_iff.mpr fun i hi => by omega

/-- All pairs of an ascending list are in order, not only neighbours. -/
theorem pairwise_before_iff (hidx : ∀ w ∈ ws, w.kind ≠ .idx) :
    (ws.Pairwise fun a b => b.before a = .ok false) ↔ ws.IsAscending := by
  refine List.Pairwise.iff_of_mem fun {a b} ha hb => ?_
  rw [Watch.before_eq (hidx b hb) (hidx a ha), Except.ok.injEq, decide_eq_false_iff_not, not_lt]

/-- The sort changes nothing about an ascending list, and about no other. -/
theorem sortBinaryFirst_eq_self_iff (hidx : ∀ w ∈ ws, w.kind ≠ .idx) :
    ws.sortBinaryFirst = .ok ws ↔ ws.IsAscending := by
  constructor
  · intro h
    exact (isBinaryFirst_eq_true_iff hidx).mp (isBinaryFirst_of_sort h)
  · intro h
    exact InOrder.sortBinaryFirst ⟨hidx, h⟩

/-- Binary watches, ascending by literal, redundancy and identifier, and behind them
nothing but clause and bnn watches. -/
def IsBinaryRun (ws : WatchList) : Prop :=
  ∃ bs cs, ws = bs ++ cs ∧ (∀ b ∈ bs, b.kind = .binary) ∧
    (bs.Pairwise fun a b => a.key.lex ≤ b.key.lex) ∧ ∀ c ∈ cs, c.kind = .clause ∨ c.kind = .bnn

theorem isAscending_of_isBinaryRun (h : ws.IsBinaryRun) : ws.IsAscending := by
  obtain ⟨bs, cs, rfl, hbs, hkeys, hcs⟩ := h
  have htop : ∀ c ∈ cs, c.rank = ⊤ := by
    intro c hc
    refine Watch.rank_of_ne ?_
    rcases hcs c hc with hk | hk <;> rw [hk] <;> nofun
  refine List.pairwise_append.mpr ⟨hkeys.imp_of_mem ?_, ?_, ?_⟩
  · intro a b ha hb hle
    rw [Watch.rank_of_binary (hbs a ha), Watch.rank_of_binary (hbs b hb)]
    exact WithTop.coe_le_coe.mpr hle
  · refine List.pairwise_of_forall_mem_list fun c hc d hd => ?_
    rw [htop c hc, htop d hd]
  · intro b _ c hc
    rw [htop c hc]
    exact le_top

theorem isBinaryRun_iff (hidx : ∀ w ∈ ws, w.kind ≠ .idx) : ws.IsBinaryRun ↔ ws.IsAscending := by
  refine ⟨isAscending_of_isBinaryRun, fun h => ?_⟩
  have hsplit := eq_append_of_stablySorted (StablySorted.refl h)
  rw [filter_isKind_ne_binary hidx] at hsplit
  refine ⟨ws.binaries, ws.clausesAndBnns, hsplit, fun b => kind_of_mem_binaries, ?_, ?_⟩
  · refine (List.Pairwise.filter _ h).imp_of_mem fun {a b} ha hb hle => ?_
    rw [Watch.rank_of_binary (kind_of_mem_binaries ha),
      Watch.rank_of_binary (kind_of_mem_binaries hb)] at hle
    exact WithTop.coe_le_coe.mp hle
  · intro c hc
    simpa [Watch.isKind] using (List.mem_filter.mp hc).2

/-- **Being in order.** For a list without idx watches it is the same that the check of
neighbours says yes, that of any two watches the later one need not be placed before the
earlier one, that the sort leaves the list as it is, and that it is a run of binary
watches with clause and bnn watches behind. Check and sort come to an answer then; and
whatever the sort yields, of any list, passes the check. -/
theorem binaryFirst_tfae :
    (∀ ws : WatchList, (∀ w ∈ ws, w.kind ≠ .idx) →
      List.TFAE [ws.isBinaryFirst = .ok true, ws.Pairwise fun a b => b.before a = .ok false,
        ws.sortBinaryFirst = .ok ws, ws.IsBinaryRun] ∧
      (∃ b, ws.isBinaryFirst = .ok b) ∧ ∃ ys, ws.sortBinaryFirst = .ok ys) ∧
    ∀ ws ys : WatchList, ws.sortBinaryFirst = .ok ys → ys.isBinaryFirst = .ok true := by
  refine ⟨fun ws hidx => ⟨?_, ?_, ?_⟩, fun ws ys => isBinaryFirst_of_sort⟩
  · refine List.tfae_of_forall ws.IsAscending _ fun p hp => ?_
    simp only [List.mem_cons, List.not_mem_nil, or_false] at hp
    rcases hp with rfl | rfl | rfl | rfl
    · exact isBinaryFirst_eq_true_iff hidx
    · exact pairwise_before_iff hidx
    · exact sortBinaryFirst_eq_self_iff hidx
    · exact isBinaryRun_iff hidx
  · obtain ⟨b, hb, _⟩ := exists_isBinaryFirst hidx
    exact ⟨b, hb⟩
  · obtain ⟨ys, hys, _⟩ := InOrder.sorted hidx
    exact ⟨ys, hys⟩

/-- Twins are in order either way round, and so are clause and bnn watches. -/
theorem binaryFirst_tfae_twins :
    let ws : WatchList := [.packBinary ⟨5, by decide⟩ ⟨false, true⟩ ⟨4⟩,
      .ofBinary ⟨5, by decide⟩ false ⟨4⟩, .ofBnn 3 .out, .placeholder, .ofBnn 2 .pos]
    (∀ w ∈ ws, w.kind ≠ .idx) ∧ ws.isBinaryFirst = .ok true ∧
      (ws.Pairwise fun a b => b.before a = .ok false) ∧ ws.sortBinaryFirst = .ok ws ∧
      ws.IsBinaryRun := by
  intro ws
  have hidx : ∀ w ∈ ws, w.kind ≠ .idx := by decide
  obtain ⟨htfae, _⟩ := binaryFirst_tfae.1 ws hidx
  have hcheck : ws.isBinaryFirst = .ok true := by decide
  exact ⟨hidx, hcheck, (htfae.out 0 1).mp hcheck, (htfae.out 0 2).mp hcheck,
    (htfae.out 0 3).mp hcheck⟩

/-! ## Sweeping -/

/-- Watches can be removed before the sort or after it. -/
theorem sortBinaryFirst_filter (hidx : ∀ w ∈ ws, w.kind ≠ .idx)
    (hsort : ws.sortBinaryFirst = .ok ys) (p : Watch → Bool) :
    sortBinaryFirst (ws.filter p) = .ok (ys.filter p) := by
  obtain ⟨zs, hzs, hsorted⟩ := sortBinaryFirst_stablySorted hidx
  obtain rfl : ys = zs := Except.ok.inj (hsort.symm.trans hzs)
  have hidx' : ∀ w ∈ ws.filter p, w.kind ≠ .idx := fun w hw => hidx w (List.mem_filter.mp hw).1
  obtain ⟨vs, hvs, hsorted'⟩ := sortBinaryFirst_stablySorted hidx'
  rw [hvs, hsorted'.unique (hsorted.filter p)]

/-- A sweep says how many marked watches there were, also of a rearranged list. -/
theorem sweep_snd_eq (ws : WatchList) :
    ws.sweep.2 = ws.countP fun w => decide (w.isMarked = .ok true) :=
  Operation.length_sub_withoutMarked ws

/-- The watches that a sweep leaves it leaves again. -/
theorem withoutMarked_withoutMarked (ws : WatchList) :
    ws.withoutMarked.withoutMarked = ws.withoutMarked := by
  unfold withoutMarked
  rw [List.filter_filter]
  exact List.filter_congr fun _ _ => Bool.and_self _

theorem sweep_sweep (ws : WatchList) : ws.sweep.1.sweep = (ws.sweep.1, 0) := by
  have hsweep : ws.withoutMarked.sweep = (ws.withoutMarked, 0) := by
    rw [sweep, withoutMarked_withoutMarked, Nat.sub_self]
  exact hsweep

theorem sweep_fst_iff {kept : WatchList} :
    kept = ws.sweep.1 ↔ kept.Sublist ws ∧
      ∀ w, kept.count w = if w.isMarked = .ok true then 0 else ws.count w := by
  show kept = ws.withoutMarked ↔ _
  rw [Operation.withoutMarked_eq, eq_filter_iff]
  refine and_congr_right fun _ => forall_congr' fun w => ?_
  by_cases hw : w.isMarked = .ok true <;> simp [hw]

/-- **Sweeping and sorting** can change places. Of a list without idx watches the sweep
of the sorted list is the sorted sweep, and as many watches go. On any list a sweep
leaves the part of it, in its order, that has every watch as often as before which is
not a marked binary one, and has none of these; it says how many went; and nothing goes
the next time. -/
theorem sweep_sort_comm (ws : WatchList) :
    ((∀ w ∈ ws, w.kind ≠ .idx) →
      ∃ ys, ws.sortBinaryFirst = .ok ys ∧ ws.sweep.1.sortBinaryFirst = .ok ys.sweep.1 ∧
        ys.sweep.2 = ws.sweep.2) ∧
    (∀ kept : WatchList, kept = ws.sweep.1 ↔ kept.Sublist ws ∧
      ∀ w, kept.count w = if w.isMarked = .ok true then 0 else ws.count w) ∧
    (ws.sweep.2 = ws.countP fun w => decide (w.isMarked = .ok true)) ∧
    ws.sweep.1.sweep = (ws.sweep.1, 0) := by
  refine ⟨fun hidx => ?_, fun kept => sweep_fst_iff, sweep_snd_eq ws, sweep_sweep ws⟩
  obtain ⟨ys, hsort, _⟩ := InOrder.sorted hidx
  refine ⟨ys, hsort, sortBinaryFirst_filter hidx hsort _, ?_⟩
  rw [sweep_snd_eq, sweep_snd_eq, (sortBy_perm hsort).countP_eq]

/-- Of twins the marked one goes, before the sort or after it. -/
theorem sweep_sort_comm_twins :
    let plain : Watch := .ofBinary ⟨5, by decide⟩ false ⟨4⟩
    let marked : Watch := .packBinary ⟨5, by decide⟩ ⟨false, true⟩ ⟨4⟩
    let ws : WatchList := [.placeholder, marked, .ofBinary ⟨9, by decide⟩ true ⟨3⟩, plain, marked]
    (∀ w ∈ ws, w.kind ≠ .idx) ∧
      ∃ ys, ws.sortBinaryFirst = .ok ys ∧ ws.sweep.1.sortBinaryFirst = .ok ys.sweep.1 ∧
        ys.sweep = ([plain, .ofBinary ⟨9, by decide⟩ true ⟨3⟩, .placeholder], 2) := by
  intro plain marked ws
  have hidx : ∀ w ∈ ws, w.kind ≠ .idx := by decide
  obtain ⟨ys, hsort, hsweep, hcount⟩ := (sweep_sort_comm ws).1 hidx
  refine ⟨hidx, ys, hsort, hsweep, Prod.ext ?_ (hcount.trans (by decide))⟩
  exact Except.ok.inj (hsweep.symm.trans (by decide))

/-! ## Rearranged lists -/

/-- A sorted list is its binary watches, stably sorted by key, and then the clause and
bnn watches as they stood. -/
theorem exists_sort_append (hidx : ∀ w ∈ ws, w.kind ≠ .idx) :
    ∃ bs, ws.sortBinaryFirst = .ok (bs ++ ws.clausesAndBnns) ∧
      StablySorted (fun w => w.key.lex) ws.binaries bs := by
  obtain ⟨ys, hsort, hsorted⟩ := sortBinaryFirst_stablySorted hidx
  have hsplit := eq_append_of_stablySorted hsorted
  rw [filter_isKind_ne_binary hidx] at hsplit
  refine ⟨ys.binaries, hsplit ▸ hsort, ?_⟩
  exact (hsorted.filter _).of_coe fun w hw => Watch.rank_of_binary (kind_of_mem_binaries hw)

/-- No two binary watches of the list have the same key and differ in the mark. -/
def HasNoTwins (ws : WatchList) : Prop :=
  ∀ a ∈ ws, ∀ b ∈ ws, a.kind = .binary → b.kind = .binary → a.key = b.key →
    a.isMarked = b.isMarked

instance (ws : WatchList) : Decidable ws.HasNoTwins :=
  inferInstanceAs (Decidable (∀ a ∈ ws, ∀ b ∈ ws, a.kind = .binary → b.kind = .binary →
    a.key = b.key → a.isMarked = b.isMarked))

theorem HasNoTwins.eq_of_key_eq (h : ws.HasNoTwins) (hobt : ∀ w ∈ ws, w.Obtainable)
    {a b : Watch} (ha : a ∈ ws.binaries) (hb : b ∈ ws.binaries) (hkey : a.key = b.key) :
    a = b := by
  have haws : a ∈ ws := (List.mem_filter.mp ha).1
  have hbws : b ∈ ws := (List.mem_filter.mp hb).1
  have hka := kind_of_mem_binaries ha
  have hkb := kind_of_mem_binaries hb
  exact Watch.eq_of_key_eq (hobt a haws) (hobt b hbws) hka hkb hkey
    (h a haws b hbws hka hkb hkey)

/-- **Rearranged lists.** Two arrangements of a list without idx watches are sorted into
binary watches, as many in the one as in the other and with the same keys at the same
places, and behind them the clause and bnn watches as they stood. If its watches can be
obtained and it has no twins, the binary watches are the same; and the sorted lists are
then the same exactly if the clause and bnn watches stood in the same order. -/
theorem sort_of_perm (hidx : ∀ w ∈ ws, w.kind ≠ .idx) (hperm : ws.Perm ws') :
    ∃ bs bs', ws.sortBinaryFirst = .ok (bs ++ ws.clausesAndBnns) ∧
      ws'.sortBinaryFirst = .ok (bs' ++ ws'.clausesAndBnns) ∧
      (∀ b ∈ bs ++ bs', b.kind = .binary) ∧
      bs.length = bs'.length ∧ bs.map Watch.key = bs'.map Watch.key ∧
      ((∀ w ∈ ws, w.Obtainable) → ws.HasNoTwins →
        bs = bs' ∧
        (ws.sortBinaryFirst = ws'.sortBinaryFirst ↔ ws.clausesAndBnns = ws'.clausesAndBnns)) := by
  obtain ⟨bs, hsort, hsorted⟩ := exists_sort_append hidx
  obtain ⟨bs', hsort', hsorted'⟩ :=
    exists_sort_append fun w hw => hidx w (hperm.mem_iff.mpr hw)
  have hbinaries : ws.binaries.Perm ws'.binaries := hperm.filter _
  refine ⟨bs, bs', hsort, hsort', ?_, ?_, ?_, fun hobt htwins => ?_⟩
  · intro b hb
    rcases List.mem_append.mp hb with hb | hb
    · exact kind_of_mem_binaries (hsorted.mem_iff.mp hb)
    · exact kind_of_mem_binaries (hsorted'.mem_iff.mp hb)
  · exact (hsorted.perm_of_perm hsorted' hbinaries).length_eq
  · have hlex := hsorted.map_rank_eq hsorted' hbinaries
    refine BinaryKey.lex_injective.list_map ?_
    rwa [List.map_map, List.map_map]
  · obtain rfl : bs = bs' := hsorted.eq_of_perm hsorted' hbinaries fun a ha b hb hlex =>
      htwins.eq_of_key_eq hobt ha hb (BinaryKey.lex_injective hlex)
    refine ⟨rfl, ?_⟩
    rw [hsort, hsort', Except.ok.injEq, List.append_right_inj]

/-- Two equal marked watches are no twins, so it does not matter where they stood. -/
theorem sort_of_perm_marked :
    let marked : Watch := .packBinary ⟨5, by decide⟩ ⟨false, true⟩ ⟨4⟩
    let red : Watch := .ofBinary ⟨5, by decide⟩ true ⟨4⟩
    let ws : WatchList := [.placeholder, marked, red, .ofBnn 3 .out, marked]
    let ws' : WatchList := [red, .placeholder, marked, marked, .ofBnn 3 .out]
    (∀ w ∈ ws, w.kind ≠ .idx) ∧ ws.Perm ws' ∧ (∀ w ∈ ws, w.Obtainable) ∧ ws.HasNoTwins ∧
      ws.sortBinaryFirst = .ok [marked, marked, red, .placeholder, .ofBnn 3 .out] ∧
      ws'.sortBinaryFirst = .ok [marked, marked, red, .placeholder, .ofBnn 3 .out] := by
  intro marked red ws ws'
  have hidx : ∀ w ∈ ws, w.kind ≠ .idx := by decide
  have hperm : ws.Perm ws' := by decide
  have hobt : ∀ w ∈ ws, w.Obtainable := by
    have hmarked : marked.Obtainable :=
      .toWatch (.binary ⟨5, by decide⟩ false true ⟨4⟩ : View Abstraction)
    intro w hw
    simp only [ws, List.mem_cons, List.not_mem_nil, or_false] at hw
    rcases hw with rfl | rfl | rfl | rfl | rfl
    · exact .placeholder
    · exact hmarked
    · exact .ofBinary ..
    · exact .ofBnn ..
    · exact hmarked
  have htwins : ws.HasNoTwins := by decide
  obtain ⟨bs, bs', hsort, hsort', _, _, _, hsame⟩ := sort_of_perm hidx hperm
  obtain ⟨_, hiff⟩ := hsame hobt htwins
  have hvalue : ws.sortBinaryFirst = .ok [marked, marked, red, .placeholder, .ofBnn 3 .out] := by
    decide
  exact ⟨hidx, hperm, hobt, htwins, hvalue, (hiff.mpr (by decide)).symm.trans hvalue⟩

/-- Twins stay as they stood. -/
example : sortBinaryFirst [.ofBinary ⟨5, by decide⟩ false ⟨4⟩,
      .packBinary ⟨5, by decide⟩ ⟨false, true⟩ ⟨4⟩]
    ≠ sortBinaryFirst [.packBinary ⟨5, by decide⟩ ⟨false, true⟩ ⟨4⟩,
      .ofBinary ⟨5, by decide⟩ false ⟨4⟩] := by
  decide

end WatchList

end WatchLists
