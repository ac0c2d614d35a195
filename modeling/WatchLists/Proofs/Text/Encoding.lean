import WatchLists.Text.Encoding
import WatchLists.Text.Split

/-!
# Lines of bytes are lines of text

The byte of a line feed encodes a line feed and is part of no other character.
So it makes no difference whether a stored text is split before it is decoded or
after.

- `linesBy_encode`: the lines of stored bytes are the stored lines.
- `decode?_eq_some_iff`: only the bytes of a text are read as the text.
- `decode?_concat_lineFeed`: whether a line is text does not depend on its end.
-/

namespace WatchLists.Text

/-- All bytes of a character past ASCII are large. -/
theorem lineFeed_of_mem_utf8EncodeChar {c : Char} (h : 10 ∈ String.utf8EncodeChar c) :
    c = '\n' := by
  have hbyte : ∀ n : Nat, (10 : UInt8) = UInt8.ofNat n → n % 256 = 10 := by
    intro n hn
    have hnat := congrArg UInt8.toNat hn
    simpa using hnat.symm
  unfold String.utf8EncodeChar at h
  dsimp only at h
  split at h
  · have hval := hbyte _ (List.mem_singleton.mp h)
    apply Char.ext
    apply UInt32.toNat_inj.mp
    show c.val.toNat = 10
    omega
  · -- the lead byte is at least 192 and every other byte at least 128
    exfalso
    split at h
    · simp only [List.mem_cons, List.not_mem_nil, or_false] at h
      rcases h with h | h <;> have := hbyte _ h <;> omega
    · split at h
      all_goals
        simp only [List.mem_cons, List.not_mem_nil, or_false] at h
      · rcases h with h | h | h <;> have := hbyte _ h <;> omega
      · rcases h with h | h | h | h <;> have := hbyte _ h <;> omega

/-- What holds no end joins the first run. -/
theorem splitOnP_append {α : Type} {p : α → Bool} {xs : List α} (h : ∀ x ∈ xs, p x = false)
    (ys : List α) : (xs ++ ys).splitOnP p = (ys.splitOnP p).modifyHead (xs ++ ·) := by
  obtain ⟨r, rs, hys⟩ := List.exists_cons_of_ne_nil (List.splitOnP_ne_nil p ys)
  induction xs with
  | nil => rw [List.nil_append, hys]; rfl
  | cons x xs ih =>
    rw [List.cons_append, List.splitOnP_cons_eq_if_modifyHead,
      if_neg (by simp [h x List.mem_cons_self]), ih fun y hy => h y (List.mem_cons_of_mem x hy),
      hys]
    rfl

theorem splitOnP_encode (cs : List Char) :
    (encode cs).splitOnP (fun b => decide (b = 10))
      = (cs.splitOnP fun c => decide (c = '\n')).map encode := by
  induction cs with
  | nil => rfl
  | cons c cs ih =>
    obtain ⟨r, rs, hcs⟩ :=
      List.exists_cons_of_ne_nil (List.splitOnP_ne_nil (fun c => decide (c = '\n')) cs)
    have hencode : encode (c :: cs) = String.utf8EncodeChar c ++ encode cs := List.flatMap_cons
    rw [hencode, List.splitOnP_cons_eq_if_modifyHead]
    by_cases hc : c = '\n'
    · -- a run ends on both sides
      subst hc
      show (10 :: encode cs).splitOnP _ = _
      rw [List.splitOnP_cons_eq_if_modifyHead, ih]
      rfl
    · -- the first run goes on on both sides
      have hbytes : ∀ b ∈ String.utf8EncodeChar c, decide (b = 10) = false := fun b hb =>
        decide_eq_false fun h => hc (lineFeed_of_mem_utf8EncodeChar (h ▸ hb))
      rw [splitOnP_append hbytes, ih, hcs, if_neg (by simpa using hc)]
      rfl

@[simp] theorem encode_eq_nil_iff {cs : List Char} : encode cs = [] ↔ cs = [] := by
  cases cs <;> simp [encode, String.utf8EncodeChar_ne_nil]

/-- **Splitting stored text.** The lines of the bytes of a text are the bytes of
its lines. -/
theorem linesBy_encode (cs : List Char) :
    linesBy (fun b => decide (b = 10)) (encode cs) = (lines cs).map encode := by
  simp only [lines, linesBy, splitOnP_encode, List.getLast?_map]
  cases hlast : (cs.splitOnP fun c => decide (c = '\n')).getLast? with
  | none => rfl
  | some r =>
    cases r with
    | nil => exact (List.map_dropLast ..).symm
    | cons c r =>
      have hne : encode (c :: r) ≠ [] := mt encode_eq_nil_iff.mp (List.cons_ne_nil c r)
      obtain ⟨b, bs, hbs⟩ := List.exists_cons_of_ne_nil hne
      simp [hbs]

/-! ## Bytes that are text -/

/-- What is read as a text is stored as the same bytes. -/
theorem encode_of_decode? {bs : List UInt8} {cs : List Char} (h : decode? bs = some cs) :
    encode cs = bs := by
  have hvalid : bs.toByteArray.IsValidUTF8 := by
    rw [← ByteArray.isSome_utf8Decode?_iff]
    obtain ⟨chars, hchars, _⟩ := Option.map_eq_some_iff.mp h
    rw [hchars]
    rfl
  obtain ⟨ds, hds⟩ := hvalid
  have hbs : bs = encode ds := by
    have hdata := congrArg (fun b => b.data.toList) hds
    simpa [List.utf8Encode, encode] using hdata
  subst hbs
  rw [decode?_encode] at h
  rw [Option.some.inj h]

theorem decode?_eq_some_iff {bs : List UInt8} {cs : List Char} :
    decode? bs = some cs ↔ encode cs = bs :=
  ⟨encode_of_decode?, fun h => h ▸ decode?_encode cs⟩

/-- What is put together from texts is a text. -/
theorem exists_decode?_flatten {runs : List (List UInt8)}
    (h : ∀ run ∈ runs, ∃ cs, decode? run = some cs) : ∃ cs, decode? runs.flatten = some cs := by
  induction runs with
  | nil => exact ⟨[], decode?_encode []⟩
  | cons run runs ih =>
    obtain ⟨⟨cs, hcs⟩, hruns⟩ := List.forall_mem_cons.mp h
    obtain ⟨ds, hds⟩ := ih hruns
    refine ⟨cs ++ ds, decode?_eq_some_iff.mpr ?_⟩
    rw [encode_append, encode_of_decode? hcs, encode_of_decode? hds, List.flatten_cons]

/-- A line is text exactly if it is with its end. -/
theorem decode?_concat_lineFeed {bs : List UInt8} (h : ∀ b ∈ bs, decide (b = 10) = false) :
    decode? (bs ++ [10]) = (decode? bs).map (· ++ ['\n']) := by
  cases hbs : decode? bs with
  | some cs =>
    rw [← encode_of_decode? hbs]
    show decode? (encode cs ++ encode ['\n']) = _
    rw [← encode_append, decode?_encode]
    rfl
  | none =>
    cases hds : decode? (bs ++ [10]) with
    | none => rfl
    | some ds =>
      -- the text would have a line feed where the bytes have it
      exfalso
      have hsplit : (ds.splitOnP fun c => decide (c = '\n')).map encode = [bs, []] := by
        rw [← splitOnP_encode, encode_of_decode? hds]
        exact (List.splitOnP_append_cons_of_forall_mem h 10 (by decide) []).trans (by simp)
      cases hruns : ds.splitOnP fun c => decide (c = '\n') with
      | nil => rw [hruns] at hsplit; cases hsplit
      | cons cs rest =>
        rw [hruns] at hsplit
        have hcs : encode cs = bs := (List.cons.inj hsplit).1
        rw [← hcs, decode?_encode] at hbs
        cases hbs

end WatchLists.Text
