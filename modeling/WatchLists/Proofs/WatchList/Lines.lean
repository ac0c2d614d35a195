import Mathlib.Data.List.Forall2
import WatchLists.Proofs.Except
import WatchLists.WatchList.Dump

/-!
# Reading lines one after another

A text is read line by line with a number for each line. What is read of a text
follows from its first line and what is read of the rest, where the rest is
numbered from the next line on.

- `linesFrom`: reading from a given number on, which `ofLines` does from one.
- `linesFrom_cons`: the first line decides, or contributes a watch or nothing.
- `mem_of_linesFrom`: every watch that is read comes from some line.
- `linesFrom_eq_error_iff`: the first line that is refused decides the error.
-/

namespace WatchLists.WatchList

variable {α : Type} {read : α → Except Error (Option Watch)}

/-- Reads the watches of lines that are numbered from `n` on. -/
def linesFrom (read : α → Except Error (Option Watch)) (n : Nat) (ls : List α) :
    Except Error WatchList :=
  ((ls.zipIdx n).mapM fun p => (read p.1).mapError (Error.atLine p.2)).map List.reduceOption

theorem ofLines_eq_linesFrom (ls : List α) : ofLines read ls = linesFrom read 1 ls := by
  unfold ofLines linesFrom
  cases (ls.zipIdx 1).mapM fun p => (read p.1).mapError (Error.atLine p.2) <;> rfl

@[simp] theorem linesFrom_nil (n : Nat) : linesFrom read n [] = .ok [] := rfl

/-- The first line is refused at its number, or what it describes comes first. -/
theorem linesFrom_cons (n : Nat) (l : α) (ls : List α) :
    linesFrom read n (l :: ls) = (match read l with
      | .ok w? => (linesFrom read (n + 1) ls).map fun ws => w?.toList ++ ws
      | .error e => .error (e.atLine n)) := by
  unfold linesFrom
  rw [List.zipIdx_cons, List.mapM_cons]
  cases read l with
  | error e => rfl
  | ok w? =>
    show Except.map _ (Except.bind _ _) = _
    cases (ls.zipIdx (n + 1)).mapM fun p => (read p.1).mapError (Error.atLine p.2) with
    | error e => rfl
    | ok ws => cases w? <;> rfl

/-- What was found before comes before all of what is found. -/
theorem map_append_map (found more : WatchList) (x : Except Error WatchList) :
    (x.map (more ++ ·)).map (found ++ ·) = x.map (found ++ more ++ ·) := by
  cases x with
  | error e => rfl
  | ok ws => exact congrArg Except.ok (List.append_assoc found more ws).symm

/-- A line that describes nothing leaves no trace in the list. -/
theorem linesFrom_cons_none {l : α} (h : read l = .ok none) (n : Nat) (ls : List α) :
    linesFrom read n (l :: ls) = linesFrom read (n + 1) ls := by
  rw [linesFrom_cons, h]
  cases linesFrom read (n + 1) ls <;> rfl

/-- A watch that was read is the watch of some line. -/
theorem mem_of_linesFrom {n : Nat} {ls : List α} {ws : WatchList}
    (h : linesFrom read n ls = .ok ws) {w : Watch} (hw : w ∈ ws) :
    ∃ l ∈ ls, read l = .ok (some w) := by
  induction ls generalizing n ws with
  | nil =>
    cases h
    cases hw
  | cons l ls ih =>
    rw [linesFrom_cons] at h
    split at h
    · next w? hl =>
      obtain ⟨rest, hrest, rfl⟩ := exists_ok_of_map h
      rcases List.mem_append.mp hw with hw | hw
      · exact ⟨l, List.mem_cons_self, hl.trans (by rw [Option.mem_toList.mp hw])⟩
      · obtain ⟨l', hl', hread⟩ := ih hrest hw
        exact ⟨l', List.mem_cons_of_mem l hl', hread⟩
    · cases h

/-- The number of the first line matters to errors only. -/
theorem linesFrom_eq_ok_iff {m n : Nat} {ls : List α} {ws : WatchList} :
    linesFrom read m ls = .ok ws ↔ linesFrom read n ls = .ok ws := by
  induction ls generalizing m n ws with
  | nil => exact Iff.rfl
  | cons l ls ih =>
    rw [linesFrom_cons, linesFrom_cons]
    cases read l with
    | error e => constructor <;> intro h <;> cases h
    | ok w? =>
      constructor
      all_goals
        intro h
        obtain ⟨rest, hrest, rfl⟩ := exists_ok_of_map h
      · show Except.map _ (linesFrom read (n + 1) ls) = _
        rw [(ih (n := n + 1)).mp hrest]
        rfl
      · show Except.map _ (linesFrom read (m + 1) ls) = _
        rw [(ih (n := n + 1)).mpr hrest]
        rfl

/-! ## Refused lines -/

/-- Lines that are read alike, one by one, are read alike from the same number on. -/
theorem linesFrom_congr {β : Type} {read' : β → Except Error (Option Watch)} {ls : List α}
    {ls' : List β} (h : List.Forall₂ (fun l l' => read l = read' l') ls ls') (n : Nat) :
    linesFrom read n ls = linesFrom read' n ls' := by
  induction h generalizing n with
  | nil => rfl
  | cons hl _ ih => rw [linesFrom_cons, linesFrom_cons, hl, ih]

/-- Where a list is read, no line is refused. -/
theorem exists_ok_of_linesFrom {n : Nat} {ls : List α} {ws : WatchList}
    (h : linesFrom read n ls = .ok ws) : ∀ l ∈ ls, ∃ w?, read l = .ok w? := by
  induction ls generalizing n ws with
  | nil => nofun
  | cons l ls ih =>
    rw [linesFrom_cons] at h
    split at h
    · next w? hl =>
      obtain ⟨rest, hrest, _⟩ := exists_ok_of_map h
      exact List.forall_mem_cons.mpr ⟨⟨w?, hl⟩, ih hrest⟩
    · cases h

/-- An error is that of the first line that is refused, at its number. -/
theorem linesFrom_eq_error_iff {n : Nat} {ls : List α} {e : Error} :
    linesFrom read n ls = .error e ↔ ∃ pre l post e', ls = pre ++ l :: post ∧
      (∀ x ∈ pre, ∃ w?, read x = .ok w?) ∧ read l = .error e' ∧ e = e'.atLine (n + pre.length) := by
  induction ls generalizing n with
  | nil =>
    refine iff_of_false nofun ?_
    rintro ⟨pre, l, post, _, hls, _⟩
    cases pre <;> cases hls
  | cons l ls ih =>
    rw [linesFrom_cons]
    cases hl : read l with
    | error e' =>
      constructor
      · intro h
        cases h
        exact ⟨[], l, ls, e', rfl, nofun, hl, rfl⟩
      · rintro ⟨pre, k, post, e'', hls, hpre, hk, rfl⟩
        cases pre with
        | nil =>
          cases hls
          cases hl.symm.trans hk
          rfl
        | cons x pre =>
          -- the first line is none of those before the first refused one
          cases hls
          obtain ⟨w?, hx⟩ := hpre l List.mem_cons_self
          cases hl.symm.trans hx
    | ok w? =>
      have hrest : Except.map (w?.toList ++ ·) (linesFrom read (n + 1) ls) = .error e
          ↔ linesFrom read (n + 1) ls = .error e := by
        cases linesFrom read (n + 1) ls with
        | error e' => exact Iff.rfl
        | ok ws => constructor <;> nofun
      refine hrest.trans (ih.trans ⟨?_, ?_⟩)
      · rintro ⟨pre, k, post, e', rfl, hpre, hk, rfl⟩
        refine ⟨l :: pre, k, post, e', rfl, List.forall_mem_cons.mpr ⟨⟨w?, hl⟩, hpre⟩, hk, ?_⟩
        rw [List.length_cons]
        congr 1
        omega
      · rintro ⟨pre, k, post, e', hls, hpre, hk, rfl⟩
        cases pre with
        | nil =>
          cases hls
          cases hl.symm.trans hk
        | cons x pre =>
          cases hls
          refine ⟨pre, k, post, e', rfl, (List.forall_mem_cons.mp hpre).2, hk, ?_⟩
          rw [List.length_cons]
          congr 1
          omega

end WatchLists.WatchList
