import Mathlib.Data.List.Basic
import WatchLists.Inspector.Options
import WatchLists.Proofs.LastGiven

/-!
# What an argument list means

An option that takes the argument after it takes it whatever it looks like, so what an
argument is depends on all that stand before it. Still there is one way only to read a list:
as the arguments of some items, of which one at most is a target, and behind them nothing,
or an argument that fails. That argument decides why the list is refused, and the items
before it take effect.

Of the items, only the last result file and the last log file matter and which others there
are; they can stand in any order.

- `Item.SpelledBy`, `AllSpelledBy`: the arguments that stand for an item, and for items.
- `Fails`: an argument that cannot be used.
- `Reads`, `reads_iff`: the one way to read a list.
- `Options.updated`, `foldl_apply`: what items make of earlier options.
- `Outcome`, `read_meaning`: what is read, and when it is accepted.
-/

namespace WatchLists.Inspector

/-! ## Names -/

/-- The names of a switch. -/
def Switch.names : Switch → List String
  | .quiet => ["-q", "--quiet"]
  | .sort => ["-s", "--sort"]
  | .sweep => ["-w", "--sweep"]
  | .check => ["-c", "--check"]
  | .help => ["-h", "--help"]
  | .version => ["-V", "--version"]

theorem Switch.ofArg?_eq_some_iff {arg : String} {s : Switch} :
    ofArg? arg = some s ↔ arg ∈ s.names := by
  constructor
  · intro h
    unfold ofArg? at h
    split_ifs at h with hname hname hname hname hname hname <;> cases h <;>
      simpa [names] using hname
  · intro h
    cases s with
    | quiet | sort | sweep | check | help | version =>
      rcases List.mem_pair.mp h with rfl | rfl <;> decide

theorem Switch.ofArg?_eq_none_iff {arg : String} :
    ofArg? arg = none ↔ ∀ s : Switch, arg ∉ s.names := by
  rw [Option.eq_none_iff_forall_ne_some]
  exact forall_congr' fun s => not_congr ofArg?_eq_some_iff

namespace Item

/-- The names of the option for the result. -/
def outputNames : List String := ["-o", "--output"]

/-- The names of the option for progress messages. -/
def logNames : List String := ["-l", "--log"]

theorem taking?_eq_some_iff {arg : String} {item : String → Item} :
    taking? arg = some item ↔
      arg ∈ outputNames ∧ item = output ∨ arg ∈ logNames ∧ item = log := by
  constructor
  · intro h
    unfold taking? at h
    split_ifs at h with hname hname <;> cases h
    · exact .inl ⟨by simpa [outputNames] using hname, rfl⟩
    · exact .inr ⟨by simpa [logNames] using hname, rfl⟩
  · rintro (⟨h, rfl⟩ | ⟨h, rfl⟩)
    · rcases List.mem_pair.mp h with rfl | rfl <;> rfl
    · rcases List.mem_pair.mp h with rfl | rfl <;> rfl

/-- An argument that takes the next one is a name of one of the two options. -/
theorem taking?_eq_none_iff {arg : String} :
    taking? arg = none ↔ arg ∉ outputNames ++ logNames := by
  rw [List.mem_append, Option.eq_none_iff_forall_ne_some]
  constructor
  · rintro h (hname | hname)
    · exact h output (taking?_eq_some_iff.mpr (.inl ⟨hname, rfl⟩))
    · exact h log (taking?_eq_some_iff.mpr (.inr ⟨hname, rfl⟩))
  · intro h item hitem
    rcases taking?_eq_some_iff.mp hitem with ⟨hname, _⟩ | ⟨hname, _⟩
    · exact h (.inl hname)
    · exact h (.inr hname)

end Item

/-- Whether an argument looks like an option. -/
def IsDashed (arg : String) : Prop := arg.toList.head? = some '-'

instance (arg : String) : Decidable (IsDashed arg) :=
  inferInstanceAs (Decidable (arg.toList.head? = some '-'))

theorem Switch.isDashed_of_mem_names {arg : String} {s : Switch} (h : arg ∈ s.names) :
    IsDashed arg := by
  cases s with
  | quiet | sort | sweep | check | help | version =>
    rcases List.mem_pair.mp h with rfl | rfl <;> decide

namespace Item

theorem isDashed_of_mem_optionNames {arg : String} (h : arg ∈ outputNames ++ logNames) :
    IsDashed arg := by
  rcases List.mem_append.mp h with h | h <;> rcases List.mem_pair.mp h with rfl | rfl <;> decide

/-- No name of an option for a file is one of a switch. -/
theorem ofArg?_of_mem_optionNames {arg : String} (h : arg ∈ outputNames ++ logNames) :
    Switch.ofArg? arg = none := by
  rcases List.mem_append.mp h with h | h <;> rcases List.mem_pair.mp h with rfl | rfl <;> decide

/-- What does not look like an option is neither a switch nor takes the next argument. -/
theorem ofArg?_of_not_isDashed {arg : String} (h : ¬ IsDashed arg) : Switch.ofArg? arg = none :=
  Switch.ofArg?_eq_none_iff.mpr fun _ hs => h (Switch.isDashed_of_mem_names hs)

theorem taking?_of_not_isDashed {arg : String} (h : ¬ IsDashed arg) : taking? arg = none :=
  taking?_eq_none_iff.mpr fun hs => h (isDashed_of_mem_optionNames hs)

/-! ## One step of the reader -/

variable {seen : Bool} {arg : String}

theorem ofArgs_switch {s : Switch} (hs : Switch.ofArg? arg = some s) (rest : List String) :
    ofArgs seen (arg :: rest) = (turnOn s :: (ofArgs seen rest).1, (ofArgs seen rest).2) := by
  rw [ofArgs.eq_def]
  simp only [hs]

theorem ofArgs_taking {item : String → Item} (hs : Switch.ofArg? arg = none)
    (htaking : taking? arg = some item) (value : String) (rest : List String) :
    ofArgs seen (arg :: value :: rest)
      = (item value :: (ofArgs seen rest).1, (ofArgs seen rest).2) := by
  rw [ofArgs.eq_def]
  simp only [hs, htaking]

theorem ofArgs_target (hs : Switch.ofArg? arg = none) (htaking : taking? arg = none)
    (hfirst : ¬ (arg.toList.head? = some '-' ∨ seen = true)) (rest : List String) :
    ofArgs seen (arg :: rest) = (target arg :: (ofArgs true rest).1, (ofArgs true rest).2) := by
  rw [ofArgs.eq_def]
  simp only [hs, htaking, if_neg hfirst]

theorem ofArgs_lacking {item : String → Item} (hs : Switch.ofArg? arg = none)
    (htaking : taking? arg = some item) :
    ofArgs seen [arg] = ([], some (.invalidOption arg)) := by
  rw [ofArgs.eq_def]
  simp only [hs, htaking]

theorem ofArgs_refused (hs : Switch.ofArg? arg = none) (htaking : taking? arg = none)
    (hbad : arg.toList.head? = some '-' ∨ seen = true) (rest : List String) :
    ofArgs seen (arg :: rest) = ([], some (.invalidOption arg)) := by
  rw [ofArgs.eq_def]
  simp only [hs, htaking, if_pos hbad]

/-! ## Items and their arguments -/

/-- The arguments that stand for an item. The option for a file takes the next argument,
whatever it is. -/
inductive SpelledBy : Item → List String → Prop
  /-- A switch, by one of its names. -/
  | turnOn {s : Switch} {arg : String} (h : arg ∈ s.names) : SpelledBy (turnOn s) [arg]
  /-- The file for the result. -/
  | output {arg : String} (h : arg ∈ outputNames) (path : String) :
    SpelledBy (output path) [arg, path]
  /-- The file for progress messages. -/
  | log {arg : String} (h : arg ∈ logNames) (path : String) : SpelledBy (log path) [arg, path]
  /-- The watch file, which does not look like an option. -/
  | target {path : String} (h : ¬ IsDashed path) : SpelledBy (target path) [path]

/-- Whether an item is a target. -/
def isTarget : Item → Bool
  | target _ => true
  | turnOn _ | output _ | log _ => false

end Item

/-- There is one target at most, with the one that was `seen` before the items. -/
def AtMostOneTarget (seen : Bool) (items : List Item) : Prop :=
  seen.toNat + items.countP Item.isTarget ≤ 1

/-- A target is the first, and the others are none. -/
theorem atMostOneTarget_cons {seen : Bool} {it : Item} {items : List Item} :
    AtMostOneTarget seen (it :: items) ↔
      (seen = true → it.isTarget = false) ∧ AtMostOneTarget (seen || it.isTarget) items := by
  unfold AtMostOneTarget
  rw [List.countP_cons]
  cases htarget : it.isTarget with
  | false => simp
  | true =>
    cases seen with
    | false => simp [Nat.add_comm]
    | true => simp

/-- The arguments that stand for items, one after the other. -/
inductive AllSpelledBy : List Item → List String → Prop
  /-- No item takes no argument. -/
  | nil : AllSpelledBy [] []
  /-- The arguments of an item are before those of the next. -/
  | cons {it : Item} {args : List String} {items : List Item} {rest : List String}
    (h : it.SpelledBy args) (hrest : AllSpelledBy items rest) :
    AllSpelledBy (it :: items) (args ++ rest)

/-- An argument that cannot be used where it stands, with what is behind it. It matters
whether there is a target before it. -/
inductive Fails (seen : Bool) : String → List String → Prop
  /-- The option for a file that is not given. -/
  | lacksValue {arg : String} (h : arg ∈ Item.outputNames ++ Item.logNames) : Fails seen arg []
  /-- What looks like an option and is none. -/
  | unknown {arg : String} {rest : List String} (hdashed : IsDashed arg)
    (hswitch : ∀ s : Switch, arg ∉ s.names) (hoption : arg ∉ Item.outputNames ++ Item.logNames) :
    Fails seen arg rest
  /-- A second target. -/
  | secondTarget {arg : String} {rest : List String} (hdashed : ¬ IsDashed arg)
    (hseen : seen = true) : Fails seen arg rest

/-- A way to read arguments, from left to right and behind a target if one was `seen`: the
items, and the argument that fails behind them if one does. -/
inductive Reads (seen : Bool) : List String → List Item → Option String → Prop
  /-- All arguments are used. -/
  | all {args : List String} {items : List Item} (hspelled : AllSpelledBy items args)
    (hone : AtMostOneTarget seen items) : Reads seen args items none
  /-- An argument fails. -/
  | upTo {used : List String} {items : List Item} {arg : String} {rest : List String}
    (hspelled : AllSpelledBy items used) (hone : AtMostOneTarget seen items)
    (hfails : Fails (seen || items.any Item.isTarget) arg rest) :
    Reads seen (used ++ arg :: rest) items (some arg)

/-! ## There is one way to read a list -/

section Reading

variable {seen : Bool} {args rest : List String} {it : Item} {items : List Item} {bad? : Option String}

/-- The arguments of an item are read as the item, if a target is the first. -/
theorem ofArgs_of_spelledBy (h : it.SpelledBy args) (hfirst : seen = true → it.isTarget = false)
    (rest : List String) :
    Item.ofArgs seen (args ++ rest) = (it :: (Item.ofArgs (seen || it.isTarget) rest).1,
      (Item.ofArgs (seen || it.isTarget) rest).2) := by
  cases h with
  | turnOn h =>
    simp only [Item.isTarget, Bool.or_false]
    exact Item.ofArgs_switch (Switch.ofArg?_eq_some_iff.mpr h) rest
  | output h path =>
    simp only [Item.isTarget, Bool.or_false]
    exact Item.ofArgs_taking (Item.ofArg?_of_mem_optionNames (List.mem_append_left _ h))
      (Item.taking?_eq_some_iff.mpr (.inl ⟨h, rfl⟩)) path rest
  | log h path =>
    simp only [Item.isTarget, Bool.or_false]
    exact Item.ofArgs_taking (Item.ofArg?_of_mem_optionNames (List.mem_append_right _ h))
      (Item.taking?_eq_some_iff.mpr (.inr ⟨h, rfl⟩)) path rest
  | target h =>
    simp only [Item.isTarget, Bool.or_true]
    refine Item.ofArgs_target (Item.ofArg?_of_not_isDashed h) (Item.taking?_of_not_isDashed h)
      ?_ rest
    rintro (hdashed | hseen)
    · exact h hdashed
    · exact absurd (hfirst hseen) (Ne.symm Bool.false_ne_true)

/-- The arguments of items are read as the items, and reading goes on behind them. -/
theorem ofArgs_of_allSpelledBy (h : AllSpelledBy items args) (hone : AtMostOneTarget seen items)
    (rest : List String) :
    Item.ofArgs seen (args ++ rest)
      = (items ++ (Item.ofArgs (seen || items.any Item.isTarget) rest).1,
        (Item.ofArgs (seen || items.any Item.isTarget) rest).2) := by
  induction h generalizing seen with
  | nil => simp
  | cons hit _ ih =>
    obtain ⟨hfirst, hone⟩ := atMostOneTarget_cons.mp hone
    rw [List.append_assoc, ofArgs_of_spelledBy hit hfirst, ih hone, List.any_cons, Bool.or_assoc]
    rfl

theorem ofArgs_of_fails {arg : String} (h : Fails seen arg rest) :
    Item.ofArgs seen (arg :: rest) = ([], some (.invalidOption arg)) := by
  cases h with
  | lacksValue h =>
    obtain ⟨item, hitem⟩ := Option.ne_none_iff_exists'.mp fun hnone =>
      Item.taking?_eq_none_iff.mp hnone h
    exact Item.ofArgs_lacking (Item.ofArg?_of_mem_optionNames h) hitem
  | unknown hdashed hswitch hoption =>
    exact Item.ofArgs_refused (Switch.ofArg?_eq_none_iff.mpr hswitch)
      (Item.taking?_eq_none_iff.mpr hoption) (.inl hdashed) rest
  | secondTarget hdashed hseen =>
    exact Item.ofArgs_refused (Item.ofArg?_of_not_isDashed hdashed)
      (Item.taking?_of_not_isDashed hdashed) (.inr hseen) rest

/-- However a list may be read, it is what the reader makes of it. -/
theorem ofArgs_of_reads (h : Reads seen args items bad?) :
    Item.ofArgs seen args = (items, bad?.map Error.invalidOption) := by
  cases h with
  | all hspelled hone =>
    have hread := ofArgs_of_allSpelledBy hspelled hone []
    rw [List.append_nil] at hread
    rw [hread]
    simp [Item.ofArgs]
  | upTo hspelled hone hfails =>
    rw [ofArgs_of_allSpelledBy hspelled hone, ofArgs_of_fails hfails, List.append_nil]
    rfl

theorem Reads.atMostOneTarget (h : Reads seen args items bad?) : AtMostOneTarget seen items := by
  cases h with
  | all _ hone => exact hone
  | upTo _ hone _ => exact hone

/-- A list is read as an item and what is read of the rest. -/
theorem Reads.cons (hit : it.SpelledBy args) (hfirst : seen = true → it.isTarget = false)
    (h : Reads (seen || it.isTarget) rest items bad?) :
    Reads seen (args ++ rest) (it :: items) bad? := by
  cases h with
  | all hspelled hone =>
    exact .all (.cons hit hspelled) (atMostOneTarget_cons.mpr ⟨hfirst, hone⟩)
  | upTo hspelled hone hfails =>
    rw [← List.append_assoc]
    refine .upTo (.cons hit hspelled) (atMostOneTarget_cons.mpr ⟨hfirst, hone⟩) ?_
    rwa [List.any_cons, ← Bool.or_assoc]

theorem Reads.nil (seen : Bool) : Reads seen [] [] none :=
  .all .nil seen.toNat_le

theorem Reads.fail {arg : String} (h : Fails seen arg rest) :
    Reads seen (arg :: rest) [] (some arg) := by
  refine .upTo .nil seen.toNat_le ?_
  rwa [List.any_nil, Bool.or_false]

/-- The reader reads a list in such a way. -/
theorem exists_reads (seen : Bool) (args : List String) :
    ∃ bad?, Reads seen args (Item.ofArgs seen args).1 bad? := by
  -- one case for each branch of the reader
  fun_induction Item.ofArgs seen args with
  | case1 seen => exact ⟨none, .nil seen⟩
  | case2 seen arg s rest hs items e? heq ih =>
    rw [heq] at ih
    obtain ⟨bad?, ih⟩ := ih
    refine ⟨bad?, Reads.cons (.turnOn (Switch.ofArg?_eq_some_iff.mp hs)) (fun _ => rfl) ?_⟩
    rwa [Item.isTarget, Bool.or_false]
  | case3 seen arg item htaking hs =>
    refine ⟨some arg, .fail (.lacksValue ?_)⟩
    by_contra hname
    rw [Item.taking?_eq_none_iff.mpr hname] at htaking
    cases htaking
  | case4 seen arg item value rest htaking hs items e? heq ih =>
    rw [heq] at ih
    obtain ⟨bad?, ih⟩ := ih
    rcases Item.taking?_eq_some_iff.mp htaking with ⟨hname, rfl⟩ | ⟨hname, rfl⟩
    · refine ⟨bad?, Reads.cons (.output hname value) (fun _ => rfl) ?_⟩
      rwa [Item.isTarget, Bool.or_false]
    · refine ⟨bad?, Reads.cons (.log hname value) (fun _ => rfl) ?_⟩
      rwa [Item.isTarget, Bool.or_false]
  | case5 seen arg rest htaking hs hbad =>
    refine ⟨some arg, .fail ?_⟩
    by_cases hdashed : IsDashed arg
    · exact .unknown hdashed (Switch.ofArg?_eq_none_iff.mp hs)
        (Item.taking?_eq_none_iff.mp htaking)
    · exact .secondTarget hdashed (hbad.resolve_left hdashed)
  | case6 seen arg rest htaking hs hfirst items e? heq ih =>
    rw [heq] at ih
    obtain ⟨bad?, ih⟩ := ih
    obtain ⟨hdashed, hseen⟩ := not_or.mp hfirst
    refine ⟨bad?, Reads.cons (.target hdashed) (fun h => absurd h hseen) ?_⟩
    rwa [Item.isTarget, Bool.or_true]

/-- There is one way to read a list. -/
theorem reads_iff (seen : Bool) (args : List String) :
    ∃ items bad?, Item.ofArgs seen args = (items, bad?.map Error.invalidOption) ∧
      ∀ items' bad?', Reads seen args items' bad?' ↔ items' = items ∧ bad?' = bad? := by
  obtain ⟨bad?, hreads⟩ := exists_reads seen args
  refine ⟨_, bad?, ofArgs_of_reads hreads, fun items' bad?' => ⟨fun h => ?_, ?_⟩⟩
  · have heq := (ofArgs_of_reads h).symm.trans (ofArgs_of_reads hreads)
    obtain ⟨hitems, hbad⟩ := Prod.mk.inj heq
    exact ⟨hitems, Option.map_injective (fun _ _ => Error.invalidOption.inj) hbad⟩
  · rintro ⟨rfl, rfl⟩
    exact hreads

end Reading

/-! ## What items make of earlier options -/

namespace Item

/-- The file for the result. -/
def output? : Item → Option String
  | output path => some path
  | turnOn _ | log _ | target _ => none

/-- The file for progress messages. -/
def log? : Item → Option String
  | log path => some path
  | turnOn _ | output _ | target _ => none

end Item

/-- The last file for the result among some items. -/
def lastOutput? (items : List Item) : Option String := (items.filterMap Item.output?).getLast?

/-- The last file for progress messages among some items. -/
def lastLog? (items : List Item) : Option String := (items.filterMap Item.log?).getLast?

namespace Options

variable {o : Options}

/-- Earlier options with some items, but for the target: a switch is on if it was or if it is
among the items, and a file is the last one that is given, or the one it was. -/
def updated (o : Options) (items : List Item) : Options where
  input := o.input
  output? := (lastOutput? items).or o.output?
  log? := (lastLog? items).or o.log?
  quiet := o.quiet || decide (.turnOn .quiet ∈ items)
  sort := o.sort || decide (.turnOn .sort ∈ items)
  sweep := o.sweep || decide (.turnOn .sweep ∈ items)
  check := o.check || decide (.turnOn .check ∈ items)
  help := o.help || decide (.turnOn .help ∈ items)
  version := o.version || decide (.turnOn .version ∈ items)

/-- What an item makes of the options is kept by those behind it. -/
theorem updated_cons (o : Options) (it : Item) (items : List Item) :
    o.updated (it :: items) = (o.apply it).updated items := by
  unfold updated lastOutput? lastLog?
  rw [getLast?_filterMap_cons, getLast?_filterMap_cons, Option.or_assoc, Option.or_assoc]
  cases it with
  | turnOn s => cases s <;> simp [apply, turnOn, Item.output?, Item.log?]
  | output path => simp [apply, Item.output?, Item.log?]
  | log path => simp [apply, Item.output?, Item.log?]
  | target path => simp [apply, Item.output?, Item.log?]

theorem foldl_apply (o : Options) (items : List Item) :
    items.foldl apply o = o.updated items := by
  induction items generalizing o with
  | nil => simp [updated, lastOutput?, lastLog?]
  | cons it items ih => rw [List.foldl_cons, ih, updated_cons]

/-- Only the last files matter and which items there are. -/
theorem updated_congr {items items' : List Item} (hmem : ∀ it, it ∈ items' ↔ it ∈ items)
    (houtput : lastOutput? items' = lastOutput? items) (hlog : lastLog? items' = lastLog? items)
    (o : Options) : o.updated items' = o.updated items := by
  unfold updated
  simp only [hmem, houtput, hlog]

/-! ## Reading an argument list -/

/-- The only target is the first one. -/
theorem findSome?_target_of_mem {items : List Item} {path : String}
    (hone : AtMostOneTarget false items) (h : .target path ∈ items) :
    items.findSome? Item.target? = some path := by
  induction items with
  | nil => cases h
  | cons it items ih =>
    obtain ⟨_, hrest⟩ := atMostOneTarget_cons.mp hone
    rcases List.mem_cons.mp h with rfl | hmem
    · rfl
    · cases it with
      | turnOn s => exact ih hrest hmem
      | output p => exact ih hrest hmem
      | log p => exact ih hrest hmem
      | target p =>
        -- there is no target behind this one
        have hcount : 1 + items.countP Item.isTarget ≤ 1 := hrest
        have hpos : 0 < items.countP Item.isTarget :=
          List.countP_pos_iff.mpr ⟨.target path, hmem, rfl⟩
        omega

theorem findSome?_target_of_forall {items : List Item} (h : ∀ path, .target path ∉ items) :
    items.findSome? Item.target? = none := by
  rw [List.findSome?_eq_none_iff]
  intro it hit
  cases it with
  | target path => exact absurd hit (h path)
  | turnOn s => rfl
  | output path => rfl
  | log path => rfl

variable {args args' : List String} {items items' : List Item}

theorem read_of_fails {bad : String} (h : Reads false args items (some bad)) (o : Options) :
    o.read args = (o.updated items, some (.invalidOption bad)) := by
  unfold read
  rw [ofArgs_of_reads h]
  dsimp only
  rw [foldl_apply]
  rfl

theorem read_of_target {path : String} (h : Reads false args items none)
    (htarget : .target path ∈ items) (o : Options) :
    o.read args = ({ o.updated items with input := path }, none) := by
  unfold read
  rw [ofArgs_of_reads h]
  dsimp only
  rw [foldl_apply, findSome?_target_of_mem h.atMostOneTarget htarget]
  rfl

theorem read_of_noTarget (h : Reads false args items none)
    (htarget : ∀ path, .target path ∉ items) (o : Options) :
    o.read args = (o.updated items,
      if (o.updated items).help = true ∨ (o.updated items).version = true then none
      else some (.invalidOption "<watch-file>")) := by
  unfold read
  rw [ofArgs_of_reads h]
  dsimp only
  rw [foldl_apply, findSome?_target_of_forall htarget]
  dsimp only [Option.map_none]
  by_cases htext : (o.updated items).help = true ∨ (o.updated items).version = true
  · rw [if_pos htext, if_pos (Bool.or_eq_true_iff.mpr htext)]
  · rw [if_neg htext, if_neg fun hor => htext (Bool.or_eq_true_iff.mp hor)]

/-- What is read on top of earlier options, from the items and the argument that fails. -/
structure Outcome (o : Options) (items : List Item) (bad? : Option String)
    (result : Options × Option Error) : Prop where
  /-- The list is accepted if no argument fails, and there is a target or a text is asked
  for, now or earlier. -/
  accepted_iff : result.2 = none ↔ bad? = none ∧ ((∃ path, .target path ∈ items) ∨
    (o.updated items).help = true ∨ (o.updated items).version = true)
  /-- If it is, the watch file is the target. -/
  target : result.2 = none → ∀ path, .target path ∈ items →
    result.1 = { o.updated items with input := path }
  /-- Without a target it is the one it was. -/
  noTarget : result.2 = none → (∀ path, .target path ∉ items) → result.1 = o.updated items
  /-- If the list is refused, the watch file is the one it was, all else is as the items say,
  and the reason is the argument that fails, or that there is no target. -/
  refused : result.2 ≠ none →
    result = (o.updated items, some (.invalidOption (bad?.getD "<watch-file>")))

theorem Outcome.of_refused {bad? : Option String} (h : ¬ (bad? = none ∧
    ((∃ path, .target path ∈ items) ∨ (o.updated items).help = true ∨
      (o.updated items).version = true))) :
    Outcome o items bad?
      (o.updated items, some (.invalidOption (bad?.getD "<watch-file>"))) where
  accepted_iff := iff_of_false (Option.some_ne_none _) h
  target hnone := absurd hnone (Option.some_ne_none _)
  noTarget hnone := absurd hnone (Option.some_ne_none _)
  refused _ := rfl

theorem outcome_of_reads {bad? : Option String} (h : Reads false args items bad?) (o : Options) :
    Outcome o items bad? (o.read args) := by
  cases bad? with
  | some bad =>
    rw [read_of_fails h]
    exact .of_refused fun hnone => Option.some_ne_none _ hnone.1
  | none =>
    by_cases htarget : ∃ path, .target path ∈ items
    · obtain ⟨path, hpath⟩ := htarget
      rw [read_of_target h hpath]
      refine ⟨iff_of_true rfl ⟨rfl, .inl ⟨path, hpath⟩⟩, fun _ path' hpath' => ?_,
        fun _ hno => absurd hpath (hno path), fun hne => absurd rfl hne⟩
      have hsame := (findSome?_target_of_mem h.atMostOneTarget hpath).symm.trans
        (findSome?_target_of_mem h.atMostOneTarget hpath')
      rw [Option.some.inj hsame]
    · have hno := not_exists.mp htarget
      rw [read_of_noTarget h hno]
      by_cases htext : (o.updated items).help = true ∨ (o.updated items).version = true
      · rw [if_pos htext]
        exact ⟨iff_of_true rfl ⟨rfl, .inr htext⟩, fun _ path hpath => absurd hpath (hno path),
          fun _ _ => rfl, fun hne => absurd rfl hne⟩
      · rw [if_neg htext]
        exact .of_refused fun hnone => hnone.2.elim htarget htext

/-- Items that can be used are read to the same effect in any order, if the last files are
the same. -/
theorem read_congr (h : Reads false args items none) (h' : Reads false args' items' none)
    (hmem : ∀ it, it ∈ items' ↔ it ∈ items) (houtput : lastOutput? items' = lastOutput? items)
    (hlog : lastLog? items' = lastLog? items) (o : Options) : o.read args' = o.read args := by
  have hupdated := updated_congr hmem houtput hlog o
  by_cases htarget : ∃ path, .target path ∈ items
  · obtain ⟨path, hpath⟩ := htarget
    rw [read_of_target h hpath, read_of_target h' ((hmem _).mpr hpath), hupdated]
  · have hno := not_exists.mp htarget
    rw [read_of_noTarget h hno, read_of_noTarget h' fun path hpath => hno path ((hmem _).mp hpath),
      hupdated]

/-- **The meaning of an argument list.** There is one way to read it, as the arguments of
some items with one target at most, and behind them nothing or an argument that fails. On
top of any earlier options the items have their effect, the target if the list is accepted
and the others in any case; and the list is accepted if no argument fails, and there is a
target or a text is asked for. If it is refused, the reason is the argument that fails, or
that there is no target.

Another list that can be used, and that has the same items in any order and any number, is
read to the same effect if the last of its files are the same. -/
theorem read_meaning (o : Options) (args : List String) :
    ∃ items bad?,
      (∀ items' bad?', Reads false args items' bad?' ↔ items' = items ∧ bad?' = bad?) ∧
      Outcome o items bad? (o.read args) ∧
      ∀ args' items', bad? = none → Reads false args' items' none →
        (∀ it, it ∈ items' ↔ it ∈ items) → lastOutput? items' = lastOutput? items →
        lastLog? items' = lastLog? items → o.read args' = o.read args := by
  obtain ⟨items, bad?, _, hreads⟩ := reads_iff false args
  have hread : Reads false args items bad? := (hreads items bad?).mpr ⟨rfl, rfl⟩
  refine ⟨items, bad?, hreads, outcome_of_reads hread o, ?_⟩
  rintro args' items' rfl hread' hmem houtput hlog
  exact read_congr hread hread' hmem houtput hlog o

/-- A result file may look like a switch. Behind the second target nothing is read, and what
is before it takes effect but for the first target. -/
example : read { input := "w", quiet := true } ["-o", "-s", "a", "-V", "b", "-c"]
    = ({ input := "w", output? := some "-s", quiet := true, version := true },
      some (.invalidOption "b")) := by
  decide

end Options

end WatchLists.Inspector
