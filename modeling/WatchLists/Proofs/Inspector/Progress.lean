import WatchLists.Proofs.Disk.Logging
import WatchLists.Proofs.Inspector.Arguments
import WatchLists.Proofs.Inspector.Delivery

/-!
# Progress messages and the result

A run can be asked to be quiet, or to send its progress to a log. This has no
influence on the result: not on the exit, not on the list that is read from
standard output, and not on the output file. There are provisos. A log is
emptied before the watch file is read, and its file is written to before and after
the result is; so it must not be the watch file, and not the output file unless the
run is quiet and ends well. It must not be standard output, where there may be a result,
and the other paths must not lead to the log by way of the run that has it open.

The two runs are followed side by side. They go through the same stages with the
same lists, and their sessions stay alike.

- `Item.isProgress`, `AddsProgress`: arguments that ask for other progress only.
- `Options.task`: what a run is asked to do, apart from progress.
- `Corresponds`: activities that end alike, and keep sessions in a relation.
- `InStep`: alike sessions that have printed comments only.
- `Apart`: a log that is apart from the other files of a run.
- `progress_is_inert`: the two runs as a whole.
-/

namespace WatchLists.Inspector

open Activity

/-! ## Arguments -/

namespace Item

/-- Whether an item is about progress only. -/
def isProgress : Item → Bool
  | turnOn .quiet | log _ => true
  | turnOn _ | output _ | target _ => false

/-- After arguments that can be used the list goes on with items of its own. -/
theorem ofArgs_append {seen : Bool} {xs : List String} (h : (ofArgs seen xs).2 = none) :
    ∃ seen', ∀ ys, ofArgs seen (xs ++ ys)
      = ((ofArgs seen xs).1 ++ (ofArgs seen' ys).1, (ofArgs seen' ys).2) := by
  obtain ⟨bad?, hreads⟩ := exists_reads seen xs
  cases hreads with
  | all hspelled hone => exact ⟨_, ofArgs_of_allSpelledBy hspelled hone⟩
  | upTo hspelled hone hfails =>
    rw [ofArgs_of_allSpelledBy hspelled hone, ofArgs_of_fails hfails] at h
    cases h

end Item

/-- Arguments that can be used, and that ask for the same as others do when they
are read without their items about progress. -/
def AddsProgress (args args' : List String) : Prop :=
  (Item.ofArgs false args').2 = none ∧
    ((Item.ofArgs false args').1.filter fun it => !it.isProgress) = (Item.ofArgs false args).1

instance (args args' : List String) : Decidable (AddsProgress args args') :=
  inferInstanceAs (Decidable (_ ∧ _))

namespace AddsProgress

variable {args xs ys : List String}

theorem refl (h : (Item.ofArgs false args).2 = none)
    (hplain : ∀ it ∈ (Item.ofArgs false args).1, it.isProgress = false) :
    AddsProgress args args :=
  ⟨h, List.filter_eq_self.mpr fun it hit => by rw [hplain it hit]; rfl⟩

/-- The run can be made quiet at any place between items. -/
theorem insert_quiet (h : AddsProgress args (xs ++ ys)) (hxs : (Item.ofArgs false xs).2 = none) :
    AddsProgress args (xs ++ "-q" :: ys) := by
  obtain ⟨seen', happend⟩ := Item.ofArgs_append hxs
  obtain ⟨hnone, hfilter⟩ := h
  rw [happend] at hnone hfilter
  unfold AddsProgress
  rw [happend, Item.ofArgs_switch (s := .quiet) (by decide)]
  refine ⟨hnone, ?_⟩
  rw [← hfilter, List.filter_append, List.filter_append]
  rfl

/-- A log can be given at any place between items. -/
theorem insert_log (h : AddsProgress args (xs ++ ys)) (hxs : (Item.ofArgs false xs).2 = none)
    (path : String) : AddsProgress args (xs ++ "--log" :: path :: ys) := by
  obtain ⟨seen', happend⟩ := Item.ofArgs_append hxs
  obtain ⟨hnone, hfilter⟩ := h
  rw [happend] at hnone hfilter
  unfold AddsProgress
  rw [happend, Item.ofArgs_taking (by decide) (show Item.taking? "--log" = some .log by rfl)]
  refine ⟨hnone, ?_⟩
  rw [← hfilter, List.filter_append, List.filter_append]
  rfl

end AddsProgress

/-! ## Options -/

namespace Options

/-- What is asked for, apart from progress. -/
def task (o : Options) : Options := { o with quiet := false, log? := none }

theorem task_apply_of_isProgress {it : Item} (h : it.isProgress = true) (o : Options) :
    (o.apply it).task = o.task := by
  cases it with
  | turnOn s => cases s <;> first | rfl | cases h
  | log path => rfl
  | output path | target path => cases h

theorem task_apply {it : Item} (h : it.isProgress = false) (o : Options) :
    (o.apply it).task = o.task.apply it := by
  cases it with
  | turnOn s => cases s <;> first | rfl | cases h
  | log path => cases h
  | output path | target path => rfl

theorem task_foldl_apply (items : List Item) (o : Options) :
    (items.foldl apply o).task = (items.filter fun it => !it.isProgress).foldl apply o.task := by
  induction items generalizing o with
  | nil => rfl
  | cons it items ih =>
    rw [List.foldl_cons, ih]
    cases hit : it.isProgress with
    | true =>
      rw [List.filter_cons_of_neg (by rw [hit]; decide), task_apply_of_isProgress hit]
    | false =>
      rw [List.filter_cons_of_pos (by rw [hit]; rfl), List.foldl_cons, task_apply hit]

/-- Items about progress are no targets. -/
theorem findSome?_target_filter (items : List Item) :
    (items.filter fun it => !it.isProgress).findSome? Item.target?
      = items.findSome? Item.target? := by
  induction items with
  | nil => rfl
  | cons it items ih =>
    cases hit : it.isProgress with
    | true =>
      have htarget : it.target? = none := by
        cases it with
        | target path => cases hit
        | turnOn s | output path | log path => rfl
      rw [List.filter_cons_of_neg (by rw [hit]; decide), ih, List.findSome?_cons, htarget]
    | false =>
      rw [List.filter_cons_of_pos (by rw [hit]; rfl), List.findSome?_cons, List.findSome?_cons, ih]

/-- What arguments that can be used are read as, from their items. -/
theorem read_of_items {args : List String} {items : List Item}
    (h : Item.ofArgs false args = (items, none)) :
    read {} args = (match items.findSome? Item.target? with
      | some path => ({ items.foldl apply {} with input := path }, none)
      | none =>
        if (items.foldl apply {}).help || (items.foldl apply {}).version then
          (items.foldl apply {}, none)
        else (items.foldl apply {}, some (.invalidOption "<watch-file>"))) := by
  unfold read
  rw [h]
  dsimp only
  cases items.findSome? Item.target? <;> rfl

/-- Items that cannot be used are never read without an error. -/
theorem ofArgs_of_read {o : Options} {args : List String} (h : read {} args = (o, none)) :
    (Item.ofArgs false args).2 = none := by
  unfold read at h
  rcases hitems : Item.ofArgs false args with ⟨items, e?⟩
  rw [hitems] at h
  cases e? with
  | none => rfl
  | some e => cases h

/-- Arguments that add items about progress are read as the same task. -/
theorem read_of_addsProgress {o : Options} {args args' : List String}
    (hargs : read {} args = (o, none)) (hadds : AddsProgress args args') :
    ∃ o', read {} args' = (o', none) ∧ o'.task = o := by
  obtain ⟨hnone', hfilter⟩ := hadds
  have hitems : Item.ofArgs false args
      = ((Item.ofArgs false args').1.filter fun it => !it.isProgress, none) :=
    Prod.ext hfilter.symm (ofArgs_of_read hargs)
  have hitems' : Item.ofArgs false args' = ((Item.ofArgs false args').1, none) :=
    Prod.ext rfl hnone'
  have htask : ((Item.ofArgs false args').1.foldl apply {}).task
      = ((Item.ofArgs false args').1.filter fun it => !it.isProgress).foldl apply {} :=
    task_foldl_apply _ {}
  rw [read_of_items hitems, findSome?_target_filter, ← htask] at hargs
  rw [read_of_items hitems']
  cases htarget : (Item.ofArgs false args').1.findSome? Item.target? with
  | some path =>
    rw [htarget] at hargs
    cases hargs
    exact ⟨_, rfl, rfl⟩
  | none =>
    rw [htarget] at hargs
    dsimp only at hargs
    split at hargs
    · next htext =>
      cases hargs
      exact ⟨_, if_pos htext, rfl⟩
    · cases hargs

end Options

/-! ## Two runs side by side -/

/-- Two activities end alike, and keep their sessions in a relation. -/
def Corresponds {α : Type} (R : Session → Session → Prop) (x x' : Activity α) : Prop :=
  ∀ s s', R s s' → (x'.run.run s').1 = (x.run.run s).1 ∧ R (x.run.run s).2 (x'.run.run s').2

namespace Corresponds

variable {α β : Type} {R : Session → Session → Prop} {x x' y y' : Activity α}

theorem bind {f f' : α → Activity β} (hx : Corresponds R x x')
    (hf : ∀ a, Corresponds R (f a) (f' a)) : Corresponds R (x >>= f) (x' >>= f') := by
  intro s s' h
  obtain ⟨hr, ht⟩ := hx s s' h
  rw [run_bind, run_bind]
  rcases hxs : x.run.run s with ⟨r, t⟩
  rcases hxs' : x'.run.run s' with ⟨r', t'⟩
  rw [hxs, hxs'] at hr ht
  obtain rfl : r' = r := hr
  cases r' with
  | error stop => exact ⟨rfl, ht⟩
  | ok a => exact hf a t t' ht

/-- An activity that leaves every session as it is, and ends the same way on each. -/
theorem of_still {r : Except Stop α} (hx : ∀ s, x.run.run s = (r, s)) : Corresponds R x x := by
  intro s s' h
  rw [hx, hx]
  exact ⟨rfl, h⟩

theorem orFault (z : Except Fault α) :
    Corresponds R (WatchLists.orFault z) (WatchLists.orFault z) := by
  cases z with
  | ok a => exact .of_still fun _ => rfl
  | error f => exact .of_still fun _ => rfl

theorem orRefuse (path : String) (z : Except Error α) :
    Corresponds R (WatchLists.orRefuse path z) (WatchLists.orRefuse path z) := by
  cases z with
  | ok a => exact .of_still fun _ => rfl
  | error f => exact .of_still fun _ => rfl

theorem ite {c : Prop} [Decidable c] (hx : Corresponds R x x') (hy : Corresponds R y y') :
    Corresponds R (if c then x else y) (if c then x' else y') := by
  split
  · exact hx
  · exact hy

end Corresponds

/-- A check does the same in each run. -/
theorem check_corresponds {R : Session → Session → Prop} (o : Options) (stop : Stop)
    (ws : WatchList) :
    Corresponds R
      (do
        if o.task.check then
          unless ← orFault ws.isBinaryFirst do
            throw stop
        return ws)
      (do
        if o.check then
          unless ← orFault ws.isBinaryFirst do
            throw stop
        return ws) := by
  dsimp only
  refine .ite (.bind (.orFault _) fun ok => ?_) (.of_still fun _ => rfl)
  exact .ite (.of_still fun _ => rfl) (.of_still fun _ => rfl)

section

variable [Surroundings]

/-- Alike sessions that have printed comments only. -/
structure InStep (d : Disk) (k? : Option Location) (s s' : Session) : Prop where
  alike : Alike d k? s s'
  printed : WatchList.IsComment s.printed
  printed' : WatchList.IsComment s'.printed

/-- The paths of a run on a disk are apart from the log of another. -/
structure Apart (o : Options) (d : Disk) (k? : Option Location) : Prop where
  /-- The watch file is not found as the log is. -/
  input : ¬ d.NamesLog o.input
  /-- The output file is not either. -/
  output : ∀ path, o.output? = some path → ¬ d.NamesLog path
  /-- The watch file is not the file of the log. -/
  file : ∀ l, d.locate o.input = some (.file l) → k? ≠ some l

variable {d : Disk} {k? : Option Location} {s s' : Session} {o : Options} {ws : WatchList}

/-! ## Stages -/

/-- A message goes its own way in each run, and changes nothing else. -/
theorem report_alike (h : Alike d k? s s') (o : Options) (message : String) :
    ∃ t t', (report o.task message : Activity Unit).run.run s = (.ok (), t) ∧
      (report o message : Activity Unit).run.run s' = (.ok (), t') ∧ Alike d k? t t' ∧
      t.printed = s.printed ++ (message ++ "\n") ∧
      (t'.printed = s'.printed ∨ t'.printed = s'.printed ++ (message ++ "\n")) := by
  have hrun : (report o.task message : Activity Unit).run.run s
      = (.ok (), { s with printed := s.printed ++ (message ++ "\n") }) := report_run h.log message
  cases hquiet : o.quiet with
  | true =>
    exact ⟨_, s', hrun, report_of_quiet hquiet s' message, h.writeLog message, rfl, .inl rfl⟩
  | false =>
    obtain ⟨t', hwrite, halike, hprinted⟩ := (h.writeLog message).writeLog' message
    have hhost : (Host.writeLog message : StateM Session Bool).run s' = (true, t') := hwrite
    have hrun' : (report o message : Activity Unit).run.run s' = (.ok (), t') :=
      report_run_of_writeLog hquiet hhost
    exact ⟨_, t', hrun, hrun', halike, rfl, hprinted⟩

theorem report_corresponds (o : Options) (message : String) :
    Corresponds (Alike d k?) (report o.task message) (report o message) := by
  intro s s' h
  obtain ⟨t, t', hrun, hrun', halike, _⟩ := report_alike h o message
  rw [hrun, hrun']
  exact ⟨rfl, halike⟩

theorem report_inStep (o : Options) {message : String}
    (hcomment : WatchList.IsComment (message ++ "\n")) :
    Corresponds (InStep d k?) (report o.task message) (report o message) := by
  intro s s' h
  obtain ⟨t, t', hrun, hrun', halike, hprinted, hprinted'⟩ := report_alike h.alike o message
  rw [hrun, hrun']
  refine ⟨rfl, halike, ?_, ?_⟩
  · rw [hprinted]
    exact h.printed.append hcomment
  · rcases hprinted' with hsame | happend
    · rw [hsame]
      exact h.printed'
    · rw [happend]
      exact h.printed'.append hcomment

/-- The watch file is read alike, unless the log has emptied it. -/
theorem load_inStep (hapart : Apart o d k?) :
    Corresponds (InStep d k?) (WatchList.load o.input) (WatchList.load o.input) := by
  unfold WatchList.load
  refine .bind (fun s s' h => ?_) fun content => ?_
  · refine ⟨?_, h⟩
    show Except.ok (s'.readFile o.input) = Except.ok (s.readFile o.input)
    rw [h.alike.readFile hapart.input hapart.file]
  · cases content with
    | none => exact .of_still fun _ => rfl
    | some bytes => exact .orRefuse o.input _

theorem sweepIfAsked_inStep (o : Options) (ws : WatchList) :
    Corresponds (InStep d k?) (sweepIfAsked o.task ws) (sweepIfAsked o ws) :=
  .ite (.bind (report_inStep o (isComment_sweptMessage _)) fun _ => .of_still fun _ => rfl)
    (.of_still fun _ => rfl)

theorem orderIfAsked_inStep (o : Options) (ws : WatchList) :
    Corresponds (InStep d k?) (orderIfAsked o.task ws) (orderIfAsked o ws) := by
  unfold orderIfAsked
  dsimp only
  refine .ite (.bind (report_inStep o ?_) fun _ => .of_still fun _ => rfl) (.ite ?_ ?_)
  · exact WatchList.isComment_line isCommentLine_unorderedMessage
  · exact .bind (.orFault _) fun sorted => check_corresponds o _ sorted
  · exact .bind (.of_still fun _ => rfl) fun ws => check_corresponds o _ ws

/-- The runs prepare the same list. -/
theorem readAndPrepare_inStep (hapart : Apart o d k?) :
    Corresponds (InStep d k?) (readAndPrepare o.task) (readAndPrepare o) := by
  refine .bind (load_inStep (o := o) hapart) fun ws => ?_
  refine .bind (report_inStep o (isComment_readMessage ws)) fun _ => ?_
  exact .bind (sweepIfAsked_inStep o ws) fun ws => orderIfAsked_inStep o ws

/-- The runs deliver the same list alike. -/
theorem deliver_corresponds (hapart : Apart o d k?) (ws : WatchList) :
    Corresponds (Alike d k?) (deliver o.task ws) (deliver o ws) := by
  cases houtput : o.output? with
  | none =>
    rw [deliver_eq_of_none houtput, deliver_eq_of_none (o := o.task) houtput]
    refine .bind (.orFault _) fun text => ?_
    exact fun s s' h => ⟨rfl, h.congr rfl rfl rfl rfl⟩
  | some path =>
    rw [deliver_eq_of_some houtput, deliver_eq_of_some (o := o.task) houtput]
    refine .bind (.bind (.orFault _) fun text => ?_) fun _ => report_corresponds o _
    refine .bind (fun s s' h => ?_) fun written => ?_
    · obtain ⟨hwritten, halike⟩ := h.writeFile (hapart.output path houtput) text
      exact ⟨congrArg Except.ok hwritten, halike⟩
    · exact .ite (.of_still fun _ => rfl) (.of_still fun _ => rfl)

/-! ## Whole runs -/

/-- The runs end alike, in alike sessions. -/
theorem inspect_corresponds (hapart : Apart o d k?) (h : InStep d k? s s') :
    ((inspect o : Activity Unit).run.run s').1 = ((inspect o.task : Activity Unit).run.run s).1 ∧
      Alike d k? ((inspect o.task : Activity Unit).run.run s).2
        ((inspect o : Activity Unit).run.run s').2 := by
  obtain ⟨hr, hu⟩ := readAndPrepare_inStep hapart s s' h
  rw [inspect_eq, inspect_eq, run_bind, run_bind]
  rcases hx : (readAndPrepare o.task).run.run s with ⟨r, u⟩
  rcases hx' : (readAndPrepare o).run.run s' with ⟨r', u'⟩
  rw [hx, hx'] at hr hu
  obtain rfl : r' = r := hr
  cases r' with
  | error stop => exact ⟨rfl, hu.alike⟩
  | ok ws => exact deliver_corresponds hapart ws u u' hu.alike

theorem deliver_run_of_none (houtput : o.output? = none) (ws : WatchList) (s : Session) :
    (deliver o ws : Activity Unit).run.run s = (match ws.dump .blocker with
      | .ok text => (.ok (), { s with printed := s.printed ++ text })
      | .error f => (.error (.fault f), s)) := by
  rw [deliver_eq_of_none houtput]
  cases ws.dump .blocker <;> rfl

/-- Where the result is printed, the same list is read from what either run printed:
the result, or nothing if there is none. -/
theorem inspect_printed (houtput : o.output? = none) (hapart : Apart o d k?)
    (h : InStep d k? s s') :
    ∃ ws, WatchList.ofText ((inspect o.task : Activity Unit).run.run s).2.printed = .ok ws ∧
      WatchList.ofText ((inspect o : Activity Unit).run.run s').2.printed = .ok ws := by
  obtain ⟨hr, hu⟩ := readAndPrepare_inStep hapart s s' h
  rw [inspect_eq, inspect_eq, run_bind, run_bind]
  rcases hx : (readAndPrepare o.task).run.run s with ⟨r, u⟩
  rcases hx' : (readAndPrepare o).run.run s' with ⟨r', u'⟩
  rw [hx, hx'] at hr hu
  obtain rfl : r' = r := hr
  have hcomments : WatchList.ofText u.printed = .ok [] ∧ WatchList.ofText u'.printed = .ok [] :=
    ⟨WatchList.ofText_of_isComment hu.printed, WatchList.ofText_of_isComment hu.printed'⟩
  cases r' with
  | error stop => exact ⟨[], hcomments⟩
  | ok result =>
    dsimp only
    rw [deliver_run_of_none houtput, deliver_run_of_none (o := o.task) houtput]
    cases hdump : result.dump .blocker with
    | error f => exact ⟨[], hcomments⟩
    | ok text =>
      obtain ⟨_, _, _, hws, hprepare, _⟩ := readAndPrepare_ok h.alike.log hx
      have hread := ofText_of_dump_of_prepare hws hprepare hdump
      exact ⟨result, (hu.printed text result).mpr hread, (hu.printed' text result).mpr hread⟩

/-- A quiet run that ends well leaves the output file as the other run does, even if
the log had emptied it. -/
theorem readFile_of_quiet {t t' : Session} {path : String} {l : Location}
    (houtput : o.output? = some path) (hquiet : o.quiet = true)
    (hapart : Apart o d k?) (h : InStep d k? s s')
    (hplace : d.locate path = some (.file l))
    (hok : (inspect o.task : Activity Unit).run.run s = (.ok (), t))
    (hok' : (inspect o : Activity Unit).run.run s' = (.ok (), t')) :
    t'.readFile path = t.readFile path := by
  rw [inspect_eq] at hok hok'
  obtain ⟨result, u, hx, hdeliver⟩ := run_bind_ok hok
  obtain ⟨result', u', hx', hdeliver'⟩ := run_bind_ok hok'
  obtain ⟨hr, hu⟩ := readAndPrepare_inStep hapart s s' h
  rw [hx, hx'] at hr hu
  obtain rfl : result' = result := Except.ok.inj hr
  obtain ⟨text, v, hdump, hwrite, hreport⟩ := deliver_ok_of_some (o := o.task) houtput hdeliver
  obtain ⟨text', v', hdump', hwrite', hreport'⟩ := deliver_ok_of_some houtput hdeliver'
  obtain rfl : text' = text := Except.ok.inj (hdump'.symm.trans hdump)
  -- both write the same text to the same file
  have hcan : Surroundings.canWrite l = true := by
    have hplace' : u.locate path = some (.file l) := (hu.alike.locate path).trans hplace
    exact Session.canWrite_of_writeFile hplace' (congrArg Prod.fst hwrite)
  have hlocate : u.disk.locate path = some (.file l) :=
    (Disk.locate_congr hu.alike.directory path).trans hplace
  have hlocate' : u'.disk.locate path = some (.file l) :=
    (Disk.locate_congr hu.alike.disk.directory path).trans hlocate
  obtain ⟨e, hfile, hthere, hcontent, _⟩ := Session.writeFile_of_locate hlocate hcan text'
  obtain ⟨e', hfile', hthere', hcontent', _⟩ := Session.writeFile_of_locate hlocate' hcan text'
  obtain rfl : { u with disk := e } = v := congrArg Prod.snd (hfile.symm.trans hwrite)
  obtain rfl : { u' with disk := e' } = v' := congrArg Prod.snd (hfile'.symm.trans hwrite')
  have hdisk : t.disk = e := report_disk hreport hu.alike.log
  rw [report_of_quiet hquiet] at hreport'
  cases hreport'
  have hread : Surroundings.canRead l = true := Surroundings.canRead_of_canWrite l hcan
  rw [Session.readFile_eq hthere' hread, Session.readFile_eq (hdisk ▸ hthere) hread, hcontent',
    hdisk, hcontent]

/-- At the start the runs are in step, and a file that the log has emptied is that
of the log. -/
theorem exists_inStep (hlogs : ∀ path, o.log? = some path → d.Logs path) :
    ∃ k?, InStep d k? { disk := d } (withLog o { disk := d }) ∧
      ∀ l, k? = some l → ∃ path, o.log? = some path ∧ d.locate path = some (.file l) := by
  have hempty : WatchList.IsComment ({ disk := d } : Session).printed := WatchList.isComment_empty
  unfold withLog
  cases hlog : o.log? with
  | none => exact ⟨none, ⟨⟨fun _ => rfl, .refl d, rfl, .console rfl⟩, hempty, hempty⟩, nofun⟩
  | some path =>
    obtain ⟨k?, hk, halike, hprinted⟩ := alike_openLog (hlogs path hlog)
    refine ⟨k?, ⟨halike, hempty, ?_⟩, fun l hl => ⟨path, rfl, hk l hl⟩⟩
    show WatchList.IsComment (({ disk := d } : Session).openLog path).2.printed
    rw [hprinted]
    exact WatchList.isComment_empty

/-- **Progress has no influence on the result.** Let a run that is asked for no text
be made quiet, or be given a log that can be created and written, or both. Suppose that
neither the watch file nor the output file is found as a log that is open can be, and
that the log is neither the watch file nor standard output. Then both runs exit alike,
complaint included. Without an output file, the same list is read from what they print.
With an output file that is not standard output, both leave the same bytes in it, if the
log is not the output file either; or if it is, but the run is quiet and exits with 0. -/
theorem progress_is_inert {args args' : List String} {o' : Options}
    (hargs : Options.read {} args = (o, none)) (hhelp : o.help = false)
    (hversion : o.version = false) (hadds : AddsProgress args args')
    (hargs' : Options.read {} args' = (o', none)) (hinput : ¬ d.NamesLog o.input)
    (houtput : ∀ path, o.output? = some path → ¬ d.NamesLog path)
    (hlog : ∀ path, o'.log? = some path →
      d.Logs path ∧ ¬ d.SameFile path o.input ∧ d.locate path ≠ some (.device .output)) :
    (runOn d args').1 = (runOn d args).1 ∧
    (o.output? = none → ∃ ws, WatchList.ofText (runOn d args).2.printed = .ok ws ∧
      WatchList.ofText (runOn d args').2.printed = .ok ws) ∧
    ∀ path, o.output? = some path → d.locate path ≠ some (.device .output) →
      (∀ logPath, o'.log? = some logPath → d.SameFile logPath path →
        o'.quiet = true ∧ (runOn d args).1.code = 0) →
      (runOn d args').2.readFile path = (runOn d args).2.readFile path := by
  obtain ⟨o'', hread, rfl⟩ := Options.read_of_addsProgress hargs hadds
  obtain rfl : o'' = o' := congrArg Prod.fst (hread.symm.trans hargs')
  obtain ⟨k?, hstart, hk⟩ := exists_inStep fun path h => (hlog path h).1
  have hapart : Apart o'' d k? := by
    refine ⟨hinput, houtput, fun l hl hkl => ?_⟩
    obtain ⟨path, hpath, hplace⟩ := hk l hkl
    exact (hlog path hpath).2.1 ⟨l, hplace, hl⟩
  obtain ⟨hexit, halike⟩ := inspect_corresponds hapart hstart
  have hrun : runOn d args = (exitWith ((inspect o''.task : Activity Unit).run.run { disk := d }).1,
      ((inspect o''.task : Activity Unit).run.run { disk := d }).2) := by
    rw [runOn, command_eq_runWith hargs hhelp hversion]
    exact runWith_run o''.task { disk := d }
  have hrun' : runOn d args'
      = (exitWith ((inspect o'' : Activity Unit).run.run (withLog o'' { disk := d })).1,
        ((inspect o'' : Activity Unit).run.run (withLog o'' { disk := d })).2) := by
    rw [runOn, command_eq_runWith hargs' hhelp hversion]
    exact runWith_run o'' { disk := d }
  rw [hrun, hrun']
  refine ⟨congrArg exitWith hexit, fun hnone => inspect_printed hnone hapart hstart,
    fun path hsome _ hpath => ?_⟩
  by_cases hsame : ∃ l, d.locate path = some (.file l) ∧ k? = some l
  · obtain ⟨l, hplace, hkl⟩ := hsame
    obtain ⟨logPath, hlogPath, hlogPlace⟩ := hk l hkl
    obtain ⟨hquiet, hcode⟩ := hpath logPath hlogPath ⟨l, hlogPlace, hplace⟩
    have hok := eq_ok_of_exitWith hcode
    exact readFile_of_quiet (o := o'') hsome hquiet hapart hstart hplace (Prod.ext hok rfl)
      (Prod.ext (hexit.trans hok) rfl)
  · exact halike.readFile (houtput path hsome) fun l hl hkl => hsame ⟨l, hl, hkl⟩

end

/-- A watch file is sorted in place, with the progress in a log. -/
theorem progress_is_inert_in_place :
    (runOn (oneFile "w" "b 9 1 3\nb 2 0 1\n") ["-s", "-o", "w", "--log", "l", "w"]).1
      = (runOn (oneFile "w" "b 9 1 3\nb 2 0 1\n") ["-s", "-o", "w", "w"]).1 ∧
    (runOn (oneFile "w" "b 9 1 3\nb 2 0 1\n") ["-s", "-o", "w", "--log", "l", "w"]).2.readFile "w"
      = some (Text.encode "b 2 0 1\nb 9 1 3\n".toList) := by
  have hargs : Options.read {} ["-s", "-o", "w", "w"]
      = ({ input := "w", output? := some "w", sort := true }, none) := by decide +kernel
  have hargs' : Options.read {} ["-s", "-o", "w", "--log", "l", "w"]
      = ({ input := "w", output? := some "w", log? := some "l", sort := true }, none) := by
    decide +kernel
  have hw : (oneFile "w" "b 9 1 3\nb 2 0 1\n").locate "w" = some (.file (.inside ["w"])) := by
    decide +kernel
  have hl : (oneFile "w" "b 9 1 3\nb 2 0 1\n").locate "l" = some (.file (.inside ["l"])) := by
    decide +kernel
  have hother : ¬ (oneFile "w" "b 9 1 3\nb 2 0 1\n").SameFile "l" "w" := by
    rintro ⟨x, hx, hx'⟩
    cases hl.symm.trans hx
    exact absurd (hw.symm.trans hx') (by decide)
  have hstream : ∀ {path : String} {l : Location},
      (oneFile "w" "b 9 1 3\nb 2 0 1\n").locate path = some (.file l) →
      (oneFile "w" "b 9 1 3\nb 2 0 1\n").locate path ≠ some (.device .output) := by
    intro path l h h'
    cases h.symm.trans h'
  have hnames : ¬ (oneFile "w" "b 9 1 3\nb 2 0 1\n").NamesLog "w" :=
    (Disk.exists_find_of_locate hw).1
  have hlog : ∀ path, some "l" = some path →
      (oneFile "w" "b 9 1 3\nb 2 0 1\n").Logs path ∧
        ¬ (oneFile "w" "b 9 1 3\nb 2 0 1\n").SameFile path "w" ∧
        (oneFile "w" "b 9 1 3\nb 2 0 1\n").locate path ≠ some (.device .output) := by
    intro path hpath
    cases hpath
    exact ⟨Disk.logs_of_locate hl rfl, hother, hstream hl⟩
  obtain ⟨hexit, _, hfile⟩ :=
    progress_is_inert hargs rfl rfl (by decide +kernel) hargs' hnames
      (fun path hpath => Option.some.inj hpath ▸ hnames) hlog
  refine ⟨hexit, (hfile "w" rfl (hstream hw) fun path hpath hsame => ?_).trans (by decide +kernel)⟩
  exact absurd hsame (hlog path hpath).2.1

/-- **What a log can do to other files.** A log that is the watch file empties it
before it is read, and nothing is left of the list. A log that is the output file is
written over the result, at the place where the log had come to. Even a quiet run
empties it, so a run that is refused leaves another output file. A log that is open can be
found, and then is an output file, where there would be none without it. Messages that go
to standard output are in an output file that is standard output. -/
theorem log_spoils_other_files :
    (AddsProgress ["w"] ["-l", "w", "w"] ∧ (oneFile "w" "b 2 0 1\n").Logs "w" ∧
      (runOn (oneFile "w" "b 2 0 1\n") ["w"]).1.code = 0 ∧
      WatchList.ofText (runOn (oneFile "w" "b 2 0 1\n") ["-l", "w", "w"]).2.printed
        ≠ WatchList.ofText (runOn (oneFile "w" "b 2 0 1\n") ["w"]).2.printed) ∧
    (AddsProgress ["-o", "o", "w"] ["-o", "o", "-l", "o", "w"] ∧
      (oneFile "w" "b 2 0 1\n").Logs "o" ∧
      (runOn (oneFile "w" "b 2 0 1\n") ["-o", "o", "w"]).1.code = 0 ∧
      (runOn (oneFile "w" "b 2 0 1\n") ["-o", "o", "-l", "o", "w"]).2.readFile "o"
        ≠ (runOn (oneFile "w" "b 2 0 1\n") ["-o", "o", "w"]).2.readFile "o") ∧
    (AddsProgress ["-c", "-o", "o", "w"] ["-q", "-c", "-o", "o", "-l", "o", "w"] ∧
      (oneFile "w" "i 3\n").Logs "o" ∧
      (runOn (oneFile "w" "i 3\n") ["-c", "-o", "o", "w"]).1.code = 1 ∧
      (runOn (oneFile "w" "i 3\n") ["-q", "-c", "-o", "o", "-l", "o", "w"]).2.readFile "o"
        ≠ (runOn (oneFile "w" "i 3\n") ["-c", "-o", "o", "w"]).2.readFile "o") ∧
    (AddsProgress ["-o", "/proc/self/fd/3", "w"] ["--log", "l", "-o", "/proc/self/fd/3", "w"] ∧
      (oneFile "w" "b 2 0 1\n").Logs "l" ∧
      (runOn (oneFile "w" "b 2 0 1\n") ["-o", "/proc/self/fd/3", "w"]).1.code = 1 ∧
      (runOn (oneFile "w" "b 2 0 1\n") ["--log", "l", "-o", "/proc/self/fd/3", "w"]).1.code = 0) ∧
    AddsProgress ["-o", "/dev/stdout", "w"] ["-q", "-o", "/dev/stdout", "w"] ∧
      (runOn (oneFile "w" "b 2 0 1\n") ["-q", "-o", "/dev/stdout", "w"]).2.printed
        ≠ (runOn (oneFile "w" "b 2 0 1\n") ["-o", "/dev/stdout", "w"]).2.printed := by
  have hlogs : ∀ {d : Disk} {path : String}, d.locate path = some (.file (.inside [path])) →
      d.Logs path := fun h => Disk.logs_of_locate h rfl
  refine ⟨⟨?_, hlogs ?_, ?_, ?_⟩, ⟨?_, hlogs ?_, ?_, ?_⟩, ⟨?_, hlogs ?_, ?_, ?_⟩,
    ⟨?_, hlogs ?_, ?_, ?_⟩, ?_, ?_⟩
  all_goals decide +kernel

end WatchLists.Inspector
