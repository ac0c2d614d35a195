import WatchLists.Disk.Session
import WatchLists.Inspector.Run
import WatchLists.Proofs.Order.StableSort
import WatchLists.Proofs.WatchList.Operations
import WatchLists.Proofs.WatchList.Reading

/-!
# The stages of a run

A run on a session that ends well went through all of its stages. Each stage is
said once here: what it made of the list, and what it did to the session. Where
there is no log, the stages before the delivery only add comment lines to what
was printed.

- `run_bind_ok`: a sequence that ends well did so step by step.
- `Told`: a session that differs from an earlier one by comments only.
- `Options.prepare`: what a run is asked to make of a list.
- `inspect_ok`: from the start of a run to the delivery of its result.
-/

namespace WatchLists

/-- What is done on a session, and may stop early. -/
abbrev Activity := ExceptT Stop (StateM Session)

namespace Activity

variable {α β : Type} {s t : Session}

theorem run_bind {σ : Type} (x : ExceptT Stop (StateM σ) α) (f : α → ExceptT Stop (StateM σ) β)
    (s : σ) : (x >>= f).run.run s = (match x.run.run s with
      | (.ok a, s') => (f a).run.run s'
      | (.error e, s') => (.error e, s')) := by
  rw [ExceptT.run_bind, StateT.run_bind]
  rcases x.run.run s with ⟨r, s'⟩
  cases r <;> rfl

theorem run_bind_ok {x : Activity α} {f : α → Activity β} {b : β}
    (h : (x >>= f).run.run s = (.ok b, t)) :
    ∃ a s', x.run.run s = (.ok a, s') ∧ (f a).run.run s' = (.ok b, t) := by
  rw [run_bind] at h
  rcases hx : x.run.run s with ⟨r, s'⟩
  rw [hx] at h
  cases r with
  | error e => cases h
  | ok a => exact ⟨a, s', rfl, h⟩

theorem run_liftM (x : StateM Session α) (s : Session) :
    (liftM x : Activity α).run.run s = (.ok (x.run s).1, (x.run s).2) := rfl

theorem orRefuse_ok {path : String} {x : Except Error α} {a : α}
    (h : (orRefuse path x : Activity α).run.run s = (.ok a, t)) : x = .ok a ∧ s = t := by
  cases x <;> cases h
  exact ⟨rfl, rfl⟩

theorem orFault_ok {x : Except Fault α} {a : α}
    (h : (orFault x : Activity α).run.run s = (.ok a, t)) : x = .ok a ∧ s = t := by
  cases x <;> cases h
  exact ⟨rfl, rfl⟩

end Activity

open Activity

/-- A later session with the same disk, and with no log if there was none, where
comments may have been printed in between. -/
structure Told (s t : Session) : Prop where
  disk : t.disk = s.disk
  log : s.log = none → t.log = none
  printed : ∃ text, WatchList.IsComment text ∧ t.printed = s.printed ++ text

namespace Told

variable {s t u : Session}

theorem refl (s : Session) : Told s s :=
  ⟨rfl, id, "", WatchList.isComment_empty, String.append_empty.symm⟩

theorem trans (h : Told s t) (h' : Told t u) : Told s u := by
  obtain ⟨text, hcomment, hprinted⟩ := h.printed
  obtain ⟨text', hcomment', hprinted'⟩ := h'.printed
  refine ⟨h'.disk.trans h.disk, h'.log ∘ h.log, text ++ text', hcomment.append hcomment', ?_⟩
  rw [hprinted', hprinted, String.append_assoc]

end Told

namespace Inspector

section

variable {s t : Session} {o : Options} {ws : WatchList}

/-! ## Messages -/

theorem lineFeed_not_mem_decimal (n : Nat) : '\n' ∉ (Numeral.decimal n).toList := by
  intro h
  exact absurd (Numeral.isDigit_of_mem_decimal h) (by decide)

theorem isCommentLine_readMessage (ws : WatchList) :
    WatchList.IsCommentLine (readMessage ws) := by
  unfold readMessage
  constructor
  · simp only [String.toList_append, List.append_assoc]
    rfl
  · -- numerals aside, the text is fixed
    simp only [String.toList_append, List.mem_append, lineFeed_not_mem_decimal, or_false]
    decide

theorem isCommentLine_sweptMessage (n : Nat) : WatchList.IsCommentLine (sweptMessage n) := by
  unfold sweptMessage
  constructor
  · simp only [String.toList_append, List.append_assoc]
    rfl
  · simp only [String.toList_append, List.mem_append, lineFeed_not_mem_decimal, or_false]
    decide

theorem isCommentLine_unorderedMessage : WatchList.IsCommentLine unorderedMessage :=
  ⟨by decide, by decide⟩

/-- The path is told as it is, so it must be one line. -/
theorem isCommentLine_savedMessage {path : String} (h : '\n' ∉ path.toList) :
    WatchList.IsCommentLine (savedMessage path) := by
  unfold savedMessage
  constructor
  · rw [String.toList_append]
    rfl
  · rw [String.toList_append, List.mem_append]
    exact not_or.mpr ⟨by decide, h⟩

theorem isComment_readMessage (ws : WatchList) :
    WatchList.IsComment (readMessage ws ++ "\n") :=
  WatchList.isComment_line (isCommentLine_readMessage ws)

theorem isComment_sweptMessage (n : Nat) : WatchList.IsComment (sweptMessage n ++ "\n") :=
  WatchList.isComment_line (isCommentLine_sweptMessage n)

/-! ## What is asked for -/

/-- What is left of a list after the sweep, if there is one. -/
def Options.swept (o : Options) (ws : WatchList) : WatchList :=
  if o.sweep then ws.filter fun w => decide (¬ w.isMarked = .ok true) else ws

/-- What a run is asked to make of a list: the marked binary watches go if it
sweeps, and the rest is put in order if it sorts. -/
def Options.prepare (o : Options) (ws : WatchList) : Except Fault WatchList :=
  if o.sort then (o.swept ws).sortBinaryFirst else .ok (o.swept ws)

/-- It is what the sweep leaves. -/
theorem Options.swept_of_sweep (h : o.sweep = true) (ws : WatchList) :
    o.swept ws = ws.sweep.1 := (if_pos h).trans (Operation.withoutMarked_eq ws).symm

theorem Options.swept_of_not_sweep (h : o.sweep = false) (ws : WatchList) :
    o.swept ws = ws := if_neg (by rw [h]; nofun)

theorem Options.prepare_of_sort (h : o.sort = true) (ws : WatchList) :
    o.prepare ws = (o.swept ws).sortBinaryFirst := if_pos h

theorem Options.prepare_of_not_sort (h : o.sort = false) (ws : WatchList) :
    o.prepare ws = .ok (o.swept ws) := if_neg (by rw [h]; nofun)

theorem mem_of_mem_swept {w : Watch} (h : w ∈ o.swept ws) : w ∈ ws := by
  unfold Options.swept at h
  split at h
  · exact (List.mem_filter.mp h).1
  · exact h

/-- Options ask for a text or for a run. -/
theorem Options.text_or_run (o : Options) :
    (o.help = true ∨ o.version = true) ∨ (o.help = false ∧ o.version = false) := by
  cases o.help <;> cases o.version <;> simp

/-- A run that is asked for no text goes on with the options it read. -/
theorem command_eq_runWith {m : Type → Type} [Monad m] [Host m] {args : List String}
    (hargs : Options.read {} args = (o, none)) (hhelp : o.help = false)
    (hversion : o.version = false) : (command args : m Exit) = runWith o := by
  unfold command
  rw [hargs]
  dsimp only
  rw [hhelp, hversion]
  rfl

/-- The text that is asked for, if one is. -/
def Options.text (o : Options) : String :=
  if o.help then usage ++ "\n" else "splw " ++ Inspector.version ++ "\n"

theorem Options.text_of_help (h : o.help = true) : o.text = usage ++ "\n" := if_pos h

/-- A text that is asked for is printed, and nothing else is done. -/
theorem command_eq_print {m : Type → Type} [Monad m] [Host m] {args : List String}
    (hargs : Options.read {} args = (o, none)) (htext : o.help = true ∨ o.version = true) :
    (command args : m Exit) = (Host.print o.text >>= fun _ => pure ⟨0, ""⟩) := by
  unfold command Options.text
  rw [hargs]
  dsimp only
  cases hhelp : o.help with
  | true => rfl
  | false =>
    rw [htext.resolve_left (by rw [hhelp]; nofun)]
    rfl

/-- A check that is passed changes nothing. -/
theorem check_ok {stop : Stop} {ws' : WatchList}
    (h : (do
      if o.check then
        unless ← orFault ws.isBinaryFirst do
          throw stop
      return ws : Activity WatchList).run.run s = (.ok ws', t)) : ws = ws' ∧ s = t := by
  dsimp only at h
  split at h
  · obtain ⟨ok, _, hcheck, h₁⟩ := run_bind_ok h
    obtain ⟨_, rfl⟩ := orFault_ok hcheck
    cases ok <;> cases h₁
    exact ⟨rfl, rfl⟩
  · cases h
    exact ⟨rfl, rfl⟩

/-! ## Exits -/

theorem exitOf_code_ne_zero (stop : Stop) : (exitOf stop).code ≠ 0 := by
  cases stop with
  | refused e path? => cases path? <;> nofun
  | fault f => nofun

/-- The exit of a run, from how it ended. -/
def exitWith : Except Stop Unit → Exit
  | .ok () => ⟨0, ""⟩
  | .error stop => exitOf stop

theorem eq_ok_of_exitWith {r : Except Stop Unit} (h : (exitWith r).code = 0) : r = .ok () := by
  cases r with
  | ok _ => rfl
  | error stop => exact absurd h (exitOf_code_ne_zero stop)

/-- The state of a host once the log is open, if the run has one. -/
def openedLog {σ : Type} [Host (StateM σ)] (o : Options) (s : σ) : σ :=
  match o.log? with
  | some path => ((Host.openLog path : StateM σ Bool).run s).2
  | none => s

/-- A run on any host with a state opens its log, and exits as it ends. -/
theorem runWith_run_of_host {σ : Type} [Host (StateM σ)] (o : Options) (s : σ) :
    (runWith o : StateM σ Exit).run s
      = (exitWith ((inspect o : ExceptT Stop (StateM σ) Unit).run.run (openedLog o s)).1,
        ((inspect o : ExceptT Stop (StateM σ) Unit).run.run (openedLog o s)).2) := by
  have hinspect : ∀ s, ((inspect o : ExceptT Stop (StateM σ) Unit).run >>= fun r => match r with
      | .ok () => return ⟨0, ""⟩
      | .error stop => return exitOf stop : StateM σ Exit).run s
        = (exitWith ((inspect o : ExceptT Stop (StateM σ) Unit).run.run s).1,
          ((inspect o : ExceptT Stop (StateM σ) Unit).run.run s).2) := by
    intro s
    rw [StateT.run_bind]
    rcases (inspect o : ExceptT Stop (StateM σ) Unit).run.run s with ⟨r, t⟩
    cases r <;> rfl
  unfold runWith openedLog
  cases o.log? with
  | none => exact hinspect s
  | some path => exact hinspect _

end

end Inspector

variable [Surroundings]

/-! ## Files -/

/-- Reading a file changes nothing. -/
theorem WatchList.load_run (path : String) (s : Session) :
    (load path : Activity WatchList).run.run s = (match s.readFile path with
      | some bytes => (ofBytes bytes).mapError fun e => .refused e (some path)
      | none => .error (.refused .inaccessible (some path)), s) := by
  unfold load
  have hhost : (Host.readFile path : StateM Session (Option (List UInt8))).run s
      = (s.readFile path, s) := rfl
  rw [run_bind, run_liftM, hhost]
  dsimp only
  cases s.readFile path with
  | none => rfl
  | some bytes =>
    dsimp only
    cases ofBytes bytes <;> rfl

theorem WatchList.load_ok {s t : Session} {path : String} {ws : WatchList}
    (h : (load path : Activity WatchList).run.run s = (.ok ws, t)) :
    s = t ∧ ∃ bytes, s.readFile path = some bytes ∧ ofBytes bytes = .ok ws := by
  unfold load at h
  obtain ⟨content, s', hread, h₁⟩ := run_bind_ok h
  have hcontent : s.readFile path = content := Except.ok.inj (congrArg Prod.fst hread)
  obtain rfl : s = s' := congrArg Prod.snd hread
  cases content with
  | none => cases h₁
  | some bytes =>
    obtain ⟨hws, rfl⟩ := orRefuse_ok h₁
    exact ⟨rfl, bytes, hcontent, hws⟩

/-- A list that can be dumped is written, or refused on account of the file. -/
theorem WatchList.save_run {form : ClauseForm} {ws : WatchList} {text : String}
    (hdump : ws.dump form = .ok text) (path : String) (s : Session) :
    (save form path ws : Activity Unit).run.run s
      = (if (s.writeFile path text).1 then .ok () else .error (.refused .inaccessible (some path)),
        (s.writeFile path text).2) := by
  unfold save
  have hfault : (orFault (ws.dump form) : Activity String).run.run s = (.ok text, s) := by
    rw [hdump]
    rfl
  have hhost : (Host.writeFile path text : StateM Session Bool).run s = s.writeFile path text := rfl
  rw [run_bind, hfault]
  dsimp only
  rw [run_bind, run_liftM, hhost]
  dsimp only
  cases (s.writeFile path text).1 <;> rfl

theorem WatchList.save_ok {s t : Session} {form : ClauseForm} {path : String} {ws : WatchList}
    (h : (save form path ws : Activity Unit).run.run s = (.ok (), t)) :
    ∃ text, ws.dump form = .ok text ∧ s.writeFile path text = (true, t) := by
  unfold save at h
  obtain ⟨text, _, hrun, h₁⟩ := run_bind_ok h
  obtain ⟨hdump, rfl⟩ := orFault_ok hrun
  obtain ⟨written, s', hwrite, h₂⟩ := run_bind_ok h₁
  rw [run_liftM] at hwrite
  have hfile : s.writeFile path text = (written, s') := by
    have hfst : (s.writeFile path text).1 = written := Except.ok.inj (congrArg Prod.fst hwrite)
    have hsnd : (s.writeFile path text).2 = s' := congrArg Prod.snd hwrite
    rw [← hfst, ← hsnd]
  cases written <;> cases h₂
  exact ⟨text, hdump, hfile⟩

namespace Inspector

variable {s t : Session} {o : Options} {ws : WatchList}

/-! ## Progress -/

/-- A quiet run tells nothing. -/
theorem report_of_quiet (hquiet : o.quiet = true) (s : Session) (message : String) :
    (report o message : Activity Unit).run.run s = (.ok (), s) := by
  unfold report
  rw [hquiet]
  rfl

/-- A message is told if the log takes it. -/
theorem report_run_of_writeLog {message : String} (hquiet : o.quiet = false)
    (h : (Host.writeLog message : StateM Session Bool).run s = (true, t)) :
    (report o message : Activity Unit).run.run s = (.ok (), t) := by
  unfold report
  rw [hquiet]
  show (liftM (Host.writeLog message : StateM Session Bool) >>= _ : Activity Unit).run.run s = _
  rw [run_bind, run_liftM, h]
  rfl

/-- A message that the log does not take stops the run. -/
theorem report_run_of_refused {message : String} (hquiet : o.quiet = false)
    (h : (Host.writeLog message : StateM Session Bool).run s = (false, t)) :
    (report o message : Activity Unit).run.run s = (.error (.refused .inaccessible o.log?), t) := by
  unfold report
  rw [hquiet]
  show (liftM (Host.writeLog message : StateM Session Bool) >>= _ : Activity Unit).run.run s = _
  rw [run_bind, run_liftM, h]
  rfl

theorem report_run (hlog : s.log = none) (message : String) :
    (report o message : Activity Unit).run.run s
      = (.ok (), if o.quiet then s else { s with printed := s.printed ++ (message ++ "\n") }) := by
  have hwrite : (Host.writeLog message : StateM Session Bool).run s
      = (true, { s with printed := s.printed ++ (message ++ "\n") }) := by
    show s.writeLog message = _
    rw [Session.writeLog, hlog]
  cases hquiet : o.quiet with
  | true => exact report_of_quiet hquiet s message
  | false => exact report_run_of_writeLog hquiet hwrite

theorem report_disk {message : String} {r : Except Stop Unit}
    (h : (report o message : Activity Unit).run.run s = (r, t)) (hlog : s.log = none) :
    t.disk = s.disk := by
  rw [report_run hlog] at h
  cases h
  split <;> rfl

theorem report_ok (hlog : s.log = none) {message : String}
    (hcomment : WatchList.IsComment (message ++ "\n")) {r : Except Stop Unit}
    (h : (report o message : Activity Unit).run.run s = (r, t)) : r = .ok () ∧ Told s t := by
  rw [report_run hlog] at h
  cases h
  refine ⟨rfl, ?_⟩
  split
  · exact Told.refl s
  · exact ⟨rfl, id, message ++ "\n", hcomment, rfl⟩

/-! ## Stages -/

theorem sweepIfAsked_ok (hlog : s.log = none) {ws' : WatchList}
    (h : (sweepIfAsked o ws : Activity WatchList).run.run s = (.ok ws', t)) :
    ws' = o.swept ws ∧ Told s t := by
  unfold sweepIfAsked at h
  cases hsweep : o.sweep with
  | false =>
    rw [hsweep] at h
    cases h
    exact ⟨(Options.swept_of_not_sweep hsweep ws).symm, Told.refl s⟩
  | true =>
    rw [hsweep] at h
    -- what is swept does not depend on the report
    obtain ⟨_, s', hreport, h₁⟩ := run_bind_ok h
    cases h₁
    exact ⟨(Options.swept_of_sweep hsweep ws).symm,
      (report_ok hlog (isComment_sweptMessage _) hreport).2⟩

theorem orderIfAsked_ok {ws' : WatchList}
    (h : (orderIfAsked o ws : Activity WatchList).run.run s = (.ok ws', t)) :
    (if o.sort then ws.sortBinaryFirst else .ok ws) = .ok ws' ∧ s = t := by
  unfold orderIfAsked at h
  dsimp only at h
  split at h
  · -- a list without an order is refused
    obtain ⟨_, _, _, h₁⟩ := run_bind_ok h
    obtain ⟨_, _, hthrow, _⟩ := run_bind_ok h₁
    cases hthrow
  · split at h
    · next hsort =>
      obtain ⟨sorted, _, hrun, h₁⟩ := run_bind_ok h
      obtain ⟨hsorted, rfl⟩ := orFault_ok hrun
      obtain ⟨rfl, rfl⟩ := check_ok h₁
      exact ⟨(if_pos hsort).trans hsorted, rfl⟩
    · next hsort =>
      obtain ⟨rfl, rfl⟩ := check_ok h
      exact ⟨if_neg hsort, rfl⟩

/-- A run up to the delivery of its result. -/
def readAndPrepare (o : Options) : Activity WatchList := do
  let ws ← WatchList.load o.input
  report o (readMessage ws)
  let ws ← sweepIfAsked o ws
  orderIfAsked o ws

theorem inspect_eq (o : Options) :
    (inspect o : Activity Unit) = readAndPrepare o >>= deliver o := by
  unfold inspect readAndPrepare
  simp only [bind_assoc]

theorem readAndPrepare_ok (hlog : s.log = none) {result : WatchList}
    (h : (readAndPrepare o).run.run s = (.ok result, t)) :
    ∃ bytes ws, s.readFile o.input = some bytes ∧ WatchList.ofBytes bytes = .ok ws ∧
      o.prepare ws = .ok result ∧ Told s t := by
  unfold readAndPrepare at h
  obtain ⟨ws, _, hload, h₁⟩ := run_bind_ok h
  obtain ⟨rfl, bytes, hbytes, hws⟩ := WatchList.load_ok hload
  obtain ⟨_, _, hreport, h₂⟩ := run_bind_ok h₁
  obtain ⟨_, hread⟩ := report_ok hlog (isComment_readMessage ws) hreport
  obtain ⟨_, u, hsweep, h₃⟩ := run_bind_ok h₂
  obtain ⟨rfl, hswept⟩ := sweepIfAsked_ok (hread.log hlog) hsweep
  obtain ⟨hresult, rfl⟩ := orderIfAsked_ok h₃
  exact ⟨bytes, ws, hbytes, hws, hresult, hread.trans hswept⟩

theorem inspect_ok (hlog : s.log = none)
    (h : (inspect o : Activity Unit).run.run s = (.ok (), t)) :
    ∃ bytes ws result u, s.readFile o.input = some bytes ∧ WatchList.ofBytes bytes = .ok ws ∧
      o.prepare ws = .ok result ∧ Told s u ∧
      (deliver o result : Activity Unit).run.run u = (.ok (), t) := by
  rw [inspect_eq] at h
  obtain ⟨result, u, hprepare, hdeliver⟩ := run_bind_ok h
  obtain ⟨bytes, ws, hbytes, hws, hresult, htold⟩ := readAndPrepare_ok hlog hprepare
  exact ⟨bytes, ws, result, u, hbytes, hws, hresult, htold, hdeliver⟩

/-! ## Delivery -/

theorem deliver_eq_of_none (houtput : o.output? = none) (ws : WatchList) :
    (deliver o ws : Activity Unit) = orFault (ws.dump .blocker) >>= fun text =>
      liftM (Host.print text : StateM Session Unit) := by
  rw [deliver, houtput]

theorem deliver_eq_of_some {path : String} (houtput : o.output? = some path) (ws : WatchList) :
    (deliver o ws : Activity Unit)
      = WatchList.save .blocker path ws >>= fun _ => report o (savedMessage path) := by
  rw [deliver, houtput]

theorem deliver_ok_of_none (houtput : o.output? = none)
    (h : (deliver o ws : Activity Unit).run.run s = (.ok (), t)) :
    ∃ text, ws.dump .blocker = .ok text ∧ t = { s with printed := s.printed ++ text } := by
  rw [deliver_eq_of_none houtput] at h
  obtain ⟨text, _, hrun, h₁⟩ := run_bind_ok h
  obtain ⟨hdump, rfl⟩ := orFault_ok hrun
  rw [run_liftM] at h₁
  exact ⟨text, hdump, (congrArg Prod.snd h₁).symm⟩

theorem deliver_ok_of_some {path : String} (houtput : o.output? = some path)
    (h : (deliver o ws : Activity Unit).run.run s = (.ok (), t)) :
    ∃ text u, ws.dump .blocker = .ok text ∧ s.writeFile path text = (true, u) ∧
      (report o (savedMessage path) : Activity Unit).run.run u = (.ok (), t) := by
  rw [deliver_eq_of_some houtput] at h
  obtain ⟨_, u, hsave, h₁⟩ := run_bind_ok h
  obtain ⟨text, hdump, hwrite⟩ := WatchList.save_ok hsave
  exact ⟨text, u, hdump, hwrite, h₁⟩

/-! ## Whole runs -/

/-- A session before a run, with its log opened if the run has one. -/
def withLog (o : Options) (s : Session) : Session :=
  match o.log? with
  | some path => (s.openLog path).2
  | none => s

theorem openedLog_eq_withLog (o : Options) (s : Session) : openedLog o s = withLog o s := by
  unfold openedLog withLog
  cases o.log? <;> rfl

theorem runWith_run (o : Options) (s : Session) :
    (runWith o : StateM Session Exit).run s
      = (exitWith ((inspect o : Activity Unit).run.run (withLog o s)).1,
        ((inspect o : Activity Unit).run.run (withLog o s)).2) := by
  rw [runWith_run_of_host, openedLog_eq_withLog]

/-- A run without a log that exits with 0 came to its end. -/
theorem inspect_of_exit_zero {e : Exit} (hlog : o.log? = none)
    (h : (runWith o : StateM Session Exit).run s = (e, t)) (hcode : e.code = 0) :
    (inspect o : Activity Unit).run.run s = (.ok (), t) := by
  have hwith : withLog o s = s := by rw [withLog, hlog]
  rw [runWith_run, hwith] at h
  rcases hrun : (inspect o : Activity Unit).run.run s with ⟨r, t'⟩
  rw [hrun] at h
  cases r with
  | ok _ =>
    cases h
    rfl
  | error stop =>
    cases h
    exact absurd hcode (exitOf_code_ne_zero stop)

end Inspector

end WatchLists
