import WatchLists.Proofs.Inspector.Delivery

/-!
# What a run tells

A session keeps what was printed and what became of the files, but not which lines were
given to the log. A record keeps these too, whether the log took them or not. It is a host
like the session in it, so that the same run can be done on it, and recording
makes no difference to the run.

- `Record`: a session with the lines that were given to the log.
- `Recorded`: an activity does the same on a record as on its session; with what holds
  before and after it, by how it ended.
- `Recorded.bind`, `recorded_inspect`: the stages of a run, one after the other.
- `told`, `command_recorded`: the lines of a whole run, and that recording them is
  harmless.
-/

namespace WatchLists

/-! ## Records -/

/-- A session with the lines that were given to the log, the first one first. -/
structure Record where
  /-- The session. -/
  session : Session
  /-- The lines. -/
  told : List String

namespace Record

/-- Does something on the session. -/
def onSession {α : Type} (x : StateM Session α) : StateM Record α := fun r =>
  ((x.run r.session).1, { r with session := (x.run r.session).2 })

/-- The record after a line was given to the log. -/
def tell (r : Record) (line : String) : Record :=
  ⟨(r.session.writeLog line).2, r.told ++ [line]⟩

/-- A record is a host. What is done is done on the session, and lines for the log are
kept besides. -/
instance [Surroundings] : Host (StateM Record) where
  readFile path := onSession (Host.readFile path)
  writeFile path text := onSession (Host.writeFile path text)
  openLog path := onSession (Host.openLog path)
  writeLog line := fun r => ((r.session.writeLog line).1, r.tell line)
  print text := onSession (Host.print text)

end Record

/-- What is done on a record, and may stop early. -/
abbrev Recording := ExceptT Stop (StateM Record)

/-- What holds after an activity, by how it ended. -/
def After {α : Type} (Q : α → Record → Prop) (E : Record → Prop) : Except Stop α → Record → Prop
  | .ok a, r => Q a r
  | .error _, r => E r

theorem After.of_same {α : Type} {P : Record → Prop} {e : Except Stop α} {r : Record}
    (h : After (fun _ => P) P e r) : P r := by
  cases e with
  | ok _ => exact h
  | error _ => exact h

/-- From a record of which `P` holds, an activity does on it what it does on the session:
it ends in the same way and leaves a record of the session it would leave. Then `Q` holds
if it ended well, and `E` if it stopped. -/
def Recorded {α : Type} (P : Record → Prop) (x' : Recording α) (x : Activity α)
    (Q : α → Record → Prop) (E : Record → Prop) : Prop :=
  ∀ r, P r → ∃ e r', x'.run.run r = (e, r') ∧ x.run.run r.session = (e, r'.session) ∧
    After Q E e r'

namespace Recorded

open Activity

variable {α β : Type} {P E : Record → Prop} {Q : α → Record → Prop} {R : β → Record → Prop}
  {x' y' : Recording α} {x y : Activity α}

theorem bind {f' : α → Recording β} {f : α → Activity β} (hx : Recorded P x' x Q E)
    (hf : ∀ a, Recorded (Q a) (f' a) (f a) R E) : Recorded P (x' >>= f') (x >>= f) R E := by
  intro r hr
  obtain ⟨e, r', hx', hx, hafter⟩ := hx r hr
  rw [run_bind, run_bind, hx', hx]
  cases e with
  | error stop => exact ⟨.error stop, r', rfl, rfl, hafter⟩
  | ok a => exact hf a r' hafter

theorem pure {a : α} (h : ∀ r, P r → Q a r) :
    Recorded P (Pure.pure a : Recording α) (Pure.pure a : Activity α) Q E :=
  fun r hr => ⟨.ok a, r, rfl, rfl, h r hr⟩

theorem throw {stop : Stop} (h : ∀ r, P r → E r) :
    Recorded P (MonadExcept.throw stop : Recording α) (MonadExcept.throw stop : Activity α) Q E :=
  fun r hr => ⟨.error stop, r, rfl, rfl, h r hr⟩

theorem ite {c : Prop} [Decidable c] (hx : Recorded P x' x Q E) (hy : Recorded P y' y Q E) :
    Recorded P (if c then x' else y') (if c then x else y) Q E := by
  split
  · exact hx
  · exact hy

/-- A single effect on the session. -/
theorem onSession {z : StateM Session α}
    (h : ∀ r, P r → Q (z.run r.session).1 { r with session := (z.run r.session).2 }) :
    Recorded P (liftM (Record.onSession z) : Recording α) (liftM z : Activity α) Q E :=
  fun r hr => ⟨.ok _, _, rfl, rfl, h r hr⟩

theorem orFault {z : Except Fault α} (hQ : ∀ a r, P r → Q a r) (hE : ∀ r, P r → E r) :
    Recorded P (WatchLists.orFault z) (WatchLists.orFault z) Q E := by
  cases z with
  | ok a => exact .pure (hQ a)
  | error f => exact .throw hE

theorem orRefuse {path : String} {z : Except Error α} (hQ : ∀ a r, P r → Q a r)
    (hE : ∀ r, P r → E r) : Recorded P (WatchLists.orRefuse path z) (WatchLists.orRefuse path z) Q E := by
  cases z with
  | ok a => exact .pure (hQ a)
  | error e => exact .throw hE

end Recorded

namespace Inspector

variable {o : Options} {P W E : Record → Prop} {Q : Unit → Record → Prop}

/-! ## Stages -/

/-- A property of records that a line of a comment which is told does not break. -/
def Bears (o : Options) (P : Record → Prop) : Prop :=
  o.quiet = false → ∀ line, WatchList.IsCommentLine line → ∀ r, P r → P (r.tell line)

/-- A check tells nothing. -/
theorem recorded_check (o : Options) (stop : Stop) (ws : WatchList) :
    Recorded P
      (do
        if o.check then
          unless ← orFault ws.isBinaryFirst do
            throw stop
        return ws)
      (do
        if o.check then
          unless ← orFault ws.isBinaryFirst do
            throw stop
        return ws)
      (fun _ => P) P := by
  dsimp only
  refine .ite (.bind (Q := fun _ => P) (.orFault (fun _ _ hr => hr) fun _ hr => hr) fun ok => ?_)
    (.pure fun _ hr => hr)
  exact .ite (.pure fun _ hr => hr) (.throw fun _ hr => hr)

variable [Surroundings]

/-- Reading a file changes nothing. -/
theorem recorded_load (path : String) :
    Recorded P (WatchList.load path) (WatchList.load path) (fun _ => P) P := by
  unfold WatchList.load
  refine .bind (Q := fun _ => P) (.onSession fun _ hr => hr) fun content => ?_
  cases content with
  | none => exact .throw fun _ hr => hr
  | some bytes => exact .orRefuse (fun _ _ hr => hr) fun _ hr => hr

/-- A message is recorded, unless the run is quiet, and the run goes on if the log
takes it. -/
theorem recorded_report (message : String) (hquiet : o.quiet = true → ∀ r, P r → Q () r)
    (htell : o.quiet = false → ∀ r, P r →
      if (r.session.writeLog message).1 then Q () (r.tell message) else E (r.tell message)) :
    Recorded P (report o message) (report o message) Q E := by
  unfold report
  cases hloud : o.quiet with
  | true => exact .pure (hquiet hloud)
  | false =>
    have hline : Recorded P (liftM (Host.writeLog message : StateM Record Bool))
        (liftM (Host.writeLog message : StateM Session Bool))
        (fun taken r => if taken then Q () r else E r) E :=
      fun r hr => ⟨.ok _, _, rfl, rfl, htell hloud r hr⟩
    refine hline.bind fun taken => ?_
    cases taken with
    | true => exact .pure fun r hr => hr
    | false => exact .throw fun r hr => hr

theorem Bears.recorded_report (h : Bears o P) {message : String}
    (hmessage : WatchList.IsCommentLine message) :
    Recorded P (report o message) (report o message) (fun _ => P) P := by
  refine Inspector.recorded_report message (fun _ _ hr => hr) fun hloud r hr => ?_
  split
  · exact h hloud message hmessage r hr
  · exact h hloud message hmessage r hr

theorem recorded_sweepIfAsked (h : Bears o P) (ws : WatchList) :
    Recorded P (sweepIfAsked o ws) (sweepIfAsked o ws) (fun _ => P) P :=
  .ite (.bind (h.recorded_report (isCommentLine_sweptMessage _)) fun _ => .pure fun _ hr => hr)
    (.pure fun _ hr => hr)

theorem recorded_orderIfAsked (h : Bears o P) (ws : WatchList) :
    Recorded P (orderIfAsked o ws) (orderIfAsked o ws) (fun _ => P) P := by
  unfold orderIfAsked
  dsimp only
  refine .ite (.bind (h.recorded_report isCommentLine_unorderedMessage) fun _ =>
    .throw fun _ hr => hr) (.ite ?_ ?_)
  · exact .bind (Q := fun _ => P) (.orFault (fun _ _ hr => hr) fun _ hr => hr) fun sorted =>
      recorded_check o _ sorted
  · exact .bind (Q := fun _ => P) (.pure fun _ hr => hr) fun ws => recorded_check o _ ws

/-- The result is printed, or written and told to be. A file that is refused is not told. -/
theorem recorded_deliver (ws : WatchList)
    (hprint : o.output? = none → ∀ text r, P r →
      Q () { r with session := { r.session with printed := r.session.printed ++ text } })
    (hwrite : ∀ path, o.output? = some path → ∀ text r, P r →
      if (r.session.writeFile path text).1 then
        W { r with session := (r.session.writeFile path text).2 }
      else P { r with session := (r.session.writeFile path text).2 })
    (hsaved : ∀ path, o.output? = some path →
      Recorded W (report o (savedMessage path)) (report o (savedMessage path)) Q P) :
    Recorded P (deliver o ws) (deliver o ws) Q P := by
  unfold deliver
  cases houtput : o.output? with
  | none =>
    refine .bind (Q := fun _ => P) (.orFault (fun _ _ hr => hr) fun _ hr => hr) fun text => ?_
    exact .onSession (hprint houtput text)
  | some path =>
    refine .bind (Q := fun _ => W) ?_ fun _ => hsaved path houtput
    unfold WatchList.save
    refine .bind (Q := fun _ => P) (.orFault (fun _ _ hr => hr) fun _ hr => hr) fun text => ?_
    refine .bind (Q := fun written r => if written then W r else P r)
      (.onSession (hwrite path houtput text)) fun written => ?_
    cases written with
    | true => exact .pure fun r hr => hr
    | false => exact .throw fun r hr => hr

/-- **A run as it is recorded.** What the stages bear holds until the delivery, and
wherever the run stops. -/
theorem recorded_inspect (h : Bears o P)
    (hdeliver : ∀ ws, Recorded P (deliver o ws) (deliver o ws) Q P) :
    Recorded P (inspect o) (inspect o) Q P := by
  refine .bind (recorded_load o.input) fun ws => ?_
  refine .bind (h.recorded_report (isCommentLine_readMessage ws)) fun _ => ?_
  refine .bind (recorded_sweepIfAsked h ws) fun ws => ?_
  exact .bind (recorded_orderIfAsked h ws) hdeliver

/-! ## Whole runs -/

/-- The lines that a run with arguments on a disk gives to its log. -/
def told (d : Disk) (args : List String) : List String :=
  ((command args : StateM Record Exit).run ⟨{ disk := d }, []⟩).2.told

theorem told_eq {d : Disk} {args : List String} {e : Exit} {r : Record}
    (h : (command args : StateM Record Exit).run ⟨{ disk := d }, []⟩ = (e, r)) :
    told d args = r.told := by
  rw [told, h]

/-- A run that is asked for no text, from what holds once its log is open. -/
theorem exists_record {d : Disk} {args : List String} (hargs : Options.read {} args = (o, none))
    (hhelp : o.help = false) (hversion : o.version = false)
    (h : Recorded P (inspect o) (inspect o) Q E) (hP : P ⟨withLog o { disk := d }, []⟩) :
    ∃ e r, (command args : StateM Record Exit).run ⟨{ disk := d }, []⟩ = (exitWith e, r) ∧
      runOn d args = (exitWith e, r.session) ∧ After Q E e r := by
  obtain ⟨e, r, hrecord, hsession, hafter⟩ := h _ hP
  refine ⟨e, r, ?_, ?_, hafter⟩
  · have hopen : openedLog o (⟨{ disk := d }, []⟩ : Record) = ⟨withLog o { disk := d }, []⟩ := by
      unfold openedLog withLog
      cases o.log? <;> rfl
    rw [command_eq_runWith hargs hhelp hversion, runWith_run_of_host, hopen, hrecord]
  · rw [runOn, command_eq_runWith hargs hhelp hversion, runWith_run, hsession]

/-- **Recording is harmless.** A run on a record ends as it does on the session, and leaves
the record of the session that it would leave. -/
theorem command_recorded (d : Disk) (args : List String) :
    (command args : StateM Record Exit).run ⟨{ disk := d }, []⟩
      = ((runOn d args).1, ⟨(runOn d args).2, told d args⟩) := by
  have hsame : ∃ e r, (command args : StateM Record Exit).run ⟨{ disk := d }, []⟩ = (e, r) ∧
      runOn d args = (e, r.session) := by
    rcases hargs : Options.read {} args with ⟨o, e?⟩
    cases e? with
    | some e =>
      unfold runOn command
      rw [hargs]
      exact ⟨_, _, rfl, rfl⟩
    | none =>
      rcases o.text_or_run with htext | ⟨hhelp, hversion⟩
      · rw [runOn, command_eq_print hargs htext, command_eq_print hargs htext]
        exact ⟨_, _, rfl, rfl⟩
      · have hall : Bears o fun _ => True := fun _ _ _ _ _ => trivial
        have hdeliver (ws : WatchList) : Recorded (fun _ => True) (deliver o ws) (deliver o ws)
            (fun _ _ => True) fun _ => True :=
          recorded_deliver (W := fun _ => True) ws (fun _ _ _ _ => trivial)
            (fun _ _ _ _ _ => by split <;> exact trivial)
            fun path _ => recorded_report _ (fun _ _ _ => trivial)
              fun _ _ _ => by split <;> exact trivial
        obtain ⟨e, r, hrecord, hsession, _⟩ := exists_record (d := d) hargs hhelp hversion
          (recorded_inspect hall hdeliver) trivial
        exact ⟨exitWith e, r, hrecord, hsession⟩
  obtain ⟨e, r, hrecord, hsession⟩ := hsame
  rw [hrecord, hsession, told_eq hrecord]

end Inspector

end WatchLists
