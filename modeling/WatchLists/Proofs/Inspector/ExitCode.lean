import WatchLists.Proofs.Disk.Logging
import WatchLists.Proofs.Inspector.Delivery
import WatchLists.Proofs.Watch.Grammar
import WatchLists.Proofs.WatchList.OrderKept

/-!
# When a run is refused

A run that was given usable arguments ends in one of two ways: it exits with 0, or it
is refused for a reason that can be told from the options and the session before the
run, and exits with 1. Which lines of progress were written and what they did to the
disk makes no difference to the later stages. No stage asks a watch for what it does
not have: only lists without idx watches are sorted or checked, and a list that was
read can be written.

- `Refusal`: the reasons, each with what is reported.
- `Tellable`, `Ready`: progress can be told, and a later session of a run where it can.
- `orderIfAsked_cases`, `deliver_cases`: the stages that can be refused.
- `inspect_cases`: a run ends well, or is refused for a reason.
- `exit_code`: the exit of every run.
-/

namespace WatchLists

/-! ## Refused files -/

/-- What a file is refused for is wrong with a line, or its bytes are no text. -/
theorem WatchList.isOfLine_of_ofBytes {bytes : List UInt8} {e : Error}
    (h : ofBytes bytes = .error e) : Grammar.isOfLine e = true ∨ e = .inaccessible := by
  rw [ofBytes, ofLines_eq_linesFrom] at h
  obtain ⟨_, line, _, e', _, _, hread, rfl⟩ := linesFrom_eq_error_iff.mp h
  unfold ofByteLine? at hread
  split at hread
  · rw [Grammar.isOfLine_atLine]
    exact .inl (Grammar.isOfLine_of_ofLine? hread)
  · cases hread
    exact .inr rfl

section

variable [Surroundings]

/-- A file is refused on its own account, and never for its order. -/
theorem Session.load_eq_error {s : Session} {path : String} {stop : Stop}
    (h : s.load path = .error stop) : ∃ e, stop = .refused e (some path) ∧ e ≠ .unsorted := by
  unfold load at h
  rw [WatchList.load_run] at h
  dsimp only at h
  split at h
  · next bytes _ =>
    cases hbytes : WatchList.ofBytes bytes with
    | ok ws => rw [hbytes] at h; cases h
    | error e =>
      rw [hbytes] at h
      cases h
      refine ⟨e, rfl, ?_⟩
      rintro rfl
      rcases WatchList.isOfLine_of_ofBytes hbytes with hline | hbad
      · cases hline
      · cases hbad
  · cases h
    exact ⟨.inaccessible, rfl, nofun⟩

/-- A watch that was read from a file can be written. -/
theorem Session.obtainable_of_load {s : Session} {path : String} {ws : WatchList}
    (h : s.load path = .ok ws) : ∀ w ∈ ws, w.Obtainable := by
  intro w hw
  obtain ⟨bytes, _, hws⟩ := exists_bytes_of_load h
  obtain ⟨v, hv, _⟩ := WatchList.exists_view_of_mem_ofBytes hws hw
  exact Watch.obtainable_iff.mpr ⟨v, hv⟩

end

namespace Inspector

open Activity

variable {o : Options} {s t : Session} {ws : WatchList}

/-! ## Idx watches and the check -/

/-- An idx watch is no marked binary watch, so it is there after the sweep. -/
theorem exists_idx_swept_iff :
    (∃ w ∈ o.swept ws, w.kind = .idx) ↔ ∃ w ∈ ws, w.kind = .idx := by
  unfold Options.swept
  split
  · constructor
    · rintro ⟨w, hw, hkind⟩
      exact ⟨w, (List.mem_filter.mp hw).1, hkind⟩
    · rintro ⟨w, hw, hkind⟩
      refine ⟨w, List.mem_filter.mpr ⟨hw, decide_eq_true ?_⟩, hkind⟩
      have hbinary : w.kind ≠ .binary := by
        rw [hkind]
        decide
      rw [Watch.isMarked, Watch.require_of_ne hbinary]
      intro hmarked
      cases hmarked
  · exact Iff.rfl

/-- The check, if it is asked for. -/
def checkIfAsked (o : Options) (ws : WatchList) : Activity WatchList := do
  if o.check then
    unless ← orFault ws.isBinaryFirst do
      throw (.refused .unsorted (some o.input))
  return ws

theorem checkIfAsked_of_inOrder (h : o.check = true → ws.InOrder) (t : Session) :
    (checkIfAsked o ws).run.run t = (.ok ws, t) := by
  unfold checkIfAsked
  cases hcheck : o.check with
  | false => rfl
  | true =>
    rw [(h hcheck).isBinaryFirst]
    rfl

theorem checkIfAsked_of_not_isAscending (hidx : ∀ w ∈ ws, w.kind ≠ .idx)
    (hcheck : o.check = true) (horder : ¬ ws.IsAscending) (t : Session) :
    (checkIfAsked o ws).run.run t = (.error (.refused .unsorted (some o.input)), t) := by
  obtain ⟨b, hb, hiff⟩ := WatchList.exists_isBinaryFirst hidx
  have hfalse : b = false := Bool.eq_false_of_not_eq_true fun h => horder (hiff.mp h)
  unfold checkIfAsked
  rw [hcheck, hb, hfalse]
  rfl

/-- Whether a list is to be in order and has no order. -/
def Options.isUnorderable (o : Options) (ws : WatchList) : Bool :=
  (o.sort || o.check) && ws.any fun w => w.isKind .idx

theorem isUnorderable_iff : o.isUnorderable ws = true ↔
    (o.sort = true ∨ o.check = true) ∧ ∃ w ∈ ws, w.kind = .idx := by
  simp [Options.isUnorderable, Watch.isKind]

section

variable [Surroundings]

/-! ## Reasons -/

/-- Why a run with some options is refused, from the session before it but with its log
open, and what is reported. More than one reason may hold. -/
inductive Refusal (o : Options) (s : Session) : Stop → Prop
  /-- The watch file cannot be read, as it is after the log was opened. -/
  | input {stop : Stop} (h : s.load o.input = .error stop) : Refusal o s stop
  /-- The log refuses a line, and the run is not quiet. -/
  | log {line : String} (hloud : o.quiet = false) (h : (s.writeLog line).1 = false) :
    Refusal o s (.refused .inaccessible o.log?)
  /-- The list has an order to be in, and an idx watch. -/
  | idx {ws : WatchList} {w : Watch} (h : s.load o.input = .ok ws)
    (hasked : o.sort = true ∨ o.check = true) (hw : w ∈ ws) (hkind : w.kind = .idx) :
    Refusal o s (.refused .unsorted (some o.input))
  /-- The list is checked but not sorted, and not in order. -/
  | unsorted {ws : WatchList} (h : s.load o.input = .ok ws) (hcheck : o.check = true)
    (hsort : o.sort = false) (horder : ¬ (o.swept ws).IsAscending) :
    Refusal o s (.refused .unsorted (some o.input))
  /-- The result cannot be written to the output file. -/
  | output {ws result : WatchList} {text path : String} (h : s.load o.input = .ok ws)
    (hprepare : o.prepare ws = .ok result) (hdump : result.dump .blocker = .ok text)
    (houtput : o.output? = some path) (hwrite : (s.writeFile path text).1 = false) :
    Refusal o s (.refused .inaccessible (some path))

/-! ## Sessions of a run -/

/-- The log of a session takes every line, or it is the full device, which takes none, and
the run is quiet. -/
def Tellable (o : Options) (k? : Option Location) (s : Session) : Prop :=
  s.LogsTo k? ∨ o.quiet = true ∧ ∃ n, s.log = some (.device .full, n)

namespace Tellable

variable {k? : Option Location}

theorem logsTo (h : Tellable o k? s) (hloud : o.quiet = false) : s.LogsTo k? :=
  h.resolve_right fun hquiet => by cases hloud.symm.trans hquiet.1

/-- A file that is open, as the log may be, is no directory. -/
theorem not_isDirectory {path : String} {l : Location} (h : Tellable o k? s)
    (hplace : s.locate path = some (.file l)) : s.disk.isDirectory l = false := by
  unfold Session.locate at hplace
  split at hplace
  · -- it is the file of the log
    rcases h with hlogs | ⟨_, n, hfull⟩
    · cases hlogs with
      | console h => rw [h] at hplace; cases hplace
      | file h _ hdir =>
        rw [h] at hplace
        cases hplace
        exact hdir
      | device h => rw [h] at hplace; cases hplace
    · rw [hfull] at hplace
      cases hplace
  · exact Disk.not_isDirectory_of_locate hplace

/-- Writing a file leaves a log that is as good, and all directories. -/
theorem writeFile (h : Tellable o k? s) (path text : String) :
    Tellable o k? (s.writeFile path text).2 ∧
      ∀ l, (s.writeFile path text).2.disk.isDirectory l = s.disk.isDirectory l := by
  rcases s.locate_cases path with ⟨l, hplace, hcan⟩ | ⟨x, hplace⟩ | hrefused
  · have hl := h.not_isDirectory hplace
    have hl' : (s.disk.put l (.file [])).isDirectory l = false :=
      (Disk.isDirectory_put hl [] l).trans hl
    rw [Session.writeFile_eq hplace hcan]
    refine ⟨h.imp (fun hlogs => (hlogs.put hl []).put hl' _) id, fun x => ?_⟩
    exact (Disk.isDirectory_put hl' _ x).trans (Disk.isDirectory_put hl [] x)
  · rw [Session.writeFile_eq_of_device hplace]
    rcases Session.feed_cases x text with hnone | hsome
    · rw [hnone]
      exact ⟨h, fun _ => rfl⟩
    · obtain ⟨u, hfeed, hdisk, hlog⟩ := hsome s
      rw [hfeed]
      refine ⟨h.imp (fun hlogs => hlogs.congr hdisk hlog) fun ⟨hquiet, hfull⟩ => ?_,
        fun x => congrArg (Disk.isDirectory · x) hdisk⟩
      exact ⟨hquiet, hlog ▸ hfull⟩
  · rw [hrefused s rfl]
    exact ⟨h, fun _ => rfl⟩

end Tellable

/-- A later session of a run that can go on: paths name what they named. -/
structure Ready (o : Options) (s t : Session) : Prop where
  told : ∃ k?, Tellable o k? t
  directory : ∀ l, t.disk.isDirectory l = s.disk.isDirectory l
  place : t.log.map Prod.fst = s.log.map Prod.fst

namespace Ready

theorem refl {k? : Option Location} (h : Tellable o k? s) : Ready o s s :=
  ⟨⟨k?, h⟩, fun _ => rfl, rfl⟩

theorem locate (h : Ready o s t) (path : String) : t.locate path = s.locate path :=
  Session.locate_congr h.directory h.place path

/-- Progress is told, or is not to be told. -/
theorem report (h : Ready o s t) (message : String) :
    ∃ u, (report o message : Activity Unit).run.run t = (.ok (), u) ∧ Ready o s u := by
  cases hquiet : o.quiet with
  | true => exact ⟨t, report_of_quiet hquiet t message, h⟩
  | false =>
    obtain ⟨k?, htold⟩ := h.told
    obtain ⟨u, hwrite, hlogs, hsame, _⟩ := Session.writeLog_of_logsTo (htold.logsTo hquiet) message
    have hhost : (Host.writeLog message : StateM Session Bool).run t = (true, u) := hwrite
    have hu : u = (t.writeLog message).2 := (congrArg Prod.snd hwrite).symm
    refine ⟨u, report_run_of_writeLog hquiet hhost, ⟨k?, .inl hlogs⟩, fun l => ?_, ?_⟩
    · exact (hsame.directory l).trans (h.directory l)
    · rw [hu, Session.writeLog_place, h.place]

/-- Whether a file can be written is settled before the run, and writing it leaves a
ready session. -/
theorem writeFile (h : Ready o s t) (path text : String) :
    (t.writeFile path text).1 = (s.writeFile path text).1 ∧
      Ready o s (t.writeFile path text).2 := by
  obtain ⟨k?, htold⟩ := h.told
  obtain ⟨htold', hdir⟩ := htold.writeFile path text
  refine ⟨Session.writeFile_congr (h.locate path) text, ⟨k?, htold'⟩, fun l => ?_, ?_⟩
  · exact (hdir l).trans (h.directory l)
  · rw [Session.writeFile_log, h.place]

end Ready

/-! ## Stages -/

theorem sweepIfAsked_ready (h : Ready o s t) (ws : WatchList) :
    ∃ u, (sweepIfAsked o ws : Activity WatchList).run.run t = (.ok (o.swept ws), u) ∧
      Ready o s u := by
  unfold sweepIfAsked
  cases hsweep : o.sweep with
  | false =>
    rw [Options.swept_of_not_sweep hsweep]
    exact ⟨t, rfl, h⟩
  | true =>
    rw [Options.swept_of_sweep hsweep]
    obtain ⟨u, hreport, hu⟩ := h.report (sweptMessage ws.sweep.2)
    refine ⟨u, ?_, hu⟩
    show (report o (sweptMessage ws.sweep.2) >>= fun _ => pure ws.sweep.1 : Activity WatchList).run.run
      t = _
    rw [run_bind, hreport]
    rfl

theorem orderIfAsked_of_isUnorderable (h : o.isUnorderable ws = true) (hready : Ready o s t) :
    ∃ u, (orderIfAsked o ws : Activity WatchList).run.run t
      = (.error (.refused .unsorted (some o.input)), u) := by
  obtain ⟨u, hreport, _⟩ := hready.report unorderedMessage
  refine ⟨u, ?_⟩
  unfold Options.isUnorderable at h
  unfold orderIfAsked
  dsimp only
  rw [if_pos h, run_bind, hreport]
  rfl

theorem orderIfAsked_eq (h : ¬ o.isUnorderable ws = true) :
    (orderIfAsked o ws : Activity WatchList)
      = (if o.sort then orFault ws.sortBinaryFirst else pure ws) >>= checkIfAsked o := by
  unfold Options.isUnorderable at h
  unfold orderIfAsked
  dsimp only
  rw [if_neg h]
  cases o.sort <;> rfl

/-- **Ordering.** A list that is to be in order is refused for an idx watch. Without one
it is refused if it is checked, not sorted and not in order; or it is sorted if it is to
be, and the check changes nothing. -/
theorem orderIfAsked_cases (h : Ready o s t) (ws : WatchList) :
    ((o.sort = true ∨ o.check = true) ∧ (∃ w ∈ ws, w.kind = .idx) ∧
      ∃ u, (orderIfAsked o ws : Activity WatchList).run.run t
        = (.error (.refused .unsorted (some o.input)), u)) ∨
    (o.check = true ∧ o.sort = false ∧ ¬ ws.IsAscending ∧
      (orderIfAsked o ws : Activity WatchList).run.run t
        = (.error (.refused .unsorted (some o.input)), t)) ∨
    (¬ ((o.sort = true ∨ o.check = true) ∧ ∃ w ∈ ws, w.kind = .idx) ∧
      ¬ (o.check = true ∧ o.sort = false ∧ ¬ ws.IsAscending) ∧
      ∃ result, (if o.sort then ws.sortBinaryFirst else .ok ws) = .ok result ∧
        (orderIfAsked o ws : Activity WatchList).run.run t = (.ok result, t)) := by
  by_cases hidx : o.isUnorderable ws = true
  · obtain ⟨hasked, hwatch⟩ := isUnorderable_iff.mp hidx
    exact .inl ⟨hasked, hwatch, orderIfAsked_of_isUnorderable hidx h⟩
  · rw [orderIfAsked_eq hidx]
    rw [isUnorderable_iff] at hidx
    -- whatever is asked for can be done, for there is no idx watch then
    have hfree : o.sort = true ∨ o.check = true → ∀ w ∈ ws, w.kind ≠ .idx :=
      fun hasked w hw hkind => hidx ⟨hasked, w, hw, hkind⟩
    cases hsort : o.sort with
    | true =>
      obtain ⟨result, hresult, hinorder⟩ := WatchList.InOrder.sorted (hfree (.inl hsort))
      refine .inr (.inr ⟨hsort ▸ hidx, fun hun => ?_, result, hresult, ?_⟩)
      · cases hun.2.1
      · rw [if_pos rfl, hresult, run_bind]
        exact checkIfAsked_of_inOrder (fun _ => hinorder) t
    | false =>
      by_cases hun : o.check = true ∧ ¬ ws.IsAscending
      · refine .inr (.inl ⟨hun.1, rfl, hun.2, ?_⟩)
        exact checkIfAsked_of_not_isAscending (hfree (.inr hun.1)) hun.1 hun.2 t
      · refine .inr (.inr ⟨hsort ▸ hidx, fun h => hun ⟨h.1, h.2.2⟩, ws, rfl, ?_⟩)
        refine checkIfAsked_of_inOrder (fun hcheck => ⟨hfree (.inr hcheck), ?_⟩) t
        exact not_not.mp fun horder => hun ⟨hcheck, horder⟩

/-- **Delivery.** The result is refused if its file is, and delivered otherwise. -/
theorem deliver_cases (h : Ready o s t) {text : String} (hdump : ws.dump .blocker = .ok text) :
    (∃ path, o.output? = some path ∧ (s.writeFile path text).1 = false ∧
      ∃ u, (deliver o ws : Activity Unit).run.run t
        = (.error (.refused .inaccessible (some path)), u)) ∨
    ((∀ path, o.output? = some path → (s.writeFile path text).1 = true) ∧
      ∃ u, (deliver o ws : Activity Unit).run.run t = (.ok (), u)) := by
  cases houtput : o.output? with
  | none =>
    refine .inr ⟨nofun, { t with printed := t.printed ++ text }, ?_⟩
    rw [deliver_eq_of_none houtput, hdump]
    rfl
  | some path =>
    obtain ⟨hsame, hready⟩ := h.writeFile path text
    rw [deliver_eq_of_some houtput, run_bind, WatchList.save_run hdump, hsame]
    cases hwrite : (s.writeFile path text).1 with
    | false => exact .inl ⟨path, rfl, hwrite, _, rfl⟩
    | true =>
      obtain ⟨u, hreport, _⟩ := hready.report (savedMessage path)
      exact .inr ⟨fun p hp => Option.some.inj hp ▸ hwrite, u, hreport⟩

/-! ## Whole runs -/

/-- No reason is left where every stage goes well. -/
theorem not_refusal {result : WatchList} {text : String} (hload : s.load o.input = .ok ws)
    {k? : Option Location} (htold : Tellable o k? s)
    (hidx : ¬ ((o.sort = true ∨ o.check = true) ∧ ∃ w ∈ ws, w.kind = .idx))
    (horder : ¬ (o.check = true ∧ o.sort = false ∧ ¬ (o.swept ws).IsAscending))
    (hprepare : o.prepare ws = .ok result) (hdump : result.dump .blocker = .ok text)
    (hwrite : ∀ path, o.output? = some path → (s.writeFile path text).1 = true) (stop : Stop) :
    ¬ Refusal o s stop := by
  intro h
  cases h with
  | input h => cases h.symm.trans hload
  | log hloud h =>
    obtain ⟨_, htaken, _⟩ := Session.writeLog_of_logsTo (htold.logsTo hloud) _
    rw [htaken] at h
    cases h
  | idx h hasked hw hkind =>
    cases h.symm.trans hload
    exact hidx ⟨hasked, _, hw, hkind⟩
  | unsorted h hcheck hsort hun =>
    cases h.symm.trans hload
    exact horder ⟨hcheck, hsort, hun⟩
  | output h hprepare' hdump' houtput hfails =>
    cases h.symm.trans hload
    cases hprepare'.symm.trans hprepare
    cases hdump'.symm.trans hdump
    cases hfails.symm.trans (hwrite _ houtput)

/-- **One run.** A run whose log takes every line or none is refused for a reason, which
it reports, or there is no reason and it ends well. -/
theorem inspect_cases (o : Options)
    (hlog : (∃ k?, s.LogsTo k?) ∨ ∃ n, s.log = some (.device .full, n)) :
    (∃ stop, Refusal o s stop ∧ ((inspect o : Activity Unit).run.run s).1 = .error stop) ∨
    ((∀ stop, ¬ Refusal o s stop) ∧ ((inspect o : Activity Unit).run.run s).1 = .ok ()) := by
  unfold inspect
  rw [run_bind, Session.load_run]
  cases hload : s.load o.input with
  | error stop => exact .inl ⟨stop, .input hload, rfl⟩
  | ok ws =>
    dsimp only
    rw [run_bind]
    by_cases hready : ∃ k?, Tellable o k? s
    · obtain ⟨k?, htold⟩ := hready
      obtain ⟨t, hreport, ht⟩ := (Ready.refl htold).report (readMessage ws)
      obtain ⟨u, hsweep, hu⟩ := sweepIfAsked_ready ht ws
      rw [hreport]
      dsimp only
      rw [run_bind, hsweep]
      dsimp only
      rw [run_bind]
      rcases orderIfAsked_cases hu (o.swept ws) with ⟨hasked, hidx, v, hrun⟩ |
          ⟨hcheck, hsort, horder, hrun⟩ | ⟨hidx, horder, result, hresult, hrun⟩
      · obtain ⟨w, hw, hkind⟩ := exists_idx_swept_iff.mp hidx
        rw [hrun]
        exact .inl ⟨_, .idx hload hasked hw hkind, rfl⟩
      · rw [hrun]
        exact .inl ⟨_, .unsorted hload hcheck hsort horder, rfl⟩
      · rw [hrun]
        dsimp only
        rw [exists_idx_swept_iff] at hidx
        have hprepare : o.prepare ws = .ok result := hresult
        obtain ⟨text, hdump⟩ := WatchList.exists_dump
          (fun w hw => Session.obtainable_of_load hload w (mem_of_prepare hprepare hw)) .blocker
        rcases deliver_cases hu hdump with ⟨path, houtput, hwrite, v, hdeliver⟩ |
            ⟨hwrite, v, hdeliver⟩
        · rw [hdeliver]
          exact .inl ⟨_, .output hload hprepare hdump houtput hwrite, rfl⟩
        · rw [hdeliver]
          exact .inr ⟨not_refusal hload htold hidx horder hprepare hdump hwrite, rfl⟩
    · -- the first line of progress is refused
      obtain ⟨n, hfull⟩ := hlog.resolve_left fun ⟨k?, hlogs⟩ => hready ⟨k?, .inl hlogs⟩
      have hquiet : o.quiet = false :=
        Bool.eq_false_of_not_eq_true fun hquiet => hready ⟨none, .inr ⟨hquiet, n, hfull⟩⟩
      have hrefused := Session.writeLog_full hfull (readMessage ws)
      have hhost : (Host.writeLog (readMessage ws) : StateM Session Bool).run s = (false, s) :=
        hrefused
      refine .inl ⟨_, .log hquiet (congrArg Prod.fst hrefused), ?_⟩
      rw [report_run_of_refused hquiet hhost]

/-- **The start of a run.** A log that was opened has emptied no file but its own, and takes
every line, unless it is the full device. A log that cannot be opened goes to standard
output. -/
theorem withLog_cases (o : Options) (d : Disk) :
    (withLog o { disk := d }).printed = "" ∧
    ((∃ k?, (∀ l, k? = some l → ∃ path, o.log? = some path ∧ d.locate path = some (.file l)) ∧
        d.SameBut k? (withLog o { disk := d }).disk ∧ (withLog o { disk := d }).LogsTo k?) ∨
      ((withLog o { disk := d }).disk = d ∧
        ∃ n, (withLog o { disk := d }).log = some (.device .full, n))) := by
  cases hlog : o.log? with
  | none =>
    have hwith : withLog o { disk := d } = { disk := d } := by rw [withLog, hlog]
    rw [hwith]
    exact ⟨rfl, .inl ⟨none, by simp, .refl d, .console rfl⟩⟩
  | some path =>
    have hwith : withLog o { disk := d } = (({ disk := d } : Session).openLog path).2 := by
      rw [withLog, hlog]
    rw [hwith]
    rcases openLog_cases d path with ⟨l, hplace, heq⟩ | ⟨x, _, heq⟩ | heq
    · have hl := Disk.not_isDirectory_of_locate hplace
      rw [heq]
      exact ⟨rfl, .inl ⟨some l, fun l' h => ⟨path, rfl, Option.some.inj h ▸ hplace⟩,
        .put_self hl [], logsTo_openLog hplace⟩⟩
    · rw [heq]
      by_cases hx : x = .full
      · exact ⟨rfl, .inr ⟨rfl, 0, by rw [hx]⟩⟩
      · exact ⟨rfl, .inl ⟨none, by simp, .refl d, .device rfl hx⟩⟩
    · rw [heq]
      exact ⟨rfl, .inl ⟨none, by simp, .refl d, .console rfl⟩⟩

theorem logsTo_or_full (o : Options) (d : Disk) :
    (∃ k?, (withLog o { disk := d }).LogsTo k?) ∨
      ∃ n, (withLog o { disk := d }).log = some (.device .full, n) :=
  (withLog_cases o d).2.imp (fun ⟨k?, _, _, hlogs⟩ => ⟨k?, hlogs⟩) fun h => h.2

/-- No reason is a broken precondition. -/
theorem Refusal.exists_refused {stop : Stop} (h : Refusal o s stop) :
    ∃ e path?, stop = .refused e path? := by
  cases h with
  | input h =>
    obtain ⟨e, rfl, _⟩ := Session.load_eq_error h
    exact ⟨e, _, rfl⟩
  | log | idx | unsorted | output => exact ⟨_, _, rfl⟩

theorem Refusal.ne_unsorted_of_sort {path? : Option String} (hload : s.load o.input = .ok ws)
    (hsort : o.sort = true) (hidx : ∀ w ∈ ws, w.kind ≠ .idx) :
    ¬ Refusal o s (.refused .unsorted path?) := by
  intro h
  cases h with
  | input h => cases h.symm.trans hload
  | idx h _ hw hkind =>
    cases h.symm.trans hload
    exact hidx _ hw hkind
  | unsorted _ _ hunsorted _ => cases hsort.symm.trans hunsorted

/-- Arguments that cannot be used are answered with the usage. -/
theorem code_of_unusable {d : Disk} {args : List String} {e : Error}
    (hargs : (Options.read {} args).2 = some e) : (runOn d args).1.code = 2 := by
  rcases hread : Options.read {} args with ⟨o, e?⟩
  rw [hread] at hargs
  unfold runOn command
  rw [hread, show e? = some e from hargs]
  rfl

/-- A text that is asked for is all that is printed. -/
theorem runOn_of_text {d : Disk} {args : List String} (hargs : Options.read {} args = (o, none))
    (htext : o.help = true ∨ o.version = true) :
    runOn d args = (⟨0, ""⟩, { disk := d, printed := o.text }) := by
  rw [runOn, command_eq_print hargs htext]
  show (_, ({ disk := d, printed := "" ++ o.text } : Session)) = _
  rw [String.empty_append]

theorem code_of_text {d : Disk} {args : List String} (hargs : Options.read {} args = (o, none))
    (htext : o.help = true ∨ o.version = true) : (runOn d args).1.code = 0 := by
  rw [runOn_of_text hargs htext]

/-- Other arguments start a run, whose end decides the exit. -/
theorem runOn_eq {d : Disk} {args : List String} (hargs : Options.read {} args = (o, none))
    (hhelp : o.help = false) (hversion : o.version = false) :
    runOn d args = (exitWith ((inspect o : Activity Unit).run.run (withLog o { disk := d })).1,
      ((inspect o : Activity Unit).run.run (withLog o { disk := d })).2) := by
  rw [runOn, command_eq_runWith hargs hhelp hversion]
  exact runWith_run o { disk := d }

theorem exitWith_code_of_refusal {stop : Stop} (h : Refusal o s stop) :
    (exitWith (.error stop)).code = 1 := by
  obtain ⟨e, path?, rfl⟩ := h.exists_refused
  cases path? <;> rfl

/-- A run is refused for a reason and exits with 1, or there is none and it exits with 0. -/
theorem runOn_cases {d : Disk} {args : List String} (hargs : Options.read {} args = (o, none))
    (hhelp : o.help = false) (hversion : o.version = false) :
    let s := withLog o { disk := d }
    let r := ((inspect o : Activity Unit).run.run s).1
    (∃ stop, Refusal o s stop ∧ r = .error stop ∧ (runOn d args).1.code = 1) ∨
      (∀ stop, ¬ Refusal o s stop) ∧ r = .ok () ∧ (runOn d args).1.code = 0 := by
  intro s r
  have hexit : (runOn d args).1 = exitWith r := congrArg Prod.fst (runOn_eq hargs hhelp hversion)
  rcases inspect_cases o (logsTo_or_full o d) with ⟨stop, hreason, hr⟩ | ⟨hnone, hr⟩
  · refine .inl ⟨stop, hreason, hr, ?_⟩
    rw [hexit, show r = .error stop from hr, exitWith_code_of_refusal hreason]
  · refine .inr ⟨hnone, hr, ?_⟩
    rw [hexit, show r = .ok () from hr]
    rfl

/-- Arguments that can be used never exit with 2. -/
theorem code_ne_two {d : Disk} {args : List String} (hargs : Options.read {} args = (o, none)) :
    (runOn d args).1.code ≠ 2 := by
  intro hcode
  rcases o.text_or_run with htext | ⟨hhelp, hversion⟩
  · cases (code_of_text hargs htext).symm.trans hcode
  · rcases runOn_cases hargs hhelp hversion with ⟨_, _, _, h⟩ | ⟨_, _, h⟩
    · cases h.symm.trans hcode
    · cases h.symm.trans hcode

/-- **The exit of every run.** Arguments that cannot be used exit with 2, and no others
do. Of the others, those that ask for the usage or the version exit with 0. A run with
the rest exits with 1 if there is a reason to refuse it, and with 0 if there is none.
It reports a reason that holds, never breaks a precondition, and never complains about
the order of a list without idx watches that it sorts.

Standard output takes every text. A watch file without an end, as some devices are, counts
as one that cannot be read; a run that is given one would not end, and has no exit. -/
theorem exit_code (d : Disk) (args : List String) :
    ((runOn d args).1.code = 2 ↔ (Options.read {} args).2 ≠ none) ∧
    ∀ o, Options.read {} args = (o, none) →
      (o.help = true ∨ o.version = true → (runOn d args).1.code = 0) ∧
      (o.help = false → o.version = false →
        let s := withLog o { disk := d }
        let r := ((inspect o : Activity Unit).run.run s).1
        (runOn d args).1 = exitWith r ∧
        ((runOn d args).1.code = 1 ↔ ∃ stop, Refusal o s stop) ∧
        ((runOn d args).1.code = 0 ↔ ¬ ∃ stop, Refusal o s stop) ∧
        (∀ stop, r = .error stop → Refusal o s stop) ∧
        (∀ f, r ≠ .error (.fault f)) ∧
        ∀ ws path?, s.load o.input = .ok ws → o.sort = true → (∀ w ∈ ws, w.kind ≠ .idx) →
          r ≠ .error (.refused .unsorted path?)) := by
  refine ⟨⟨fun hcode hnone => ?_, fun hsome => ?_⟩, fun o hargs => ⟨code_of_text hargs, ?_⟩⟩
  · exact code_ne_two (Prod.ext rfl hnone) hcode
  · obtain ⟨e, he⟩ := Option.ne_none_iff_exists'.mp hsome
    exact code_of_unusable he
  · intro hhelp hversion s r
    refine ⟨congrArg Prod.fst (runOn_eq hargs hhelp hversion), ?_⟩
    rcases runOn_cases hargs hhelp hversion with ⟨stop, hreason, hr, hcode⟩ | ⟨hnone, hr, hcode⟩
    · have hr' : r = .error stop := hr
      rw [hcode, hr']
      refine ⟨iff_of_true rfl ⟨stop, hreason⟩, iff_of_false nofun (not_not.mpr ⟨stop, hreason⟩),
        ?_, ?_, ?_⟩
      · rintro _ ⟨⟩
        exact hreason
      · rintro f ⟨⟩
        obtain ⟨_, _, hrefused⟩ := hreason.exists_refused
        cases hrefused
      · rintro ws path? hload hsort hidx ⟨⟩
        exact Refusal.ne_unsorted_of_sort hload hsort hidx hreason
    · have hr' : r = .ok () := hr
      rw [hcode, hr']
      exact ⟨iff_of_false nofun fun ⟨stop, h⟩ => hnone stop h,
        iff_of_true rfl fun ⟨stop, h⟩ => hnone stop h, nofun, nofun, fun _ _ _ _ _ => nofun⟩

end

/-- A list with an idx watch cannot be checked. If the log is the watch file, which it
empties, there is nothing to refuse. -/
theorem exit_code_idx :
    (runOn (oneFile "w" "i 3\n") ["-c", "w"]).1.code = 1 ∧
    ¬ ∃ stop, Refusal { input := "w", log? := some "w", check := true }
      (withLog { log? := some "w" } { disk := oneFile "w" "i 3\n" }) stop := by
  have hargs : Options.read {} ["-c", "w"] = ({ input := "w", check := true }, none) := by
    decide +kernel
  have hargs' : Options.read {} ["-c", "-l", "w", "w"]
      = ({ input := "w", log? := some "w", check := true }, none) := by decide +kernel
  have hload : (oneFile "w" "i 3\n").load "w" = .ok [.ofIdx 3] := by decide +kernel
  obtain ⟨_, hone, _⟩ := ((exit_code (oneFile "w" "i 3\n") ["-c", "w"]).2 _ hargs).2 rfl rfl
  obtain ⟨_, _, hzero, _⟩ :=
    ((exit_code (oneFile "w" "i 3\n") ["-c", "-l", "w", "w"]).2 _ hargs').2 rfl rfl
  exact ⟨hone.mpr ⟨_, .idx hload (.inr rfl) (List.mem_singleton.mpr rfl) (by decide)⟩,
    hzero.mp (by decide +kernel)⟩

end Inspector

end WatchLists
