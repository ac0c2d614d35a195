import WatchLists.Proofs.Inspector.ExitCode
import WatchLists.Proofs.Inspector.Recording

/-!
# A run that fails changes nothing

The result is the last thing that a run writes, and what it writes it may have read
before. So everything that can go wrong must go wrong before the file of the result is
emptied, or in emptying it. This is so for every run that is refused, whatever the
reason: the only file that it may have changed is that of its log, and it has printed
nothing but comments.

- `Intact`: what holds from the opening of the log to the delivery.
- `recorded_deliver_intact`: a delivery that stops has not begun.
- `failure_changes_nothing`: the runs that fail, and those that are asked for a text.
-/

namespace WatchLists.Inspector

open WatchList Activity

/-- Comments that were printed describe no watch. -/
theorem ofLine?_of_mem_transcript {ls : List String} (h : ∀ line ∈ ls, IsCommentLine line) :
    ∀ line ∈ Text.lines (transcript ls).toList, Watch.ofLine? line = .ok none := by
  rw [lines_transcript fun line hline => (h line hline).2]
  intro line hline
  obtain ⟨l, hl, rfl⟩ := List.mem_map.mp hline
  exact ofLine?_of_isCommentLine (h l hl)

section

variable [Surroundings] {o : Options} {d : Disk} {args : List String} {k? : Option Location}

/-! ## What holds before the delivery -/

/-- No file but that of the log has changed, the log takes every line that it will be
given, and only comments were printed. -/
structure Intact (o : Options) (d : Disk) (k? : Option Location) (r : Record) : Prop where
  disk : d.SameBut k? r.session.disk
  log : Tellable o k? r.session
  printed : ∃ ls, (∀ line ∈ ls, IsCommentLine line) ∧ r.session.printed = transcript ls

/-- A line of a comment may be told. -/
theorem bears_intact : Bears o (Intact o d k?) := by
  intro hloud line hline r h
  obtain ⟨t, hwrite, hlogs, hsame, hprinted⟩ :=
    Session.writeLog_of_logsTo (h.log.logsTo hloud) line
  have ht : (r.tell line).session = t := congrArg Prod.snd hwrite
  obtain ⟨ls, hls, htext⟩ := h.printed
  refine ⟨ht ▸ h.disk.trans hsame, .inl (ht ▸ hlogs), ?_⟩
  rw [ht]
  rcases hprinted with hsilent | hshown
  · exact ⟨ls, hls, hsilent.trans htext⟩
  · refine ⟨ls ++ [line], List.forall_mem_append.mpr ⟨hls, List.forall_mem_singleton.mpr hline⟩, ?_⟩
    rw [hshown, htext, transcript_concat]

/-- A delivery that stops has not begun: the file is refused before it is emptied, and
once it is written, the last message is told. -/
theorem recorded_deliver_intact (ws : WatchList) :
    Recorded (Intact o d k?) (deliver o ws) (deliver o ws) (fun _ _ => True) (Intact o d k?) := by
  refine recorded_deliver (W := fun r => Tellable o k? r.session) ws
    (fun _ _ _ _ => trivial) (fun path _ text r h => ?_) fun path _ => ?_
  · cases hwritten : (r.session.writeFile path text).1 with
    | true => exact (h.log.writeFile path text).1
    | false =>
      rw [Session.writeFile_of_refused hwritten]
      exact h
  · refine recorded_report _ (fun _ _ _ => trivial) fun hloud r hlog => ?_
    obtain ⟨t, hwrite, _⟩ := Session.writeLog_of_logsTo (hlog.logsTo hloud) (savedMessage path)
    rw [hwrite]
    exact trivial

/-- A run begins so, unless it is to tell its progress on the full device. -/
theorem intact_withLog (o : Options) (d : Disk) :
    (∃ k?, (∀ l, k? = some l → ∃ path, o.log? = some path ∧ d.locate path = some (.file l)) ∧
      Intact o d k? ⟨withLog o { disk := d }, []⟩) ∨
    (o.quiet = false ∧ (withLog o { disk := d }).disk = d ∧
      (withLog o { disk := d }).printed = "" ∧
      ∃ n, (withLog o { disk := d }).log = some (.device .full, n)) := by
  obtain ⟨hempty, hlog⟩ := withLog_cases o d
  have hprinted : ∃ ls, (∀ line ∈ ls, IsCommentLine line) ∧
      (withLog o { disk := d }).printed = transcript ls := ⟨[], nofun, hempty⟩
  rcases hlog with ⟨k?, hk, hsame, hlogs⟩ | ⟨hdisk, hfull⟩
  · exact .inl ⟨k?, hk, hsame, .inl hlogs, hprinted⟩
  · cases hquiet : o.quiet with
    | true => exact .inl ⟨none, nofun, hdisk.symm ▸ .refl d, .inr ⟨hquiet, hfull⟩, hprinted⟩
    | false => exact .inr ⟨rfl, hdisk, hempty, hfull⟩

/-! ## Runs that are refused -/

/-- A run that is to tell its progress on the full device does not get beyond the first
message. -/
theorem inspect_of_full {s : Session} {n : Nat} (hloud : o.quiet = false)
    (hfull : s.log = some (.device .full, n)) : ((inspect o : Activity Unit).run.run s).2 = s := by
  unfold inspect
  rw [run_bind, Session.load_run]
  cases s.load o.input with
  | error stop => rfl
  | ok ws =>
    have hhost : (Host.writeLog (readMessage ws) : StateM Session Bool).run s = (false, s) :=
      Session.writeLog_full hfull (readMessage ws)
    dsimp only
    rw [run_bind, report_run_of_refused hloud hhost]

/-- A session of a run on a disk that has delivered nothing. -/
structure Undelivered (o : Options) (d : Disk) (s : Session) : Prop where
  /-- Every entry is what it was, but for the file of the log. -/
  entry : ∀ l, (∀ path, o.log? = some path → d.locate path ≠ some (.file l)) →
    s.disk.get? l = d.get? l
  /-- No line that was printed describes a watch. -/
  printed : ∀ line ∈ Text.lines s.printed.toList, Watch.ofLine? line = .ok none

theorem Intact.undelivered {r : Record} (h : Intact o d k? r)
    (hk : ∀ l, k? = some l → ∃ path, o.log? = some path ∧ d.locate path = some (.file l)) :
    Undelivered o d r.session where
  entry l hl := h.disk.entry l fun heq =>
    let ⟨path, hlog, hplace⟩ := hk l heq
    hl path hlog hplace
  printed := by
    obtain ⟨ls, hls, hprinted⟩ := h.printed
    rw [hprinted]
    exact ofLine?_of_mem_transcript hls

/-- A run that is refused has delivered nothing. -/
theorem undelivered_of_code (hargs : Options.read {} args = (o, none))
    (hcode : (runOn d args).1.code = 1) : Undelivered o d (runOn d args).2 := by
  rcases o.text_or_run with htext | ⟨hhelp, hversion⟩
  · cases (code_of_text hargs htext).symm.trans hcode
  rcases intact_withLog o d with ⟨k?, hk, hstart⟩ | ⟨hloud, hdisk, hempty, n, hfull⟩
  · obtain ⟨e, r, _, hrun, hafter⟩ := exists_record hargs hhelp hversion
      (recorded_inspect bears_intact recorded_deliver_intact) hstart
    rw [hrun] at hcode ⊢
    cases e with
    | ok _ => cases hcode
    | error _ => exact hafter.undelivered hk
  · -- the run stops where it began
    rw [runOn_eq hargs hhelp hversion, inspect_of_full hloud hfull]
    refine ⟨fun l _ => by rw [hdisk], ?_⟩
    rw [hempty]
    nofun

/-- **Failing runs.** A run that exits with 2, or that is asked for a text and exits with 0,
leaves the whole disk as it is, the file of a log included. A run that exits with 1,
for whatever reason, leaves everything but the file of its log as it was, be it the
watch file, the file of the result, or any other; and no line that it printed describes a
watch. -/
theorem failure_changes_nothing (d : Disk) (args : List String) :
    ((runOn d args).1.code = 2 → (runOn d args).2.disk = d) ∧
    ∀ o, Options.read {} args = (o, none) →
      (o.help = true ∨ o.version = true →
        (runOn d args).1.code = 0 ∧ (runOn d args).2.disk = d) ∧
      ((runOn d args).1.code = 1 →
        (∀ l, (∀ path, o.log? = some path → d.locate path ≠ some (.file l)) →
          (runOn d args).2.disk.get? l = d.get? l) ∧
        ∀ line ∈ Text.lines (runOn d args).2.printed.toList, Watch.ofLine? line = .ok none) := by
  refine ⟨fun hcode => ?_, fun o hargs => ⟨fun htext => ?_, fun hcode => ?_⟩⟩
  · rcases hargs : Options.read {} args with ⟨o, e?⟩
    cases e? with
    | none => exact absurd hcode (code_ne_two hargs)
    | some e =>
      unfold runOn command
      rw [hargs]
      rfl
  · rw [runOn_of_text hargs htext]
    exact ⟨rfl, rfl⟩
  · obtain ⟨hentry, hprinted⟩ := undelivered_of_code hargs hcode
    exact ⟨hentry, hprinted⟩

end

/-- A list with an idx watch is not sorted. It was to replace itself, and is still there. -/
theorem failure_changes_nothing_idx :
    (runOn (oneFile "w" "i 3\n") ["-s", "-l", "p", "-o", "w", "w"]).1.code = 1 ∧
    (runOn (oneFile "w" "i 3\n") ["-s", "-l", "p", "-o", "w", "w"]).2.disk.get? (.inside ["w"])
      = some (.file (Text.encode "i 3\n".toList)) ∧
    (runOn (oneFile "w" "i 3\n") ["-l", "w", "-x"]).2.disk = oneFile "w" "i 3\n" := by
  have hargs : Options.read {} ["-s", "-l", "p", "-o", "w", "w"]
      = ({ input := "w", output? := some "w", log? := some "p", sort := true }, none) := by
    decide +kernel
  have hcode : (runOn (oneFile "w" "i 3\n") ["-s", "-l", "p", "-o", "w", "w"]).1.code = 1 := by
    decide +kernel
  obtain ⟨hentry, _⟩ := ((failure_changes_nothing _ _).2 _ hargs).2 hcode
  refine ⟨hcode, hentry (.inside ["w"]) ?_, (failure_changes_nothing _ _).1 (by decide +kernel)⟩
  rintro _ ⟨⟩
  decide +kernel

end WatchLists.Inspector
