import WatchLists.Proofs.Disk.Logging
import WatchLists.Proofs.Inspector.Recording

/-!
# The messages of a run are comments

Progress may share a stream with a result, since every line of it is a comment. This
holds of all messages of all runs, wherever they stop, but for one reservation: the last
message names the output file as the user wrote it, so that the name must be one
line.

- `told_isCommentLine`: each line that is told.
- `printed_eq_transcript`: where nothing else is printed.
- `messages_are_comments`: what is read of them.
-/

namespace WatchLists.Inspector

open WatchList

/-- A session without a log, which has printed what was told and nothing else. -/
def PrintsOnlyTold (r : Record) : Prop :=
  r.session.log = none ∧ r.session.printed = transcript r.told

/-- A message is printed, and all else stays. -/
theorem PrintsOnlyTold.tell {r : Record} (h : PrintsOnlyTold r) (message : String) :
    (r.session.writeLog message).1 = true ∧ PrintsOnlyTold (r.tell message) ∧
      (r.tell message).session.disk = r.session.disk := by
  obtain ⟨hlog, hprinted⟩ := h
  unfold PrintsOnlyTold Record.tell
  rw [Session.writeLog_eq_of_none hlog, transcript_concat, hprinted]
  exact ⟨rfl, ⟨hlog, rfl⟩, rfl⟩

section

variable [Surroundings] {o : Options} {d : Disk} {args : List String}

/-- Where a text is asked for, nothing is told. -/
theorem told_of_text (hargs : Options.read {} args = (o, none))
    (htext : o.help = true ∨ o.version = true) : told d args = [] := by
  rw [told, command_eq_print hargs htext]
  rfl

/-- **Each message** is a line of a comment, if the name of the output file is one line. -/
theorem told_isCommentLine (hargs : Options.read {} args = (o, none))
    (hpath : ∀ path, o.output? = some path → '\n' ∉ path.toList) :
    ∀ line ∈ told d args, IsCommentLine line := by
  rcases o.text_or_run with htext | ⟨hhelp, hversion⟩
  · rw [told_of_text hargs htext]
    nofun
  · -- the invariant is about what was told, whatever becomes of the session
    let P : Record → Prop := fun r => ∀ line ∈ r.told, IsCommentLine line
    have htell {r : Record} (hr : P r) {message : String} (hmessage : IsCommentLine message) :
        P (r.tell message) :=
      List.forall_mem_append.mpr ⟨hr, List.forall_mem_singleton.mpr hmessage⟩
    have hdeliver (ws : WatchList) : Recorded P (deliver o ws) (deliver o ws) (fun _ => P) P := by
      refine recorded_deliver (W := P) ws (fun _ _ _ hr => hr) (fun _ _ _ _ hr => ?_)
        fun path houtput => ?_
      · split <;> exact hr
      · refine recorded_report _ (fun _ _ hr => hr) fun _ r hr => ?_
        split <;> exact htell hr (isCommentLine_savedMessage (hpath path houtput))
    obtain ⟨e, r, hrecord, _, hafter⟩ := exists_record (P := P) (d := d) hargs hhelp hversion
      (recorded_inspect (fun _ _ hline _ hr => htell hr hline) hdeliver) nofun
    rw [told_eq hrecord]
    exact hafter.of_same

/-- Where the result goes to a file and the log to standard output, the messages are all
that is printed. -/
theorem printed_eq_transcript {path : String} (hargs : Options.read {} args = (o, none))
    (hhelp : o.help = false) (hversion : o.version = false) (hlog : o.log? = none)
    (houtput : o.output? = some path) (hplace : d.locate path ≠ some (.device .output)) :
    (runOn d args).2.printed = transcript (told d args) := by
  -- up to the delivery the disk stays as it was, so the path names what it named
  let P : Record → Prop := fun r => r.session.disk = d ∧ PrintsOnlyTold r
  have hbears : Bears o P := by
    intro _ line _ r ⟨hdisk, hr⟩
    obtain ⟨_, htold, hsame⟩ := hr.tell line
    exact ⟨hsame.trans hdisk, htold⟩
  have hdeliver (ws : WatchList) :
      Recorded P (deliver o ws) (deliver o ws) (fun _ => PrintsOnlyTold) P := by
    refine recorded_deliver (W := PrintsOnlyTold) ws (fun hnone => ?_) (fun p hp text r hr => ?_)
      fun p _ => recorded_report _ (fun _ _ hr => hr) fun _ r hr => ?_
    · cases hnone.symm.trans houtput
    · obtain ⟨hdisk, hprints⟩ := hr
      obtain rfl : path = p := Option.some.inj (houtput.symm.trans hp)
      have hlocate : r.session.locate path ≠ some (.device .output) := by
        rw [Session.locate_of_none hprints.1, hdisk]
        exact hplace
      have hprinted := Session.writeFile_printed hlocate text
      have hnone := r.session.writeFile_log path text
      split
      · exact ⟨hnone.trans hprints.1, hprinted.trans hprints.2⟩
      · next hrefused =>
        rw [Session.writeFile_of_refused (Bool.eq_false_of_not_eq_true hrefused)]
        exact ⟨hdisk, hprints⟩
    · obtain ⟨htaken, htold, _⟩ := hr.tell (savedMessage p)
      rw [if_pos htaken]
      exact htold
  have hopen : withLog o { disk := d } = { disk := d } := by rw [withLog, hlog]
  have hstart : P ⟨withLog o { disk := d }, []⟩ := by
    rw [hopen]
    exact ⟨rfl, rfl, rfl⟩
  obtain ⟨e, r, hrecord, hrun, hafter⟩ :=
    exists_record hargs hhelp hversion (recorded_inspect hbears hdeliver) hstart
  rw [hrun, told_eq hrecord]
  cases e with
  | ok _ => exact hafter.2
  | error _ => exact hafter.2.2

/-- **Messages are comments.** Take a run with arguments that can be used, on any disk, and
suppose that the name of the output file, if there is one, is one line. Then all that the
run gives to its log, line after line, is read as the empty list. So if the result goes to
a file that is not standard output, no log is given, and no text is asked for, then
all that is printed is this, and is read as the empty list. -/
theorem messages_are_comments (hargs : Options.read {} args = (o, none))
    (hpath : ∀ path, o.output? = some path → '\n' ∉ path.toList) :
    (command args : StateM Record Exit).run ⟨{ disk := d }, []⟩
      = ((runOn d args).1, ⟨(runOn d args).2, told d args⟩) ∧
    ofText (transcript (told d args)) = .ok [] ∧
    ∀ path, o.output? = some path → d.locate path ≠ some (.device .output) → o.log? = none →
      o.help = false → o.version = false →
      (runOn d args).2.printed = transcript (told d args) ∧
        ofText (runOn d args).2.printed = .ok [] := by
  have hread : ofText (transcript (told d args)) = .ok [] :=
    ofText_of_isComment (isComment_transcript (told_isCommentLine hargs hpath))
  refine ⟨command_recorded d args, hread, fun path houtput hplace hlog hhelp hversion => ?_⟩
  have hprinted := printed_eq_transcript hargs hhelp hversion hlog houtput hplace
  exact ⟨hprinted, hprinted ▸ hread⟩

end

/-- A swept list is saved, and what is printed are the three messages of the run. -/
theorem messages_are_comments_swept :
    told (oneFile "w" "b 2 0 1 m\ni 3\n") ["-w", "-o", "o", "w"]
      = ["# read 2 watches: 0 clause, 1 binary, 0 bnn, 1 idx", "# swept 1 marked binary watches",
        "# saved to o"] ∧
    ofText (runOn (oneFile "w" "b 2 0 1 m\ni 3\n") ["-w", "-o", "o", "w"]).2.printed = .ok [] := by
  have hargs : Options.read {} ["-w", "-o", "o", "w"]
      = ({ input := "w", output? := some "o", sweep := true }, none) := by decide +kernel
  have hpath : ∀ path, some "o" = some path → '\n' ∉ path.toList := by
    rintro _ ⟨⟩
    decide
  obtain ⟨_, _, hprinted⟩ :=
    messages_are_comments (d := oneFile "w" "b 2 0 1 m\ni 3\n") hargs hpath
  exact ⟨by decide +kernel, (hprinted "o" rfl (by decide +kernel) rfl rfl rfl).2⟩

/-- The version is no comment, nor is a result that goes to standard output by its name; and
a name of two lines is told as it is, so that its second line is read as a watch. -/
theorem not_only_comments :
    ofText (runOn (oneFile "w" "b 2 0 1\n") ["--version", "-o", "o", "w"]).2.printed ≠ .ok [] ∧
    ofText (runOn (oneFile "w" "b 2 0 1\n") ["-o", "/dev/stdout", "w"]).2.printed
      = .ok [.ofBinary ⟨5, by decide⟩ false ⟨1⟩] ∧
    ofText (transcript (told (oneFile "w" "i 7\n") ["-o", "o\nb 2 0 1", "w"]))
      = .ok [.ofBinary ⟨5, by decide⟩ false ⟨1⟩] := by
  decide +kernel

end WatchLists.Inspector
