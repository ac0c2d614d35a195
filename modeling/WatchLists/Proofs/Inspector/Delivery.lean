import WatchLists.Proofs.Disk.Writing
import WatchLists.Proofs.Inspector.Run
import WatchLists.Proofs.WatchList.RoundTrip

/-!
# What a run delivers

A run that exits with 0 delivers the list that it was asked to make of its watch
file, and nothing in between gets lost: not in the text it prints, where comments
on its progress precede the result, and not in the file it writes, even if that
is the watch file.

- `Session.load`, `Disk.load`, `runOn`: reading a watch file, and a whole run, on a disk.
- `ofText_of_dump_of_prepare`: what is made of a watch file survives a dump.
- `run_delivers`: the run as a whole.
-/

namespace WatchLists

section

variable [Surroundings]

/-- The watch list in a file, as a run reads it in a session. -/
def Session.load (s : Session) (path : String) : Except Stop WatchList :=
  ((WatchList.load path : Activity WatchList).run.run s).1

/-- The watch list in a file, as it is read as long as no log is open. -/
def Disk.load (d : Disk) (path : String) : Except Stop WatchList :=
  ({ disk := d } : Session).load path

namespace Session

variable {s : Session} {path : String} {bytes : List UInt8} {ws : WatchList}

/-- The bytes of a file are its list, or are refused on its account. -/
theorem load_eq (hread : s.readFile path = some bytes) :
    s.load path = (WatchList.ofBytes bytes).mapError fun e => .refused e (some path) := by
  unfold load
  rw [WatchList.load_run, hread]

/-- Reading a file changes nothing. -/
theorem load_run (path : String) (s : Session) :
    (WatchList.load path : Activity WatchList).run.run s = (s.load path, s) := by
  unfold load
  rw [WatchList.load_run]

theorem load_eq_ok (hread : s.readFile path = some bytes)
    (hws : WatchList.ofBytes bytes = .ok ws) : s.load path = .ok ws := by
  rw [load_eq hread, hws]
  rfl

theorem exists_bytes_of_load (h : s.load path = .ok ws) :
    ∃ bytes, s.readFile path = some bytes ∧ WatchList.ofBytes bytes = .ok ws := by
  have hrun : (WatchList.load path : Activity WatchList).run.run s = (.ok ws, s) := by
    rw [load_run, h]
  exact (WatchList.load_ok hrun).2

end Session

end

namespace Inspector

section

variable [Surroundings]

/-- A run with arguments on a disk, to its exit and what the session is then. -/
def runOn (d : Disk) (args : List String) : Exit × Session :=
  (command args : StateM Session Exit).run { disk := d }

end

variable {o : Options} {ws result : WatchList}

/-- Nothing is added to a list that is prepared. -/
theorem mem_of_prepare (h : o.prepare ws = .ok result) {w : Watch} (hw : w ∈ result) :
    w ∈ ws := by
  cases hsort : o.sort with
  | false =>
    rw [Options.prepare_of_not_sort hsort] at h
    cases h
    exact mem_of_mem_swept hw
  | true =>
    rw [Options.prepare_of_sort hsort] at h
    exact mem_of_mem_swept ((sortBy_perm h).mem_iff.mp hw)

/-- What is made of a watch file can be dumped and is read again as it was. -/
theorem ofText_of_dump_of_prepare {bytes : List UInt8} {form : ClauseForm} {text : String}
    (hws : WatchList.ofBytes bytes = .ok ws) (hprepare : o.prepare ws = .ok result)
    (hdump : result.dump form = .ok text) : WatchList.ofText text = .ok result := by
  have hviews : ∀ w ∈ result, ∃ v : View Abstraction, v.toWatch = w ∧ v.IsDimacs := fun w hw =>
    WatchList.exists_view_of_mem_ofBytes hws (mem_of_prepare hprepare hw)
  have hobtainable : ∀ w ∈ result, w.Obtainable := by
    intro w hw
    obtain ⟨v, hv, _⟩ := hviews w hw
    exact Watch.obtainable_iff.mpr ⟨v, hv⟩
  refine (WatchList.ofText_of_dump hobtainable hdump).1 ?_
  intro w hw
  obtain ⟨v, rfl, hdimacs⟩ := hviews w hw
  exact (WatchList.isDimacs_toWatch v).mpr hdimacs

/-- **What a run delivers.** A run that sends its progress to no log and is asked
for no text, and that exits with 0, has read the watch file, prepared the list and
delivered the result. Without an output file, all that it printed is read as the
result, and the disk is as before. With an output file, that file is read as the
result, and every other entry of the disk is as before. -/
theorem run_delivers [Surroundings] {d : Disk} {args : List String} (hargs : Options.read {} args = (o, none))
    (hlog : o.log? = none) (hhelp : o.help = false) (hversion : o.version = false)
    (hcode : (runOn d args).1.code = 0) :
    ∃ ws result, d.load o.input = .ok ws ∧ o.prepare ws = .ok result ∧
      (o.output? = none → WatchList.ofText (runOn d args).2.printed = .ok result ∧
        (runOn d args).2.disk = d) ∧
      ∀ path l, o.output? = some path → d.locate path = some (.file l) →
        (runOn d args).2.disk.load path = .ok result ∧
        ∀ l', l' ≠ l → (runOn d args).2.disk.get? l' = d.get? l' := by
  rcases hrun : runOn d args with ⟨e, t⟩
  rw [hrun] at hcode
  rw [runOn, command_eq_runWith hargs hhelp hversion] at hrun
  obtain ⟨bytes, ws, result, u, hbytes, hws, hprepare, htold, hdeliver⟩ :=
    inspect_ok rfl (inspect_of_exit_zero hlog hrun hcode)
  refine ⟨ws, result, Session.load_eq_ok hbytes hws, hprepare, fun houtput => ?_,
    fun path l houtput hlocate => ?_⟩
  · obtain ⟨text, hdump, rfl⟩ := deliver_ok_of_none houtput hdeliver
    obtain ⟨comments, hcomments, hprinted⟩ := htold.printed
    refine ⟨?_, htold.disk⟩
    -- the comments that were printed before leave no trace
    have hread := ofText_of_dump_of_prepare hws hprepare hdump
    show WatchList.ofText (u.printed ++ text) = .ok result
    rw [hprinted, String.empty_append]
    exact (hcomments text result).mpr hread
  · obtain ⟨text, v, hdump, hwrite, hreport⟩ := deliver_ok_of_some houtput hdeliver
    have hlocate' : u.disk.locate path = some (.file l) := by
      rw [htold.disk]
      exact hlocate
    have hcan : Surroundings.canWrite l = true :=
      Session.canWrite_of_writeFile (Session.locate_of_disk hlocate') (congrArg Prod.fst hwrite)
    obtain ⟨d', hwrite', hplace, hcontent, hother⟩ := Session.writeFile_of_locate hlocate' hcan text
    obtain rfl : { u with disk := d' } = v := congrArg Prod.snd (hwrite'.symm.trans hwrite)
    -- the last message goes to standard output and leaves the disk alone
    have hdisk : t.disk = d' := report_disk hreport (htold.log rfl)
    rw [hdisk]
    have hread : ({ disk := d' } : Session).readFile path = some (Text.encode text.toList) :=
      (Session.readFile_eq hplace (Surroundings.canRead_of_canWrite l hcan)).trans hcontent
    refine ⟨Session.load_eq_ok hread ?_, fun l' hne => ?_⟩
    · rw [WatchList.ofBytes_encode]
      exact ofText_of_dump_of_prepare hws hprepare hdump
    · rw [hother l' hne, htold.disk]

/-- A disk with one file, which holds a text. -/
def oneFile (name text : String) : Disk :=
  ⟨[(.inside [name], .file (Text.encode text.toList))]⟩

/-- A watch file is swept and sorted in place. -/
theorem run_delivers_in_place :
    (runOn (oneFile "w" "b 9 1 3\nb 2 0 1 m\nc 4 -5\nb 2 0 1\n")
      ["-s", "-w", "-o", "w", "w"]).1.code = 0 ∧
    (runOn (oneFile "w" "b 9 1 3\nb 2 0 1 m\nc 4 -5\nb 2 0 1\n")
        ["-s", "-w", "-o", "w", "w"]).2.disk.load "w"
      = .ok [.ofBinary ⟨5, by decide⟩ false ⟨1⟩, .ofBinary ⟨19, by decide⟩ true ⟨3⟩,
        .ofClause ⟨4⟩ (Abstraction.mk 10)] := by
  have hargs : Options.read {} ["-s", "-w", "-o", "w", "w"]
      = ({ input := "w", output? := some "w", sort := true, sweep := true }, none) := by
    decide +kernel
  have hcode : (runOn (oneFile "w" "b 9 1 3\nb 2 0 1 m\nc 4 -5\nb 2 0 1\n")
      ["-s", "-w", "-o", "w", "w"]).1.code = 0 := by decide +kernel
  have hload : (oneFile "w" "b 9 1 3\nb 2 0 1 m\nc 4 -5\nb 2 0 1\n").load "w"
      = .ok [.ofBinary ⟨19, by decide⟩ true ⟨3⟩,
        .packBinary ⟨5, by decide⟩ ⟨false, true⟩ ⟨1⟩, .ofClause ⟨4⟩ (Abstraction.mk 10),
        .ofBinary ⟨5, by decide⟩ false ⟨1⟩] := by decide +kernel
  obtain ⟨ws, result, hws, hprepare, _, hfile⟩ := run_delivers hargs rfl rfl rfl hcode
  obtain ⟨hread, _⟩ := hfile "w" (.inside ["w"]) rfl (by decide +kernel)
  obtain rfl := Except.ok.inj (hws.symm.trans hload)
  refine ⟨hcode, hread.trans (congrArg Except.ok (Except.ok.inj (hprepare.symm.trans ?_)))⟩
  decide +kernel

end Inspector

end WatchLists
