import WatchLists.Proofs.Inspector.ExitCode
import WatchLists.Proofs.Inspector.Progress
import WatchLists.Proofs.WatchList.Sorted

/-!
# Normalising a file in place

A watch file that is swept and sorted in place has a normal form: the run can be
repeated without effect, the file passes the check and is printed as it is, and to
sweep and to sort one after the other, in either order, comes to the same file. Where a
file has the name of an option that asks for a text, the text is printed and the file
is left alone.

- `sortBinaryFirst_swept`, `prepare_prepare`: sweeping and sorting, as asked for.
- `inPlaceArgs`, `inPlace`, `read_inPlace_cases`: what the arguments ask for.
- `inspect_ok_of_quiet`: a quiet run, from its start to the delivery.
- `run_in_place`, `run_check`: one run.
- `normalise_in_place`: the runs together.
-/

namespace WatchLists

namespace Inspector

open Activity

variable {o : Options} {ws result : WatchList} {d : Disk} {path : String} {l : Location}
  {s t : Session}

/-! ## Sweeping and sorting -/

theorem swept_swept (o : Options) (ws : WatchList) : o.swept (o.swept ws) = o.swept ws := by
  cases hsweep : o.sweep with
  | false => rw [Options.swept_of_not_sweep hsweep, Options.swept_of_not_sweep hsweep]
  | true =>
    rw [Options.swept_of_sweep hsweep, Options.swept_of_sweep hsweep]
    exact WatchList.withoutMarked_withoutMarked ws

/-- It is the same to sweep before the sort or after it. -/
theorem sortBinaryFirst_swept (hidx : ∀ w ∈ ws, w.kind ≠ .idx)
    (hsort : ws.sortBinaryFirst = .ok result) (o : Options) :
    (o.swept ws).sortBinaryFirst = .ok (o.swept result) := by
  unfold Options.swept
  split
  · exact WatchList.sortBinaryFirst_filter hidx hsort _
  · exact hsort

/-- What was prepared needs no preparation. -/
theorem prepare_prepare (hidx : o.sort = true → ∀ w ∈ ws, w.kind ≠ .idx)
    (h : o.prepare ws = .ok result) : o.prepare result = .ok result := by
  cases hsort : o.sort with
  | false =>
    rw [Options.prepare_of_not_sort hsort] at h ⊢
    cases h
    exact congrArg Except.ok (swept_swept o ws)
  | true =>
    rw [Options.prepare_of_sort hsort] at h ⊢
    have hswept : ∀ w ∈ o.swept ws, w.kind ≠ .idx := fun w hw =>
      hidx hsort w (mem_of_mem_swept hw)
    -- the swept list is swept, so what it is sorted to is swept as well
    have hagain := sortBinaryFirst_swept hswept h o
    rw [swept_swept, h] at hagain
    obtain ⟨ys, hys, hinorder⟩ := WatchList.InOrder.sorted hswept
    obtain rfl : ys = result := Except.ok.inj (hys.symm.trans h)
    rw [← Except.ok.inj hagain]
    exact hinorder.sortBinaryFirst

/-- A list without idx watches in the way of the sort can be prepared. -/
theorem exists_prepare (hidx : o.sort = true → ∀ w ∈ ws, w.kind ≠ .idx) :
    ∃ result, o.prepare ws = .ok result ∧ (o.sort = true → result.InOrder) := by
  cases hsort : o.sort with
  | false => exact ⟨_, Options.prepare_of_not_sort hsort ws, nofun⟩
  | true =>
    have hswept : ∀ w ∈ o.swept ws, w.kind ≠ .idx := fun w hw =>
      hidx hsort w (mem_of_mem_swept hw)
    obtain ⟨ys, hys, hinorder⟩ := WatchList.InOrder.sorted hswept
    exact ⟨ys, (Options.prepare_of_sort hsort ws).trans hys, fun _ => hinorder⟩

theorem inOrder_of_prepare (hidx : ∀ w ∈ ws, w.kind ≠ .idx) (hsort : o.sort = true)
    (h : o.prepare ws = .ok result) : result.InOrder := by
  obtain ⟨result', hprepare, hinorder⟩ := exists_prepare (o := o) fun _ => hidx
  cases h.symm.trans hprepare
  exact hinorder hsort

/-! ## Arguments -/

/-- The arguments of a quiet run that sorts or sweeps a file in place. -/
def inPlaceArgs (sort sweep : Bool) (path : String) : List String :=
  "-q" :: (cond sort ["-s"] [] ++ cond sweep ["-w"] [] ++ ["-o", path, path])

/-- What they ask for, if the last one is a path. -/
def inPlace (sort sweep : Bool) (path : String) : Options :=
  { input := path, output? := some path, quiet := true, sort := sort, sweep := sweep }

/-- The items before the path of the watch file. -/
def inPlaceItems (sort sweep : Bool) (path : String) : List Item :=
  .turnOn .quiet :: (cond sort [.turnOn .sort] [] ++ cond sweep [.turnOn .sweep] [] ++
    [.output path])

/-- An argument at the end of a list that names the watch file. -/
def IsTarget (arg : String) : Prop := Item.ofArgs false [arg] = ([.target arg], none)

/-- The arguments that ask for a text. -/
def textArgs : List String := ["-h", "--help", "-V", "--version"]

/-- A last argument is a switch, or of no use, or names the watch file. -/
theorem ofArgs_singleton_cases (arg : String) :
    (∃ s, Switch.ofArg? arg = some s ∧ Item.ofArgs false [arg] = ([.turnOn s], none)) ∨
    Item.ofArgs false [arg] = ([], some (.invalidOption arg)) ∨ IsTarget arg := by
  cases hs : Switch.ofArg? arg with
  | some s =>
    refine .inl ⟨s, rfl, ?_⟩
    rw [Item.ofArgs_switch hs]
    rfl
  | none =>
    refine .inr ?_
    unfold IsTarget
    rw [Item.ofArgs.eq_def]
    simp only [hs]
    cases Item.taking? arg with
    | some item => exact .inl rfl
    | none =>
      dsimp only
      split
      · exact .inl rfl
      · exact .inr rfl

theorem mem_textArgs {s : Switch} (h : Switch.ofArg? path = some s)
    (htext : s = .help ∨ s = .version) : path ∈ textArgs := by
  have hname := Switch.ofArg?_eq_some_iff.mp h
  rcases htext with rfl | rfl
  · exact List.mem_append_left ["-V", "--version"] hname
  · exact List.mem_append_right ["-h", "--help"] hname

/-- A switch that may stand before the rest. -/
theorem ofArgs_cond {s : Switch} {arg : String} (hs : Switch.ofArg? arg = some s) (b : Bool)
    (rest : List String) : Item.ofArgs false (cond b [arg] [] ++ rest)
      = (cond b [.turnOn s] [] ++ (Item.ofArgs false rest).1, (Item.ofArgs false rest).2) := by
  cases b with
  | false => rfl
  | true => exact Item.ofArgs_switch hs rest

theorem ofArgs_inPlaceArgs (sort sweep : Bool) (path : String) :
    Item.ofArgs false (inPlaceArgs sort sweep path)
      = (inPlaceItems sort sweep path ++ (Item.ofArgs false [path]).1,
        (Item.ofArgs false [path]).2) := by
  have houtput : Item.ofArgs false ["-o", path, path]
      = (.output path :: (Item.ofArgs false [path]).1, (Item.ofArgs false [path]).2) :=
    Item.ofArgs_taking (by decide) rfl path [path]
  unfold inPlaceArgs inPlaceItems
  rw [Item.ofArgs_switch (s := .quiet) (by decide), List.append_assoc,
    ofArgs_cond (s := .sort) (by decide), ofArgs_cond (s := .sweep) (by decide), houtput]
  simp only [List.cons_append, List.append_assoc, List.nil_append]

/-- What is read of the arguments, from what the last one is. -/
theorem read_inPlaceArgs (sort sweep : Bool) (hpath : IsTarget path) :
    Options.read {} (inPlaceArgs sort sweep path) = (inPlace sort sweep path, none) := by
  have hitems := ofArgs_inPlaceArgs sort sweep path
  rw [show Item.ofArgs false [path] = _ from hpath] at hitems
  rw [Options.read_of_items hitems]
  cases sort <;> cases sweep <;> rfl

/-- **The last argument decides.** If it names the watch file, the run is one in place.
If it asks for a text, the run does. Otherwise the arguments cannot be used. -/
theorem read_inPlace_cases (path : String) :
    IsTarget path ∨
    (path ∈ textArgs ∧ ∀ sort sweep, ∃ o, Options.read {} (inPlaceArgs sort sweep path) = (o, none) ∧
      (o.help = true ∨ o.version = true)) ∨
    ∀ sort sweep, ∃ e, (Options.read {} (inPlaceArgs sort sweep path)).2 = some e := by
  rcases ofArgs_singleton_cases path with ⟨s, hs, hlast⟩ | hlast | hpath
  · refine .inr ?_
    have hitems : ∀ sort sweep, Item.ofArgs false (inPlaceArgs sort sweep path)
        = (inPlaceItems sort sweep path ++ [.turnOn s], none) := fun sort sweep => by
      rw [ofArgs_inPlaceArgs, hlast]
    cases s with
    | help =>
      refine .inl ⟨mem_textArgs hs (.inl rfl), fun sort sweep => ?_⟩
      rw [Options.read_of_items (hitems sort sweep)]
      cases sort <;> cases sweep <;> exact ⟨_, rfl, .inl rfl⟩
    | version =>
      refine .inl ⟨mem_textArgs hs (.inr rfl), fun sort sweep => ?_⟩
      rw [Options.read_of_items (hitems sort sweep)]
      cases sort <;> cases sweep <;> exact ⟨_, rfl, .inr rfl⟩
    | quiet | sort | sweep | check =>
      -- there is no watch file
      refine .inr fun sort sweep => ?_
      rw [Options.read_of_items (hitems sort sweep)]
      cases sort <;> cases sweep <;> exact ⟨_, rfl⟩
  · refine .inr (.inr fun sort sweep => ⟨.invalidOption path, ?_⟩)
    unfold Options.read
    rw [ofArgs_inPlaceArgs, hlast]
  · exact .inl hpath

theorem read_check (hpath : IsTarget path) :
    Options.read {} ["-q", "-c", path] = ({ input := path, quiet := true, check := true }, none) := by
  have hitems : Item.ofArgs false ["-q", "-c", path]
      = ([.turnOn .quiet, .turnOn .check, .target path], none) := by
    rw [Item.ofArgs_switch (s := .quiet) (by decide), Item.ofArgs_switch (s := .check) (by decide),
      show Item.ofArgs false [path] = _ from hpath]
  rw [Options.read_of_items hitems]
  rfl

/-! ## Quiet runs -/

section

variable [Surroundings]

theorem readAndPrepare_ok_of_quiet (hquiet : o.quiet = true)
    (h : (readAndPrepare o).run.run s = (.ok result, t)) : s = t := by
  unfold readAndPrepare at h
  obtain ⟨ws, _, hload, h₁⟩ := run_bind_ok h
  obtain ⟨rfl, _⟩ := WatchList.load_ok hload
  obtain ⟨_, _, hreport, h₂⟩ := run_bind_ok h₁
  rw [report_of_quiet hquiet] at hreport
  cases hreport
  obtain ⟨swept, u, hsweep, h₃⟩ := run_bind_ok h₂
  obtain ⟨_, rfl⟩ := orderIfAsked_ok h₃
  unfold sweepIfAsked at hsweep
  split at hsweep
  · obtain ⟨_, _, hreport, h₄⟩ := run_bind_ok hsweep
    rw [report_of_quiet hquiet] at hreport
    cases hreport
    cases h₄
    rfl
  · cases hsweep
    rfl

/-- A quiet run without a log has done nothing to the session before it delivers. -/
theorem inspect_ok_of_quiet (hquiet : o.quiet = true) (hlog : s.log = none)
    (h : (inspect o : Activity Unit).run.run s = (.ok (), t)) :
    ∃ ws result, s.load o.input = .ok ws ∧ o.prepare ws = .ok result ∧
      (deliver o result : Activity Unit).run.run s = (.ok (), t) := by
  rw [inspect_eq] at h
  obtain ⟨result, u, hprepare, hdeliver⟩ := run_bind_ok h
  obtain ⟨bytes, ws, hbytes, hws, hresult, _⟩ := readAndPrepare_ok hlog hprepare
  obtain rfl := readAndPrepare_ok_of_quiet hquiet hprepare
  exact ⟨ws, result, Session.load_eq_ok hbytes hws, hresult, hdeliver⟩

/-- The bytes of the file that a path names. -/
def bytes? (d : Disk) (path : String) : Option (List UInt8) :=
  ({ disk := d } : Session).readFile path

/-- A path names a file that holds the dump of a list. -/
structure Holds (d : Disk) (path : String) (l : Location) (ws : WatchList) : Prop where
  place : d.locate path = some (.file l)
  load : d.load path = .ok ws
  dump : ∃ text, ws.dump .blocker = .ok text ∧ bytes? d path = some (Text.encode text.toList)

/-- Files that hold the dump of one list hold the same bytes. -/
theorem Holds.bytes_eq {d' : Disk} (h : Holds d path l ws) (h' : Holds d' path l ws) :
    bytes? d path = bytes? d' path := by
  obtain ⟨text, hdump, hbytes⟩ := h.dump
  obtain ⟨text', hdump', hbytes'⟩ := h'.dump
  cases hdump.symm.trans hdump'
  rw [hbytes, hbytes']

/-- A run that there is no reason to refuse comes to its end. -/
theorem exists_runOn {args : List String} (hargs : Options.read {} args = (o, none))
    (hhelp : o.help = false) (hversion : o.version = false)
    (hnone : ∀ stop, ¬ Refusal o (withLog o { disk := d }) stop) :
    ∃ t, (inspect o : Activity Unit).run.run (withLog o { disk := d }) = (.ok (), t) ∧
      runOn d args = (⟨0, ""⟩, t) := by
  have hrun := runOn_eq (d := d) hargs hhelp hversion
  rcases runOn_cases (d := d) hargs hhelp hversion with ⟨stop, h, _⟩ | ⟨_, hr, _⟩
  · exact absurd h (hnone stop)
  · rcases hinspect : (inspect o : Activity Unit).run.run (withLog o { disk := d }) with ⟨r, t⟩
    rw [hinspect] at hr hrun
    obtain rfl : r = .ok () := hr
    exact ⟨t, rfl, hrun⟩

/-- **One run in place.** A file that holds a list and may be written is made to hold the
dump of what is prepared of it, if there is no idx watch in the way of the sort. -/
theorem run_in_place (sort sweep : Bool) (hpath : IsTarget path)
    (hplace : d.locate path = some (.file l)) (hcan : Surroundings.canWrite l = true)
    (hload : d.load path = .ok ws) (hidx : sort = true → ∀ w ∈ ws, w.kind ≠ .idx) :
    ∃ result d', (inPlace sort sweep path).prepare ws = .ok result ∧
      runOn d (inPlaceArgs sort sweep path) = (⟨0, ""⟩, { disk := d' }) ∧
      Holds d' path l result := by
  obtain ⟨result, hprepare, _⟩ := exists_prepare (o := inPlace sort sweep path) hidx
  obtain ⟨text, hdump⟩ := WatchList.exists_dump
    (fun w hw => Session.obtainable_of_load hload w (mem_of_prepare hprepare hw)) .blocker
  obtain ⟨d', hwrite, hplace', hcontent, _⟩ :=
    Session.writeFile_of_locate (s := { disk := d }) hplace hcan text
  have htold : Tellable (inPlace sort sweep path) none { disk := d } := .inl (.console rfl)
  have hnone : ∀ stop, ¬ Refusal (inPlace sort sweep path) { disk := d } stop := by
    refine not_refusal hload htold ?_ ?_ hprepare hdump ?_
    · rintro ⟨hsort | hcheck, w, hw, hkind⟩
      · exact hidx hsort w hw hkind
      · cases hcheck
    · rintro ⟨hcheck, _⟩
      cases hcheck
    · rintro _ ⟨⟩
      rw [hwrite]
  obtain ⟨t, hrun, hexit⟩ := exists_runOn (read_inPlaceArgs sort sweep hpath) rfl rfl hnone
  obtain ⟨ws', result', hload', hprepare', hdeliver⟩ := inspect_ok_of_quiet rfl rfl hrun
  cases hload'.symm.trans hload
  cases hprepare'.symm.trans hprepare
  obtain ⟨text', u, hdump', hwrite', hreport⟩ := deliver_ok_of_some rfl hdeliver
  cases hdump'.symm.trans hdump
  rw [report_of_quiet rfl] at hreport
  cases hreport
  cases hwrite'.symm.trans hwrite
  have hbytes : bytes? d' path = some (Text.encode text.toList) :=
    (Session.readFile_eq hplace' (Surroundings.canRead_of_canWrite l hcan)).trans hcontent
  refine ⟨result, d', hprepare, hexit, hplace', ?_, text, hdump, hbytes⟩
  obtain ⟨_, _, hws⟩ := Session.exists_bytes_of_load hload
  refine Session.load_eq_ok hbytes ?_
  rw [WatchList.ofBytes_encode]
  exact ofText_of_dump_of_prepare hws hprepare hdump

/-- **One check.** A file that holds the dump of a list in order passes the check, and is
printed as it is. -/
theorem run_check (hpath : IsTarget path) (h : Holds d path l ws) (horder : ws.InOrder) :
    ∃ text, runOn d ["-q", "-c", path] = (⟨0, ""⟩, { disk := d, printed := text }) ∧
      bytes? d path = some (Text.encode text.toList) := by
  obtain ⟨text, hdump, hbytes⟩ := h.dump
  have htold : Tellable { input := path, quiet := true, check := true } none { disk := d } :=
    .inl (.console rfl)
  have hnone : ∀ stop,
      ¬ Refusal { input := path, quiet := true, check := true } { disk := d } stop := by
    refine not_refusal h.load htold ?_ ?_ rfl hdump nofun
    · rintro ⟨_, w, hw, hkind⟩
      exact horder.noIdx w hw hkind
    · rintro ⟨_, _, hun⟩
      exact hun horder.ascending
  obtain ⟨t, hrun, hexit⟩ := exists_runOn (read_check hpath) rfl rfl hnone
  obtain ⟨ws', result, hload', hprepare, hdeliver⟩ := inspect_ok_of_quiet rfl rfl hrun
  cases hload'.symm.trans h.load
  cases hprepare
  obtain ⟨text', hdump', rfl⟩ := deliver_ok_of_none rfl hdeliver
  cases hdump'.symm.trans hdump
  refine ⟨text, ?_, hbytes⟩
  rw [hexit]
  exact congrArg (fun printed => ((⟨0, ""⟩ : Exit), ({ disk := d, printed } : Session)))
    String.empty_append

/-! ## The runs together -/

/-- A run that sorts a file in place and exits with 0 has read a list without idx watches,
and has written the file. -/
theorem exists_load_of_code (sweep : Bool) (hpath : IsTarget path)
    (hplace : d.locate path = some (.file l))
    (hcode : (runOn d (inPlaceArgs true sweep path)).1.code = 0) :
    Surroundings.canWrite l = true ∧ ∃ ws, d.load path = .ok ws ∧ ∀ w ∈ ws, w.kind ≠ .idx := by
  have hargs := read_inPlaceArgs true sweep hpath
  rcases runOn_cases hargs rfl rfl with ⟨_, _, _, hone⟩ | ⟨hnone, _⟩
  · cases hone.symm.trans hcode
  · obtain ⟨t, hrun, _⟩ := exists_runOn hargs rfl rfl hnone
    obtain ⟨ws, result, hload, _, hdeliver⟩ := inspect_ok_of_quiet rfl rfl hrun
    obtain ⟨text, u, _, hwrite, _⟩ := deliver_ok_of_some rfl hdeliver
    have hplace' : ({ disk := d } : Session).locate path = some (.file l) :=
      Session.locate_of_disk hplace
    exact ⟨Session.canWrite_of_writeFile hplace' (congrArg Prod.fst hwrite), ws, hload,
      fun w hw hkind => hnone _ (.idx hload (.inl rfl) hw hkind)⟩

section Composition

variable (hpath : IsTarget path) (hcan : Surroundings.canWrite l = true)
  (hidx : ∀ w ∈ ws, w.kind ≠ .idx) (hprepare : (inPlace true true path).prepare ws = .ok result)
include hpath hcan hidx hprepare

/-- The same run again has nothing to do. -/
theorem run_again (h : Holds d path l result) :
    ∃ d', runOn d (inPlaceArgs true true path) = (⟨0, ""⟩, { disk := d' }) ∧
      Holds d' path l result := by
  have hresult : ∀ w ∈ result, w.kind ≠ .idx := fun w hw => hidx w (mem_of_prepare hprepare hw)
  obtain ⟨result', d', hprepare', hrun, hholds⟩ :=
    run_in_place true true hpath h.place hcan h.load fun _ => hresult
  cases hprepare'.symm.trans (prepare_prepare (fun _ => hidx) hprepare)
  exact ⟨d', hrun, hholds⟩

variable (hplace : d.locate path = some (.file l)) (hload : d.load path = .ok ws)
include hplace hload

/-- To sort and then to sweep comes to the same. -/
theorem run_sort_sweep :
    ∃ ds d', runOn d (inPlaceArgs true false path) = (⟨0, ""⟩, { disk := ds }) ∧
      runOn ds (inPlaceArgs false true path) = (⟨0, ""⟩, { disk := d' }) ∧
      Holds d' path l result := by
  obtain ⟨sorted, ds, hsorted, hrun, hholds⟩ :=
    run_in_place true false hpath hplace hcan hload fun _ => hidx
  obtain ⟨swept, d', hswept, hrun', hholds'⟩ :=
    run_in_place false true hpath hholds.place hcan hholds.load nofun
  -- the sort is of the whole list, and the sweep of what it made
  have hsort : ws.sortBinaryFirst = .ok sorted := hsorted
  cases hprepare.symm.trans (sortBinaryFirst_swept hidx hsort (inPlace true true path))
  cases hswept
  exact ⟨ds, d', hrun, hrun', hholds'⟩

/-- So does to sweep and then to sort. -/
theorem run_sweep_sort :
    ∃ dw d', runOn d (inPlaceArgs false true path) = (⟨0, ""⟩, { disk := dw }) ∧
      runOn dw (inPlaceArgs true false path) = (⟨0, ""⟩, { disk := d' }) ∧
      Holds d' path l result := by
  obtain ⟨swept, dw, hswept, hrun, hholds⟩ :=
    run_in_place false true hpath hplace hcan hload nofun
  have hidx' : ∀ w ∈ swept, w.kind ≠ .idx := fun w hw => hidx w (mem_of_prepare hswept hw)
  obtain ⟨sorted, d', hsorted, hrun', hholds'⟩ :=
    run_in_place true false hpath hholds.place hcan hholds.load fun _ => hidx'
  cases hswept
  cases hsorted.symm.trans hprepare
  exact ⟨dw, d', hrun, hrun', hholds'⟩

end Composition

/-- **Normalising in place.** Let a file be swept and sorted in place by a run that
exits with 0. The same run exits with 0 again and leaves the bytes of the file. The file
passes the check and is printed byte by byte, unless its name asks for a text. To sort
it and then to sweep it, or the other way round, exits with 0 each time and ends with
the same bytes. -/
theorem normalise_in_place (hplace : d.locate path = some (.file l))
    (hcode : (runOn d ["-q", "-s", "-w", "-o", path, path]).1.code = 0) :
    let d' := (runOn d ["-q", "-s", "-w", "-o", path, path]).2.disk
    let again := runOn d' ["-q", "-s", "-w", "-o", path, path]
    let checked := runOn d' ["-q", "-c", path]
    let sorted := runOn d ["-q", "-s", "-o", path, path]
    let sortedSwept := runOn sorted.2.disk ["-q", "-w", "-o", path, path]
    let swept := runOn d ["-q", "-w", "-o", path, path]
    let sweptSorted := runOn swept.2.disk ["-q", "-s", "-o", path, path]
    (again.1.code = 0 ∧ bytes? again.2.disk path = bytes? d' path) ∧
    (path ∉ textArgs → checked.1.code = 0 ∧
      bytes? d' path = some (Text.encode checked.2.printed.toList)) ∧
    (sorted.1.code = 0 ∧ sortedSwept.1.code = 0 ∧
      bytes? sortedSwept.2.disk path = bytes? d' path) ∧
    swept.1.code = 0 ∧ sweptSorted.1.code = 0 ∧
      bytes? sweptSorted.2.disk path = bytes? d' path := by
  intro d' again checked sorted sortedSwept swept sweptSorted
  rcases read_inPlace_cases path with hpath | ⟨htext, hread⟩ | hbad
  · obtain ⟨hcan, ws, hload, hidx⟩ := exists_load_of_code true hpath hplace hcode
    obtain ⟨result, e, hprepare, hrun, hholds⟩ :=
      run_in_place true true hpath hplace hcan hload fun _ => hidx
    obtain ⟨e', hrun', hholds'⟩ := run_again hpath hcan hidx hprepare hholds
    obtain ⟨text, hcheck, hbytes⟩ := run_check hpath hholds (inOrder_of_prepare hidx rfl hprepare)
    obtain ⟨ds, es, hsort, hsweep, hs⟩ := run_sort_sweep hpath hcan hidx hprepare hplace hload
    obtain ⟨dw, ew, hsweep', hsort', hw⟩ := run_sweep_sort hpath hcan hidx hprepare hplace hload
    have hd' : d' = e := congrArg (fun r => r.2.disk) hrun
    have hagain : again = (⟨0, ""⟩, { disk := e' }) := by rwa [← hd'] at hrun'
    have hchecked : checked = (⟨0, ""⟩, { disk := e, printed := text }) := by
      show runOn d' _ = _
      rw [hd', hcheck]
    have hsorted : sorted = (⟨0, ""⟩, { disk := ds }) := hsort
    have hswept : swept = (⟨0, ""⟩, { disk := dw }) := hsweep'
    have hsortedSwept : sortedSwept = (⟨0, ""⟩, { disk := es }) := by
      show runOn sorted.2.disk _ = _
      rw [hsorted]
      exact hsweep
    have hsweptSorted : sweptSorted = (⟨0, ""⟩, { disk := ew }) := by
      show runOn swept.2.disk _ = _
      rw [hswept]
      exact hsort'
    rw [hagain, hchecked, hsorted, hswept, hsortedSwept, hsweptSorted, hd']
    exact ⟨⟨rfl, hholds'.bytes_eq hholds⟩, fun _ => ⟨rfl, hbytes⟩,
      ⟨rfl, rfl, hs.bytes_eq hholds⟩, rfl, rfl, hw.bytes_eq hholds⟩
  · -- every run prints a text and leaves the disk
    have hrun : ∀ sort sweep, (runOn d (inPlaceArgs sort sweep path)).1.code = 0 ∧
        (runOn d (inPlaceArgs sort sweep path)).2.disk = d := fun sort sweep => by
      obtain ⟨o, hargs, ho⟩ := hread sort sweep
      rw [runOn_of_text hargs ho]
      exact ⟨rfl, rfl⟩
    obtain ⟨_, hd'⟩ : _ ∧ d' = d := hrun true true
    obtain ⟨hsort, hsorted⟩ := hrun true false
    obtain ⟨hsweep, hswept⟩ := hrun false true
    have hagain : again = runOn d (inPlaceArgs true true path) := congrArg (runOn · _) hd'
    have hsortedSwept : sortedSwept = runOn d (inPlaceArgs false true path) :=
      congrArg (runOn · _) hsorted
    have hsweptSorted : sweptSorted = runOn d (inPlaceArgs true false path) :=
      congrArg (runOn · _) hswept
    rw [hagain, hsortedSwept, hsweptSorted, (hrun true true).2, hsorted, hswept, hd']
    exact ⟨⟨hcode, rfl⟩, fun h => absurd htext h, ⟨hsort, hsweep, rfl⟩, hsweep, hsort, rfl⟩
  · obtain ⟨e, he⟩ := hbad true true
    cases (code_of_unusable (d := d) he).symm.trans hcode

end

/-- A comment, odd blanks, line ends of both kinds, an abstraction that is a literal and a
last line without an end have a normal form, which is printed. -/
theorem normalise_in_place_mixed :
    let d := oneFile "w" "# c\r\n b 9\t1 3\r\nb 2 0 1 m\na 4 10\n\nb 2 0 1"
    let d' := (runOn d ["-q", "-s", "-w", "-o", "w", "w"]).2.disk
    d.locate "w" = some (.file (.inside ["w"])) ∧
    (runOn d ["-q", "-s", "-w", "-o", "w", "w"]).1.code = 0 ∧
    bytes? d' "w" = some (Text.encode "b 2 0 1\nb 9 1 3\nc 4 -5\n".toList) ∧
    bytes? (runOn d' ["-q", "-s", "-w", "-o", "w", "w"]).2.disk "w" = bytes? d' "w" ∧
    Text.encode (runOn d' ["-q", "-c", "w"]).2.printed.toList
      = Text.encode "b 2 0 1\nb 9 1 3\nc 4 -5\n".toList := by
  intro d d'
  have hplace : d.locate "w" = some (.file (.inside ["w"])) := by decide +kernel
  have hcode : (runOn d ["-q", "-s", "-w", "-o", "w", "w"]).1.code = 0 := by decide +kernel
  have hbytes : bytes? d' "w" = some (Text.encode "b 2 0 1\nb 9 1 3\nc 4 -5\n".toList) := by
    decide +kernel
  obtain ⟨⟨_, hagain⟩, hcheck, _⟩ := normalise_in_place hplace hcode
  obtain ⟨_, hprinted⟩ := hcheck (by decide)
  exact ⟨hplace, hcode, hbytes, hagain, Option.some.inj (hprinted.symm.trans hbytes)⟩

/-- A file whose name asks for the usage is left alone, and is not printed. -/
theorem usage_is_printed :
    let d := oneFile "--help" "b 2 0 1\n"
    let d' := (runOn d ["-q", "-s", "-w", "-o", "--help", "--help"]).2.disk
    d.locate "--help" = some (.file (.inside ["--help"])) ∧
    (runOn d ["-q", "-s", "-w", "-o", "--help", "--help"]).1.code = 0 ∧
    ¬ ((runOn d' ["-q", "-c", "--help"]).1.code = 0 ∧
      bytes? d' "--help" = some (Text.encode (runOn d' ["-q", "-c", "--help"]).2.printed.toList)) := by
  intro d d'
  have hargs : Options.read {} ["-q", "-s", "-w", "-o", "--help", "--help"]
      = ({ output? := some "--help", quiet := true, sort := true, sweep := true, help := true },
        none) := by decide +kernel
  have hargs' : Options.read {} ["-q", "-c", "--help"]
      = ({ quiet := true, check := true, help := true }, none) := by decide +kernel
  have hrun := runOn_of_text (d := d) hargs (.inl rfl)
  have hdisk : d' = d := congrArg (fun r => r.2.disk) hrun
  have hprinted : (runOn d ["-q", "-c", "--help"]).2.printed = usage ++ "\n" := by
    rw [runOn_of_text hargs' (.inl rfl), Options.text_of_help rfl]
  have hbytes : bytes? d "--help" = some (Text.encode "b 2 0 1\n".toList) := by decide +kernel
  refine ⟨by decide +kernel, congrArg (fun r => r.1.code) hrun, fun ⟨_, hsame⟩ => ?_⟩
  rw [hdisk, hprinted, hbytes] at hsame
  -- the file would hold the usage
  have hlist := congrArg Text.decode? (Option.some.inj hsame)
  rw [Text.decode?_encode, Text.decode?_encode] at hlist
  have htext : "b 2 0 1\n" = usage ++ "\n" := String.toList_injective (Option.some.inj hlist)
  exact absurd htext (by decide +kernel)

end Inspector

end WatchLists
