import WatchLists.Proofs.Disk.Writing

/-!
# A session with a log beside one without

Two sessions on one disk, where only the second may have sent its log to a file.
The second one writes to this file what the first one prints. Otherwise they do
the same, and the file of the log is all in which their disks may differ.

- `Disk.Logs`: where a log can be sent to.
- `Disk.SameBut`: disks that differ in one file.
- `Alike`: sessions that differ in their logs.
- `Alike.readFile`, `Alike.writeFile`, `Alike.writeLog`: they read alike, and they
  stay alike.
- `openLog_cases`, `alike_openLog`: opening a log makes such a pair.
-/

namespace WatchLists

/-! ## Devices and the log -/

namespace Session

variable {s t : Session} {x : Device} {text : String}

/-- A device other than the full one takes every text, and is no part of the disk. -/
theorem exists_feed (hx : x ≠ .full) (s : Session) (text : String) :
    ∃ t, s.feed x text = some t ∧ t.disk = s.disk ∧ t.log = s.log ∧
      (t.printed = s.printed ∨ t.printed = s.printed ++ text) := by
  cases x with
  | full => exact absurd rfl hx
  | zero | source | error => exact ⟨_, rfl, rfl, rfl, .inl rfl⟩
  | output => exact ⟨_, rfl, rfl, rfl, .inr rfl⟩

theorem feed_full (h : text ≠ "") : s.feed .full text = none := if_neg h

/-- A device takes a text or not, whatever the session. -/
theorem feed_cases (x : Device) (text : String) :
    (∀ s : Session, s.feed x text = none) ∨
      ∀ s : Session, ∃ t, s.feed x text = some t ∧ t.disk = s.disk ∧ t.log = s.log := by
  by_cases hx : x = .full
  · subst hx
    by_cases htext : text = ""
    · exact .inr fun s => ⟨s, if_pos htext, rfl, rfl⟩
    · exact .inl fun s => feed_full htext
  · refine .inr fun s => ?_
    obtain ⟨t, hfeed, hdisk, hlog, _⟩ := exists_feed hx s text
    exact ⟨t, hfeed, hdisk, hlog⟩

/-- What is written to a place does not move the log. -/
theorem log_of_write {place : Place} {n : Nat} (h : s.write place n text = some t) :
    t.log = s.log := by
  cases place with
  | file l =>
    obtain ⟨d, _, rfl⟩ := Option.map_eq_some_iff.mp h
    rfl
  | device x =>
    rcases feed_cases x text with hnone | hsome
    · cases (hnone s).symm.trans h
    · obtain ⟨u, hfeed, _, hlog⟩ := hsome s
      obtain rfl : u = t := Option.some.inj (hfeed.symm.trans h)
      exact hlog

/-- A log stays where it is. -/
theorem writeLog_place (s : Session) (line : String) :
    (s.writeLog line).2.log.map Prod.fst = s.log.map Prod.fst := by
  rcases hlog : s.log with _ | ⟨place, n⟩
  · rw [writeLog, hlog]
  · rw [writeLog, hlog]
    dsimp only
    cases s.write place n (line ++ "\n") with
    | none => exact congrArg _ hlog
    | some t => rfl

theorem writeLog_eq_of_none (h : s.log = none) (line : String) :
    s.writeLog line = (true, { s with printed := s.printed ++ (line ++ "\n") }) := by
  rw [writeLog, h]

theorem writeLog_eq_of_write {place : Place} {n : Nat} {line : String}
    (h : s.log = some (place, n)) (hwrite : s.write place n (line ++ "\n") = some t) :
    s.writeLog line = (true, { t with
      log := some (place, n + (Text.encode (line ++ "\n").toList).length) }) := by
  rw [writeLog, h]
  dsimp only
  rw [hwrite]

/-- The full device refuses every line, for none is empty with its end. -/
theorem writeLog_full {n : Nat} (h : s.log = some (.device .full, n)) (line : String) :
    s.writeLog line = (false, s) := by
  have hne : line ++ "\n" ≠ "" := fun hnil => by simpa using congrArg String.toList hnil
  have hwrite : s.write (.device .full) n (line ++ "\n") = none := feed_full hne
  rw [writeLog, h]
  dsimp only
  rw [hwrite]

end Session

variable [Surroundings]

/-! ## Disks -/

namespace Disk

/-- A log can be sent to a path, and takes every line. -/
def Logs (d : Disk) (path : String) : Prop :=
  (({ disk := d } : Session).openLog path).1 = true ∧
    ∀ line, ((({ disk := d } : Session).openLog path).2.writeLog line).1 = true

/-- Two paths name one file, be it there or not. -/
def SameFile (d : Disk) (p q : String) : Prop :=
  ∃ l, d.locate p = some (.file l) ∧ d.locate q = some (.file l)

/-- The directories are the same, and all files but that at a location, if one is
given. -/
structure SameBut (k? : Option Location) (d d' : Disk) : Prop where
  directory : ∀ l, d'.isDirectory l = d.isDirectory l
  entry : ∀ l, k? ≠ some l → d'.get? l = d.get? l

namespace SameBut

variable {k? : Option Location} {d d' d'' : Disk} {l : Location}

theorem refl (d : Disk) : SameBut k? d d := ⟨fun _ => rfl, fun _ _ => rfl⟩

theorem trans (h : SameBut k? d d') (h' : SameBut k? d' d'') : SameBut k? d d'' :=
  ⟨fun l => (h'.directory l).trans (h.directory l),
    fun l hl => (h'.entry l hl).trans (h.entry l hl)⟩

/-- The file at the location changes. -/
theorem put_self (h : d.isDirectory l = false) (content : List UInt8) :
    SameBut (some l) d (d.put l (.file content)) := by
  refine ⟨isDirectory_put h content, fun l' hl' => ?_⟩
  rw [get?_put, if_neg fun h : l' = l => hl' (congrArg some h.symm)]

/-- Any file changes in the same way on both. -/
theorem put (h : SameBut k? d d') (hl : d.isDirectory l = false) (content : List UInt8) :
    SameBut k? (d.put l (.file content)) (d'.put l (.file content)) := by
  refine ⟨fun x => ?_, fun x hx => ?_⟩
  · rw [isDirectory_put ((h.directory l).trans hl), isDirectory_put hl, h.directory]
  · rw [get?_put, get?_put, h.entry x hx]

end SameBut

end Disk

/-! ## Sessions -/

namespace Session

/-- The log of a session takes every line, and goes to no file but that at a
location. -/
inductive LogsTo (k? : Option Location) (s : Session) : Prop
  /-- It goes to standard output. -/
  | console (h : s.log = none)
  /-- It goes to the file. -/
  | file {l : Location} {n : Nat} (h : s.log = some (.file l, n)) (hk : k? = some l)
    (hdir : s.disk.isDirectory l = false) (hfile : (s.disk.content? l).isSome)
  /-- It goes to a device. -/
  | device {x : Device} {n : Nat} (h : s.log = some (.device x, n)) (hx : x ≠ .full)

end Session

/-- Two sessions that began on a disk, and differ only in their logs: the first has
none, and that of the second goes to no file but that at a location. -/
structure Alike (d : Disk) (k? : Option Location) (s s' : Session) : Prop where
  directory : ∀ l, s.disk.isDirectory l = d.isDirectory l
  disk : s.disk.SameBut k? s'.disk
  log : s.log = none
  log' : s'.LogsTo k?

namespace Session

variable {k? : Option Location} {s t : Session} {x : Device} {text : String}

/-- A file that cannot be written is left alone. -/
theorem writeFile_of_refused {path : String} (h : (s.writeFile path text).1 = false) :
    (s.writeFile path text).2 = s := by
  rcases s.locate_cases path with ⟨l, hplace, hcan⟩ | ⟨x, hplace⟩ | hrefused
  · rw [writeFile_eq hplace hcan] at h
    cases h
  · rw [writeFile_eq_of_device hplace] at h ⊢
    cases hfeed : s.feed x text with
    | none => rfl
    | some t =>
      rw [hfeed] at h
      cases h
  · rw [hrefused s rfl]

/-- A file that is written does not move the log. -/
theorem writeFile_log (s : Session) (path text : String) :
    (s.writeFile path text).2.log = s.log := by
  rcases s.locate_cases path with ⟨l, hplace, hcan⟩ | ⟨x, hplace⟩ | hrefused
  · rw [writeFile_eq hplace hcan]
  · rw [writeFile_eq_of_device hplace]
    cases hfeed : s.feed x text with
    | none => rfl
    | some t =>
      have hwrite : s.write (.device x) 0 text = some t := hfeed
      exact log_of_write hwrite
  · rw [hrefused s rfl]

/-- Whether a file can be written is settled by what its path names. -/
theorem writeFile_congr {path : String} (h : t.locate path = s.locate path) (text : String) :
    (t.writeFile path text).1 = (s.writeFile path text).1 := by
  rcases s.locate_cases path with ⟨l, hplace, hcan⟩ | ⟨x, hplace⟩ | hrefused
  · rw [writeFile_eq hplace hcan, writeFile_eq (h.trans hplace) hcan]
  · rw [writeFile_eq_of_device hplace, writeFile_eq_of_device (h.trans hplace)]
    rcases feed_cases x text with hnone | hsome
    · rw [hnone, hnone]
      rfl
    · obtain ⟨u, hfeed, _⟩ := hsome s
      obtain ⟨v, hfeed', _⟩ := hsome t
      rw [hfeed, hfeed']
      rfl
  · rw [hrefused s rfl, hrefused t h]

/-- A file that is not standard output is written beside what was printed. -/
theorem writeFile_printed {path : String} (h : s.locate path ≠ some (.device .output))
    (text : String) : (s.writeFile path text).2.printed = s.printed := by
  rcases s.locate_cases path with ⟨l, hplace, hcan⟩ | ⟨x, hplace⟩ | hrefused
  · rw [writeFile_eq hplace hcan]
  · rw [writeFile_eq_of_device hplace]
    cases x with
    | full =>
      by_cases htext : text = ""
      · have hfeed : s.feed .full text = some s := if_pos htext
        rw [hfeed]
        rfl
      · rw [feed_full htext]
        rfl
    | zero | source | error => rfl
    | output => exact absurd hplace h
  · rw [hrefused s rfl]

/-- A log takes a line, and only its file changes. If the line is printed, nothing
else is. -/
theorem writeLog_of_logsTo (h : s.LogsTo k?) (line : String) :
    ∃ t, s.writeLog line = (true, t) ∧ t.LogsTo k? ∧ s.disk.SameBut k? t.disk ∧
      (t.printed = s.printed ∨ t.printed = s.printed ++ (line ++ "\n")) := by
  cases h with
  | console h => exact ⟨_, writeLog_eq_of_none h line, .console h, .refl _, .inr rfl⟩
  | @file l n h hk hdir hfile =>
    subst hk
    obtain ⟨content, hcontent⟩ := Option.isSome_iff_exists.mp hfile
    have hwrite : s.write (.file l) n (line ++ "\n") = some { s with
        disk := s.disk.put l
          (.file (Disk.overwrite content n (Text.encode (line ++ "\n").toList))) } := by
      rw [write, Disk.writeAt, hcontent]
      rfl
    refine ⟨_, writeLog_eq_of_write h hwrite, ?_, .put_self hdir _, .inl rfl⟩
    refine .file rfl rfl ((Disk.isDirectory_put hdir _ l).trans hdir) ?_
    rw [Disk.content?, Disk.get?_put, if_pos rfl]
    rfl
  | @device x n h hx =>
    obtain ⟨t, hfeed, hdisk, _, hprinted⟩ := exists_feed hx s (line ++ "\n")
    refine ⟨_, writeLog_eq_of_write h hfeed, .device rfl hx, ?_, hprinted⟩
    show s.disk.SameBut k? t.disk
    rw [hdisk]
    exact .refl _

/-- A log stays what it is if a file is written. -/
theorem LogsTo.put (h : s.LogsTo k?) {l : Location} (hl : s.disk.isDirectory l = false)
    (content : List UInt8) : ({ s with disk := s.disk.put l (.file content) }).LogsTo k? := by
  cases h with
  | console h => exact .console h
  | @file l' n h hk hdir hfile =>
    refine .file h hk ((Disk.isDirectory_put hl content l').trans hdir) ?_
    rw [Disk.content?, Disk.get?_put]
    by_cases hll : l' = l
    · rw [if_pos hll]
      rfl
    · rw [if_neg hll]
      exact hfile
  | device h hx => exact .device h hx

/-- A log stays what it is if the disk and the log do. -/
theorem LogsTo.congr (h : s.LogsTo k?) (hdisk : t.disk = s.disk) (hlog : t.log = s.log) :
    t.LogsTo k? := by
  cases h with
  | console h => exact .console (hlog.trans h)
  | file h hk hdir hfile => exact .file (hlog.trans h) hk (hdisk ▸ hdir) (hdisk ▸ hfile)
  | device h hx => exact .device (hlog.trans h) hx

end Session

namespace Alike

open Session

variable {d : Disk} {k? : Option Location} {s s' t t' : Session} {path : String}

/-- The paths name what they named at first. -/
theorem locate (h : Alike d k? s s') (path : String) : s.locate path = d.locate path :=
  (Session.locate_of_none h.log path).trans (Disk.locate_congr h.directory path)

/-- The second session has a log besides, which can be found by a path. -/
theorem locate' (h : Alike d k? s s') (hlog : ¬ d.NamesLog path) :
    s'.locate path = d.locate path := by
  have hdir : ∀ l, s'.disk.isDirectory l = d.isDirectory l := fun l =>
    (h.disk.directory l).trans (h.directory l)
  rw [Session.locate_of_not_namesLog fun h' => hlog ((Disk.namesLog_congr hdir path).mp h'),
    Disk.locate_congr hdir]

/-- A path that names neither the log nor its file is read alike. -/
theorem readFile (h : Alike d k? s s') (hlog : ¬ d.NamesLog path)
    (hpath : ∀ l, d.locate path = some (.file l) → k? ≠ some l) :
    s'.readFile path = s.readFile path := by
  unfold Session.readFile
  rw [h.locate' hlog, h.locate]
  cases hplace : d.locate path with
  | none => rfl
  | some place =>
    cases place with
    | device x => cases x <;> rfl
    | file l =>
      dsimp only
      rw [Disk.content?, Disk.content?, h.disk.entry l (hpath l hplace)]

/-- What the first session prints may differ. -/
theorem congr (h : Alike d k? s s') (hdisk : t.disk = s.disk) (hlog : t.log = s.log)
    (hdisk' : t'.disk = s'.disk) (hlog' : t'.log = s'.log) : Alike d k? t t' where
  directory := by
    rw [hdisk]
    exact h.directory
  disk := by
    rw [hdisk, hdisk']
    exact h.disk
  log := hlog.trans h.log
  log' := h.log'.congr hdisk' hlog'

/-- A line that the first session tells. -/
theorem writeLog (h : Alike d k? s s') (line : String) :
    Alike d k? { s with printed := s.printed ++ (line ++ "\n") } s' :=
  h.congr rfl rfl rfl rfl

/-- A line that the second session tells. -/
theorem writeLog' (h : Alike d k? s s') (line : String) :
    ∃ t', s'.writeLog line = (true, t') ∧ Alike d k? s t' ∧
      (t'.printed = s'.printed ∨ t'.printed = s'.printed ++ (line ++ "\n")) := by
  obtain ⟨t', hwrite, hlogs, hsame, hprinted⟩ := writeLog_of_logsTo h.log' line
  exact ⟨t', hwrite, ⟨h.directory, h.disk.trans hsame, h.log, hlogs⟩, hprinted⟩

/-- A file that both sessions write. -/
theorem put (h : Alike d k? s s') {l : Location} (hl : s.disk.isDirectory l = false)
    (content : List UInt8) :
    Alike d k? { s with disk := s.disk.put l (.file content) }
      { s' with disk := s'.disk.put l (.file content) } where
  directory x := (Disk.isDirectory_put hl content x).trans (h.directory x)
  disk := h.disk.put hl content
  log := h.log
  log' := h.log'.put ((h.disk.directory l).trans hl) content

/-- Both sessions write a text, or neither can. -/
theorem writeFile (h : Alike d k? s s') (hlog : ¬ d.NamesLog path) (text : String) :
    (s'.writeFile path text).1 = (s.writeFile path text).1 ∧
      Alike d k? (s.writeFile path text).2 (s'.writeFile path text).2 := by
  have hsame : s'.locate path = s.locate path := (h.locate' hlog).trans (h.locate path).symm
  rcases s.locate_cases path with ⟨l, hplace, hcan⟩ | ⟨x, hplace⟩ | hrefused
  · have hl : s.disk.isDirectory l = false := (h.directory l).trans
      (Disk.not_isDirectory_of_locate ((h.locate path).symm.trans hplace))
    rw [writeFile_eq hplace hcan, writeFile_eq (hsame.trans hplace) hcan]
    exact ⟨rfl, (h.put hl []).put ((Disk.isDirectory_put hl [] l).trans hl) _⟩
  · rw [writeFile_eq_of_device hplace, writeFile_eq_of_device (hsame.trans hplace)]
    rcases feed_cases x text with hnone | hsome
    · rw [hnone, hnone]
      exact ⟨rfl, h⟩
    · obtain ⟨t, hfeed, hdisk, hlog⟩ := hsome s
      obtain ⟨t', hfeed', hdisk', hlog'⟩ := hsome s'
      rw [hfeed, hfeed']
      exact ⟨rfl, h.congr hdisk hlog hdisk' hlog'⟩
  · rw [hrefused s rfl, hrefused s' hsame]
    exact ⟨rfl, h⟩

end Alike

/-! ## Opening a log -/

section Opening

open Session

variable {d : Disk} {path : String} {l : Location}

/-- A log that is opened goes to a file, which it empties, or to a device. Otherwise there
is none. -/
theorem openLog_cases (d : Disk) (path : String) :
    (∃ l, d.locate path = some (.file l) ∧ ({ disk := d } : Session).openLog path
      = (true, { disk := d.put l (.file []), log := some (.file l, 0) })) ∨
    (∃ x, d.locate path = some (.device x) ∧ ({ disk := d } : Session).openLog path
      = (true, { disk := d, log := some (.device x, 0) })) ∨
    ({ disk := d } : Session).openLog path = (false, { disk := d }) := by
  cases hplace : d.locate path with
  | none =>
    rw [openLog, hplace]
    exact .inr (.inr rfl)
  | some place =>
    cases place with
    | device x =>
      rw [openLog, hplace]
      exact .inr (.inl ⟨x, rfl, rfl⟩)
    | file l =>
      cases hcan : Surroundings.canWrite l with
      | true =>
        rw [openLog, hplace, create_file hcan]
        exact .inl ⟨l, rfl, rfl⟩
      | false =>
        have hcreate : d.create (some (.file l)) = none := if_neg (by rw [hcan]; nofun)
        rw [openLog, hplace, hcreate]
        exact .inr (.inr rfl)

theorem logsTo_openLog (h : d.locate path = some (.file l)) :
    ({ disk := d.put l (.file []), log := some (.file l, 0) } : Session).LogsTo (some l) := by
  have hl := Disk.not_isDirectory_of_locate h
  refine .file rfl rfl ((Disk.isDirectory_put hl [] l).trans hl) ?_
  show (Disk.content? _ _).isSome
  rw [Disk.content?, Disk.get?_put, if_pos rfl]
  rfl

/-- Where a path names a file that may be written, a log can be sent to it. -/
theorem Disk.logs_of_locate (h : d.locate path = some (.file l))
    (hcan : Surroundings.canWrite l = true) : d.Logs path := by
  have hopen : ({ disk := d } : Session).openLog path
      = (true, { disk := d.put l (.file []), log := some (.file l, 0) }) := by
    rw [openLog, h, create_file hcan]
  unfold Logs
  rw [hopen]
  refine ⟨rfl, fun line => ?_⟩
  obtain ⟨t, hwrite, _⟩ := writeLog_of_logsTo (logsTo_openLog h) line
  rw [hwrite]

/-- A session whose log was opened is like one that has none, up to the file that
the log empties. -/
theorem alike_openLog (h : d.Logs path) :
    ∃ k?, (∀ l, k? = some l → d.locate path = some (.file l)) ∧
      Alike d k? { disk := d } (({ disk := d } : Session).openLog path).2 ∧
      (({ disk := d } : Session).openLog path).2.printed = "" := by
  obtain ⟨hopen, hlines⟩ := h
  rcases openLog_cases d path with ⟨l, hplace, heq⟩ | ⟨x, hplace, heq⟩ | heq
  · have hl := Disk.not_isDirectory_of_locate hplace
    rw [heq]
    exact ⟨some l, fun l' h => Option.some.inj h ▸ hplace,
      ⟨fun _ => rfl, .put_self hl [], rfl, logsTo_openLog hplace⟩, rfl⟩
  · rw [heq] at hlines ⊢
    refine ⟨none, fun l hl => absurd hl.symm (Option.some_ne_none l),
      ⟨fun _ => rfl, .refl d, rfl, .device rfl fun hx => ?_⟩, rfl⟩
    -- the full device would have refused a line
    subst hx
    cases (congrArg Prod.fst (writeLog_full rfl "")).symm.trans (hlines "")
  · rw [heq] at hopen
    cases hopen

end Opening

end WatchLists
