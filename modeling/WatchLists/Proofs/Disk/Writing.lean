import WatchLists.Disk.Session

/-!
# Writing a file

A path that names a file names the same file after the file was written, for no
directory has come or gone. The file then holds what was written, and no other
entry has changed.

- `not_isDirectory_of_find`: what can be written is no directory.
- `find_congr`, `locate_put`: paths lead where they led before.
- `Session.locate_congr`: what they name, with a log that may be open.
- `writeFile_eq`, `writeFile_of_locate`: a written file, read again, and all else.
-/

namespace WatchLists

variable [Surroundings]

/-- What is opened as a file is the location itself. -/
theorem Location.eq_of_place {x l : Location} (h : x.place = .file l) : x = l := by
  unfold place at h
  split at h
  · cases h
  · cases h
    rfl

namespace Disk

variable {d d' : Disk} {l : Location} {path : String}

/-! ## Paths -/

theorem not_isDirectory_of_follow {names : List String} {x : Location}
    (h : d.follow l names = some x) : d.isDirectory x = false := by
  fun_induction follow d l names
  case case1 | case2 | case3 | case8 => cases h
  case case4 hdir =>
    cases h
    exact eq_false_of_ne_true hdir
  case case5 ih | case6 ih | case7 ih => exact ih h

theorem not_isDirectory_of_find (h : d.find path = some l) : d.isDirectory l = false := by
  unfold find at h
  split at h
  · split at h
    · exact not_isDirectory_of_follow h
    · exact not_isDirectory_of_follow h
  · cases h

/-- A path that names something leads to it, and not to the log. -/
theorem exists_find_of_locate {place : Place} (h : d.locate path = some place) :
    ¬ d.NamesLog path ∧ ∃ x, d.find path = some x ∧ x.place = place := by
  unfold locate at h
  split at h
  · cases h
  · next hlog => exact ⟨hlog, Option.map_eq_some_iff.mp h⟩

theorem not_isDirectory_of_locate (h : d.locate path = some (.file l)) :
    d.isDirectory l = false := by
  obtain ⟨_, x, hfind, hplace⟩ := exists_find_of_locate h
  exact not_isDirectory_of_find (Location.eq_of_place hplace ▸ hfind)

/-- Only directories decide where a way leads. -/
theorem follow_congr (h : ∀ x, d'.isDirectory x = d.isDirectory x) (names : List String) :
    d'.follow l names = d.follow l names := by
  fun_induction follow d l names <;> simp_all [follow]

theorem find_congr (h : ∀ x, d'.isDirectory x = d.isDirectory x) (path : String) :
    d'.find path = d.find path := by
  unfold find
  split
  · split
    · exact follow_congr h _
    · exact follow_congr h _
  · rfl

theorem namesLog_congr (h : ∀ x, d'.isDirectory x = d.isDirectory x) (path : String) :
    d'.NamesLog path ↔ d.NamesLog path := by
  unfold NamesLog
  rw [find_congr h]

theorem locate_congr (h : ∀ x, d'.isDirectory x = d.isDirectory x) (path : String) :
    d'.locate path = d.locate path := by
  unfold locate
  simp only [find_congr h, namesLog_congr h path]

/-- A file in place of no directory is none either. -/
theorem isDirectory_put (h : d.isDirectory l = false) (content : List UInt8) (x : Location) :
    (d.put l (.file content)).isDirectory x = d.isDirectory x := by
  unfold isDirectory
  rw [get?_put]
  by_cases hx : x = l
  · -- there was no directory, and there is a file now
    subst hx
    rw [if_pos rfl]
    exact (congrArg _ (decide_eq_false nofun)).trans
      (congrArg _ (Bool.or_eq_false_iff.mp h).2.symm)
  · rw [if_neg hx]

theorem locate_put (h : d.isDirectory l = false) (content : List UInt8) (path : String) :
    (d.put l (.file content)).locate path = d.locate path :=
  locate_congr (isDirectory_put h content) path

end Disk

namespace Session

variable {s t : Session} {path : String} {l : Location}

/-! ## What is open -/

theorem locate_of_not_namesLog (h : ¬ s.disk.NamesLog path) :
    s.locate path = s.disk.locate path := if_neg h

/-- What is named while no log is open is named while one is. -/
theorem locate_of_disk {place : Place} (h : s.disk.locate path = some place) :
    s.locate path = some place :=
  (locate_of_not_namesLog (Disk.exists_find_of_locate h).1).trans h

/-- As long as no log is open, the disk says what a path names. -/
theorem locate_of_none (h : s.log = none) (path : String) :
    s.locate path = s.disk.locate path := by
  unfold locate Disk.locate
  rw [h]
  split <;> rfl

/-- Only directories and the place of the log decide what a path names. -/
theorem locate_congr (hdir : ∀ x, t.disk.isDirectory x = s.disk.isDirectory x)
    (hlog : t.log.map Prod.fst = s.log.map Prod.fst) (path : String) :
    t.locate path = s.locate path := by
  unfold locate
  simp only [hlog, Disk.locate_congr hdir, Disk.namesLog_congr hdir path]

/-! ## Files -/

theorem create_file (h : Surroundings.canWrite l = true) (d : Disk) :
    d.create (some (.file l)) = some (.file l, d.put l (.file [])) := if_pos h

/-- A file is emptied first and then written from its start. -/
theorem writeFile_eq (h : s.locate path = some (.file l)) (hcan : Surroundings.canWrite l = true)
    (text : String) : s.writeFile path text = (true, { s with
      disk := (s.disk.put l (.file [])).put l (.file (Text.encode text.toList)) }) := by
  have hempty : (s.disk.put l (.file [])).content? l = some [] := by
    rw [Disk.content?, Disk.get?_put, if_pos rfl]
  have hwrite : (s.disk.put l (.file [])).writeAt l 0 (Text.encode text.toList)
      = some ((s.disk.put l (.file [])).put l (.file (Text.encode text.toList))) := by
    rw [Disk.writeAt, hempty, Option.map_some, Disk.overwrite_nil]
  simp only [writeFile, h, create_file hcan, write, hwrite, Option.map_some]

/-- A file that may not be written is not. -/
theorem writeFile_of_cannot (h : s.locate path = some (.file l))
    (hcan : Surroundings.canWrite l = false) (text : String) :
    s.writeFile path text = (false, s) := by
  have hcreate : s.disk.create (some (.file l)) = none := if_neg (by rw [hcan]; nofun)
  simp only [writeFile, h, hcreate]

/-- Where there is nothing to write, nothing is written. -/
theorem writeFile_of_nothing (h : s.locate path = none) (text : String) :
    s.writeFile path text = (false, s) := by
  have hcreate : s.disk.create none = none := rfl
  simp only [writeFile, h, hcreate]

/-- A text that is written to a path which names a device goes to the device. -/
theorem writeFile_eq_of_device {x : Device} (h : s.locate path = some (.device x))
    (text : String) :
    s.writeFile path text = (s.feed x text).elim (false, s) fun t => (true, t) := by
  have hcreate : s.disk.create (some (.device x)) = some (.device x, s.disk) := rfl
  have hwrite : ({ s with disk := s.disk } : Session).write (.device x) 0 text
      = s.feed x text := rfl
  simp only [writeFile, h, hcreate, hwrite]
  cases s.feed x text <;> rfl

/-- **What can be written.** A path names a file that may be written, or a device; or it can
be written in no session in which it names the same. -/
theorem locate_cases (s : Session) (path : String) :
    (∃ l, s.locate path = some (.file l) ∧ Surroundings.canWrite l = true) ∨
    (∃ x, s.locate path = some (.device x)) ∨
    ∀ t : Session, t.locate path = s.locate path → ∀ text, t.writeFile path text = (false, t) := by
  cases hplace : s.locate path with
  | none => exact .inr (.inr fun t ht text => writeFile_of_nothing ht text)
  | some place =>
    cases place with
    | device x => exact .inr (.inl ⟨x, rfl⟩)
    | file l =>
      cases hcan : Surroundings.canWrite l with
      | true => exact .inl ⟨l, rfl, hcan⟩
      | false => exact .inr (.inr fun t ht text => writeFile_of_cannot ht hcan text)

/-- **Writing a file.** Where a path names a file that may be written, writing succeeds. The
path then names a file that holds the text, and every other entry is what it was. -/
theorem writeFile_of_locate (h : s.disk.locate path = some (.file l))
    (hcan : Surroundings.canWrite l = true) (text : String) :
    ∃ d, s.writeFile path text = (true, { s with disk := d }) ∧
      d.locate path = some (.file l) ∧ d.content? l = some (Text.encode text.toList) ∧
      ∀ l', l' ≠ l → d.get? l' = s.disk.get? l' := by
  have hdir := Disk.not_isDirectory_of_locate h
  have hdir' : (s.disk.put l (.file [])).isDirectory l = false :=
    (Disk.isDirectory_put hdir [] l).trans hdir
  refine ⟨_, writeFile_eq (locate_of_disk h) hcan text, ?_, ?_, ?_⟩
  · rw [Disk.locate_put hdir', Disk.locate_put hdir, h]
  · rw [Disk.content?, Disk.get?_put, if_pos rfl]
  · intro l' hne
    rw [Disk.get?_put, if_neg hne, Disk.get?_put, if_neg hne]

/-- A file that was written may be written. -/
theorem canWrite_of_writeFile {text : String} (h : s.locate path = some (.file l))
    (hwritten : (s.writeFile path text).1 = true) : Surroundings.canWrite l = true := by
  cases hcan : Surroundings.canWrite l with
  | true => rfl
  | false =>
    rw [writeFile_of_cannot h hcan] at hwritten
    cases hwritten

/-- A file that may be read is read from the disk. -/
theorem readFile_eq (h : s.disk.locate path = some (.file l))
    (hcan : Surroundings.canRead l = true) : s.readFile path = s.disk.content? l := by
  unfold readFile
  rw [locate_of_disk h]
  exact if_pos hcan

end Session

end WatchLists
