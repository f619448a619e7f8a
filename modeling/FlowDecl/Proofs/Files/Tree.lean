import FlowDecl.Files.Tree

/-!
# File trees

What the operations do to a file tree, and where paths lead.
-/

namespace FlowDecl.FileTree

/-! ## Laws of file trees

What an operation does to a tree is said by what is at each location afterwards.  Making
directories leaves every file as it was (`createDirectories_grows`).  Writing either fails
and changes nothing, or sets the one file that its path leads to (`write_cases`).

No operation takes a directory away.  A path is followed through directories only, so a path
that leads to a location leads there ever after (`locate_of_keeps`).  This is why the outputs
of a run can be told apart in the tree that the run leaves behind.
-/

/-! ### Entries -/

theorem find_filter_of_ne {loc other : Location} (ne : other ≠ loc)
    (entries : List (Location × Entry)) :
    find other (entries.filter fun pair => pair.1 ≠ loc) = find other entries := by
  induction entries with
  | nil => rfl
  | cons pair entries ih =>
    obtain ⟨l, e⟩ := pair
    by_cases same : l = loc
    · have dropped : ((l, e) :: entries).filter (fun pair => pair.1 ≠ loc) =
          entries.filter fun pair => pair.1 ≠ loc := by simp [same]
      have missed : l ≠ other := by
        rw [same]
        exact ne.symm
      rw [dropped, ih, find, if_neg missed]
    · have kept : ((l, e) :: entries).filter (fun pair => pair.1 ≠ loc) =
          (l, e) :: entries.filter fun pair => pair.1 ≠ loc := by simp [same]
      rw [kept, find, find, ih]

/-- A location without a directory holds the entry that is set there. -/
theorem entry?_set_self {t : FileTree} {loc : Location} (free : t.entry? loc ≠ some .directory)
    (e : Entry) : entry? (t.set loc e) loc = some e := by
  have outside : ¬t.working.isWithin loc = true := fun inside => free (if_pos inside)
  rw [set, entry?, if_neg outside, find, if_pos rfl]

/-- An entry is set at one location only. -/
theorem entry?_set_of_ne (t : FileTree) {loc other : Location} (ne : other ≠ loc) (e : Entry) :
    entry? (t.set loc e) other = t.entry? other := by
  rw [set, entry?, entry?, find, if_neg ne.symm, find_filter_of_ne ne]

/-! ### Files -/

/-- A tree of text files in the working directory. -/
def ofTexts (working : Location) (files : List (String × String)) : FileTree :=
  ⟨working, files.map fun (name, text) => (working.child name.toList, .file (.text text))⟩

/-- The contents of the file at a location, if a file is there. -/
def file? (t : FileTree) (loc : Location) : Option Contents :=
  match t.entry? loc with
  | some (.file contents) => some contents
  | _ => none

theorem file?_set_self {t : FileTree} {loc : Location} (free : t.entry? loc ≠ some .directory)
    (contents : Contents) : (t.set loc (.file contents)).file? loc = some contents := by
  rw [file?, entry?_set_self free]

theorem file?_set_of_ne (t : FileTree) {loc other : Location} (ne : other ≠ loc) (e : Entry) :
    (t.set loc e).file? other = t.file? other := by
  rw [file?, file?, entry?_set_of_ne t ne]

theorem not_directory_of_file? {t : FileTree} {loc : Location} {contents : Contents}
    (h : t.file? loc = some contents) : t.entry? loc ≠ some .directory := by
  intro directory
  rw [file?, directory] at h
  cases h

/-- A path is looked up as a file exactly if it leads to the location of the file. -/
theorem lookup_eq_file_iff {t : FileTree} {path : List Char} {contents : Contents} :
    t.lookup path = .ok (.file contents) ↔
      ∃ loc, t.locate path = .ok loc ∧ t.file? loc = some contents := by
  rw [lookup]
  cases t.locate path with
  | error e => simp
  | ok loc =>
    simp only [Except.ok.injEq, file?, exists_eq_left']
    cases t.entry? loc with
    | none => simp
    | some entry => cases entry <;> simp

/-- A path is read as a text exactly if it leads to a file that holds the text. -/
theorem readText_eq_ok_iff {t : FileTree} {path text : String} :
    t.readText path = .ok text ↔
      ∃ loc, t.locate path.toList = .ok loc ∧ t.file? loc = some (.text text) := by
  rw [← lookup_eq_file_iff, readText]
  cases t.lookup path.toList with
  | error e => simp
  | ok entry =>
    cases entry with
    | directory => simp
    | file contents => cases contents <;> simp

/-! ### Trees that keep their directories -/

/-- The second tree has the working directory of the first one, and its directories at least. -/
structure KeepsDirectories (before after : FileTree) : Prop where
  /-- The working directory is the same. -/
  working : after.working = before.working
  /-- Every directory is still there. -/
  directories : ∀ loc, before.entry? loc = some .directory → after.entry? loc = some .directory

theorem KeepsDirectories.refl (t : FileTree) : KeepsDirectories t t := ⟨rfl, fun _ h => h⟩

theorem KeepsDirectories.trans {first second third : FileTree}
    (h : KeepsDirectories first second) (h' : KeepsDirectories second third) :
    KeepsDirectories first third :=
  ⟨h'.working.trans h.working, fun loc there => h'.directories loc (h.directories loc there)⟩

/-- Setting an entry where no directory is keeps the directories. -/
theorem KeepsDirectories.set {t : FileTree} {loc : Location}
    (free : t.entry? loc ≠ some .directory) (e : Entry) : KeepsDirectories t (t.set loc e) := by
  refine ⟨rfl, ?_⟩
  intro other directory
  have ne : other ≠ loc := by
    intro same
    exact free (same ▸ directory)
  rw [entry?_set_of_ne t ne, directory]

/-- A step of a walk is taken from a directory, by a part that is not too long. -/
theorem walk_cons_eq_ok_iff {t : FileTree} {part : List Char} {parts : List (List Char)}
    {here loc : Location} :
    t.walk here (part :: parts) = .ok loc ↔
      t.entry? here = some .directory ∧ Path.isTooLong part = false ∧
        t.walk (here.follow part) parts = .ok loc := by
  rw [walk]
  cases t.entry? here with
  | none => simp
  | some e =>
    cases e with
    | file contents => simp
    | directory => cases Path.isTooLong part <;> simp

/-- A walk ends where it did as long as the directories on its way are kept. -/
theorem walk_of_keeps {t t' : FileTree} (keeps : KeepsDirectories t t') {loc : Location}
    (parts : List (List Char)) (here : Location) (h : t.walk here parts = .ok loc) :
    t'.walk here parts = .ok loc := by
  induction parts generalizing here with
  | nil => exact h
  | cons part parts ih =>
    obtain ⟨directory, fits, rest⟩ := walk_cons_eq_ok_iff.mp h
    exact walk_cons_eq_ok_iff.mpr ⟨keeps.directories here directory, fits, ih _ rest⟩

/-- A path that leads somewhere leads there as long as directories are kept. -/
theorem locate_of_keeps {t t' : FileTree} (keeps : KeepsDirectories t t') {path : List Char}
    {loc : Location} (h : t.locate path = .ok loc) : t'.locate path = .ok loc := by
  rw [locate] at h
  rw [locate]
  split at h
  next => cases h
  next allowed =>
    rw [keeps.working]
    exact walk_of_keeps keeps _ _ h

/-! ### Making directories -/

/-- The second tree has the files of the first one, and its directories at least. -/
structure Grows (before after : FileTree) : Prop where
  /-- Every file is as it was, and no file is new. -/
  files : ∀ loc, after.file? loc = before.file? loc
  /-- Every directory is still there. -/
  keeps : KeepsDirectories before after

theorem Grows.refl (t : FileTree) : Grows t t := ⟨fun _ => rfl, .refl t⟩

theorem Grows.trans {first second third : FileTree} (h : Grows first second)
    (h' : Grows second third) : Grows first third :=
  ⟨fun loc => (h'.files loc).trans (h.files loc), h.keeps.trans h'.keeps⟩

theorem createDirectory_grows {t t' : FileTree} {path : List Char}
    (h : t.createDirectory path = .ok t') : Grows t t' := by
  rw [createDirectory] at h
  split at h
  next => cases h
  next loc _ =>
    split at h
    next => cases h
    next vacant =>
      cases h
      have free : t.entry? loc ≠ some .directory := by simp [vacant]
      refine ⟨?_, .set free _⟩
      intro other
      by_cases same : other = loc
      · rw [same, file?, file?, entry?_set_self free, vacant]
      · exact file?_set_of_ne t same _

/-- Making the first of some directories adds directories only.  The ones further out are made
before the ones in them. -/
theorem createFirst_grows (t : FileTree) (paths : List (List Char)) :
    Grows t (t.createFirst paths).1 := by
  induction paths with
  | nil => exact .refl t
  | cons path outer ih =>
    rw [createFirst]
    split
    next t' made => exact createDirectory_grows made
    next =>
      split
      next t' e outside =>
        rw [outside] at ih
        exact ih
      next t' outside =>
        rw [outside] at ih
        split
        next made => exact ih.trans (createDirectory_grows made)
        next => exact ih
    next => exact .refl t

/-- Making a directory and those above it changes no file, also where it fails. -/
theorem createDirectories_grows (t : FileTree) (path : String) :
    Grows t (t.createDirectories path).1 :=
  createFirst_grows t _

/-! ### Writing -/

/-- A path that may be written to is one that leads to a location. -/
theorem locate_of_locateFile {t : FileTree} {path : List Char} {loc : Location}
    (h : t.locateFile path = .ok loc) : t.locate path = .ok loc := by
  rw [locateFile] at h
  split at h
  next => exact h
  next =>
    split at h
    next => cases h
    next => split at h <;> cases h

/-- Writing fails and changes nothing, or sets the file that the path leads to. -/
theorem write_cases (t : FileTree) (path : List Char) (contents : Contents) :
    (∃ e, t.write path contents = (t, .error e)) ∨
      ∃ loc, t.locate path = .ok loc ∧ t.entry? loc ≠ some .directory ∧
        t.write path contents = (t.set loc (.file contents), .ok ()) := by
  rw [write]
  split
  next e _ => exact .inl ⟨e, rfl⟩
  next loc located =>
    split
    next => exact .inl ⟨_, rfl⟩
    next free => exact .inr ⟨loc, locate_of_locateFile located, free, rfl⟩

/-! ### Actions on the tree -/

section Actions

variable {α β : Type}

theorem bind_run (x : M α) (next : α → M β) (t : FileTree) :
    (x >>= next) t = next (x t).1 (x t).2 := rfl

theorem readText_run (path : String) (t : FileTree) :
    (FileSystem.readText path : M _) t = (t.readText path, t) := rfl

theorem pathExists_run (path : String) (t : FileTree) :
    (FileSystem.pathExists path : M _) t = (t.pathExists path, t) := rfl

theorem createDirectories_run (path : String) (t : FileTree) :
    (FileSystem.createDirectories path : M _) t =
      ((t.createDirectories path).2, (t.createDirectories path).1) := rfl

theorem writeText_run (path text : String) (t : FileTree) :
    (FileSystem.writeText path text : M _) t =
      ((t.writeText path text).2, (t.writeText path text).1) := rfl

end Actions

end FlowDecl.FileTree

namespace FlowDecl

/-! ## Places of paths

The place that a path leads to can be told from the path and the working directory, as well as
the places that it passes.  The files only decide whether the way is free: every place that is
passed has to be a directory (`locate_eq_ok_iff`).

So a path is read alike from two trees that differ in one place, if it leads to another place and
the first one is not on its way as a directory in one of the trees only (`readText_eq_ok_congr`).
-/

namespace Location

/-- The location that parts lead to. -/
def reached (here : Location) (parts : List (List Char)) : Location := parts.foldl follow here

/-- The locations that are passed when parts are followed, the last one left out. -/
def passed (here : Location) : List (List Char) → List Location
  | [] => []
  | part :: parts => here :: (here.follow part).passed parts

/-- The location that a path leads to, if it leads anywhere. -/
def ofPath (working : Location) (path : List Char) : Location :=
  (start working path).reached (Path.split path)

/-- The locations that a path passes. -/
def onWay (working : Location) (path : List Char) : List Location :=
  (start working path).passed (Path.split path)

end Location

namespace FileTree

/-- A walk ends well exactly if it passes directories only and no part is too long. -/
theorem walk_eq_ok_iff {t : FileTree} {parts : List (List Char)} {here loc : Location} :
    t.walk here parts = .ok loc ↔
      (∀ l ∈ here.passed parts, t.entry? l = some .directory) ∧
        (∀ part ∈ parts, Path.isTooLong part = false) ∧ loc = here.reached parts := by
  induction parts generalizing here with
  | nil =>
    rw [walk, Except.ok.injEq, eq_comm]
    simp [Location.passed, Location.reached]
  | cons part parts ih =>
    rw [walk_cons_eq_ok_iff, ih, Location.passed, List.forall_mem_cons, List.forall_mem_cons,
      Location.reached, Location.reached, List.foldl_cons]
    simp only [and_assoc, and_left_comm]

/-- A path leads somewhere exactly if it is not refused and the way is free. -/
theorem locate_eq_ok_iff {t : FileTree} {path : List Char} {loc : Location} :
    t.locate path = .ok loc ↔
      Path.refusal? path = none ∧
        (∀ l ∈ Location.onWay t.working path, t.entry? l = some .directory) ∧
        (∀ part ∈ Path.split path, Path.isTooLong part = false) ∧
        loc = Location.ofPath t.working path := by
  rw [locate]
  cases Path.refusal? path with
  | some e => simp
  | none => simpa [Location.onWay, Location.ofPath] using walk_eq_ok_iff

/-! ### Trees that differ in one place -/

/-- Two trees have the same working directory, and the same entries but for one location. -/
structure AgreeApartFrom (place : Location) (t t' : FileTree) : Prop where
  /-- The working directory is the same. -/
  working : t.working = t'.working
  /-- The other locations have the same entries. -/
  entries : ∀ loc, loc ≠ place → t.entry? loc = t'.entry? loc

/-- A location is a directory in both trees or in none. -/
def SameDirectory (place : Location) (t t' : FileTree) : Prop :=
  t.entry? place = some .directory ↔ t'.entry? place = some .directory

variable {t t' : FileTree} {place : Location}

/-- A tree agrees with itself but for an entry that is set. -/
theorem agreeApartFrom_set (t : FileTree) (place : Location) (e : Entry) :
    AgreeApartFrom place t (t.set place e) :=
  ⟨rfl, fun _ elsewhere => (t.entry?_set_of_ne elsewhere e).symm⟩

theorem AgreeApartFrom.directory_iff (agree : AgreeApartFrom place t t') {loc : Location}
    (same : loc = place → SameDirectory place t t') :
    t.entry? loc = some .directory ↔ t'.entry? loc = some .directory := by
  by_cases here : loc = place
  · rw [here]
    exact same here
  · rw [agree.entries loc here]

/-- A path that leads to another place is read alike, unless the way is free in one of the trees
only. -/
theorem readText_eq_ok_congr (agree : AgreeApartFrom place t t') {path text : String}
    (elsewhere : Location.ofPath t.working path.toList ≠ place)
    (same : place ∈ Location.onWay t.working path.toList → SameDirectory place t t') :
    t.readText path = .ok text ↔ t'.readText path = .ok text := by
  have way : (∀ l ∈ Location.onWay t.working path.toList, t.entry? l = some .directory) ↔
      ∀ l ∈ Location.onWay t.working path.toList, t'.entry? l = some .directory :=
    forall₂_congr fun l passed => agree.directory_iff fun here => same (here ▸ passed)
  have file : t.file? (Location.ofPath t.working path.toList) =
      t'.file? (Location.ofPath t.working path.toList) := by
    rw [file?, file?, agree.entries _ elsewhere]
  rw [readText_eq_ok_iff, readText_eq_ok_iff]
  refine exists_congr fun loc => ?_
  rw [locate_eq_ok_iff, locate_eq_ok_iff, ← agree.working, way]
  refine and_congr_right ?_
  rintro ⟨-, -, -, rfl⟩
  rw [file]

end FileTree

end FlowDecl
