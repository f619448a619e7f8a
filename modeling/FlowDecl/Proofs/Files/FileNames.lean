import FlowDecl.Proofs.Files.Tree
import Mathlib.Data.List.Basic

/-!
# Names of files

A path can pass over parts and lead up again, and still the file at its end has the name that
the path ends with (`FileTree.name_of_file`).  What is stepped from is a directory, and so is
every location above it (`FileTree.Anchored`).  So a path whose last part is
passed over or leads up ends at a directory.

A path that is joined from a directory and a name without slashes ends with the name
(`Path.getLast?_split_join`).
-/

namespace FlowDecl

namespace Path

/-! ## Parts -/

theorem split_of_no_slash {name : List Char} (plain : '/' ∉ name) : split name = [name] := by
  induction name with
  | nil => rfl
  | cons c name ih =>
    rw [split, if_neg (List.ne_of_not_mem_cons plain).symm,
      ih (List.not_mem_of_not_mem_cons plain)]

theorem split_ne_nil (path : List Char) : split path ≠ [] := by
  cases path with
  | nil => exact List.cons_ne_nil _ _
  | cons c path =>
    rw [split]
    split
    next => exact List.cons_ne_nil _ _
    next => split <;> exact List.cons_ne_nil _ _

/-- A slash separates the parts before it from those after it. -/
theorem split_append_slash (front back : List Char) :
    split (front ++ '/' :: back) = split front ++ split back := by
  induction front with
  | nil => rfl
  | cons c front ih =>
    rw [List.cons_append, split, ih, split]
    by_cases slash : c = '/'
    · rw [if_pos slash, if_pos slash, List.cons_append]
    · obtain ⟨part, parts, parted⟩ := List.exists_cons_of_ne_nil (split_ne_nil front)
      rw [if_neg slash, if_neg slash, parted]
      rfl

theorem getLast?_split_append (front back : List Char) :
    (split (front ++ '/' :: back)).getLast? = (split back).getLast? := by
  rw [split_append_slash, List.getLast?_append_of_ne_nil _ (split_ne_nil back)]

/-- The last part of a path has no slash, and the path ends with it. -/
theorem exists_getLast?_split (path : List Char) :
    ∃ name, (split path).getLast? = some name ∧ '/' ∉ name ∧ name <:+ path := by
  by_cases slash : '/' ∈ path
  · obtain ⟨name, front, reversed, plain⟩ :=
      List.eq_append_cons_of_mem (List.mem_reverse.mpr slash)
    have whole : path = front.reverse ++ '/' :: name.reverse := by
      simpa using congrArg List.reverse reversed
    have plain' : '/' ∉ name.reverse := by simpa using plain
    refine ⟨name.reverse, ?_, plain', ?_⟩
    · rw [whole, getLast?_split_append, split_of_no_slash plain']
      rfl
    · rw [whole]
      exact (List.suffix_cons _ _).trans (List.suffix_append _ _)
  · exact ⟨path, by rw [split_of_no_slash slash]; rfl, slash, List.suffix_rfl⟩

theorem suffix_of_getLast?_split {path name : List Char}
    (last : (split path).getLast? = some name) : name <:+ path := by
  obtain ⟨_, last', -, suffix⟩ := exists_getLast?_split path
  cases last.symm.trans last'
  exact suffix

/-- A path that is joined from a directory and a name ends with the name. -/
theorem getLast?_split_join (base : List Char) {name : List Char} (plain : '/' ∉ name) :
    (split (join base name)).getLast? = some name := by
  have alone : (split name).getLast? = some name := by
    rw [split_of_no_slash plain]
    rfl
  rw [join]
  split
  next rooted => exact absurd (List.mem_of_mem_head? rooted) plain
  next =>
    split
    next ended =>
      rcases ended with rfl | ended
      · exact alone
      · obtain ⟨front, rfl⟩ := List.getLast?_eq_some_iff.mp ended
        rw [List.append_assoc]
        exact (getLast?_split_append front name).trans alone
    next => exact (getLast?_split_append base name).trans alone

/-! ## Names -/

theorem trimEnd_concat (parts : List (List Char)) {part : List Char}
    (busy : isIdle part = false) : trimEnd (parts ++ [part]) = parts ++ [part] := by
  rw [trimEnd, List.reverse_append, List.reverse_singleton, List.singleton_append,
    List.dropWhile_cons_of_neg (ne_true_of_eq_false busy), List.reverse_cons, List.reverse_reverse]

theorem getLast?_trimEnd {parts : List (List Char)} {name : List Char}
    (last : parts.getLast? = some name) (busy : isIdle name = false) :
    (trimEnd parts).getLast? = some name := by
  obtain ⟨front, rfl⟩ := List.getLast?_eq_some_iff.mp last
  rw [trimEnd_concat front busy, List.getLast?_concat]

/-- The head of a path is no part of its name. -/
theorem getLast?_split_drop_head {path name : List Char}
    (last : (split path).getLast? = some name) (busy : isIdle name = false) :
    (split (path.drop (head path).length)).getLast? = some name := by
  rw [head.eq_def]
  split
  next rest => exact (getLast?_split_append [] rest).symm.trans last
  next =>
    cases Option.some.inj last
    cases busy
  next rest =>
    exact (getLast?_split_append [] rest).trans ((getLast?_split_append ['.'] rest).symm.trans last)
  next => exact last

/-- The last part of a path is the name of its file, unless it is passed over or leads up. -/
theorem fileName?_of_getLast?_split {path name : List Char}
    (last : (split path).getLast? = some name) (busy : isIdle name = false)
    (down : name ≠ ['.', '.']) : fileName? path = some name := by
  rw [fileName?, parts, getLast?_trimEnd (getLast?_split_drop_head last busy) busy]
  exact Option.filter_some_pos (by simpa using down)

end Path

/-! ## Locations below directories -/

namespace FileTree

variable {t : FileTree}

/-- The working directory and those above it are directories. -/
theorem entry?_take_working (t : FileTree) (n : Nat) :
    t.entry? ⟨t.working.names.take n⟩ = some .directory :=
  if_pos (List.isPrefixOf_iff_prefix.mpr (List.take_prefix n _))

/-- The locations above a location are directories. -/
def Anchored (t : FileTree) (loc : Location) : Prop :=
  ∀ n < loc.names.length, t.entry? ⟨loc.names.take n⟩ = some .directory

theorem anchored_root : t.Anchored .root := by
  intro n short
  cases short

theorem anchored_working : t.Anchored t.working := fun n _ => t.entry?_take_working n

/-- The start of a path is anchored. -/
theorem anchored_start (path : List Char) : t.Anchored (.start t.working path) := by
  rw [Location.start]
  split
  next => exact anchored_root
  next => exact anchored_working

/-- The location one level up is a directory, also where this is the root. -/
theorem Anchored.directory_above {loc : Location} (h : t.Anchored loc) :
    t.entry? loc.parent = some .directory := by
  rw [Location.parent, List.dropLast_eq_take]
  by_cases top : loc.names = []
  · rw [top]
    exact t.entry?_take_working 0
  · exact h _ (Nat.sub_one_lt_of_lt (List.length_pos_iff.mpr top))

/-- The locations above the parent are among those above a location. -/
theorem Anchored.parent {loc : Location} (h : t.Anchored loc) : t.Anchored loc.parent := by
  intro n short
  rw [Location.parent, List.length_dropLast] at short
  rw [Location.parent, List.dropLast_eq_take, List.take_take, Nat.min_eq_left (Nat.le_of_lt short)]
  exact h n (Nat.lt_of_lt_pred short)

theorem Anchored.child {here : Location} (h : t.Anchored here)
    (directory : t.entry? here = some .directory) (name : List Char) :
    t.Anchored (here.child name) := by
  intro n short
  rw [Location.child, List.length_append, List.length_singleton] at short
  rw [Location.child, List.take_append_of_le_length (Nat.le_of_lt_succ short)]
  rcases Nat.lt_or_eq_of_le (Nat.le_of_lt_succ short) with shorter | whole
  · exact h n shorter
  · rw [whole, List.take_length]
    exact directory

/-- A step from a directory leads to a location with directories above it. -/
theorem Anchored.follow {here : Location} (h : t.Anchored here)
    (directory : t.entry? here = some .directory) (part : List Char) :
    t.Anchored (here.follow part) := by
  rw [Location.follow]
  split
  next => exact h
  next =>
    split
    next => exact h.parent
    next => exact h.child directory part

/-- The last step of a walk is taken from a directory. -/
theorem walk_concat {parts : List (List Char)} {part : List Char} {here loc : Location}
    (anchored : t.Anchored here) (h : t.walk here (parts ++ [part]) = .ok loc) :
    ∃ above, t.Anchored above ∧ t.entry? above = some .directory ∧ loc = above.follow part := by
  induction parts generalizing here with
  | nil =>
    obtain ⟨directory, -, ends⟩ := walk_cons_eq_ok_iff.mp h
    exact ⟨here, anchored, directory, (Except.ok.inj ends).symm⟩
  | cons first parts ih =>
    obtain ⟨directory, -, rest⟩ := walk_cons_eq_ok_iff.mp h
    exact ih (anchored.follow directory first) rest

/-- A path to a file ends with the name of the file: a last part that is passed over, or that leads
up, would lead to a directory. -/
theorem name_of_file {path : List Char} {loc : Location} (located : t.locate path = .ok loc)
    (file : t.entry? loc ≠ some .directory) :
    ∃ name, loc.names.getLast? = some name ∧ (Path.split path).getLast? = some name ∧
      Path.fileName? path = some name := by
  obtain ⟨name, last, -, -⟩ := Path.exists_getLast?_split path
  obtain ⟨front, parted⟩ := List.getLast?_eq_some_iff.mp last
  rw [locate] at located
  split at located
  next => cases located
  next =>
    rw [parted] at located
    obtain ⟨above, anchored, directory, rfl⟩ := walk_concat (anchored_start path) located
    rw [Location.follow] at file
    by_cases idle : Path.isIdle name = true
    · rw [if_pos idle] at file
      exact absurd directory file
    · by_cases up : name = ['.', '.']
      · rw [if_neg idle, if_pos up] at file
        exact absurd anchored.directory_above file
      · refine ⟨name, ?_, last, ?_⟩
        · rw [Location.follow, if_neg idle, if_neg up]
          exact List.getLast?_concat
        · exact Path.fileName?_of_getLast?_split last (by simpa using idle) up

end FileTree

end FlowDecl
