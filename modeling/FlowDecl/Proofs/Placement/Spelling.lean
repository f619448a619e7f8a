import FlowDecl.Proofs.Files.FileNames
import Mathlib.Data.List.Basic

/-!
# Spellings of paths

Two paths are the same up to spelling if they have the same head and pass through the same parts,
idle ones left out (`Path.Same`).  A trailing slash, a doubled slash or a dot between slashes makes
no difference then.  Nothing is resolved: two dots are a part like any other.

A path that is joined from a base and a name has the name as its file name and the base as its
parent, the latter up to spelling (`Path.fileName?_join`, `Path.exists_parent?_join`).  The parent
is cut from the text of the path and without the idle parts at its end, so it need not be the text
of the base.

Both heads are read off the parts between the slashes (`Path.head_eq`).  So all laws here are about
lists of parts, and `Path.split_join` says which lists a join makes.
-/

namespace FlowDecl.Path

/-- The parts that a path passes through. -/
def steps (path : List Char) : List (List Char) := (split path).filter fun part => !isIdle part

/-- Two paths are the same up to spelling. -/
structure Same (path path' : List Char) : Prop where
  /-- They start at the same place. -/
  head : head path = head path'
  /-- They pass through the same parts. -/
  steps : steps path = steps path'

theorem isIdle_iff {part : List Char} : isIdle part = true ↔ part = [] ∨ part = ['.'] := by
  simp [isIdle]

/-! ## Parts of a text -/

theorem no_slash_of_mem_split {path part : List Char} (member : part ∈ split path) :
    '/' ∉ part := by
  induction path generalizing part with
  | nil =>
    cases List.mem_singleton.mp member
    exact List.not_mem_nil
  | cons c path ih =>
    rw [split] at member
    split at member
    next =>
      obtain rfl | member := List.mem_cons.mp member
      · exact List.not_mem_nil
      · exact ih member
    next differs =>
      split at member
      next none => exact absurd none (split_ne_nil path)
      next first rest parted =>
        rw [parted] at ih
        obtain rfl | member := List.mem_cons.mp member
        · exact List.not_mem_cons_of_ne_of_not_mem (Ne.symm differs) (ih List.mem_cons_self)
        · exact ih (List.mem_cons_of_mem _ member)

theorem concat_split (path : List Char) : concat (split path) = path := by
  induction path with
  | nil => rfl
  | cons c path ih =>
    obtain ⟨part, parts, parted⟩ := List.exists_cons_of_ne_nil (split_ne_nil path)
    rw [parted] at ih
    rw [split, parted]
    split
    next slash => rw [slash, concat, ih, List.nil_append]
    next =>
      cases parts with
      | nil => exact congrArg (c :: ·) ih
      | cons next parts => exact congrArg (c :: ·) ih

/-- Parts without slashes are found again in the path that they make. -/
theorem split_concat {parts : List (List Char)} (plain : ∀ part ∈ parts, '/' ∉ part)
    (proper : parts ≠ []) : split (concat parts) = parts := by
  induction parts with
  | nil => exact absurd rfl proper
  | cons part parts ih =>
    have alone : split part = [part] := split_of_no_slash (plain part List.mem_cons_self)
    cases parts with
    | nil => exact alone
    | cons next parts =>
      have rest := ih (fun part member => plain part (List.mem_cons_of_mem _ member))
        (List.cons_ne_nil _ _)
      rw [concat, split_append_slash, alone, rest, List.singleton_append]

/-- The steps of a path that is made of parts are those parts that are not passed over. -/
theorem steps_concat {parts : List (List Char)} (plain : ∀ part ∈ parts, '/' ∉ part) :
    steps (concat parts) = parts.filter fun part => !isIdle part := by
  cases parts with
  | nil => rfl
  | cons part parts => rw [steps, split_concat plain (List.cons_ne_nil _ _)]

/-! ## Heads -/

/-- The head of a path, read off its parts. -/
def headOf : List (List Char) → List Char
  | [] :: _ :: _ => ['/']
  | ['.'] :: _ => ['.']
  | _ => []

/-- The head of a path can be told from its parts: the parts of a path without a head are not
those of a path with one. -/
theorem head_eq (path : List Char) : head path = headOf (split path) := by
  have whole := concat_split path
  rw [head.eq_def]
  split
  next rest =>
    obtain ⟨part, parts, parted⟩ := List.exists_cons_of_ne_nil (split_ne_nil rest)
    rw [split, if_pos rfl, parted]
    rfl
  next => rfl
  next rest => exact congrArg headOf (split_append_slash ['.'] rest).symm
  next rooted alone dotted =>
    rw [headOf.eq_def]
    split
    next parted =>
      rw [parted] at whole
      exact absurd whole.symm (rooted _)
    next parts parted =>
      rw [parted] at whole
      cases parts with
      | nil => exact absurd whole.symm alone
      | cons => exact absurd whole.symm (dotted _)
    next => rfl

/-- More parts leave the head as it is, unless they come after an empty text. -/
theorem headOf_append {parts : List (List Char)} (proper : parts ≠ []) (some : parts ≠ [[]])
    (more : List (List Char)) : headOf (parts ++ more) = headOf parts := by
  fun_cases headOf parts with
  | case1 => rfl
  | case2 => rfl
  | case3 _ rooted dotted =>
    cases parts with
    | nil => exact absurd rfl proper
    | cons part parts =>
      refine headOf.eq_3 _ ?_ ?_
      · intro next rest same
        obtain ⟨rfl, -⟩ := List.cons.inj same
        cases parts with
        | nil => exact some rfl
        | cons => exact rooted _ _ rfl
      · intro rest same
        obtain ⟨rfl, -⟩ := List.cons.inj same
        exact dotted parts rfl

theorem headOf_of_busy {part : List Char} (busy : isIdle part = false) (more : List (List Char)) :
    headOf (part :: more) = [] := by
  refine headOf.eq_3 _ ?_ ?_
  · intro next rest same
    obtain ⟨rfl, -⟩ := List.cons.inj same
    cases busy
  · intro rest same
    obtain ⟨rfl, -⟩ := List.cons.inj same
    cases busy

/-- The first part of a path without a head is not passed over. -/
theorem isIdle_of_headOf {part : List Char} {more : List (List Char)} (some : more ≠ [])
    (none : headOf (part :: more) = []) : isIdle part = false := by
  cases idle : isIdle part with
  | false => rfl
  | true =>
    obtain ⟨next, more, rfl⟩ := List.exists_cons_of_ne_nil some
    obtain rfl | rfl := isIdle_iff.mp idle
    · cases none
    · cases none

/-! ## Joins -/

theorem join_nil (path : List Char) : join [] path = path := by
  rw [join]
  split
  next => rfl
  next => exact if_pos (.inl rfl)

/-- A join adds parts, after an empty part at the end of the base is left out. -/
theorem split_join (base : List Char) {path : List Char} (below : path.head? ≠ some '/') :
    ∃ front, split (join base path) = front ++ split path ∧
      (split base = front ∨ split base = front ++ [[]]) := by
  rw [join, if_neg below]
  split
  next ended =>
    obtain rfl | ended := ended
    · exact ⟨[], rfl, .inr rfl⟩
    · obtain ⟨front, rfl⟩ := List.getLast?_eq_some_iff.mp ended
      refine ⟨split front, ?_, .inr (split_append_slash front [])⟩
      rw [List.append_assoc, List.singleton_append, split_append_slash]
  next => exact ⟨split base, split_append_slash base path, .inl rfl⟩

/-- The steps of a joined path are those of the directory and then those of the path. -/
theorem steps_join (base : List Char) {path : List Char} (below : path.head? ≠ some '/') :
    steps (join base path) = steps base ++ steps path := by
  obtain ⟨front, joined, parted⟩ := split_join base below
  rw [steps, steps, joined, List.filter_append]
  obtain parted | parted := parted
  · rw [parted]
    rfl
  · rw [parted, List.filter_append]
    exact congrArg (· ++ _) (List.append_nil _).symm

theorem head_join {base path : List Char} (below : path.head? ≠ some '/') (based : base ≠ []) :
    head (join base path) = head base := by
  obtain ⟨front, joined, parted⟩ := split_join base below
  have some : split base ≠ [[]] := fun parted => based (by rw [← concat_split base, parted]; rfl)
  rw [head_eq, head_eq, joined]
  obtain parted | parted := parted
  · rw [parted] at some ⊢
    exact headOf_append (parted ▸ split_ne_nil base) some _
  · rw [parted] at some ⊢
    have proper : front ≠ [] := by
      rintro rfl
      exact some rfl
    by_cases rooted : front = [[]]
    · obtain ⟨part, parts, parted⟩ := List.exists_cons_of_ne_nil (split_ne_nil path)
      rw [rooted, parted]
      rfl
    · rw [headOf_append proper rooted, headOf_append proper rooted]

/-! ## Joins up to spelling -/

/-- Only the empty path has neither a head nor parts to pass through. -/
theorem eq_nil_iff {path : List Char} : path = [] ↔ head path = [] ∧ steps path = [] := by
  constructor
  · rintro rfl
    exact ⟨rfl, rfl⟩
  · rintro ⟨none, still⟩
    have whole := concat_split path
    obtain ⟨part, parts, parted⟩ := List.exists_cons_of_ne_nil (split_ne_nil path)
    rw [head_eq, parted] at none
    rw [parted] at whole
    have idle : isIdle part = true := by
      rw [steps, parted] at still
      simpa using List.filter_eq_nil_iff.mp still part List.mem_cons_self
    cases parts with
    | nil =>
      obtain rfl | rfl := isIdle_iff.mp idle
      · exact whole.symm
      · cases none
    | cons next parts =>
      exact absurd (isIdle_of_headOf (List.cons_ne_nil _ _) none) (by simp [idle])

theorem Same.eq_nil_iff {path path' : List Char} (same : Same path path') :
    path = [] ↔ path' = [] := by
  rw [@Path.eq_nil_iff path, @Path.eq_nil_iff path', same.head, same.steps]

/-- Spellings of one directory make spellings of one path. -/
theorem Same.join {base base' : List Char} (same : Same base base') {path : List Char}
    (below : path.head? ≠ some '/') : Same (join base path) (join base' path) where
  head := by
    by_cases based : base = []
    · rw [based, same.eq_nil_iff.mp based]
    · have based' : base' ≠ [] := mt same.eq_nil_iff.mpr based
      rw [head_join below based, head_join below based', same.head]
  steps := by rw [steps_join base below, steps_join base' below, same.steps]

/-! ## Parents -/

/-- Trimming leaves the first part unless nothing behind it is left and it is passed over. -/
theorem trimEnd_cons (part : List Char) (parts : List (List Char)) :
    trimEnd (part :: parts) =
      if trimEnd parts = [] ∧ isIdle part = true then [] else part :: trimEnd parts := by
  simp only [trimEnd, List.reverse_cons, List.dropWhile_append, List.reverse_eq_nil_iff]
  by_cases none : parts.reverse.dropWhile isIdle = []
  · rw [none, if_pos List.isEmpty_nil]
    cases idle : isIdle part with
    | true =>
      rw [List.dropWhile_cons_of_pos idle, if_pos ⟨rfl, rfl⟩]
      rfl
    | false =>
      rw [List.dropWhile_cons_of_neg (ne_true_of_eq_false idle),
        if_neg (fun both => Bool.false_ne_true both.2)]
      rfl
  · rw [if_neg (mt List.isEmpty_iff.mp none), if_neg (fun both => none both.1),
      List.reverse_append]
    rfl

theorem filter_trimEnd (parts : List (List Char)) :
    ((trimEnd parts).filter fun part => !isIdle part) = parts.filter fun part => !isIdle part := by
  induction parts with
  | nil => rfl
  | cons part parts ih =>
    rw [trimEnd_cons, List.filter_cons]
    split
    next idle =>
      rw [idle.1] at ih
      rw [idle.2, ← ih]
      rfl
    next => rw [List.filter_cons, ih]

theorem mem_of_mem_trimEnd {part : List Char} {parts : List (List Char)}
    (member : part ∈ trimEnd parts) : part ∈ parts := by
  rw [trimEnd, List.mem_reverse] at member
  exact List.mem_reverse.mp ((List.dropWhile_sublist isIdle).subset member)

theorem no_slash_of_mem_front {path name : List Char} {front : List (List Char)}
    (parted : split path = front ++ [name]) : ∀ part ∈ trimEnd front, '/' ∉ part := by
  intro part member
  have inside : part ∈ split path := by
    rw [parted]
    exact List.mem_append_left _ (mem_of_mem_trimEnd member)
  exact no_slash_of_mem_split inside

/-- The path of the directory is the path up to the end of the part before the name. -/
theorem parent?_eq {path name : List Char} {front : List (List Char)}
    (parted : split (path.drop (head path).length) = front ++ [name])
    (busy : isIdle name = false) :
    parent? path = some (head path ++ concat (trimEnd front)) := by
  have whole : parts path = front ++ [name] := by rw [parts, parted, trimEnd_concat front busy]
  rw [parent?, whole]
  split
  next none => exact absurd none (List.append_ne_nil_of_right_ne_nil _ (List.cons_ne_nil _ _))
  next some => rw [← some, List.dropLast_concat]

/-- A dot in front of parts is a part of its own. -/
theorem dot_append_concat (parts : List (List Char)) :
    ['.'] ++ concat (trimEnd ([] :: parts)) = concat (['.'] :: trimEnd parts) := by
  rw [trimEnd_cons]
  split
  next none => rw [none.1]; rfl
  next some =>
    cases whole : trimEnd parts with
    | nil => exact absurd ⟨whole, rfl⟩ some
    | cons => rfl

/-- The directory of a path from the root is below the root. -/
theorem exists_parent?_root {rest name : List Char} {front : List (List Char)}
    (below : split rest = front ++ [name]) (busy : isIdle name = false) :
    ∃ parent, parent? ('/' :: rest) = some parent ∧ head parent = ['/'] ∧
      steps parent = front.filter fun part => !isIdle part := by
  refine ⟨_, parent?_eq below busy, rfl, ?_⟩
  exact (steps_concat (no_slash_of_mem_front below)).trans (filter_trimEnd front)

/-- The directory of a path with a leading dot has the dot. -/
theorem exists_parent?_dot {rest name : List Char} {front : List (List Char)}
    (below : split rest = front ++ [name]) (busy : isIdle name = false) :
    ∃ parent, parent? ('.' :: '/' :: rest) = some parent ∧ head parent = ['.'] ∧
      steps parent = front.filter fun part => !isIdle part := by
  have rooted : split ('/' :: rest) = ([] :: front) ++ [name] := congrArg ([] :: ·) below
  have plain : ∀ part ∈ ['.'] :: trimEnd front, '/' ∉ part := by
    rintro part (_ | ⟨_, member⟩)
    · decide
    · exact no_slash_of_mem_front below part member
  have parent : parent? ('.' :: '/' :: rest) = some (['.'] ++ concat (trimEnd ([] :: front))) :=
    parent?_eq rooted busy
  rw [dot_append_concat] at parent
  refine ⟨_, parent, ?_, (steps_concat plain).trans (filter_trimEnd front)⟩
  rw [head_eq, split_concat plain (List.cons_ne_nil _ _)]
  rfl

/-- The directory of a path without a head has none either. -/
theorem exists_parent?_plain {path name : List Char} {front : List (List Char)}
    (none : head path = []) (parted : split path = front ++ [name]) (busy : isIdle name = false) :
    ∃ parent, parent? path = some parent ∧ head parent = [] ∧
      steps parent = front.filter fun part => !isIdle part := by
  have plain := no_slash_of_mem_front parted
  have below : split (path.drop (head path).length) = front ++ [name] := by
    rw [none]
    exact parted
  have parent := parent?_eq below busy
  rw [none, List.nil_append] at parent
  refine ⟨_, parent, ?_, (steps_concat plain).trans (filter_trimEnd front)⟩
  cases front with
  | nil => rfl
  | cons first front =>
    rw [head_eq, parted] at none
    have kept : isIdle first = false :=
      isIdle_of_headOf (List.append_ne_nil_of_right_ne_nil _ (List.cons_ne_nil _ _)) none
    have some : trimEnd (first :: front) = first :: trimEnd front := by
      rw [trimEnd_cons, if_neg (fun both => ne_true_of_eq_false kept both.2)]
    rw [some] at plain ⊢
    rw [head_eq, split_concat plain (List.cons_ne_nil _ _)]
    exact headOf_of_busy kept _

/-- The directory of a path that ends with a name starts where the path does and passes through the
parts before the name. -/
theorem exists_parent? {path name : List Char} {front : List (List Char)}
    (parted : split path = front ++ [name]) (busy : isIdle name = false) :
    ∃ parent, parent? path = some parent ∧ head parent = head path ∧
      steps parent = front.filter fun part => !isIdle part := by
  fun_cases head path with
  | case1 rest =>
    rw [split, if_pos rfl] at parted
    cases front with
    | nil => exact absurd (List.cons.inj parted).2 (split_ne_nil rest)
    | cons first front =>
      obtain ⟨rfl, below⟩ := List.cons.inj parted
      have above := exists_parent?_root (show split rest = front ++ [name] from below) busy
      exact above
  | case2 =>
    obtain ⟨-, same⟩ := List.append_inj' (show [] ++ [['.']] = front ++ [name] from parted) rfl
    cases List.singleton_inj.mp same
    cases busy
  | case3 rest =>
    have dotted := (split_append_slash ['.'] rest).symm.trans parted
    cases front with
    | nil => exact absurd (List.cons.inj dotted).2 (split_ne_nil rest)
    | cons first front =>
      obtain ⟨rfl, below⟩ := List.cons.inj dotted
      have above := exists_parent?_dot (show split rest = front ++ [name] from below) busy
      exact above
  | case4 _ rooted alone dotted =>
    exact exists_parent?_plain (head.eq_4 path rooted alone dotted) parted busy

/-! ## Files in directories -/

theorem head?_ne_slash {name : List Char} (plain : '/' ∉ name) : name.head? ≠ some '/' :=
  fun rooted => plain (List.mem_of_mem_head? rooted)

theorem fileName?_join (base : List Char) {name : List Char} (plain : '/' ∉ name)
    (busy : isIdle name = false) (down : name ≠ ['.', '.']) :
    fileName? (join base name) = some name :=
  fileName?_of_getLast?_split (getLast?_split_join base plain) busy down

/-- The directory of a path that is joined from a base and a name is the base. -/
theorem exists_parent?_join (base : List Char) {name : List Char} (plain : '/' ∉ name)
    (busy : isIdle name = false) :
    ∃ parent, parent? (join base name) = some parent ∧ Same parent base := by
  have alone : split name = [name] := split_of_no_slash plain
  obtain ⟨front, joined, -⟩ := split_join base (head?_ne_slash plain)
  rw [alone] at joined
  obtain ⟨parent, above, start, through⟩ := exists_parent? joined busy
  refine ⟨parent, above, start.trans ?_, through.trans ?_⟩
  · by_cases based : base = []
    · rw [based, join_nil, head_eq, alone]
      exact headOf_of_busy busy []
    · exact head_join (head?_ne_slash plain) based
  · have whole := steps_join base (head?_ne_slash plain)
    rw [steps, joined, List.filter_append, steps.eq_def name, alone] at whole
    exact List.append_cancel_right whole

/-- A file name is a part that is not passed over. -/
theorem of_fileName? {path name : List Char} (named : fileName? path = some name) :
    '/' ∉ name ∧ isIdle name = false := by
  obtain ⟨last, -⟩ := Option.filter_eq_some_iff.mp named
  constructor
  · exact no_slash_of_mem_split (mem_of_mem_trimEnd (List.mem_of_mem_getLast? last))
  · rw [parts, trimEnd, List.getLast?_reverse] at last
    have kept := List.head?_dropWhile_not isIdle (split (path.drop (head path).length)).reverse
    rw [last] at kept
    exact kept

/-! ## Names under one base -/

/-- The first part of a text that begins with a text without slashes. -/
theorem split_append {front : List Char} (plain : '/' ∉ front) (back : List Char) :
    ∃ part parts, split back = part :: parts ∧
      split (front ++ back) = (front ++ part) :: parts := by
  induction front with
  | nil =>
    obtain ⟨part, parts, parted⟩ := List.exists_cons_of_ne_nil (split_ne_nil back)
    exact ⟨part, parts, parted, parted⟩
  | cons c front ih =>
    obtain ⟨part, parts, parted, whole⟩ := ih (List.not_mem_of_not_mem_cons plain)
    refine ⟨part, parts, parted, ?_⟩
    rw [List.cons_append, split, if_neg (List.ne_of_not_mem_cons plain).symm, whole]
    rfl

/-- Of the parts that are not empty only one is passed over. -/
theorem filter_isIdle_inj {part part' : List Char} (some : part ≠ []) (some' : part' ≠ [])
    (same : ([part].filter fun part => !isIdle part) = [part'].filter fun part => !isIdle part) :
    part = part' := by
  cases idle : isIdle part <;> cases idle' : isIdle part'
  · simpa [idle, idle'] using same
  · simp [idle, idle'] at same
  · simp [idle, idle'] at same
  · rw [(isIdle_iff.mp idle).resolve_left some, (isIdle_iff.mp idle').resolve_left some']

/-- Two beginnings of a path are the same if the paths are, up to spelling. -/
theorem eq_of_steps_append {front front' : List Char} (plain : '/' ∉ front) (plain' : '/' ∉ front')
    (some : front ≠ []) (some' : front' ≠ []) {back : List Char}
    (same : steps (front ++ back) = steps (front' ++ back)) : front = front' := by
  obtain ⟨part, parts, parted, whole⟩ := split_append plain back
  obtain ⟨_, _, parted', whole'⟩ := split_append plain' back
  cases parted.symm.trans parted'
  rw [steps, steps, whole, whole', ← List.singleton_append, ← List.singleton_append (l := parts),
    List.filter_append, List.filter_append] at same
  exact List.append_cancel_right (filter_isIdle_inj (List.append_ne_nil_of_left_ne_nil some _)
    (List.append_ne_nil_of_left_ne_nil some' _) (List.append_cancel_right same))

end FlowDecl.Path
