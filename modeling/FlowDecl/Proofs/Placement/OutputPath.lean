import FlowDecl.Emit
import FlowDecl.Proofs.Placement.Spelling
import Mathlib.Data.List.Basic

/-!
# Output paths

The name of an output and its path.
-/

namespace FlowDecl

/-! ## Stems of names

The suffixes of inputs are taken off a name one after the other, and one that would leave nothing
stays.  The same name is left if the longest ending is taken off at once that leaves something,
where an ending is made of the suffixes `.js`, `.flow` and `.json`, each once or not at all
(`isStem_iff`).

Taking off a suffix greedily never loses a longer ending.  The suffixes end in different
characters, so a name that ends in one of them has no ending that begins with another one from
the right.
-/

/-- An ending of names of inputs: some of the suffixes, in the order in which they are written. -/
def IsInputEnding (ending : List Char) : Prop :=
  ∃ parts : List (List Char),
    parts.Sublist [['.', 'j', 's'], ['.', 'f', 'l', 'o', 'w'], ['.', 'j', 's', 'o', 'n']] ∧
      ending = parts.flatten

/-- What remains of a name after its longest ending that leaves something.  Nothing is taken off
an empty name. -/
structure IsStem (name rest : List Char) : Prop where
  /-- The rest and the longest ending make up the name. -/
  longest : ∃ ending, IsInputEnding ending ∧ name = rest ++ ending ∧
    ∀ other longer, IsInputEnding longer → name = other ++ longer → other ≠ [] →
      longer.length ≤ ending.length
  /-- Something is left. -/
  nonempty : name ≠ [] → rest ≠ []

/-! ### One suffix -/

/-- A suffix is dropped if something is left. -/
theorem dropSuffix_append {rest : List Char} (suffix : List Char) (left : rest ≠ []) :
    dropSuffix (rest ++ suffix) suffix = rest := by
  have longer : suffix.length < (rest ++ suffix).length := by
    have := List.length_pos_iff.mpr left
    rw [List.length_append]
    omega
  have ends : suffix.isSuffixOf (rest ++ suffix) = true :=
    List.isSuffixOf_iff_suffix.mpr (List.suffix_append rest suffix)
  rw [dropSuffix, if_pos ⟨ends, longer⟩, List.length_append, Nat.add_sub_cancel]
  exact List.take_left

/-- A suffix is taken off and leaves something, or the name stays. -/
theorem dropSuffix_cases (name suffix : List Char) :
    dropSuffix name suffix = name ∨
      ∃ rest, rest ≠ [] ∧ name = rest ++ suffix ∧ dropSuffix name suffix = rest := by
  by_cases off : suffix.isSuffixOf name = true ∧ suffix.length < name.length
  · obtain ⟨rest, rfl⟩ := List.isSuffixOf_iff_suffix.mp off.1
    have left : rest ≠ [] := by
      rintro rfl
      exact absurd off.2 (Nat.lt_irrefl _)
    exact .inr ⟨rest, left, rfl, dropSuffix_append suffix left⟩
  · exact .inl (if_neg off)

theorem dropSuffix_begins (name suffix : List Char) : dropSuffix name suffix <+: name := by
  obtain stays | ⟨rest, -, whole, off⟩ := dropSuffix_cases name suffix
  · exact ⟨[], (List.append_nil _).trans stays⟩
  · exact ⟨suffix, (congrArg (· ++ suffix) off).trans whole.symm⟩

/-! ### All suffixes -/

theorem foldl_dropSuffix_begins (suffixes : List (List Char)) (name : List Char) :
    suffixes.foldl dropSuffix name <+: name := by
  induction suffixes generalizing name with
  | nil => exact List.prefix_rfl
  | cons suffix suffixes ih => exact (ih _).trans (dropSuffix_begins name suffix)

/-- What is taken off is made of suffixes. -/
theorem foldl_dropSuffix_append (suffixes : List (List Char)) (name : List Char) :
    ∃ parts : List (List Char), parts.Sublist suffixes ∧
      name = suffixes.foldl dropSuffix name ++ parts.reverse.flatten := by
  induction suffixes generalizing name with
  | nil => exact ⟨[], .slnil, (List.append_nil name).symm⟩
  | cons suffix suffixes ih =>
    rw [List.foldl_cons]
    obtain stays | ⟨rest, -, whole, off⟩ := dropSuffix_cases name suffix
    · rw [stays]
      obtain ⟨parts, some, parted⟩ := ih name
      exact ⟨parts, some.cons suffix, parted⟩
    · rw [off]
      obtain ⟨parts, some, parted⟩ := ih rest
      refine ⟨suffix :: parts, some.cons_cons suffix, ?_⟩
      rw [List.reverse_cons, List.flatten_append, List.flatten_singleton, ← List.append_assoc,
        ← parted, whole]

/-- Dropping suffixes never leaves an empty name. -/
theorem foldl_dropSuffix_ne_nil (suffixes : List (List Char)) {name : List Char}
    (named : name ≠ []) : suffixes.foldl dropSuffix name ≠ [] := by
  induction suffixes generalizing name with
  | nil => exact named
  | cons suffix suffixes ih =>
    rw [List.foldl_cons]
    obtain stays | ⟨rest, left, -, off⟩ := dropSuffix_cases name suffix
    · rw [stays]
      exact ih named
    · rw [off]
      exact ih left

/-- No other way to take off suffixes leaves less, if the suffixes end in different characters: two
suffixes that end alike could be taken for one another. -/
theorem length_foldl_dropSuffix_le {suffixes : List (List Char)}
    (differ : suffixes.Pairwise fun s s' => s.getLast? ≠ s'.getLast?)
    (proper : ∀ s ∈ suffixes, s ≠ []) {parts : List (List Char)} (some : parts.Sublist suffixes)
    {rest : List Char} (left : rest ≠ []) :
    (suffixes.foldl dropSuffix (rest ++ parts.reverse.flatten)).length ≤ rest.length := by
  induction suffixes generalizing parts rest with
  | nil =>
    rw [List.sublist_nil.mp some]
    exact Nat.le_of_eq (congrArg List.length (List.append_nil rest))
  | cons suffix suffixes ih =>
    obtain ⟨differs, differ⟩ := List.pairwise_cons.mp differ
    have proper' : ∀ s ∈ suffixes, s ≠ [] := fun s member =>
      proper s (List.mem_cons_of_mem _ member)
    rw [List.foldl_cons]
    cases some with
    | @cons_cons parts _ _ some =>
      have before : rest ++ parts.reverse.flatten ≠ [] := List.append_ne_nil_of_left_ne_nil left _
      rw [List.reverse_cons, List.flatten_append, List.flatten_singleton, ← List.append_assoc,
        dropSuffix_append suffix before]
      exact ih differ proper' some left
    | cons _ some =>
      obtain stays | ⟨shorter, -, whole, off⟩ :=
        dropSuffix_cases (rest ++ parts.reverse.flatten) suffix
      · rw [stays]
        exact ih differ proper' some left
      · rw [off]
        cases parts with
        | nil =>
          rw [List.reverse_nil, List.flatten_nil, List.append_nil] at whole
          have least := (foldl_dropSuffix_begins suffixes shorter).length_le
          rw [whole, List.length_append]
          omega
        | cons part parts =>
          have member : part ∈ suffixes := some.subset List.mem_cons_self
          have ends := congrArg List.getLast? whole
          rw [List.reverse_cons, List.flatten_append, List.flatten_singleton,
            ← List.append_assoc, List.getLast?_append_of_ne_nil _ (proper' part member),
            List.getLast?_append_of_ne_nil _ (proper suffix List.mem_cons_self)] at ends
          exact absurd ends.symm (differs part member)

/-! ### Stems -/

theorem inputSuffixes_differ :
    inputSuffixes.Pairwise fun s s' => s.getLast? ≠ s'.getLast? := by
  decide

theorem inputSuffixes_proper : ∀ s ∈ inputSuffixes, s ≠ [] := by decide

theorem stem_ne_nil {name : List Char} (named : name ≠ []) : stem name ≠ [] :=
  foldl_dropSuffix_ne_nil inputSuffixes named

/-- A stem begins the name that it is a stem of. -/
theorem stem_begins (name : List Char) : stem name <+: name := foldl_dropSuffix_begins _ name

/-- A stem is no longer than what any ending leaves. -/
theorem length_stem_le {name rest ending : List Char} (ends : IsInputEnding ending)
    (whole : name = rest ++ ending) (left : rest ≠ []) : (stem name).length ≤ rest.length := by
  obtain ⟨parts, some, rfl⟩ := ends
  have some' : parts.reverse.Sublist inputSuffixes := some.reverse
  have least := length_foldl_dropSuffix_le inputSuffixes_differ inputSuffixes_proper some' left
  rw [List.reverse_reverse, ← whole] at least
  exact least

/-- The stem is what the longest ending leaves. -/
theorem stem_isStem (name : List Char) : IsStem name (stem name) where
  longest := by
    obtain ⟨parts, some, whole⟩ := foldl_dropSuffix_append inputSuffixes name
    have whole' : name = stem name ++ parts.reverse.flatten := whole
    refine ⟨parts.reverse.flatten, ⟨parts.reverse, List.reverse_sublist.mpr some, rfl⟩, whole', ?_⟩
    intro other longer ends parted left
    have least := length_stem_le ends parted left
    have lengths := congrArg List.length (whole'.symm.trans parted)
    rw [List.length_append, List.length_append] at lengths
    omega
  nonempty := stem_ne_nil

/-- A name has one stem. -/
theorem isStem_iff {name rest : List Char} : IsStem name rest ↔ rest = stem name := by
  constructor
  · rintro ⟨⟨ending, ends, whole, longest⟩, left⟩
    obtain ⟨⟨ending', ends', whole', longest'⟩, left'⟩ := stem_isStem name
    by_cases named : name = []
    · rw [named] at whole whole'
      rw [(List.append_eq_nil_iff.mp whole.symm).1, named]
      exact (List.append_eq_nil_iff.mp whole'.symm).1.symm
    · have le := longest _ _ ends' whole' (left' named)
      have le' := longest' _ _ ends whole (left named)
      exact (List.append_inj' (whole.symm.trans whole') (Nat.le_antisymm le' le)).1
  · rintro rfl
    exact stem_isStem name

/-! ## Paths of outputs

The path of an output is its base directory, a slash where one is missing, the stem of the input
and the extension (`toList_outputPath`).  So it lies in the base directory under the name of the
output, unless the extension brings along a slash or the name would be passed over
(`outputPath_places`).

The base directory is in the path as it is written, and its spelling does not matter otherwise.
Inputs from one directory get one output exactly when they have one stem.  That holds for all
extensions: a stem is never empty and has no slash, so no extension hides where it begins.
-/

/-! ### Joins as texts -/

/-- What a join puts between its base and a path. -/
def Path.separatorAfter (base : List Char) : List Char :=
  if base = [] ∨ base.getLast? = some '/' then [] else ['/']

/-- Joining puts a separator between a directory and a path where one is needed. -/
theorem Path.join_eq (base : List Char) {path : List Char} (below : path.head? ≠ some '/') :
    join base path = base ++ separatorAfter base ++ path := by
  rw [join, if_neg below, separatorAfter]
  split
  next => rw [List.append_nil]
  next => rw [List.append_assoc, List.singleton_append]

/-! ### Names of inputs and outputs -/

/-- The stem of the name of an input, which is empty for an input without a name. -/
def stemOf (source : List Char) : List Char := stem ((Path.fileName? source).getD [])

theorem no_slash_of_stemOf (source : List Char) : '/' ∉ stemOf source := by
  rw [stemOf]
  cases named : Path.fileName? source with
  | none => decide
  | some name => exact fun slash => (Path.of_fileName? named).1 ((stem_begins name).mem slash)

theorem stemOf_ne_nil {source name : List Char} (named : Path.fileName? source = some name) :
    stemOf source ≠ [] := by
  have busy := (Path.of_fileName? named).2
  rw [stemOf, named]
  refine stem_ne_nil ?_
  rintro rfl
  cases busy

/-- The name of an output does not start at the root if the input has a name. -/
theorem outputName_below_of_named (extension : String) {source name : List Char}
    (named : Path.fileName? source = some name) :
    (outputName extension source).head? ≠ some '/' := by
  obtain ⟨c, rest, parted⟩ := List.exists_cons_of_ne_nil (stemOf_ne_nil named)
  have plain := no_slash_of_stemOf source
  have whole : outputName extension source = stemOf source ++ extension.toList := rfl
  rw [whole, parted]
  rw [parted] at plain
  rintro rooted
  cases rooted
  exact plain List.mem_cons_self

/-- The name of an output has no slash unless the extension brings one. -/
theorem no_slash_of_outputName {extension : String} (level : '/' ∉ extension.toList)
    (source : List Char) : '/' ∉ outputName extension source := by
  rw [outputName, List.mem_append]
  rintro (slash | slash)
  · exact no_slash_of_stemOf source slash
  · exact level slash

/-- A name with a character besides dots is not passed over and does not lead up. -/
theorem proper_of_mem {name : List Char} {c : Char} (member : c ∈ name) (proper : c ≠ '.') :
    Path.isIdle name = false ∧ name ≠ ['.', '.'] := by
  constructor
  · cases idle : Path.isIdle name with
    | false => rfl
    | true =>
      obtain rfl | rfl := Path.isIdle_iff.mp idle
      · exact absurd member List.not_mem_nil
      · exact absurd (List.mem_singleton.mp member) proper
  · rintro rfl
    simp [proper] at member

/-! ### Paths of outputs -/

/-- An output path is its directory, a separator and the name of the output. -/
theorem toList_outputPath (outDir : Option String) {extension source : String}
    (below : (outputName extension source.toList).head? ≠ some '/') :
    let base := baseDirectory outDir source.toList
    (outputPath outDir extension source).toList =
      base ++ Path.separatorAfter base ++ (stemOf source.toList ++ extension.toList) := by
  intro base
  rw [outputPath, String.toList_ofList]
  exact Path.join_eq base below

/-- The path of an output ends with its name if the extension has no slash. -/
theorem getLast?_split_outputPath (outDir : Option String) {extension : String} (source : String)
    (level : '/' ∉ extension.toList) :
    (Path.split (outputPath outDir extension source).toList).getLast? =
      some (outputName extension source.toList) := by
  rw [outputPath, String.toList_ofList]
  exact Path.getLast?_split_join _ (no_slash_of_outputName level _)

/-- Outputs in one directory are the same path exactly when the stems are the same. -/
theorem outputPath_eq_iff {outDir : Option String} {source other : String} {name name' : List Char}
    (extension : String) (named : Path.fileName? source.toList = some name)
    (named' : Path.fileName? other.toList = some name')
    (same : baseDirectory outDir source.toList = baseDirectory outDir other.toList) :
    outputPath outDir extension source = outputPath outDir extension other ↔
      stemOf source.toList = stemOf other.toList := by
  have text := toList_outputPath outDir (outputName_below_of_named extension named)
  have text' := toList_outputPath outDir (outputName_below_of_named extension named')
  dsimp only at text text'
  rw [← String.toList_inj, text, text', same]
  constructor
  · intro joined
    exact List.append_cancel_right (List.append_cancel_left joined)
  · intro stems
    rw [stems]

/-- The same holds up to spelling, of the directory as well as of the outputs. -/
theorem outputPath_same_iff {outDir : Option String} {source other : String}
    {name name' : List Char} (extension : String)
    (named : Path.fileName? source.toList = some name)
    (named' : Path.fileName? other.toList = some name')
    (same : Path.Same (baseDirectory outDir source.toList) (baseDirectory outDir other.toList)) :
    Path.Same (outputPath outDir extension source).toList
        (outputPath outDir extension other).toList ↔
      stemOf source.toList = stemOf other.toList := by
  have below := outputName_below_of_named extension named
  have below' := outputName_below_of_named extension named'
  rw [outputPath, outputPath, String.toList_ofList, String.toList_ofList]
  constructor
  · intro joined
    have through := joined.steps
    rw [Path.steps_join _ below, Path.steps_join _ below', same.steps] at through
    exact Path.eq_of_steps_append (no_slash_of_stemOf _) (no_slash_of_stemOf _)
      (stemOf_ne_nil named) (stemOf_ne_nil named') (List.append_cancel_left through)
  · intro stems
    have names : outputName extension source.toList = outputName extension other.toList :=
      congrArg (· ++ extension.toList) stems
    rw [names]
    exact same.join below'

/-- The output of an input is named after the stem of the input and stands in the base directory.
Two inputs with names and one base directory have one output exactly when they have one stem. -/
theorem outputPath_places (outDir : Option String) (extension source : String) :
    let base := baseDirectory outDir source.toList
    let path := (outputPath outDir extension source).toList
    let output := stemOf source.toList ++ extension.toList
    IsStem ((Path.fileName? source.toList).getD []) (stemOf source.toList) ∧
      ('/' ∉ extension.toList →
        path = base ++ Path.separatorAfter base ++ output ∧
          ∀ c ∈ extension.toList, c ≠ '.' →
            Path.fileName? path = some output ∧
              ∃ parent, Path.parent? path = some parent ∧ Path.Same parent base) ∧
      ∀ other name name', Path.fileName? source.toList = some name →
        Path.fileName? (String.toList other) = some name' →
        let base' := baseDirectory outDir other.toList
        let path' := (outputPath outDir extension other).toList
        (base = base' → (path = path' ↔ stemOf source.toList = stemOf other.toList)) ∧
          (Path.Same base base' →
            (Path.Same path path' ↔ stemOf source.toList = stemOf other.toList)) := by
  intro base path output
  refine ⟨stem_isStem _, ?_, ?_⟩
  · intro level
    have plain := no_slash_of_outputName level source.toList
    refine ⟨toList_outputPath outDir (Path.head?_ne_slash plain), ?_⟩
    intro c member proper
    have inside : c ∈ output := List.mem_append_right _ member
    obtain ⟨busy, down⟩ := proper_of_mem inside proper
    have joined : path = Path.join base output := String.toList_ofList
    rw [joined]
    exact ⟨Path.fileName?_join base plain busy down, Path.exists_parent?_join base plain busy⟩
  · intro other name name' named named' base' path'
    refine ⟨?_, outputPath_same_iff extension named named'⟩
    intro same
    rw [String.toList_inj]
    exact outputPath_eq_iff extension named named' same

/-- Outputs of inputs in one directory that is written in two ways. -/
theorem outputPath_of_spellings :
    let source := "a/./x/b.js.flow.json"
    let path := (outputPath none ".ts" source).toList
    path = "a/./x/b.ts".toList ∧ Path.fileName? path = some "b.ts".toList ∧
      (∃ parent, Path.parent? path = some parent ∧ Path.Same parent "a/./x".toList) ∧
      Path.Same path (outputPath none ".ts" "a/x//b.flow").toList ∧
      path ≠ (outputPath none ".ts" "a/./x/b.flow.js").toList := by
  intro source path
  obtain ⟨-, placed, alike⟩ := outputPath_places none ".ts" source
  obtain ⟨whole, proper⟩ := placed (by decide)
  obtain ⟨named, parent⟩ := proper 't' (by decide) (by decide)
  have based : baseDirectory none source.toList = "a/./x".toList := by decide
  rw [based] at parent
  have spelled := (alike "a/x//b.flow" "b.js.flow.json".toList "b.flow".toList (by decide)
    (by decide)).2 ⟨by decide, by decide⟩
  have written := (alike "a/./x/b.flow.js" "b.js.flow.json".toList "b.flow.js".toList (by decide)
    (by decide)).1 (by decide)
  refine ⟨whole.trans (by decide), named.trans (by decide), parent, spelled.mpr (by decide), ?_⟩
  exact fun same => absurd (written.mp same) (by decide)

end FlowDecl
