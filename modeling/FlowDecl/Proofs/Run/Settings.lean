import FlowDecl.Proofs.Run.Outputs

/-!
# Options of a run

How layers of options are merged, and which layers a run has.
-/

namespace FlowDecl

/-! ## Layers of options

Any number of layers can be merged, two at a time and in any grouping.  A `Merging` is such a
grouping, with the lower layers on the left.

What it results in depends on its layers alone: each field has the value of the last layer that
sets it (`Merging.result_eq`).  So layers that set nothing make no difference, wherever they
stand (`Merging.result_eq_of_filter_eq`).
-/

/-! ### The last layer that sets a field -/

namespace Options

/-- The value of a field in the last of some layers that sets it. -/
def lastSet {α : Type} (field : Options → Option α) (layers : List Options) : Option α :=
  (layers.filterMap field).getLast?

/-- Each field as the last of some layers sets it that sets it at all. -/
def ofLayers (layers : List Options) : Options where
  useReactNull := lastSet Options.useReactNull layers
  forceExport := lastSet Options.forceExport layers
  outDir := lastSet Options.outDir layers
  outExtension := lastSet Options.outExtension layers

section Field

variable {α : Type} (field : Options → Option α)

/-- The last layer that sets a field is an upper one if any of these sets it. -/
theorem lastSet_append (lower upper : List Options) :
    lastSet field (lower ++ upper) = (lastSet field upper).or (lastSet field lower) := by
  rw [lastSet, List.filterMap_append, List.getLast?_append]
  rfl

theorem lastSet_filter (unset : field .empty = none) (layers : List Options) :
    lastSet field (layers.filter (· ≠ .empty)) = lastSet field layers := by
  rw [lastSet, lastSet, List.filterMap_filter]
  congr 2
  funext o
  by_cases h : o = .empty
  · simp [h, unset]
  · simp [h]

end Field

theorem ofLayers_singleton (o : Options) : ofLayers [o] = o := by
  obtain ⟨a, b, c, d⟩ := o
  cases a <;> cases b <;> cases c <;> cases d <;> rfl

theorem ofLayers_append (lower upper : List Options) :
    ofLayers (lower ++ upper) = (ofLayers lower).merge (ofLayers upper) := by
  simp only [ofLayers, lastSet_append, merge]

/-- A layer that sets nothing makes no difference. -/
theorem ofLayers_filter (layers : List Options) :
    ofLayers (layers.filter (· ≠ .empty)) = ofLayers layers := by
  rw [ofLayers, lastSet_filter Options.useReactNull rfl, lastSet_filter Options.forceExport rfl,
    lastSet_filter Options.outDir rfl, lastSet_filter Options.outExtension rfl, ofLayers]

end Options

/-! ### Groupings -/

/-- A way to merge layers. -/
inductive Merging where
  /-- No layer. -/
  | nothing
  /-- One layer. -/
  | layer (o : Options)
  /-- What is merged from some layers, with what is merged from others over it. -/
  | merge (lower upper : Merging)

namespace Merging

/-- The layers, the lowest first. -/
def layers : Merging → List Options
  | .nothing => []
  | .layer o => [o]
  | .merge lower upper => lower.layers ++ upper.layers

/-- What the layers are merged to. -/
def result : Merging → Options
  | .nothing => .empty
  | .layer o => o
  | .merge lower upper => lower.result.merge upper.result

/-- In every grouping the last layer that sets a field decides it. -/
theorem result_eq : ∀ m : Merging, m.result = .ofLayers m.layers
  | .nothing => rfl
  | .layer o => (Options.ofLayers_singleton o).symm
  | .merge lower upper => by
    rw [result, layers, Options.ofLayers_append, lower.result_eq, upper.result_eq]

/-- Groupings of the same layers have the same result, also with layers between them that set
nothing. -/
theorem result_eq_of_filter_eq {m m' : Merging}
    (same : m.layers.filter (· ≠ .empty) = m'.layers.filter (· ≠ .empty)) :
    m.result = m'.result := by
  rw [m.result_eq, m'.result_eq, ← Options.ofLayers_filter m.layers, same, Options.ofLayers_filter]

end Merging

/-! ## Settings of a run

The settings of a run come from at most three places.  What the command line gives comes first,
what the options file sets is next, and the rest has its default.  The options file is the one
that the command line names, and only if it names none, the default one if that is there.

Every input is printed and placed with these settings (`run_settles_options`).  An options file
that cannot be used ends the run before any input is read.  If the command line names an options
file, the default one has no part in the run, whatever it holds and whether it is there or not.
-/

/-! ### The options file -/

/-- The options file of a run, if there is one. -/
def optionsFile? (c : CommandLine) (t : FileTree) : Option String :=
  match c.project with
  | some path => some path
  | none => if t.pathExists "flowts.json" then some "flowts.json" else none

/-- The options file of a run sets some options.  Nothing is set if there is no such file. -/
inductive FileSets (c : CommandLine) (t : FileTree) : Options → Prop where
  /-- There is no options file. -/
  | nothing : optionsFile? c t = none → FileSets c t .empty
  /-- The file is read and holds the options. -/
  | held {path text : String} {o : Options} : optionsFile? c t = some path →
    t.readText path = .ok text → Options.parse text = .ok o → FileSets c t o

section FileSets

variable {c : CommandLine} {t : FileTree} {o : Options}

theorem fileSets_iff_of_none (none : optionsFile? c t = none) : FileSets c t o ↔ o = .empty := by
  constructor
  · rintro (_ | ⟨file, -, -⟩)
    · rfl
    · cases none.symm.trans file
  · rintro rfl
    exact .nothing none

/-- An options file sets the options that its text holds. -/
theorem fileSets_iff_of_some {path : String} (file : optionsFile? c t = some path) :
    FileSets c t o ↔ ∃ text, t.readText path = .ok text ∧ Options.parse text = .ok o := by
  constructor
  · rintro (none | ⟨file', read, parsed⟩)
    · cases none.symm.trans file
    · cases file.symm.trans file'
      exact ⟨_, read, parsed⟩
  · rintro ⟨text, read, parsed⟩
    exact .held file read parsed

/-- Options are read from a path exactly if its text is read and holds them. -/
theorem Options.atPath_eq_ok_iff {path : String} :
    (Options.atPath (m := FileTree.M) path t).1 = .ok o ↔
      ∃ text, t.readText path = .ok text ∧ Options.parse text = .ok o := by
  rw [atPath, FileTree.bind_run, FileTree.readText_run]
  cases t.readText path with
  | error cause =>
    constructor
    · intro failed
      cases failed
    · rintro ⟨_, failed, -⟩
      cases failed
  | ok text =>
    simp only [Except.ok.injEq, exists_eq_left']
    cases Options.parse text with
    | error cause =>
      constructor
      · intro failed
        cases failed
      · intro failed
        cases failed
    | ok options =>
      change Except.ok options = Except.ok o ↔ _
      rw [Except.ok.injEq, Except.ok.injEq]

/-- The options of the project are those that the options file sets. -/
theorem projectOptions_eq_ok_iff :
    (projectOptions (m := FileTree.M) c t).1 = .ok o ↔ FileSets c t o := by
  rw [projectOptions]
  cases named : c.project with
  | some path =>
    rw [fileSets_iff_of_some (by rw [optionsFile?, named])]
    exact Options.atPath_eq_ok_iff
  | none =>
    dsimp only
    rw [FileTree.bind_run, FileTree.pathExists_run]
    cases there : t.pathExists defaultOptionsFile with
    | true =>
      have file : optionsFile? c t = some defaultOptionsFile := by
        rw [optionsFile?, named]
        exact if_pos there
      rw [fileSets_iff_of_some file]
      exact Options.atPath_eq_ok_iff
    | false =>
      have none : optionsFile? c t = none := by
        rw [optionsFile?, named]
        exact if_neg (ne_true_of_eq_false there)
      rw [fileSets_iff_of_none none]
      change Except.ok Options.empty = Except.ok o ↔ _
      rw [Except.ok.injEq, eq_comm]

/-- The options of a run are those that the options file sets, with the command line over them. -/
theorem settledOptions_of_fileSets (sets : FileSets c t o) :
    (settledOptions (m := FileTree.M) c t).1 = .ok (o.merge c.overrides) := by
  rw [settledOptions, FileTree.bind_run]
  change Except.map _ (projectOptions (m := FileTree.M) c t).1 = _
  rw [projectOptions_eq_ok_iff.mpr sets]
  rfl

/-- If the options file sets no options, it cannot be used. -/
theorem exists_settledOptions_eq_error (unset : ∀ o, ¬FileSets c t o) :
    ∃ cause, (settledOptions (m := FileTree.M) c t).1 = .error cause := by
  rw [settledOptions, FileTree.bind_run]
  change ∃ cause, Except.map _ (projectOptions (m := FileTree.M) c t).1 = _
  cases project : (projectOptions (m := FileTree.M) c t).1 with
  | error cause => exact ⟨cause, rfl⟩
  | ok o => exact absurd (projectOptions_eq_ok_iff.mp project) (unset o)

/-- A default options file has no part in the options where the command line names another one. -/
theorem fileSets_congr {path : String} (named : c.project = some path) {t' : FileTree}
    {place : Location} (agree : FileTree.AgreeApartFrom place t t')
    (elsewhere : Location.ofPath t.working path.toList ≠ place)
    (same : place ∈ Location.onWay t.working path.toList → FileTree.SameDirectory place t t') :
    FileSets c t o ↔ FileSets c t' o := by
  have file : ∀ t, optionsFile? c t = some path := fun t => by rw [optionsFile?, named]
  rw [fileSets_iff_of_some (file t), fileSets_iff_of_some (file t')]
  exact exists_congr fun text =>
    and_congr_left fun _ => FileTree.readText_eq_ok_congr agree elsewhere same

end FileSets

/-! ### Settings -/

/-- The settings of a run, given its command line and what the options file sets.  What the
command line gives wins, and what neither of them gives has its default. -/
structure Emitter.Settles (e : Emitter) (c : CommandLine) (o : Options) : Prop where
  /-- `ReactNull` is used if the command line or the file turns it on. -/
  useReactNull : e.config.useReactNull = (c.useReactNull || o.useReactNull.getD false)
  /-- Every alias is exported if the command line or the file turns it on. -/
  forceExport : e.forceExport = (c.forceExport || o.forceExport.getD false)
  /-- The directory of the outputs is that of the command line, or else that of the file. -/
  outDir : e.outDir = c.outDir.or o.outDir
  /-- The extension of the outputs is that of the command line, or else that of the file. -/
  extension : e.extension = (c.outExtension.or o.outExtension).getD ".ts"

/-- Merging the command line over the file gives the settings of the run. -/
theorem Emitter.settles_ofOptions (c : CommandLine) (o : Options) :
    (Emitter.ofOptions (o.merge c.overrides)).Settles c o where
  useReactNull := by
    simp only [ofOptions, Options.printConfig, Options.merge, CommandLine.overrides]
    cases c.useReactNull <;> rfl
  forceExport := by
    simp only [ofOptions, Options.exportsAll, Options.merge, CommandLine.overrides]
    cases c.forceExport <;> rfl
  outDir := rfl
  extension := rfl

/-- What a run that has settings makes of its inputs. -/
structure Emitter.Runs (e : Emitter) (c : CommandLine) (before : FileTree)
    (ended : Outcome × FileTree) : Prop where
  /-- Every input is emitted from the files that were there, and the emissions take their turns. -/
  turns : let ts := turns c.stdout (c.files.map (e.emission before)) before
    ended = (outcomeOf (ts.map Turn.delivery), treeAfter before ts)
  /-- An input that can be read is printed and placed as the settings say. -/
  emissions : ∀ file ∈ c.files, ∀ text, before.readText file = .ok text →
    e.emission before file =
      match printedText e.config e.forceExport text with
      | .error cause => .error (.load file cause)
      | .ok printed => .ok ⟨FlowDecl.outputPath e.outDir e.extension file, printed⟩

theorem run_of_fileSets {arguments : List String} {c : CommandLine} {before : FileTree}
    {o : Options} (parsed : CommandLine.parse arguments = .ok c) (sets : FileSets c before o) :
    (Emitter.ofOptions (o.merge c.overrides)).Runs c before
      (run (m := FileTree.M) arguments before) where
  turns := run_eq parsed (settledOptions_of_fileSets sets)
  emissions file _ text read := by
    rw [Emitter.emission_eq, read]
    exact Emitter.emitText_eq _ file text .empty

/-- The place of the default options file. -/
def FileTree.defaultPlace (t : FileTree) : Location := .ofPath t.working "flowts.json".toList

/-- Layers of options are merged alike in every grouping, and the last one that sets a field
decides it.  A run takes its settings from the command line, the options file and the defaults,
and prints and places every input with them.  It fails without reading an input if the options
file cannot be used.  Where the command line names another options file, the default one makes no
difference.  (A path can also lead through a directory of the default name, and then this has to
be one in both trees.) -/
theorem run_settles_options :
    (∀ m : Merging, m.result = .ofLayers m.layers) ∧
      (∀ m m' : Merging, m.layers.filter (· ≠ .empty) = m'.layers.filter (· ≠ .empty) →
        m.result = m'.result) ∧
      ∀ (arguments : List String) (c : CommandLine) (before : FileTree),
        CommandLine.parse arguments = .ok c →
          (∀ o, FileSets c before o → ∃ e : Emitter, e.Settles c o ∧
            e.Runs c before (run (m := FileTree.M) arguments before)) ∧
          (∀ path, optionsFile? c before = some path →
            (¬∃ text o, before.readText path = .ok text ∧ Options.parse text = .ok o) →
              ∃ cause, run (m := FileTree.M) arguments before =
                ({ exit := 1, stdout := "", failures := [.options cause], summary := none },
                  before)) ∧
          ∀ path, c.project = some path →
            Location.ofPath before.working path.toList ≠ before.defaultPlace →
            ∀ other, FileTree.AgreeApartFrom before.defaultPlace before other →
              (before.defaultPlace ∈ Location.onWay before.working path.toList →
                FileTree.SameDirectory before.defaultPlace before other) →
                ∀ o, FileSets c before o ↔ FileSets c other o := by
  refine ⟨Merging.result_eq, fun m m' => Merging.result_eq_of_filter_eq, ?_⟩
  intro arguments c before parsed
  refine ⟨?_, ?_, ?_⟩
  · intro o sets
    exact ⟨_, Emitter.settles_ofOptions c o, run_of_fileSets parsed sets⟩
  · intro path file unusable
    have unset : ∀ o, ¬FileSets c before o := by
      intro o sets
      obtain ⟨text, read, holds⟩ := (fileSets_iff_of_some file).mp sets
      exact unusable ⟨text, o, read, holds⟩
    obtain ⟨cause, failed⟩ := exists_settledOptions_eq_error unset
    exact ⟨cause, run_eq_of_unusable parsed failed⟩
  · intro path named elsewhere other agree same o
    exact fileSets_congr named agree elsewhere same

/-- The file that the command line names leaves two settings to the command line, and a broken
default options file beside it is not seen.  Without `-p` the run ends with the broken file. -/
theorem settings_beside_broken_file :
    let arguments := ["-p", "o.json", "--forceExport", "--outExtension", ".mts", "a.json"]
    let c : CommandLine :=
      { files := ["a.json"], project := some "o.json", forceExport := true
        outExtension := some ".mts" }
    let held :=
      "\x7b\"useReactNull\": true, \"forceExport\": false, \"outExtension\": \".d.ts\"\x7d"
    let before := FileTree.ofTexts ⟨["w".toList]⟩ [("a.json", "[]"), ("o.json", held)]
    let other := before.set before.defaultPlace (.file (.text "["))
    let o : Options :=
      { useReactNull := some true, forceExport := some false, outExtension := some ".d.ts" }
    CommandLine.parse arguments = .ok c ∧ FileSets c before o ∧ FileSets c other o ∧
      (∃ e : Emitter, e = ⟨true, ⟨true⟩, none, ".mts"⟩ ∧
        e.Runs c other (run (m := FileTree.M) arguments other)) ∧
      ∃ cause, run (m := FileTree.M) ["a.json"] other =
        ({ exit := 1, failures := [.options cause] }, other) := by
  intro arguments c held before other o
  have parsed : CommandLine.parse arguments = .ok c := by decide +kernel
  have read : before.readText "o.json" = .ok held := by decide +kernel
  have sets : FileSets c before o := .held rfl read (by decide +kernel)
  obtain ⟨-, -, runs⟩ := run_settles_options
  obtain ⟨-, -, unseen⟩ := runs arguments c before parsed
  have sets' : FileSets c other o := by
    refine (unseen "o.json" rfl (by decide +kernel) other ?_ ?_ o).mp sets
    · exact before.agreeApartFrom_set _ _
    · exact fun passed => absurd passed (by decide +kernel)
  refine ⟨parsed, sets, sets', ?_, ?_⟩
  · obtain ⟨e, settles, runs⟩ := (runs arguments c other parsed).1 o sets'
    refine ⟨e, ?_, runs⟩
    obtain ⟨forceExport, ⟨useReactNull⟩, outDir, extension⟩ := e
    cases settles.useReactNull
    cases settles.forceExport
    cases settles.outDir
    cases settles.extension
    rfl
  · have parsed' : CommandLine.parse ["a.json"] = .ok { files := ["a.json"] } := by decide +kernel
    refine (runs ["a.json"] _ other parsed').2.1 "flowts.json" (by decide +kernel) ?_
    rintro ⟨text, o, read, holds⟩
    have broken : other.readText "flowts.json" = .ok "[" := by decide +kernel
    have ends : Options.parse "[" = .error ⟨.endInList, 1, 1⟩ := by decide +kernel
    cases broken.symm.trans read
    cases ends.symm.trans holds

end FlowDecl
