import FlowDecl.Emit
import FlowDecl.Proofs.Files.Tree
import FlowDecl.Proofs.Interchange.RoundTrip

/-!
# Emissions and the shared table of names

All inputs of a run enter their names into one table, also those that do not load.  What
an input is emitted to depends on its name and its text alone: an emission is the same in
front of every table (`Emitter.emitText_eq`), so it is the one that the input has by
itself.

The text of an emission depends on the text of the document and on how types and exports
are printed.  Its path depends on the name of the input and on the place of the outputs.
-/

namespace FlowDecl

/-- The text that a document is printed to, or why the document does not load.  No table of
names is involved. -/
def printedText (config : PrintConfig) (forceExport : Bool) (text : String) :
    Except LoadError String :=
  (parseDocument text).bind fun v =>
    (readProgram v).outcome.map fun p => Statement.listText config forceExport p.statements

namespace Emitter

variable (e : Emitter)

/-! ## One input -/

/-- The text of a loaded program does not depend on the table that it is loaded into. -/
theorem loadProgram_text (text : String) (names : NameTable) :
    (loadProgram text names).2.map (e.programText (loadProgram text names).1) =
      printedText e.config e.forceExport text := by
  rw [loadProgram, loadText, printedText]
  cases parseDocument text with
  | error cause => rfl
  | ok v => exact documentText_eq e.config e.forceExport names v

/-- A text is emitted to its printed text, or its load fails. -/
theorem emitText_eq (file text : String) (names : NameTable) :
    (e.emitText file text names).2 =
      match printedText e.config e.forceExport text with
      | .error cause => .error (.load file cause)
      | .ok printed => .ok ⟨FlowDecl.outputPath e.outDir e.extension file, printed⟩ := by
  rw [← e.loadProgram_text text names, emitText]
  rcases loadProgram text names with ⟨table, cause | program⟩
  · rfl
  · rfl

/-- An input is not emitted exactly if its document does not load, and for the same cause. -/
theorem emitText_eq_error_iff (file text : String) (names names' : NameTable)
    (cause : LoadError) :
    (e.emitText file text names).2 = .error (.load file cause) ↔
      (loadProgram text names').2 = .error cause := by
  rw [emitText_eq, ← e.loadProgram_text text names']
  cases (loadProgram text names').2 with
  | error other => simp [Except.map]
  | ok program => simp [Except.map]

/-! ## The inputs of a run -/

/-- What an input is emitted to by itself, from the files of a tree. -/
def emission (t : FileTree) (file : String) : Except EmitError Emission :=
  ((e.emitFile file .empty : FileTree.M _) t).1.2

/-- An input is emitted from the text that is read, or reading it fails. -/
theorem emission_eq (t : FileTree) (file : String) :
    e.emission t file =
      match t.readText file with
      | .error cause => .error (.read file cause)
      | .ok text => (e.emitText file text .empty).2 := by
  rw [emission, emitFile, FileTree.bind_run, FileTree.readText_run]
  cases t.readText file with
  | error cause => rfl
  | ok text => rfl

/-- An emission stands at the place of the output of its input. -/
theorem path_of_emission {t : FileTree} {file : String} {x : Emission}
    (emitted : e.emission t file = .ok x) : x.path = e.outputPath file := by
  rw [emission_eq] at emitted
  split at emitted
  next => cases emitted
  next =>
    rw [emitText_eq] at emitted
    split at emitted
    next => cases emitted
    next =>
      rw [← Except.ok.inj emitted]
      rfl

/-- Emissions stand at the places of the outputs of their inputs. -/
theorem paths_of_emissions {t : FileTree} {files : List String} {xs : List Emission}
    (emitted : files.map (e.emission t) = xs.map .ok) :
    xs.map Emission.path = files.map e.outputPath := by
  induction files generalizing xs with
  | nil =>
    cases xs with
    | nil => rfl
    | cons x xs => cases emitted
  | cons file files ih =>
    cases xs with
    | nil => cases emitted
    | cons x xs =>
      obtain ⟨first, rest⟩ := List.cons.inj emitted
      rw [List.map_cons, List.map_cons, e.path_of_emission first, ih rest]

/-- Emitting an input changes no file, and the names that are known make no difference. -/
theorem emitFile_run (file : String) (names : NameTable) (t : FileTree) :
    ∃ names', (e.emitFile file names : FileTree.M _) t = ((names', e.emission t file), t) := by
  rw [emission_eq, emitFile, FileTree.bind_run, FileTree.readText_run]
  cases t.readText file with
  | error cause => exact ⟨names, rfl⟩
  | ok text =>
    have same : (e.emitText file text names).2 = (e.emitText file text .empty).2 := by
      rw [emitText_eq, emitText_eq]
    exact ⟨(e.emitText file text names).1, congrArg (fun r => ((_, r), t)) same⟩

/-- Inputs that share a table are emitted as each is by itself. -/
theorem emitFiles_run (files : List String) (names : NameTable) (t : FileTree) :
    (e.emitFiles files names : FileTree.M _) t = (files.map (e.emission t), t) := by
  induction files generalizing names with
  | nil => rfl
  | cons file files ih =>
    obtain ⟨names', first⟩ := e.emitFile_run file names t
    rw [emitFiles, FileTree.bind_run, first]
    change ((e.emitFiles files names' : FileTree.M _) >>= fun results =>
      pure (e.emission t file :: results)) t = _
    rw [FileTree.bind_run, ih]
    rfl

end Emitter

/-- A table that is shared between inputs makes no difference to any of them, in whatever order
they come, and neither does anything else that was entered into it.  The text of an emission
and the cause of a failed load depend on the document and on the options of printing, and the
path depends on the name of the input and on the options of placement.  A document that does
not load gives neither. -/
theorem emission_ignores_table (e : Emitter) :
    (∀ file text names, (e.emitText file text names).2 = (e.emitText file text .empty).2) ∧
      (∀ files names (t : FileTree),
        (e.emitFiles files names : FileTree.M _) t = (files.map (e.emission t), t)) ∧
      (∀ file text names,
        (e.emitText file text names).2 =
          match printedText e.config e.forceExport text with
          | .error cause => .error (.load file cause)
          | .ok printed => .ok ⟨outputPath e.outDir e.extension file, printed⟩) ∧
      ∀ file text names names' cause,
        (e.emitText file text names).2 = .error (.load file cause) ↔
          (loadProgram text names').2 = .error cause := by
  refine ⟨?_, e.emitFiles_run, e.emitText_eq, e.emitText_eq_error_iff⟩
  intro file text names
  rw [e.emitText_eq, e.emitText_eq]

end FlowDecl
