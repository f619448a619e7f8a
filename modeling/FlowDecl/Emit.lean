import FlowDecl.Files.System
import FlowDecl.Interchange.Load
import FlowDecl.Layout
import FlowDecl.Options.Basic
import FlowDecl.Path

/-!
# Emission

What becomes of an input: the text that its document is printed to, and the place where the
output stands.
-/

namespace FlowDecl

/-! ## Places of output files

The output of an input file is named after the file: its name without the
suffixes `.json`, `.flow` and `.js`, each taken off at most once and in this
order, and with the extension of the options added.  A suffix that is the whole
name stays.  The output stands in the output directory of the options, or beside
the input.
-/

/-- The suffixes that are taken off the name of an input, outermost first. -/
def inputSuffixes : List (List Char) :=
  [['.', 'j', 's', 'o', 'n'], ['.', 'f', 'l', 'o', 'w'], ['.', 'j', 's']]

/-- A name without a suffix, unless nothing would be left. -/
def dropSuffix (name suffix : List Char) : List Char :=
  if suffix.isSuffixOf name ∧ suffix.length < name.length then
    name.take (name.length - suffix.length)
  else name

/-- A name without the suffixes of inputs. -/
def stem (name : List Char) : List Char := inputSuffixes.foldl dropSuffix name

/-- The directory of the output of a source. -/
def baseDirectory (outDir : Option String) (source : List Char) : List Char :=
  match outDir with
  | some dir => dir.toList
  | none => (Path.parent? source).getD ['.']

/-- The name of the output of a source. -/
def outputName (extension : String) (source : List Char) : List Char :=
  stem ((Path.fileName? source).getD []) ++ extension.toList

/-- The path of the output of a source. -/
def outputPath (outDir : Option String) (extension : String) (source : String) : String :=
  .ofList (Path.join (baseDirectory outDir source.toList) (outputName extension source.toList))

/-! ### Tests -/

example : stem ['a', '.', 'j', 's', '.', 'j', 's', 'o', 'n'] = ['a'] := by decide
example : stem ['.', 'j', 's', 'o', 'n'] = ['.', 'j', 's', 'o', 'n'] := by decide

/-! ## Emitting files

Emitting an input loads its document, prints the program and places the output.
Nothing is printed unless the whole document loads.  All inputs of a run enter
their names into one table.

Writing an emission first makes the directories above its path.
-/

/-- How inputs are printed and where their outputs go. -/
structure Emitter where
  /-- Whether every alias is exported. -/
  forceExport : Bool := false
  /-- How types are printed. -/
  config : PrintConfig := {}
  /-- The directory of the outputs, if it is not that of the input. -/
  outDir : Option String := none
  /-- The extension of the outputs. -/
  extension : String := Options.defaultExtension
deriving DecidableEq, Repr, Inhabited

/-- The emitter that some options describe. -/
def Emitter.ofOptions (o : Options) : Emitter where
  forceExport := o.exportsAll
  config := o.printConfig
  outDir := o.outDir
  extension := o.extension

/-- A printed file. -/
structure Emission where
  /-- The path of the output. -/
  path : String
  /-- The text of the output. -/
  text : String
deriving DecidableEq, Repr, Inhabited

/-- Why an input is not emitted. -/
inductive EmitError where
  /-- The document does not load. -/
  | load (file : String) (cause : LoadError)
  /-- The file cannot be read. -/
  | read (path : String) (cause : FileError)
deriving DecidableEq, Repr, Inhabited

/-- The wording of an error. -/
def EmitError.message : EmitError → String
  | .load file cause => file ++ ": " ++ cause.message
  | .read path cause => "cannot read '" ++ path ++ "': " ++ cause.message

namespace Emitter

/-- The text of a loaded program. -/
def programText (e : Emitter) (names : NameTable) (program : Program Handle) : String :=
  FlowDecl.programText e.config e.forceExport names program

/-- The path of the output of an input. -/
def outputPath (e : Emitter) (file : String) : String :=
  FlowDecl.outputPath e.outDir e.extension file

/-- Emits an input whose text is given, and enters its names. -/
def emitText (e : Emitter) (file text : String) (names : NameTable) :
    NameTable × Except EmitError Emission :=
  match loadProgram text names with
  | (names, .error cause) => (names, .error (.load file cause))
  | (names, .ok program) => (names, .ok ⟨e.outputPath file, e.programText names program⟩)

variable {m : Type → Type} [Monad m] [FileSystem m]

/-- Reads an input and emits it. -/
def emitFile (e : Emitter) (file : String) (names : NameTable) :
    m (NameTable × Except EmitError Emission) := do
  match ← FileSystem.readText file with
  | .error cause => return (names, .error (.read file cause))
  | .ok text => return e.emitText file text names

/-- Emits inputs in order. -/
def emitFiles (e : Emitter) : List String → NameTable → m (List (Except EmitError Emission))
  | [], _ => return []
  | file :: files, names => do
    let (names, result) ← e.emitFile file names
    let results ← e.emitFiles files names
    return result :: results

end Emitter

/-- Writes an emission to its path. -/
def Emission.write {m : Type → Type} [Monad m] [FileSystem m] (x : Emission) :
    m (Except FileError Unit) := do
  match Path.parent? x.path.toList with
  | none => FileSystem.writeText x.path x.text
  | some directory =>
    match ← FileSystem.createDirectories (.ofList directory) with
    | .error e => return .error e
    | .ok () => FileSystem.writeText x.path x.text

end FlowDecl
