import FlowDecl.CommandLine
import FlowDecl.Emit
import FlowDecl.Options.Writer

/-!
# Runs

A run of the program settles its options, emits its inputs and delivers the outputs.
-/

namespace FlowDecl

/-! ## Option files

The options of a project stand in a file, which has to be readable and to hold
options.
-/

/-- Why an options file cannot be used. -/
inductive OptionsError where
  /-- The file cannot be read. -/
  | read (path : String) (cause : FileError)
  /-- The text of the file holds no options. -/
  | invalid (path : String) (cause : Json.Refusal)
deriving DecidableEq, Repr, Inhabited

/-- The wording of an error. -/
def OptionsError.message : OptionsError → String
  | .read path cause => "cannot read options file '" ++ path ++ "': " ++ cause.message
  | .invalid path cause => "invalid options file '" ++ path ++ "': " ++ cause.message

/-- The options of the file at a path. -/
def Options.atPath {m : Type → Type} [Monad m] [FileSystem m] (path : String) :
    m (Except OptionsError Options) := do
  match ← FileSystem.readText path with
  | .error cause => return .error (.read path cause)
  | .ok text =>
    match Options.parse text with
    | .error cause => return .error (.invalid path cause)
    | .ok options => return .ok options

/-! ## Runs

A run of the program answers a command line.  The options are settled first:
those of the options file, with the command line laid over them.  Then every
input is read and emitted, and only after that the outputs are delivered, in the
order of the inputs.  A failure of one input stops no other.

The run is written over the interface `FileSystem`, so that the program and the
model of its files share it.
-/

/-- What can go wrong in a run. -/
inductive Failure where
  /-- The command line cannot be used. -/
  | usage (cause : UsageError)
  /-- The options file cannot be used. -/
  | options (cause : OptionsError)
  /-- An input is not emitted. -/
  | emit (cause : EmitError)
  /-- An output cannot be written. -/
  | write (path : String) (cause : FileError)
deriving DecidableEq, Repr

/-- The wording of a failure. -/
def Failure.message : Failure → String
  | .usage cause => cause.message
  | .options cause => cause.message
  | .emit cause => cause.message
  | .write path cause => "cannot write '" ++ path ++ "': " ++ cause.message

/-- How a run ends. -/
structure Outcome where
  /-- The exit code. -/
  exit : Nat
  /-- What is printed. -/
  stdout : String := ""
  /-- What went wrong, in order. -/
  failures : List Failure := []
  /-- The summary of the failures, if inputs failed. -/
  summary : Option String := none
deriving DecidableEq, Repr, Inhabited

/-- The options file that is used where no other is named. -/
def defaultOptionsFile : String := "flowts.json"

variable {m : Type → Type} [Monad m] [FileSystem m]

/-! ### Options -/

/-- The options of the project: those of the file named on the command line, or of
the default file if that exists. -/
def projectOptions (c : CommandLine) : m (Except OptionsError Options) := do
  match c.project with
  | some path => Options.atPath path
  | none =>
    if ← FileSystem.pathExists defaultOptionsFile then Options.atPath defaultOptionsFile
    else return .ok .empty

/-- The options of a run. -/
def settledOptions (c : CommandLine) : m (Except OptionsError Options) := do
  return (← projectOptions c).map fun options => options.merge c.overrides

/-! ### Delivery -/

/-- What became of an input: the text that was printed for it, or its failure. -/
abbrev Delivery : Type := Except Failure String

/-- Prints or writes an emission.  Nothing is printed for one that is written. -/
def deliver (toStdout : Bool) (result : Except EmitError Emission) : m Delivery := do
  match result with
  | .error cause => return .error (.emit cause)
  | .ok emission =>
    if toStdout then return .ok emission.text
    else
      match ← emission.write with
      | .error cause => return .error (.write emission.path cause)
      | .ok () => return .ok ""

/-- Delivers emissions in order. -/
def deliverAll (toStdout : Bool) : List (Except EmitError Emission) → m (List Delivery)
  | [] => return []
  | result :: results => do
    let delivery ← deliver toStdout result
    let deliveries ← deliverAll toStdout results
    return delivery :: deliveries

/-- The text that was printed, if there was no failure. -/
def Delivery.printed? : Delivery → Option String
  | .ok text => some text
  | .error _ => none

/-- The failure, if there was one. -/
def Delivery.failure? : Delivery → Option Failure
  | .ok _ => none
  | .error failure => some failure

/-- The wording of a summary. -/
def summaryText (failures inputs : Nat) : String :=
  toString failures ++ " of " ++ toString inputs ++ (if inputs = 1 then " file" else " files") ++
    " failed"

/-- How a run over some inputs ends, given what became of each. -/
def outcomeOf (deliveries : List Delivery) : Outcome :=
  let printed := String.join (deliveries.filterMap Delivery.printed?)
  match deliveries.filterMap Delivery.failure? with
  | [] => { exit := 0, stdout := printed }
  | failures =>
    { exit := 1, stdout := printed, failures := failures,
      summary := some (summaryText failures.length deliveries.length) }

/-! ### The run -/

/-- Emits and delivers the inputs of a command line. -/
def runFiles (c : CommandLine) (emitter : Emitter) : m Outcome := do
  let results ← emitter.emitFiles c.files .empty
  let deliveries ← deliverAll c.stdout results
  return outcomeOf deliveries

/-- Answers a command line. -/
def runCommandLine (c : CommandLine) : m Outcome := do
  match ← settledOptions c with
  | .error cause => return { exit := 1, failures := [.options cause] }
  | .ok options => runFiles c (.ofOptions options)

/-- Answers the arguments of the program. -/
def run (arguments : List String) : m Outcome :=
  match CommandLine.parse arguments with
  | .error .help => return { exit := 0, stdout := helpText }
  | .error .version => return { exit := 0, stdout := versionText }
  | .error (.usage cause) => return { exit := 2, failures := [.usage cause] }
  | .ok c => runCommandLine c

end FlowDecl
