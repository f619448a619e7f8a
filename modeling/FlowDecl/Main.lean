import FlowDecl.Run

/-!
# The program

The run of the program over the files of the system.
-/

namespace FlowDecl

/-- The number by which the system knows an error.  Some actions give it negated. -/
def systemNumber (code : UInt32) : Nat := min code.toNat (0 - code).toNat

/-- The error of the model for an error of the system. -/
def fileErrorOf : IO.Error → FileError
  | .noFileOrDirectory .. => .notFound
  | .alreadyExists .. => .alreadyExists
  | .inappropriateType _ code _ => if systemNumber code = 20 then .notADirectory else .isADirectory
  | .invalidArgument _ code message =>
    if systemNumber code = 36 then .nameTooLong else .other message
  | e => .other (toString e)

/-- The result of an action on a path, or its error. -/
def attempt {α : Type} (path : String) (action : IO α) : IO (Except FileError α) := do
  match Path.refusal? path.toList with
  | some e => return .error e
  | none =>
    match ← action.toBaseIO with
    | .ok a => return .ok a
    | .error e => return .error (fileErrorOf e)

instance : FileSystem IO where
  readText path := do
    match ← attempt path (IO.FS.readBinFile path) with
    | .error e => return .error e
    | .ok bytes =>
      match String.fromUTF8? bytes with
      | some text => return .ok text
      | none => return .error .invalidText
  pathExists path := do
    match ← attempt path (IO.FS.Handle.mk path .read) with
    | .ok _ | .error (.other _) => return true
    | .error _ => return false
  createDirectories path :=
    if path = "" then return .ok () else attempt path (IO.FS.createDirAll path)
  writeText path text := attempt path (IO.FS.writeFile path text)

end FlowDecl

/-- Answers the arguments, prints what there is to print, and reports failures. -/
def main (arguments : List String) : IO UInt32 := do
  let outcome ← (FlowDecl.run arguments : IO FlowDecl.Outcome)
  IO.print outcome.stdout
  for failure in outcome.failures do
    IO.eprintln failure.message
  if let some summary := outcome.summary then
    IO.eprintln summary
  return outcome.exit.toUInt32
