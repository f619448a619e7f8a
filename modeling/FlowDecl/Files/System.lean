import FlowDecl.Text

/-!
# File systems

What the program needs of a file system, which paths any system refuses, and what can go wrong.
-/

namespace FlowDecl

/-! ## Errors of files

What can go wrong when a file is read or written.  The wording of the system's
own errors ends with the number by which the system knows them.
-/

/-- Why a file operation fails. -/
inductive FileError where
  /-- Nothing is there. -/
  | notFound
  /-- Something is already there. -/
  | alreadyExists
  /-- A directory is needed and something else is there. -/
  | notADirectory
  /-- A directory is there and a file is needed. -/
  | isADirectory
  /-- A name or the whole path has too many bytes. -/
  | nameTooLong
  /-- The path has a null character. -/
  | nullInPath
  /-- The bytes of the file are no text. -/
  | invalidText
  /-- Any other failure, in its own words. -/
  | other (message : String)
deriving DecidableEq, Repr, Inhabited

/-- The wording of an error. -/
def FileError.message : FileError → String
  | .notFound => "No such file or directory (os error 2)"
  | .alreadyExists => "File exists (os error 17)"
  | .notADirectory => "Not a directory (os error 20)"
  | .isADirectory => "Is a directory (os error 21)"
  | .nameTooLong => "File name too long (os error 36)"
  | .nullInPath => "file name contained an unexpected NUL byte"
  | .invalidText => "stream did not contain valid UTF-8"
  | .other message => message

end FlowDecl

namespace FlowDecl.Path

/-! ## Limits on paths

Some paths are refused whatever the files are.  A path with a null character and
a path that is empty or too long are refused before they are followed.  A part
that is too long is refused where it is reached, so a fault in the parts before
it comes first.  Lengths count bytes.
-/

/-- The most bytes of a path. -/
def maxBytes : Nat := 4095

/-- The most bytes of one part. -/
def maxPartBytes : Nat := 255

/-- Why a path is refused before it is followed. -/
def refusal? (path : List Char) : Option FileError :=
  if '\x00' ∈ path then some .nullInPath
  else if maxBytes < Text.byteCount path then some .nameTooLong
  else if path = [] then some .notFound
  else none

/-- Whether a part is too long. -/
def isTooLong (part : List Char) : Bool := maxPartBytes < Text.byteCount part

/-! ### Tests -/

example : refusal? ['a', '\x00'] = some .nullInPath := by decide
example : refusal? [] = some .notFound := by decide
example : isTooLong (List.replicate 127 'é' ++ ['a']) = false := by decide +kernel
example : isTooLong (List.replicate 128 'é') = true := by decide +kernel

end FlowDecl.Path

namespace FlowDecl

/-! ## File systems

What the program needs of a file system: reading a text, asking whether a path
leads anywhere, making a directory with those above it, and writing a text.  The
run of the program is written once over this interface.  The model
`FileTree` and the system itself both provide it.
-/

/-- File operations in a monad. -/
class FileSystem (m : Type → Type) where
  /-- The text of a file. -/
  readText : String → m (Except FileError String)
  /-- Whether a path leads to a file or a directory. -/
  pathExists : String → m Bool
  /-- Makes a directory, and those above it as far as they are missing. -/
  createDirectories : String → m (Except FileError Unit)
  /-- Writes a text into a file, which is made or emptied first. -/
  writeText : String → String → m (Except FileError Unit)

end FlowDecl
