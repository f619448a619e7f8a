import FlowDecl.Files.System
import FlowDecl.Path

/-!
# File trees

A model of the files that a run can reach.  There is one tree with one root, and
a location is given by the names that lead down to it from there.  The working
directory is a location of the tree.  A path that starts with a slash is followed
from the root and any other path from the working directory, so paths that are
spelled in different ways can lead to the same file.

The tree has plain files and directories.  There are no links, so a file has one
location, and nothing in the tree is kept from being read or written.  The
working directory and the directories above it are always there.

A path is followed part by part.  Every location that is stepped from has to be a
directory, also where the step is idle or leads up, so a slash at the end of a
path asks for a directory.  `Path.refusal?` and `Path.isTooLong` say which paths
and parts are refused at once.
-/

namespace FlowDecl

/-- A place for a file or a directory. -/
structure Location where
  /-- The names that lead down from the root. -/
  names : List (List Char)
deriving DecidableEq, Repr, Inhabited

namespace Location

/-- The root. -/
def root : Location := ⟨[]⟩

/-- The location one level up.  The root is above itself. -/
def parent (loc : Location) : Location := ⟨loc.names.dropLast⟩

/-- The location of a name in a directory. -/
def child (loc : Location) (name : List Char) : Location := ⟨loc.names ++ [name]⟩

/-- Whether a location is a given one or below it. -/
def isWithin (loc above : Location) : Bool := above.names.isPrefixOf loc.names

/-- The location that a part of a path leads to. -/
def follow (here : Location) (part : List Char) : Location :=
  if Path.isIdle part then here
  else if part = ['.', '.'] then here.parent
  else here.child part

/-- The location that a path starts from. -/
def start (working : Location) (path : List Char) : Location :=
  if Path.isRooted path then root else working

/-- The path from a directory to a location in it or below it. -/
def relativePath? (loc directory : Location) : Option String :=
  (directory.names.isPrefixOf? loc.names).map fun names => .ofList (Path.concat names)

end Location

/-- The contents of a file. -/
inductive Contents where
  /-- A text. -/
  | text (text : String)
  /-- Bytes that are no text. -/
  | binary (bytes : List UInt8)
deriving DecidableEq, Repr, Inhabited

/-- The contents that some bytes are. -/
def Contents.ofBytes (bytes : List UInt8) : Contents :=
  match String.fromUTF8? ⟨bytes.toArray⟩ with
  | some decoded => .text decoded
  | none => .binary bytes

/-- What is at a location. -/
inductive Entry where
  | directory
  | file (contents : Contents)
deriving DecidableEq, Repr, Inhabited

/-- The working directory, and the entries of the locations that have one. -/
structure FileTree where
  /-- The working directory. -/
  working : Location
  /-- The entries, at most one for each location.  The working directory and the
  directories above it need none. -/
  entries : List (Location × Entry)
deriving DecidableEq, Repr, Inhabited

namespace FileTree

/-- The tree with a working directory, those above it, and nothing else. -/
def bare (working : Location) : FileTree := ⟨working, []⟩

/-- A tree with nothing but a working directory, which stands in the root. -/
def empty : FileTree := bare (.child .root ['w'])

/-- The entry of a location in a list of entries. -/
def find (loc : Location) : List (Location × Entry) → Option Entry
  | [] => none
  | (l, e) :: rest => if l = loc then some e else find loc rest

/-- What is at a location.  The working directory and those above it are
directories. -/
def entry? (t : FileTree) (loc : Location) : Option Entry :=
  if t.working.isWithin loc then some .directory else find loc t.entries

/-- The tree with the entry of a location set. -/
def set (t : FileTree) (loc : Location) (e : Entry) : FileTree :=
  { t with entries := (loc, e) :: t.entries.filter fun pair => pair.1 ≠ loc }

/-! ## Following paths -/

/-- The location reached from a location by the parts of a path.  The last step
may lead to a location without an entry. -/
def walk (t : FileTree) (here : Location) : List (List Char) → Except FileError Location
  | [] => .ok here
  | part :: parts =>
    match t.entry? here with
    | none => .error .notFound
    | some (.file _) => .error .notADirectory
    | some .directory =>
      if Path.isTooLong part then .error .nameTooLong else walk t (here.follow part) parts

/-- The location of a path. -/
def locate (t : FileTree) (path : List Char) : Except FileError Location :=
  match Path.refusal? path with
  | some e => .error e
  | none => t.walk (.start t.working path) (Path.split path)

/-- What a path leads to. -/
def lookup (t : FileTree) (path : List Char) : Except FileError Entry :=
  match t.locate path with
  | .error e => .error e
  | .ok loc =>
    match t.entry? loc with
    | none => .error .notFound
    | some e => .ok e

/-- Whether a path leads to a directory. -/
def isDirectory (t : FileTree) (path : List Char) : Bool :=
  match t.lookup path with
  | .ok .directory => true
  | _ => false

/-! ## Reading -/

/-- The text of the file that a path leads to. -/
def readText (t : FileTree) (path : String) : Except FileError String :=
  match t.lookup path.toList with
  | .error e => .error e
  | .ok .directory => .error .isADirectory
  | .ok (.file (.binary _)) => .error .invalidText
  | .ok (.file (.text text)) => .ok text

/-- Whether a path leads to a file or a directory. -/
def pathExists (t : FileTree) (path : String) : Bool :=
  match t.lookup path.toList with
  | .ok _ => true
  | .error _ => false

/-! ## Writing -/

/-- A path without the slashes at its end. -/
def withoutEndSlashes (path : List Char) : List Char :=
  (path.reverse.dropWhile (· == '/')).reverse

/-- Makes a directory.  The one above it has to be there. -/
def createDirectory (t : FileTree) (path : List Char) : Except FileError FileTree :=
  match t.locate (withoutEndSlashes path) with
  | .error e => .error e
  | .ok loc =>
    match t.entry? loc with
    | some _ => .error .alreadyExists
    | none => .ok (t.set loc .directory)

/-- Makes the first of some paths a directory.  Where the directory above it is
missing, the other paths are made directories first.  A directory that is already
there is left. -/
def createFirst (t : FileTree) : List (List Char) → FileTree × Except FileError Unit
  | [] => (t, .ok ())
  | path :: outer =>
    match t.createDirectory path with
    | .ok t => (t, .ok ())
    | .error .notFound =>
      match createFirst t outer with
      | (t, .error e) => (t, .error e)
      | (t, .ok ()) =>
        match t.createDirectory path with
        | .ok t => (t, .ok ())
        | .error e => (t, if t.isDirectory path then .ok () else .error e)
    | .error e => (t, if t.isDirectory path then .ok () else .error e)

/-- A path and the paths of the directories above it, the longest first. -/
def ancestors (path : List Char) : List (List Char) :=
  let parts := Path.parts path
  (List.range parts.length).reverse.map fun n =>
    Path.head path ++ Path.concat (Path.trimEnd (parts.take (n + 1)))

/-- Makes a directory, and those above it as far as they are missing. -/
def createDirectories (t : FileTree) (path : String) : FileTree × Except FileError Unit :=
  t.createFirst (ancestors path.toList)

/-- The location of a file to be written.  A path with a slash at its end leads to
no file, which shows once the directory above its last part is reached. -/
def locateFile (t : FileTree) (path : List Char) : Except FileError Location :=
  let file := withoutEndSlashes path
  if file = path then t.locate path
  else
    match Path.refusal? path with
    | some e => .error e
    | none =>
      match t.walk (.start t.working path) ((Path.split file).dropLast ++ [[]]) with
      | .error e => .error e
      | .ok _ => .error .isADirectory

/-- Puts contents into the file that a path leads to, which is made if nothing is
there. -/
def write (t : FileTree) (path : List Char) (contents : Contents) :
    FileTree × Except FileError Unit :=
  match t.locateFile path with
  | .error e => (t, .error e)
  | .ok loc =>
    match t.entry? loc with
    | some .directory => (t, .error .isADirectory)
    | _ => (t.set loc (.file contents), .ok ())

/-- Writes a text into the file that a path leads to. -/
def writeText (t : FileTree) (path text : String) : FileTree × Except FileError Unit :=
  t.write path.toList (.text text)

/-! ## The tree as a file system -/

/-- Computations that may change a file tree. -/
abbrev M : Type → Type := StateM FileTree

instance : FileSystem M where
  readText path := fun t => (t.readText path, t)
  pathExists path := fun t => (t.pathExists path, t)
  createDirectories path := fun t => let (t, r) := t.createDirectories path; (r, t)
  writeText path text := fun t => let (t, r) := t.writeText path text; (r, t)

/-! ## Changes -/

/-- The files of a tree below the working directory that another tree does not
have with the same contents, each with its path. -/
def newFiles (before after : FileTree) : List (String × Contents) :=
  after.entries.filterMap fun (loc, e) =>
    match loc.relativePath? after.working, e with
    | some path, .file contents =>
      if before.entry? loc = some e then none else some (path, contents)
    | _, _ => none

end FileTree

/-! ## Tests -/

example : (FileTree.empty.writeText "a/b" "x").2 = .error .notFound := by rfl
example : (((FileTree.empty.createDirectories "a").1.writeText "a/b" "x").1.readText "a/./b") =
    .ok "x" := by rfl
example : ((FileTree.empty.writeText "a" "x").1.readText "/w/../../w/a") = .ok "x" := by rfl

end FlowDecl
