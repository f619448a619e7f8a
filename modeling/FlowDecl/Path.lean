/-!
# Paths

A path is a text whose parts are separated by slashes.  Empty parts and parts
that are a single dot are passed over.  What stands before the parts is kept
apart as the head: the root slash, or a single dot at the very front, which also
counts as a part.

`parent?` keeps the text of a path as it is written up to the end of the part
before the last one.  Nothing here looks at files.
-/

namespace FlowDecl.Path

/-- The texts between the slashes of a text. -/
def split : List Char → List (List Char)
  | [] => [[]]
  | c :: rest =>
    if c = '/' then [] :: split rest
    else
      match split rest with
      | [] => [[c]]
      | part :: parts => (c :: part) :: parts

/-- Texts with slashes between them. -/
def concat : List (List Char) → List Char
  | [] => []
  | [part] => part
  | part :: next :: parts => part ++ '/' :: concat (next :: parts)

/-- Whether a part is passed over. -/
def isIdle (part : List Char) : Bool := part == [] || part == ['.']

/-- Parts without the idle ones at their end. -/
def trimEnd (parts : List (List Char)) : List (List Char) :=
  (parts.reverse.dropWhile isIdle).reverse

/-- What stands before the parts: the root, a leading dot or nothing. -/
def head : List Char → List Char
  | '/' :: _ => ['/']
  | ['.'] => ['.']
  | '.' :: '/' :: _ => ['.']
  | _ => []

/-- The parts after the head, without the idle ones at their end. -/
def parts (path : List Char) : List (List Char) := trimEnd (split (path.drop (head path).length))

/-- The last part, if it names an entry of a directory. -/
def fileName? (path : List Char) : Option (List Char) :=
  (parts path).getLast?.filter fun part => part != ['.', '.']

/-- The path of the directory, if there is a part to leave out. -/
def parent? (path : List Char) : Option (List Char) :=
  match parts path with
  | [] => if head path = ['.'] then some [] else none
  | part :: more => some (head path ++ concat (trimEnd (part :: more).dropLast))

/-- A path below another one.  A path from the root stays as it is. -/
def join (base path : List Char) : List Char :=
  if path.head? = some '/' then path
  else if base = [] ∨ base.getLast? = some '/' then base ++ path
  else base ++ '/' :: path

/-- Whether a path starts at the root. -/
def isRooted (path : List Char) : Bool := path.head? == some '/'

/-! ## Tests -/

example : fileName? ['a', '/', 'b', '/', '.', '/'] = some ['b'] := by decide
example : parent? ['d', '/', '.', '.', '/', 'a'] = some ['d', '/', '.', '.'] := by decide
example : parent? ['.', '/', 'a'] = some ['.'] := by decide
example : parent? ['/'] = none := by decide
example : join ['o'] [] = ['o', '/'] := by decide

end FlowDecl.Path
