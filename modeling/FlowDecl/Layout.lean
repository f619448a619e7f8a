import FlowDecl.Names.Registry
import FlowDecl.Options.Basic
import FlowDecl.Tree

/-!
# Layout

Trees are laid out as lists of steps, a sink performs the steps, and a printer does this for the
trees over the handles of a name table.
-/

namespace FlowDecl

/-! ## The text sink

Printed text goes into a sink, which holds the text so far and a level of
indentation.  The sink adds nothing of its own: line ends come from `line` and
leading blanks from `indent` alone.  A `pop` without a `push` to undo is refused
and leaves the sink as it was.

What is to be printed is a list of steps.  `Sink.run` takes the steps one after
the other, and a refused one changes nothing.  `Sink.run?` stops at a refused
step.
-/

/-- A step of printing. -/
inductive Step where
  /-- One level deeper. -/
  | push
  /-- One level back. -/
  | pop
  /-- A text as it is. -/
  | write (text : String)
  /-- The end of a line. -/
  | line
  /-- The blanks of the current level. -/
  | indent
deriving DecidableEq, Repr, Inhabited

/-- The end of a line. -/
def lineEnd : String := "\r\n"

/-- The blanks of one level. -/
def indentUnit : String := "  "

/-- The blanks of a number of levels. -/
def indentText : Nat → String
  | 0 => ""
  | n + 1 => indentText n ++ indentUnit

/-- Why a step is refused. -/
inductive SinkError where
  /-- No push is left to undo. -/
  | unmatchedPop
deriving DecidableEq, Repr, Inhabited

/-- The wording of an error. -/
def SinkError.message : SinkError → String
  | .unmatchedPop => "pop_indent without matching push_indent"

/-- A text and a level of indentation. -/
structure Sink where
  /-- The text so far. -/
  text : String := ""
  /-- The level. -/
  level : Nat := 0
deriving DecidableEq, Repr, Inhabited

namespace Sink

/-- The sink without text, at level zero. -/
def empty : Sink := {}

/-- What a step does.  At level zero a pop does nothing. -/
def perform (s : Sink) : Step → Sink
  | .push => { s with level := s.level + 1 }
  | .pop => { s with level := s.level - 1 }
  | .write text => { s with text := s.text ++ text }
  | .line => { s with text := s.text ++ lineEnd }
  | .indent => { s with text := s.text ++ indentText s.level }

/-- One step.  A pop at level zero is refused. -/
def step (s : Sink) (x : Step) : Except SinkError Sink :=
  if x = .pop ∧ s.level = 0 then .error .unmatchedPop else .ok (s.perform x)

/-- Steps one after the other.  A refused one changes nothing. -/
def run (s : Sink) (steps : List Step) : Sink := steps.foldl perform s

/-- Steps one after the other, up to a refused one. -/
def run? (s : Sink) (steps : List Step) : Except SinkError Sink := steps.foldlM step s

/-- A step that is refused leaves the sink as it was. -/
theorem perform_of_step_error {s : Sink} {x : Step} {e : SinkError} (h : s.step x = .error e) :
    s.perform x = s := by
  unfold step at h
  split at h
  · next refused =>
    obtain ⟨rfl, zero⟩ := refused
    cases s
    simp_all [perform]
  · cases h

end Sink

/-! ### Tests -/

example : (Sink.empty.run [.push, .line, .indent, .write "x", .pop]) = ⟨"\r\n  x", 0⟩ := by decide
example : Sink.empty.step .pop = .error .unmatchedPop := rfl

/-! ## Layout of trees

The layout of a tree is the list of steps that print it.  A type is printed on
its line, except that the members of an object stand on lines of their own, one
level deeper, and a closing brace on a line at the level of the object.

A union has two layouts.  Inline, its elements stand on the current line with
bars between them.  Stacked, each element stands on a line of its own, one level
deeper and after a bar, and the lines of the element are one level deeper still.
The body of an alias and the type of a property are stacked if they are unions,
and a union in any other place is inline.

Every name and every literal is written as it is.
-/

/-- The layout of an entity name: its segments back to back. -/
def EntityName.layout : EntityName String → List Step
  | .identifier name => [.write name]
  | .qualified parent name => parent.layout ++ [.write name]

/-- The first half of an optional type. -/
def PrintConfig.absentHalf (config : PrintConfig) : String :=
  if config.useReactNull then "(ReactNull | " else "(undefined | "

/-- The word before a read-only member. -/
def readonlyMark (isReadonly : Bool) : List Step :=
  if isReadonly then [.write "readonly "] else []

/-- The mark after the name of an optional property. -/
def optionalMark (isOptional : Bool) : List Step := if isOptional then [.write "?"] else []

mutual

/-- The layout of a type, a union inline. -/
def Ty.layout (config : PrintConfig) : Ty String → List Step
  | .primitive name => [.write name]
  | .literal text => [.write text]
  | .optional element => .write config.absentHalf :: element.layout config ++ [.write ")"]
  | .array element true => .write "ReadonlyArray<" :: element.layout config ++ [.write ">"]
  | .array element false => element.layout config ++ [.write "[]"]
  | .object mixins members =>
    Ty.mixinLayout config mixins ++ .write "\x7b" :: .line :: .push ::
      Member.bodyLayout config members ++ [.pop, .indent, .write "\x7d"]
  | .decorated element => .write "Readonly<" :: element.layout config ++ [.write ">"]
  | .union elements => Ty.listLayout config " | " elements
  | .reference name [] => name.layout
  | .reference name (argument :: arguments) =>
    name.layout ++ .write "<" :: Ty.listLayout config ", " (argument :: arguments) ++
      [.write ">"]
  | .paren element => .write "(" :: element.layout config ++ [.write ")"]

/-- The layout of types with a text between them. -/
def Ty.listLayout (config : PrintConfig) (between : String) : List (Ty String) → List Step
  | [] => []
  | [t] => t.layout config
  | t :: u :: ts => t.layout config ++ .write between :: Ty.listLayout config between (u :: ts)

/-- The layout of the types spread into an object. -/
def Ty.mixinLayout (config : PrintConfig) : List (Ty String) → List Step
  | [] => []
  | t :: ts => t.layout config ++ .write " & " :: Ty.mixinLayout config ts

/-- The layout of the elements of a stacked union. -/
def Ty.stackLayout (config : PrintConfig) : List (Ty String) → List Step
  | [] => []
  | t :: ts =>
    .line :: .indent :: .write "| " :: .push :: t.layout config ++
      .pop :: Ty.stackLayout config ts

/-- The layout of a member. -/
def Member.layout (config : PrintConfig) : Member String → List Step
  | .prop name isOptional isReadonly (.union elements) =>
    readonlyMark isReadonly ++ .write name :: optionalMark isOptional ++
      .write ":" :: .push :: Ty.stackLayout config elements ++ [.pop]
  | .prop name isOptional isReadonly type =>
    readonlyMark isReadonly ++ .write name :: optionalMark isOptional ++
      .write ": " :: type.layout config
  | .indexer keyName keyType valueType isReadonly =>
    readonlyMark isReadonly ++ .write "[" :: .write keyName :: .write ": " ::
      keyType.layout config ++ .write "]: " :: valueType.layout config

/-- The layout of the members of an object, each on a line. -/
def Member.bodyLayout (config : PrintConfig) : List (Member String) → List Step
  | [] => []
  | m :: ms =>
    .indent :: m.layout config ++ .write ";" :: .line :: Member.bodyLayout config ms

end

/-- The layout of a union on the current line. -/
def unionInlineLayout (config : PrintConfig) (elements : List (Ty String)) : List Step :=
  Ty.listLayout config " | " elements

/-- The layout of a union with one element a line. -/
def unionStackedLayout (config : PrintConfig) (elements : List (Ty String)) : List Step :=
  .push :: Ty.stackLayout config elements ++ [.pop]

/-- The layout of the body of an alias, after its equals sign. -/
def Ty.aliasBodyLayout (config : PrintConfig) : Ty String → List Step
  | .union elements => unionStackedLayout config elements
  | type => .write " " :: type.layout config

/-- The layout of a statement. -/
def Statement.layout (config : PrintConfig) (forceExport : Bool) :
    Statement String → List Step
  | .useStrict => [.write "'use strict';"]
  | .typeAlias name hasExport type =>
    (if forceExport || hasExport then [.write "export "] else []) ++
      .write "type " :: .write name :: .write " =" :: type.aliasBodyLayout config ++
      [.write ";"]

/-- The layout of a program: each statement and an empty line after it. -/
def Program.layout (config : PrintConfig) (forceExport : Bool) (p : Program String) :
    List Step :=
  p.statements.flatMap fun s => s.layout config forceExport ++ [.line, .line]

/-! ## Printers

A printer prints trees over the handles of a name table into a sink.  Printed
text is pending until it is taken.  Printing a program drops what is pending,
returns the text of the program and leaves the printer empty.
-/

/-- What was printed so far, and how types are printed. -/
structure Printer where
  /-- How types are printed. -/
  config : PrintConfig
  /-- The pending text and the level. -/
  sink : Sink := .empty
deriving Inhabited

namespace Printer

/-- A printer without pending text. -/
def new (config : PrintConfig) : Printer := ⟨config, .empty⟩

/-- The printer after some steps. -/
def print (p : Printer) (steps : List Step) : Printer := { p with sink := p.sink.run steps }

/-- The pending text, and the printer without it. -/
def takeOutput (p : Printer) : String × Printer := (p.sink.text, { p with sink := .empty })

/-- Prints a type. -/
def printType (p : Printer) (names : NameTable) (type : Ty Handle) : Printer :=
  p.print ((type.map names.resolve).layout p.config)

/-- Prints a statement. -/
def printStatement (p : Printer) (names : NameTable) (forceExport : Bool)
    (statement : Statement Handle) : Printer :=
  p.print ((statement.map names.resolve).layout p.config forceExport)

/-- Prints an entity name. -/
def printEntityName (p : Printer) (names : NameTable) (name : EntityName Handle) : Printer :=
  p.print (name.map names.resolve).layout

/-- Prints a union on the current line. -/
def printUnionInline (p : Printer) (names : NameTable) (elements : List (Ty Handle)) :
    Printer :=
  p.print (unionInlineLayout p.config (elements.map (Ty.map names.resolve)))

/-- Prints a union with one element a line. -/
def printUnionStacked (p : Printer) (names : NameTable) (elements : List (Ty Handle)) :
    Printer :=
  p.print (unionStackedLayout p.config (elements.map (Ty.map names.resolve)))

/-- The text of a program, and the printer without pending text. -/
def printProgram (p : Printer) (names : NameTable) (forceExport : Bool)
    (program : Program Handle) : String × Printer :=
  (({ p with sink := .empty }).print
    ((program.map names.resolve).layout p.config forceExport)).takeOutput

end Printer

/-- The text of a program, from a printer of its own. -/
def programText (config : PrintConfig) (forceExport : Bool) (names : NameTable)
    (program : Program Handle) : String :=
  ((Printer.new config).printProgram names forceExport program).1

end FlowDecl
