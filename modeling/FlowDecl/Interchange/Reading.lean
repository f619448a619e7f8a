import FlowDecl.Json.Lexeme
import FlowDecl.Tree

/-!
# Readings of documents

What a reading of a document is, how the readings of its parts are put together, and why a
reading can fail.
-/

namespace FlowDecl

/-! ## Errors of a document

A document fails to load because its text is not JSON, because a node has no
kind or one that is not allowed in its place, or because a field of a node is
missing or of the wrong shape.
-/

/-- What a field belongs to. -/
inductive Holder where
  /-- A node of a kind. -/
  | node (kind : NodeKind)
  /-- A qualified name. -/
  | entityName
  /-- The whole document. -/
  | program
deriving DecidableEq, Repr, Inhabited

/-- The wording of a holder. -/
def Holder.text : Holder → String
  | .node kind => kind.tag
  | .entityName => "EntityName"
  | .program => "Program"

/-- What a field has to be. -/
inductive Shape where
  | string
  | boolean
  | array
  | entityName
deriving DecidableEq, Repr, Inhabited

/-- The wording of a shape. -/
def Shape.text : Shape → String
  | .string => "a string"
  | .boolean => "a boolean"
  | .array => "an array"
  | .entityName => "a string or a qualified name object"

/-- Why a document does not load. -/
inductive LoadError where
  /-- A node of a category has a kind outside that category. -/
  | unrecognizedKind (category : Category) (tag : String)
  /-- A value stands where a node of a category is needed. -/
  | notANode (category : Category)
  /-- A field is absent. -/
  | missingField (holder : Holder) (field : String)
  /-- A field is of another shape than the one needed. -/
  | invalidField (holder : Holder) (field : String) (expected : Shape)
  /-- The text is not JSON. -/
  | invalidText (refusal : Json.Refusal)
deriving DecidableEq, Repr, Inhabited

/-- The wording of an error. -/
def LoadError.message : LoadError → String
  | .unrecognizedKind category tag => "Unrecognized Flow " ++ category.text ++ ": " ++ tag
  | .notANode category =>
    "expected a " ++ category.text ++ " node (a JSON object with a string `kind`)"
  | .missingField holder field => holder.text ++ " is missing required field `" ++ field ++ "`"
  | .invalidField holder field expected =>
    "field `" ++ field ++ "` of " ++ holder.text ++ " must be " ++ expected.text
  | .invalidText refusal => "invalid JSON: " ++ refusal.message

/-! ## Readings

A document is read from the top down and left to right, and the first defect
ends the reading.  A `Reading` is the outcome together with the names entered on
the way, in order.  A reading that fails has entered the names of the parts that
were complete before the defect.

A reading does not depend on any name table.  The names it enters are put into a
table afterwards.

This module also holds the readings of single fields: a required field, a string,
a flag that is off when absent or null, and a list.
-/

/-- The outcome of reading a document, and the names entered on the way. -/
structure Reading (α : Type) where
  /-- The names entered, in order. -/
  names : List String
  /-- What was read, or the first defect. -/
  outcome : Except LoadError α

namespace Reading

/-- A reading that enters no name. -/
def ofExcept {α : Type} (outcome : Except LoadError α) : Reading α := ⟨[], outcome⟩

/-- A reading with its result changed. -/
def map {α β : Type} (f : α → β) (r : Reading α) : Reading β := ⟨r.names, r.outcome.map f⟩

/-- One reading after another.  A defect in the first leaves out the second. -/
def andThen {α β : Type} (r : Reading α) (next : α → Reading β) : Reading β :=
  match r.outcome with
  | .ok a =>
    let second := next a
    ⟨r.names ++ second.names, second.outcome⟩
  | .error e => ⟨r.names, .error e⟩

instance : Monad Reading where
  map := map
  pure a := ofExcept (.ok a)
  bind := andThen

/-- A reading that ends in a defect. -/
def fail {α : Type} (e : LoadError) : Reading α := ofExcept (.error e)

/-- Enters a name. -/
def enter (name : String) : Reading String := ⟨[name], .ok name⟩

/-- Readings of several things in order. -/
def each {α β : Type} (read : α → Reading β) : List α → Reading (List β)
  | [] => pure []
  | a :: rest => do
    let b ← read a
    (b :: ·) <$> each read rest

end Reading

/-! ### Fields -/

/-- The kind of a node within its category. -/
def readKind {κ : Type} (category : Category) (ofTag? : String → Option κ) (v : Json) :
    Reading κ :=
  match v.field? "kind" with
  | none => .fail (.notANode category)
  | some (.str tag) =>
    match ofTag? tag with
    | some kind => pure kind
    | none => .fail (.unrecognizedKind category tag)
  | some other => .fail (.unrecognizedKind category other.compact)

/-- A field that has to be there. -/
def readField (holder : Holder) (v : Json) (key : String) : Reading (Json.Part v) :=
  match v.child? key with
  | some part => pure part
  | none => .fail (.missingField holder key)

/-- A string. -/
def readString (holder : Holder) (v : Json) (key : String) : Reading String :=
  match v.field? key with
  | some (.str s) => pure s
  | some _ => .fail (.invalidField holder key .string)
  | none => .fail (.missingField holder key)

/-- A flag, which is off when it is absent or null. -/
def readFlag (holder : Holder) (v : Json) (key : String) : Reading Bool :=
  match v.field? key with
  | some (.bool b) => pure b
  | some .null => pure false
  | none => pure false
  | some _ => .fail (.invalidField holder key .boolean)

/-- A list that has to be there. -/
def readList (holder : Holder) (v : Json) (key : String) : Reading (List (Json.Part v)) :=
  match v.child? key with
  | none => .fail (.missingField holder key)
  | some part =>
    match part.items? with
    | some parts => pure parts
    | none => .fail (.invalidField holder key .array)

/-- A list that is empty when it is absent. -/
def readListOrEmpty (holder : Holder) (v : Json) (key : String) :
    Reading (List (Json.Part v)) :=
  match v.child? key with
  | none => pure []
  | some part =>
    match part.items? with
    | some parts => pure parts
    | none => .fail (.invalidField holder key .array)

end FlowDecl
