import FlowDecl.Interchange.Reading
import FlowDecl.Json.Reader
import FlowDecl.Names.Registry

/-!
# Loads of documents

A document is read into a tree over strings, node by node, and then loaded into a tree over the
handles of a name table.
-/

namespace FlowDecl

/-! ## From documents to trees

A node is an object with a string `kind`.  Its kind is looked up in the category
of its place, and decides which other fields are read and in which order.  A node
enters its own name once all of its fields are read.  The segments of an entity
name are entered as soon as the name is complete.

Flags are off when absent or null, and the lists `mixinTypes` and `typeArguments`
are empty when absent.  Every other field has to be there.  Fields that a kind
does not know are ignored.
-/

/-- An entity name: a string, or an object of a parent and a name. -/
def readEntityName (v : Json) : Reading (EntityName String) :=
  match v with
  | .str name => do
    let name ← .enter name
    return .identifier name
  | .obj fields => do
    let parent ← readField .entityName (.obj fields) "parent"
    let parent ← readEntityName parent.val
    let name ← readString .entityName (.obj fields) "name"
    let name ← .enter name
    return .qualified parent name
  | _ => .fail (.invalidField .entityName "name" .entityName)
termination_by sizeOf v
decreasing_by exact parent.sizeOf_val

mutual

/-- A type. -/
def readType (v : Json) : Reading (Ty String) := do
  let kind ← readKind .type TypeKind.ofTag? v
  let holder : Holder := .node (.type kind)
  match kind with
  | .primitive =>
    let name ← readString holder v "name"
    let name ← .enter name
    return .primitive name
  | .literal =>
    let text ← readString holder v "text"
    return .literal text
  | .optional =>
    let element ← readField holder v "elementType"
    let element ← readType element.val
    return .optional element
  | .array =>
    let element ← readField holder v "elementType"
    let element ← readType element.val
    let isReadonly ← readFlag holder v "isReadonly"
    return .array element isReadonly
  | .object =>
    let mixins ← readListOrEmpty holder v "mixinTypes"
    let mixins ← Reading.each (fun mixin => readType mixin.val) mixins
    let members ← readList holder v "members"
    let members ← Reading.each (fun member => readMember member.val) members
    return .object mixins members
  | .decorated =>
    let element ← readField holder v "elementType"
    let element ← readType element.val
    return .decorated element
  | .union =>
    let elements ← readList holder v "elementTypes"
    let elements ← Reading.each (fun element => readType element.val) elements
    return .union elements
  | .reference =>
    let name ← readField holder v "name"
    let name ← readEntityName name.val
    let arguments ← readListOrEmpty holder v "typeArguments"
    let arguments ← Reading.each (fun argument => readType argument.val) arguments
    return .reference name arguments
  | .paren =>
    let element ← readField holder v "elementType"
    let element ← readType element.val
    return .paren element
termination_by sizeOf v
decreasing_by all_goals exact Json.Part.sizeOf_val _

/-- A member of an object type. -/
def readMember (v : Json) : Reading (Member String) := do
  let kind ← readKind .objectMember MemberKind.ofTag? v
  let holder : Holder := .node (.member kind)
  match kind with
  | .prop =>
    let type ← readField holder v "propType"
    let type ← readType type.val
    let name ← readString holder v "name"
    let isOptional ← readFlag holder v "isOptional"
    let isReadonly ← readFlag holder v "isReadonly"
    let name ← .enter name
    return .prop name isOptional isReadonly type
  | .indexer =>
    let keyType ← readField holder v "keyType"
    let keyType ← readType keyType.val
    let valueType ← readField holder v "valueType"
    let valueType ← readType valueType.val
    let keyName ← readString holder v "keyName"
    let isReadonly ← readFlag holder v "isReadonly"
    let keyName ← .enter keyName
    return .indexer keyName keyType valueType isReadonly
termination_by sizeOf v
decreasing_by all_goals exact Json.Part.sizeOf_val _

end

/-- A statement. -/
def readStatement (v : Json) : Reading (Statement String) := do
  let kind ← readKind .statement StatementKind.ofTag? v
  let holder : Holder := .node (.statement kind)
  match kind with
  | .useStrict => return .useStrict
  | .typeAlias =>
    let type ← readField holder v "aliasedType"
    let type ← readType type.val
    let name ← readString holder v "name"
    let hasExport ← readFlag holder v "hasExport"
    let name ← .enter name
    return .typeAlias name hasExport type

/-- The statements of a document: a list, or the field `statements` of an object. -/
def readStatements (v : Json) : Except LoadError (List Json) :=
  match v with
  | .arr items => .ok items
  | .obj fields =>
    match Json.lookup "statements" fields with
    | some (.arr items) => .ok items
    | some _ => .error (.invalidField .program "statements" .array)
    | none => .error (.missingField .program "statements")
  | _ => .error (.invalidField .program "statements" .array)

/-- A program. -/
def readProgram (v : Json) : Reading (Program String) := do
  let statements ← Reading.ofExcept (readStatements v)
  let statements ← Reading.each readStatement statements
  return ⟨statements⟩

/-! ## Loading documents

Loading reads a document and enters its names into a table, also where the
reading fails.  The tree is then over the handles of that table.  A name of the
tree is among the names entered, so its handle resolves to it.
-/

instance : Functor EntityName := ⟨EntityName.map, fun a => EntityName.map fun _ => a⟩
instance : Functor Ty := ⟨Ty.map, fun a => Ty.map fun _ => a⟩
instance : Functor Member := ⟨Member.map, fun a => Member.map fun _ => a⟩
instance : Functor Statement := ⟨Statement.map, fun a => Statement.map fun _ => a⟩
instance : Functor Program := ⟨Program.map, fun a => Program.map fun _ => a⟩

/-- The table after a load, and the tree over its handles or the first defect. -/
abbrev Loaded (τ : Type → Type) : Type := NameTable × Except LoadError (τ Handle)

/-- Enters what a reading has entered into a table. -/
def Reading.load {τ : Type → Type} [Functor τ] (r : Reading (τ String)) (t : NameTable) :
    Loaded τ :=
  let t := t.insertAll r.names
  (t, r.outcome.map fun tree => t.handle <$> tree)

/-- The value that a text holds. -/
def parseDocument (text : String) : Except LoadError Json :=
  match Json.parse text with
  | .ok v => .ok v
  | .error refusal => .error (.invalidText refusal)

/-- Loads the document that a text holds. -/
def loadText {τ : Type → Type} [Functor τ] (read : Json → Reading (τ String)) (text : String)
    (t : NameTable) : Loaded τ :=
  match parseDocument text with
  | .ok v => (read v).load t
  | .error e => (t, .error e)

/-- Loads the program that a text holds. -/
def loadProgram (text : String) (t : NameTable) : Loaded Program := loadText readProgram text t

end FlowDecl
