/-!
# Trees

The trees of a declaration file, and the kinds of their nodes.
-/

namespace FlowDecl

/-! ## Kinds of nodes

A node of a declaration file is a type, a member of an object type or a
statement.  Each of these three categories is a closed family of kinds, and each
kind has the tag by which a document names it.  A tag is looked up within one
category: a tag of another category is as unknown there as a tag of none.
-/

/-- The families of nodes. -/
inductive Category where
  | type
  | objectMember
  | statement
deriving DecidableEq, Repr, Inhabited

/-- The wording of a category. -/
def Category.text : Category → String
  | .type => "type"
  | .objectMember => "object member"
  | .statement => "statement"

/-! ### The three families -/

/-- The kinds of types. -/
inductive TypeKind where
  | primitive
  | literal
  | optional
  | array
  | object
  | decorated
  | union
  | reference
  | paren
deriving DecidableEq, Repr, Inhabited

/-- The kinds of object members. -/
inductive MemberKind where
  | prop
  | indexer
deriving DecidableEq, Repr, Inhabited

/-- The kinds of statements. -/
inductive StatementKind where
  | useStrict
  | typeAlias
deriving DecidableEq, Repr, Inhabited

namespace TypeKind

/-- Every kind of type, in order. -/
def all : List TypeKind :=
  [primitive, literal, optional, array, object, decorated, union, reference, paren]

/-- The tag of a kind of type. -/
def tag : TypeKind → String
  | primitive => "PrimitiveType"
  | literal => "LiteralType"
  | optional => "OptionalType"
  | array => "ArrayType"
  | object => "ObjectType"
  | decorated => "DecoratedGenericType"
  | union => "UnionType"
  | reference => "TypeReference"
  | paren => "ParenType"

/-- The kind of type that a tag names. -/
def ofTag? (tag : String) : Option TypeKind := all.find? fun k => k.tag == tag

theorem mem_all (k : TypeKind) : k ∈ all := by cases k <;> decide

/-- A kind is found by its tag in its own category. -/
theorem ofTag?_tag (k : TypeKind) : ofTag? k.tag = some k := by cases k <;> decide

end TypeKind

namespace MemberKind

/-- Every kind of object member, in order. -/
def all : List MemberKind := [prop, indexer]

/-- The tag of a kind of object member. -/
def tag : MemberKind → String
  | prop => "Prop"
  | indexer => "Indexer"

/-- The kind of object member that a tag names. -/
def ofTag? (tag : String) : Option MemberKind := all.find? fun k => k.tag == tag

theorem ofTag?_tag (k : MemberKind) : ofTag? k.tag = some k := by cases k <;> decide

end MemberKind

namespace StatementKind

/-- Every kind of statement, in order. -/
def all : List StatementKind := [useStrict, typeAlias]

/-- The tag of a kind of statement. -/
def tag : StatementKind → String
  | useStrict => "UseStrictStat"
  | typeAlias => "TypeAliasDecl"

/-- The kind of statement that a tag names. -/
def ofTag? (tag : String) : Option StatementKind := all.find? fun k => k.tag == tag

theorem ofTag?_tag (k : StatementKind) : ofTag? k.tag = some k := by cases k <;> decide

end StatementKind

/-! ### All kinds -/

/-- The kind of a node. -/
inductive NodeKind where
  | type (kind : TypeKind)
  | member (kind : MemberKind)
  | statement (kind : StatementKind)
deriving DecidableEq, Repr, Inhabited

namespace NodeKind

/-- Every kind, family by family. -/
def all : List NodeKind :=
  TypeKind.all.map .type ++ MemberKind.all.map .member ++ StatementKind.all.map .statement

/-- The tag of a kind. -/
def tag : NodeKind → String
  | .type k => k.tag
  | .member k => k.tag
  | .statement k => k.tag

/-- The category of a kind. -/
def category : NodeKind → Category
  | .type _ => .type
  | .member _ => .objectMember
  | .statement _ => .statement

/-- The position of a kind among all kinds. -/
def index (k : NodeKind) : Nat := all.idxOf k

/-- The kinds of a category, in order. -/
def ofCategory : Category → List NodeKind
  | .type => TypeKind.all.map .type
  | .objectMember => MemberKind.all.map .member
  | .statement => StatementKind.all.map .statement

/-- The kind that a tag names within a category. -/
def ofTag? : Category → String → Option NodeKind
  | .type, tag => (TypeKind.ofTag? tag).map .type
  | .objectMember, tag => (MemberKind.ofTag? tag).map .member
  | .statement, tag => (StatementKind.ofTag? tag).map .statement

theorem ofTag?_tag (k : NodeKind) : ofTag? k.category k.tag = some k := by
  cases k with
  | type k => simp [ofTag?, category, tag, TypeKind.ofTag?_tag]
  | member k => simp [ofTag?, category, tag, MemberKind.ofTag?_tag]
  | statement k => simp [ofTag?, category, tag, StatementKind.ofTag?_tag]

end NodeKind

/-! ### Tests -/

example : (NodeKind.statement .typeAlias).index = 12 := by decide
example : NodeKind.ofTag? .type "Prop" = none := by decide

/-! ## Declaration trees

A program is a list of statements.  A statement is the strict-mode directive or
an alias that gives a type a name.  Types and the members of object types
contain each other.

A tree is built over a type `ν` of names.  A document is read into a tree over
strings, a name table turns it into a tree over handles, and printing resolves
the handles again.  `map` changes the names and keeps the tree.  The text of a
literal type is not a name.
-/

/-- A name that may be qualified.  The segments are written one after the other
without a separator. -/
inductive EntityName (ν : Type) where
  | identifier (name : ν)
  | qualified (parent : EntityName ν) (name : ν)
deriving DecidableEq, Repr, Inhabited

mutual

/-- A type. -/
inductive Ty (ν : Type) where
  /-- A built-in type, known by its name. -/
  | primitive (name : ν)
  /-- A literal, known by its source text. -/
  | literal (text : String)
  /-- A type whose value may be absent. -/
  | optional (element : Ty ν)
  /-- An array. -/
  | array (element : Ty ν) (isReadonly : Bool)
  /-- An object shape: the types spread into it, and its own members. -/
  | object (mixins : List (Ty ν)) (members : List (Member ν))
  /-- A type made deeply read-only. -/
  | decorated (element : Ty ν)
  /-- A union. -/
  | union (elements : List (Ty ν))
  /-- A name applied to types. -/
  | reference (name : EntityName ν) (arguments : List (Ty ν))
  /-- A type in parentheses. -/
  | paren (element : Ty ν)

/-- A member of an object type. -/
inductive Member (ν : Type) where
  /-- A property. -/
  | prop (name : ν) (isOptional isReadonly : Bool) (type : Ty ν)
  /-- An index signature. -/
  | indexer (keyName : ν) (keyType valueType : Ty ν) (isReadonly : Bool)

end

deriving instance Inhabited for Ty, Member

/-- A statement. -/
inductive Statement (ν : Type) where
  /-- The strict-mode directive. -/
  | useStrict
  /-- A name for a type. -/
  | typeAlias (name : ν) (hasExport : Bool) (type : Ty ν)
deriving Inhabited

/-- A file: its statements in order. -/
structure Program (ν : Type) where
  /-- The statements. -/
  statements : List (Statement ν)
deriving Inhabited

/-! ### Changing the names -/

/-- An entity name with its segments changed. -/
def EntityName.map {ν μ : Type} (f : ν → μ) : EntityName ν → EntityName μ
  | .identifier name => .identifier (f name)
  | .qualified parent name => .qualified (parent.map f) (f name)

mutual

/-- A type with its names changed. -/
def Ty.map {ν μ : Type} (f : ν → μ) : Ty ν → Ty μ
  | .primitive name => .primitive (f name)
  | .literal text => .literal text
  | .optional element => .optional (element.map f)
  | .array element isReadonly => .array (element.map f) isReadonly
  | .object mixins members => .object (Ty.mapList f mixins) (Member.mapList f members)
  | .decorated element => .decorated (element.map f)
  | .union elements => .union (Ty.mapList f elements)
  | .reference name arguments => .reference (name.map f) (Ty.mapList f arguments)
  | .paren element => .paren (element.map f)

/-- Types with their names changed. -/
def Ty.mapList {ν μ : Type} (f : ν → μ) : List (Ty ν) → List (Ty μ)
  | [] => []
  | t :: ts => t.map f :: Ty.mapList f ts

/-- A member with its names changed. -/
def Member.map {ν μ : Type} (f : ν → μ) : Member ν → Member μ
  | .prop name isOptional isReadonly type =>
    .prop (f name) isOptional isReadonly (type.map f)
  | .indexer keyName keyType valueType isReadonly =>
    .indexer (f keyName) (keyType.map f) (valueType.map f) isReadonly

/-- Members with their names changed. -/
def Member.mapList {ν μ : Type} (f : ν → μ) : List (Member ν) → List (Member μ)
  | [] => []
  | m :: ms => m.map f :: Member.mapList f ms

end

/-- A statement with its names changed. -/
def Statement.map {ν μ : Type} (f : ν → μ) : Statement ν → Statement μ
  | .useStrict => .useStrict
  | .typeAlias name hasExport type => .typeAlias (f name) hasExport (type.map f)

/-- A program with its names changed. -/
def Program.map {ν μ : Type} (f : ν → μ) (p : Program ν) : Program μ :=
  ⟨p.statements.map (Statement.map f)⟩

/-! ### Kinds and parts -/

/-- The kind of a type. -/
def Ty.kind {ν : Type} : Ty ν → TypeKind
  | .primitive .. => .primitive
  | .literal .. => .literal
  | .optional .. => .optional
  | .array .. => .array
  | .object .. => .object
  | .decorated .. => .decorated
  | .union .. => .union
  | .reference .. => .reference
  | .paren .. => .paren

/-- The kind of a member. -/
def Member.kind {ν : Type} : Member ν → MemberKind
  | .prop .. => .prop
  | .indexer .. => .indexer

/-- The kind of a statement. -/
def Statement.kind {ν : Type} : Statement ν → StatementKind
  | .useStrict => .useStrict
  | .typeAlias .. => .typeAlias

/-- The elements of a type that is a bare union. -/
def Ty.unionElements? {ν : Type} : Ty ν → Option (List (Ty ν))
  | .union elements => some elements
  | _ => none

end FlowDecl
