import FlowDecl.Json.Basic
import FlowDecl.Tree

/-!
# From trees to documents

The document of a tree writes every node as an object with its kind and all of
its fields, flags as truth values and sequences as lists.  A plain entity name is
a string and a qualified one an object.  The fields of an object are sorted by
key.
-/

namespace FlowDecl

/-- The document of an entity name. -/
def EntityName.toJson : EntityName String → Json
  | .identifier name => .str name
  | .qualified parent name => .obj [("name", .str name), ("parent", parent.toJson)]

mutual

/-- The document of a type. -/
def Ty.toJson : Ty String → Json
  | .primitive name => .obj [("kind", .str "PrimitiveType"), ("name", .str name)]
  | .literal text => .obj [("kind", .str "LiteralType"), ("text", .str text)]
  | .optional element =>
    .obj [("elementType", element.toJson), ("kind", .str "OptionalType")]
  | .array element isReadonly =>
    .obj [("elementType", element.toJson), ("isReadonly", .bool isReadonly),
      ("kind", .str "ArrayType")]
  | .object mixins members =>
    .obj [("kind", .str "ObjectType"), ("members", .arr (Member.toJsonList members)),
      ("mixinTypes", .arr (Ty.toJsonList mixins))]
  | .decorated element =>
    .obj [("elementType", element.toJson), ("kind", .str "DecoratedGenericType")]
  | .union elements =>
    .obj [("elementTypes", .arr (Ty.toJsonList elements)), ("kind", .str "UnionType")]
  | .reference name arguments =>
    .obj [("kind", .str "TypeReference"), ("name", name.toJson),
      ("typeArguments", .arr (Ty.toJsonList arguments))]
  | .paren element => .obj [("elementType", element.toJson), ("kind", .str "ParenType")]

/-- The documents of types. -/
def Ty.toJsonList : List (Ty String) → List Json
  | [] => []
  | t :: ts => t.toJson :: Ty.toJsonList ts

/-- The document of a member. -/
def Member.toJson : Member String → Json
  | .prop name isOptional isReadonly type =>
    .obj [("isOptional", .bool isOptional), ("isReadonly", .bool isReadonly),
      ("kind", .str "Prop"), ("name", .str name), ("propType", type.toJson)]
  | .indexer keyName keyType valueType isReadonly =>
    .obj [("isReadonly", .bool isReadonly), ("keyName", .str keyName),
      ("keyType", keyType.toJson), ("kind", .str "Indexer"), ("valueType", valueType.toJson)]

/-- The documents of members. -/
def Member.toJsonList : List (Member String) → List Json
  | [] => []
  | m :: ms => m.toJson :: Member.toJsonList ms

end

/-- The document of a statement. -/
def Statement.toJson : Statement String → Json
  | .useStrict => .obj [("kind", .str "UseStrictStat")]
  | .typeAlias name hasExport type =>
    .obj [("aliasedType", type.toJson), ("hasExport", .bool hasExport),
      ("kind", .str "TypeAliasDecl"), ("name", .str name)]

/-- The document of a program. -/
def Program.toJson (p : Program String) : Json :=
  .obj [("statements", .arr (p.statements.map Statement.toJson))]

end FlowDecl
