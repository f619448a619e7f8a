import FlowDecl.Names.Registry
import FlowDecl.Tree

/-!
# Names and nodes of trees

Changing the names of a tree keeps its shape, and the nodes of a tree are those of its parts.
-/

namespace FlowDecl

/-! ## Names of trees

The names of a tree, in the order in which a document enters them: the names of
the parts of a node come before the name of the node itself.  The text of a
literal type is not among them.

The words of a tree are all the texts that it carries, its names and the texts of its
literal types.  Everything else that is printed of it is fixed by its shape.

A tree that is moved to handles and back is the tree it was, if the way back undoes
the way there on its names (`Ty.map_map_eq_self`).  A table undoes its own handles on the
names it holds.
-/

/-! ### The names -/

/-- The segments of an entity name. -/
def EntityName.names {ν : Type} : EntityName ν → List ν
  | .identifier name => [name]
  | .qualified parent name => parent.names ++ [name]

mutual

/-- The names of a type. -/
def Ty.names {ν : Type} : Ty ν → List ν
  | .primitive name => [name]
  | .literal _ => []
  | .optional element => element.names
  | .array element _ => element.names
  | .object mixins members => Ty.listNames mixins ++ Member.listNames members
  | .decorated element => element.names
  | .union elements => Ty.listNames elements
  | .reference name arguments => name.names ++ Ty.listNames arguments
  | .paren element => element.names

/-- The names of types. -/
def Ty.listNames {ν : Type} : List (Ty ν) → List ν
  | [] => []
  | t :: ts => t.names ++ Ty.listNames ts

/-- The names of a member. -/
def Member.names {ν : Type} : Member ν → List ν
  | .prop name _ _ type => type.names ++ [name]
  | .indexer keyName keyType valueType _ => keyType.names ++ (valueType.names ++ [keyName])

/-- The names of members. -/
def Member.listNames {ν : Type} : List (Member ν) → List ν
  | [] => []
  | m :: ms => m.names ++ Member.listNames ms

end

/-- The names of a statement. -/
def Statement.names {ν : Type} : Statement ν → List ν
  | .useStrict => []
  | .typeAlias name _ type => type.names ++ [name]

/-- The names of a program. -/
def Program.names {ν : Type} (p : Program ν) : List ν := p.statements.flatMap Statement.names

/-! ### The words -/

mutual

/-- The words of a type. -/
def Ty.words : Ty String → List String
  | .primitive name => [name]
  | .literal text => [text]
  | .optional element => element.words
  | .array element _ => element.words
  | .object mixins members => Ty.listWords mixins ++ Member.listWords members
  | .decorated element => element.words
  | .union elements => Ty.listWords elements
  | .reference name arguments => name.names ++ Ty.listWords arguments
  | .paren element => element.words

/-- The words of types. -/
def Ty.listWords : List (Ty String) → List String
  | [] => []
  | t :: ts => t.words ++ Ty.listWords ts

/-- The words of a member. -/
def Member.words : Member String → List String
  | .prop name _ _ type => name :: type.words
  | .indexer keyName keyType valueType _ => keyName :: (keyType.words ++ valueType.words)

/-- The words of members. -/
def Member.listWords : List (Member String) → List String
  | [] => []
  | m :: ms => m.words ++ Member.listWords ms

end

/-- The words of a statement. -/
def Statement.words : Statement String → List String
  | .useStrict => []
  | .typeAlias name _ type => name :: type.words

/-- The words of a program. -/
def Program.words (p : Program String) : List String := p.statements.flatMap Statement.words

/-! ### There and back -/

section RoundTrip

variable {ν μ : Type} {f : ν → μ} {g : μ → ν}

/-- An entity name that is moved there and back is as it was. -/
theorem EntityName.map_map_eq_self : ∀ {n : EntityName ν}, (∀ x ∈ n.names, g (f x) = x) →
    (n.map f).map g = n
  | .identifier name, h => by rw [map, map, h name (List.mem_singleton.mpr rfl)]
  | .qualified parent name, h => by
    have hParent := parent.map_map_eq_self fun x hx => h x (List.mem_append_left _ hx)
    rw [map, map, hParent, h name (List.mem_append_right _ (List.mem_singleton.mpr rfl))]

mutual

/-- A type is the same again if its names are changed and changed back. -/
theorem Ty.map_map_eq_self : ∀ {t : Ty ν}, (∀ x ∈ t.names, g (f x) = x) → (t.map f).map g = t
  | .primitive name, h => by rw [Ty.map, Ty.map, h name (List.mem_singleton.mpr rfl)]
  | .literal text, _ => rfl
  | .optional element, h => by
    have hElement : (element.map f).map g = element := Ty.map_map_eq_self h
    rw [Ty.map, Ty.map, hElement]
  | .array element isReadonly, h => by
    have hElement : (element.map f).map g = element := Ty.map_map_eq_self h
    rw [Ty.map, Ty.map, hElement]
  | .object mixins members, h => by
    rw [Ty.map, Ty.map, Ty.mapList_mapList_eq_self fun x hx => h x (List.mem_append_left _ hx),
      Member.mapList_mapList_eq_self fun x hx => h x (List.mem_append_right _ hx)]
  | .decorated element, h => by
    have hElement : (element.map f).map g = element := Ty.map_map_eq_self h
    rw [Ty.map, Ty.map, hElement]
  | .union elements, h => by rw [Ty.map, Ty.map, Ty.mapList_mapList_eq_self h]
  | .reference name arguments, h => by
    rw [Ty.map, Ty.map, EntityName.map_map_eq_self fun x hx => h x (List.mem_append_left _ hx),
      Ty.mapList_mapList_eq_self fun x hx => h x (List.mem_append_right _ hx)]
  | .paren element, h => by
    have hElement : (element.map f).map g = element := Ty.map_map_eq_self h
    rw [Ty.map, Ty.map, hElement]

theorem Ty.mapList_mapList_eq_self : ∀ {ts : List (Ty ν)}, (∀ x ∈ Ty.listNames ts, g (f x) = x) →
    Ty.mapList g (Ty.mapList f ts) = ts
  | [], _ => rfl
  | t :: ts, h => by
    rw [Ty.mapList, Ty.mapList, Ty.map_map_eq_self fun x hx => h x (List.mem_append_left _ hx),
      Ty.mapList_mapList_eq_self fun x hx => h x (List.mem_append_right _ hx)]

theorem Member.map_map_eq_self : ∀ {m : Member ν}, (∀ x ∈ m.names, g (f x) = x) →
    (m.map f).map g = m
  | .prop name isOptional isReadonly type, h => by
    rw [Member.map, Member.map, Ty.map_map_eq_self fun x hx => h x (List.mem_append_left _ hx),
      h name (List.mem_append_right _ (List.mem_singleton.mpr rfl))]
  | .indexer keyName keyType valueType isReadonly, h => by
    rw [Member.map, Member.map, Ty.map_map_eq_self fun x hx => h x (List.mem_append_left _ hx),
      Ty.map_map_eq_self fun x hx => h x (List.mem_append_right _ (List.mem_append_left _ hx)),
      h keyName (List.mem_append_right _ (List.mem_append_right _ (List.mem_singleton.mpr rfl)))]

theorem Member.mapList_mapList_eq_self : ∀ {ms : List (Member ν)},
    (∀ x ∈ Member.listNames ms, g (f x) = x) → Member.mapList g (Member.mapList f ms) = ms
  | [], _ => rfl
  | m :: ms, h => by
    rw [Member.mapList, Member.mapList,
      Member.map_map_eq_self fun x hx => h x (List.mem_append_left _ hx),
      Member.mapList_mapList_eq_self fun x hx => h x (List.mem_append_right _ hx)]

end

/-- A statement that is moved there and back is as it was. -/
theorem Statement.map_map_eq_self {s : Statement ν} (h : ∀ x ∈ s.names, g (f x) = x) :
    (s.map f).map g = s := by
  cases s with
  | useStrict => rfl
  | typeAlias name hasExport type =>
    rw [map, map, Ty.map_map_eq_self fun x hx => h x (List.mem_append_left _ hx),
      h name (List.mem_append_right _ (List.mem_singleton.mpr rfl))]

/-- A program is the same again if its names are changed and changed back. -/
theorem Program.map_map_eq_self {p : Program ν} (h : ∀ x ∈ p.names, g (f x) = x) :
    (p.map f).map g = p := by
  obtain ⟨statements⟩ := p
  have each : ∀ s ∈ statements, (s.map f).map g = s := fun s hs =>
    Statement.map_map_eq_self fun x hx => h x (List.mem_flatMap.mpr ⟨s, hs, hx⟩)
  simp only [map, List.map_map, Program.mk.injEq]
  exact (List.map_congr_left each).trans (List.map_id _)

end RoundTrip

/-! ## Nodes of trees

The nodes of a tree are its types and the members of its object types, at every depth, each
one before the nodes inside it.  What a printed text has so and so many of is counted over
these nodes.
-/

/-- A node of a tree. -/
inductive Node (ν : Type) where
  /-- A type. -/
  | type (type : Ty ν)
  /-- A member of an object type. -/
  | member (member : Member ν)

mutual

/-- The nodes of a type, itself among them. -/
def Ty.nodes {ν : Type} : Ty ν → List (Node ν)
  | .primitive name => [.type (.primitive name)]
  | .literal text => [.type (.literal text)]
  | .optional element => .type (.optional element) :: element.nodes
  | .array element isReadonly => .type (.array element isReadonly) :: element.nodes
  | .object mixins members =>
    .type (.object mixins members) :: (Ty.listNodes mixins ++ Member.listNodes members)
  | .decorated element => .type (.decorated element) :: element.nodes
  | .union elements => .type (.union elements) :: Ty.listNodes elements
  | .reference name arguments => .type (.reference name arguments) :: Ty.listNodes arguments
  | .paren element => .type (.paren element) :: element.nodes

/-- The nodes of types. -/
def Ty.listNodes {ν : Type} : List (Ty ν) → List (Node ν)
  | [] => []
  | t :: ts => t.nodes ++ Ty.listNodes ts

/-- The nodes of a member, itself among them. -/
def Member.nodes {ν : Type} : Member ν → List (Node ν)
  | .prop name isOptional isReadonly type =>
    .member (.prop name isOptional isReadonly type) :: type.nodes
  | .indexer keyName keyType valueType isReadonly =>
    .member (.indexer keyName keyType valueType isReadonly) :: (keyType.nodes ++ valueType.nodes)

/-- The nodes of members. -/
def Member.listNodes {ν : Type} : List (Member ν) → List (Node ν)
  | [] => []
  | m :: ms => m.nodes ++ Member.listNodes ms

end

/-- The nodes of a statement. -/
def Statement.nodes {ν : Type} : Statement ν → List (Node ν)
  | .useStrict => []
  | .typeAlias _ _ type => type.nodes

/-- The nodes of a program. -/
def Program.nodes {ν : Type} (p : Program ν) : List (Node ν) :=
  p.statements.flatMap Statement.nodes

end FlowDecl
