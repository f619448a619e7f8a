import FlowDecl.Proofs.Interchange.Reading
import FlowDecl.Proofs.Tree
import Mathlib.Data.List.Forall2

/-!
# The grammar of documents

`TypeDoc v t` says that the value `v` is a document of the type `t`, and there is
one such relation for each place: entity names, types, members, statements and
programs.  The relations name the tag of each kind and the keys that its node has,
and say nothing of the order in which anything is looked at.  Keys that are not
named may hold anything.

Loading a value succeeds exactly when the value is a document, and the tree it
builds is the one of the document.  One direction goes down the value, the other
follows the derivation.  Both carry the names along: a load enters the names of the
tree, in order.
-/

namespace FlowDecl

/-! ## Documents -/

/-- The value is a document of an entity name: a string, or an object of a parent and
a name. -/
inductive EntityNameDoc : Json → EntityName String → Prop where
  | identifier {name : String} : EntityNameDoc (.str name) (.identifier name)
  | qualified {v w : Json} {parent : EntityName String} {name : String} :
    v.field? "parent" = some w → EntityNameDoc w parent → v.HasString "name" name →
    EntityNameDoc v (.qualified parent name)

mutual

/-- The value is a document of a type. -/
inductive TypeDoc : Json → Ty String → Prop where
  | primitive {v : Json} {name : String} :
    v.HasKind "PrimitiveType" → v.HasString "name" name → TypeDoc v (.primitive name)
  | literal {v : Json} {text : String} :
    v.HasKind "LiteralType" → v.HasString "text" text → TypeDoc v (.literal text)
  | optional {v w : Json} {element : Ty String} :
    v.HasKind "OptionalType" → v.field? "elementType" = some w → TypeDoc w element →
    TypeDoc v (.optional element)
  | array {v w : Json} {element : Ty String} {isReadonly : Bool} :
    v.HasKind "ArrayType" → v.field? "elementType" = some w → TypeDoc w element →
    v.HasFlag "isReadonly" isReadonly → TypeDoc v (.array element isReadonly)
  | object {v : Json} {ds es : List Json} {mixins : List (Ty String)}
    {members : List (Member String)} :
    v.HasKind "ObjectType" → v.HasOptionalList "mixinTypes" ds → TypeDocs ds mixins →
    v.HasList "members" es → MemberDocs es members → TypeDoc v (.object mixins members)
  | decorated {v w : Json} {element : Ty String} :
    v.HasKind "DecoratedGenericType" → v.field? "elementType" = some w → TypeDoc w element →
    TypeDoc v (.decorated element)
  | union {v : Json} {ds : List Json} {elements : List (Ty String)} :
    v.HasKind "UnionType" → v.HasList "elementTypes" ds → TypeDocs ds elements →
    TypeDoc v (.union elements)
  | reference {v w : Json} {ds : List Json} {name : EntityName String}
    {arguments : List (Ty String)} :
    v.HasKind "TypeReference" → v.field? "name" = some w → EntityNameDoc w name →
    v.HasOptionalList "typeArguments" ds → TypeDocs ds arguments →
    TypeDoc v (.reference name arguments)
  | paren {v w : Json} {element : Ty String} :
    v.HasKind "ParenType" → v.field? "elementType" = some w → TypeDoc w element →
    TypeDoc v (.paren element)

/-- The values are documents of types, one each. -/
inductive TypeDocs : List Json → List (Ty String) → Prop where
  | nil : TypeDocs [] []
  | cons {v : Json} {vs : List Json} {t : Ty String} {ts : List (Ty String)} :
    TypeDoc v t → TypeDocs vs ts → TypeDocs (v :: vs) (t :: ts)

/-- The value is a document of a member. -/
inductive MemberDoc : Json → Member String → Prop where
  | prop {v w : Json} {name : String} {isOptional isReadonly : Bool} {type : Ty String} :
    v.HasKind "Prop" → v.HasString "name" name → v.field? "propType" = some w →
    TypeDoc w type → v.HasFlag "isOptional" isOptional → v.HasFlag "isReadonly" isReadonly →
    MemberDoc v (.prop name isOptional isReadonly type)
  | indexer {v w x : Json} {keyName : String} {keyType valueType : Ty String}
    {isReadonly : Bool} :
    v.HasKind "Indexer" → v.HasString "keyName" keyName → v.field? "keyType" = some w →
    TypeDoc w keyType → v.field? "valueType" = some x → TypeDoc x valueType →
    v.HasFlag "isReadonly" isReadonly →
    MemberDoc v (.indexer keyName keyType valueType isReadonly)

/-- The values are documents of members, one each. -/
inductive MemberDocs : List Json → List (Member String) → Prop where
  | nil : MemberDocs [] []
  | cons {v : Json} {vs : List Json} {m : Member String} {ms : List (Member String)} :
    MemberDoc v m → MemberDocs vs ms → MemberDocs (v :: vs) (m :: ms)

end

/-- The value is a document of a statement. -/
inductive StatementDoc : Json → Statement String → Prop where
  | useStrict {v : Json} : v.HasKind "UseStrictStat" → StatementDoc v .useStrict
  | typeAlias {v w : Json} {name : String} {hasExport : Bool} {type : Ty String} :
    v.HasKind "TypeAliasDecl" → v.HasString "name" name → v.field? "aliasedType" = some w →
    TypeDoc w type → v.HasFlag "hasExport" hasExport →
    StatementDoc v (.typeAlias name hasExport type)

/-- The value is a document of a program: a list of documents of statements, or an
object that has one. -/
inductive ProgramDoc : Json → Program String → Prop where
  | list {vs : List Json} {statements : List (Statement String)} :
    List.Forall₂ StatementDoc vs statements → ProgramDoc (.arr vs) ⟨statements⟩
  | object {v : Json} {vs : List Json} {statements : List (Statement String)} :
    v.HasList "statements" vs → List.Forall₂ StatementDoc vs statements →
    ProgramDoc v ⟨statements⟩

/-! ## Tags -/

/-- A tag names a kind of type exactly if it is the tag of the kind. -/
theorem TypeKind.ofTag?_eq_some_iff {tag : String} {kind : TypeKind} :
    ofTag? tag = some kind ↔ tag = kind.tag := by
  constructor
  · intro h
    have found := List.find?_some (p := fun k : TypeKind => k.tag == tag) h
    exact (beq_iff_eq.mp found).symm
  · rintro rfl
    exact ofTag?_tag kind

theorem MemberKind.ofTag?_eq_some_iff {tag : String} {kind : MemberKind} :
    ofTag? tag = some kind ↔ tag = kind.tag := by
  constructor
  · intro h
    have found := List.find?_some (p := fun k : MemberKind => k.tag == tag) h
    exact (beq_iff_eq.mp found).symm
  · rintro rfl
    exact ofTag?_tag kind

theorem StatementKind.ofTag?_eq_some_iff {tag : String} {kind : StatementKind} :
    ofTag? tag = some kind ↔ tag = kind.tag := by
  constructor
  · intro h
    have found := List.find?_some (p := fun k : StatementKind => k.tag == tag) h
    exact (beq_iff_eq.mp found).symm
  · rintro rfl
    exact ofTag?_tag kind

/-! ## What is read is a document -/

/-- An entity name that is read enters its segments. -/
theorem EntityNameDoc.of_yields (v : Json) {ns : List String} {n : EntityName String}
    (h : (readEntityName v).Yields ns n) : ns = n.names ∧ EntityNameDoc v n := by
  rw [readEntityName.eq_def] at h
  split at h
  next name =>
    obtain ⟨_, h₁, rfl⟩ := Reading.yields_enter_bind.mp h
    obtain ⟨rfl, rfl⟩ := Reading.yields_pure.mp h₁
    exact ⟨rfl, .identifier⟩
  next fields =>
    obtain ⟨w, hw, _, _, parent, hParent, h₁, rfl⟩ := yields_field_bind.mp h
    obtain ⟨name, hName, h₂⟩ := yields_string_bind.mp h₁
    obtain ⟨_, h₃, rfl⟩ := Reading.yields_enter_bind.mp h₂
    obtain ⟨rfl, rfl⟩ := Reading.yields_pure.mp h₃
    have smaller : sizeOf w < sizeOf (Json.obj fields) := Json.sizeOf_field? hw
    obtain ⟨rfl, doc⟩ := EntityNameDoc.of_yields w hParent
    exact ⟨rfl, .qualified hw doc hName⟩
  next => exact (Reading.not_yields_fail h).elim
termination_by sizeOf v

mutual

/-- A type that is read enters its names. -/
theorem TypeDoc.of_yields (v : Json) {ns : List String} {t : Ty String}
    (h : (readType v).Yields ns t) : ns = t.names ∧ TypeDoc v t := by
  rw [readType] at h
  obtain ⟨kind, ⟨tag, hKind, hTag⟩, h₁⟩ := yields_kind_bind.mp h
  cases TypeKind.ofTag?_eq_some_iff.mp hTag
  cases kind with
  | primitive =>
    obtain ⟨name, hName, h₂⟩ := yields_string_bind.mp h₁
    obtain ⟨_, h₃, rfl⟩ := Reading.yields_enter_bind.mp h₂
    obtain ⟨rfl, rfl⟩ := Reading.yields_pure.mp h₃
    exact ⟨rfl, .primitive hKind hName⟩
  | literal =>
    obtain ⟨text, hText, h₂⟩ := yields_string_bind.mp h₁
    obtain ⟨rfl, rfl⟩ := Reading.yields_pure.mp h₂
    exact ⟨rfl, .literal hKind hText⟩
  | optional =>
    obtain ⟨w, hw, _, _, element, hElement, h₂, rfl⟩ := yields_field_bind.mp h₁
    obtain ⟨rfl, rfl⟩ := Reading.yields_pure.mp h₂
    obtain ⟨rfl, doc⟩ := TypeDoc.of_yields w hElement
    exact ⟨List.append_nil _, .optional hKind hw doc⟩
  | array =>
    obtain ⟨w, hw, _, _, element, hElement, h₂, rfl⟩ := yields_field_bind.mp h₁
    obtain ⟨isReadonly, hFlag, h₃⟩ := yields_flag_bind.mp h₂
    obtain ⟨rfl, rfl⟩ := Reading.yields_pure.mp h₃
    obtain ⟨rfl, doc⟩ := TypeDoc.of_yields w hElement
    exact ⟨List.append_nil _, .array hKind hw doc hFlag⟩
  | object =>
    obtain ⟨ds, hds, _, _, mixins, hMixins, h₂, rfl⟩ := yields_optionalList_bind.mp h₁
    obtain ⟨es, hes, _, _, members, hMembers, h₃, rfl⟩ := yields_list_bind.mp h₂
    obtain ⟨rfl, rfl⟩ := Reading.yields_pure.mp h₃
    obtain ⟨rfl, mixinDocs⟩ := TypeDocs.of_yields ds hMixins
    obtain ⟨rfl, memberDocs⟩ := MemberDocs.of_yields es hMembers
    exact ⟨by rw [List.append_nil]; rfl, .object hKind hds mixinDocs hes memberDocs⟩
  | decorated =>
    obtain ⟨w, hw, _, _, element, hElement, h₂, rfl⟩ := yields_field_bind.mp h₁
    obtain ⟨rfl, rfl⟩ := Reading.yields_pure.mp h₂
    obtain ⟨rfl, doc⟩ := TypeDoc.of_yields w hElement
    exact ⟨List.append_nil _, .decorated hKind hw doc⟩
  | union =>
    obtain ⟨ds, hds, _, _, elements, hElements, h₂, rfl⟩ := yields_list_bind.mp h₁
    obtain ⟨rfl, rfl⟩ := Reading.yields_pure.mp h₂
    obtain ⟨rfl, docs⟩ := TypeDocs.of_yields ds hElements
    exact ⟨List.append_nil _, .union hKind hds docs⟩
  | reference =>
    obtain ⟨w, hw, _, _, name, hName, h₂, rfl⟩ := yields_field_bind.mp h₁
    obtain ⟨ds, hds, _, _, arguments, hArguments, h₃, rfl⟩ := yields_optionalList_bind.mp h₂
    obtain ⟨rfl, rfl⟩ := Reading.yields_pure.mp h₃
    obtain ⟨rfl, nameDoc⟩ := EntityNameDoc.of_yields w hName
    obtain ⟨rfl, docs⟩ := TypeDocs.of_yields ds hArguments
    exact ⟨by rw [List.append_nil]; rfl, .reference hKind hw nameDoc hds docs⟩
  | paren =>
    obtain ⟨w, hw, _, _, element, hElement, h₂, rfl⟩ := yields_field_bind.mp h₁
    obtain ⟨rfl, rfl⟩ := Reading.yields_pure.mp h₂
    obtain ⟨rfl, doc⟩ := TypeDoc.of_yields w hElement
    exact ⟨List.append_nil _, .paren hKind hw doc⟩
termination_by sizeOf v
decreasing_by
  all_goals first
    | exact Json.sizeOf_field? ‹_›
    | exact Json.HasList.sizeOf_lt ‹_›
    | exact Json.HasOptionalList.sizeOf_lt ‹_› ‹_›

theorem TypeDocs.of_yields (vs : List Json) {ns : List String} {ts : List (Ty String)}
    (h : (Reading.each readType vs).Yields ns ts) : ns = Ty.listNames ts ∧ TypeDocs vs ts := by
  match vs with
  | [] =>
    obtain ⟨rfl, rfl⟩ := Reading.yields_each_nil.mp h
    exact ⟨rfl, .nil⟩
  | v :: vs =>
    obtain ⟨_, _, t, ts, hFirst, hRest, rfl, rfl⟩ := Reading.yields_each_cons.mp h
    obtain ⟨rfl, doc⟩ := TypeDoc.of_yields v hFirst
    obtain ⟨rfl, docs⟩ := TypeDocs.of_yields vs hRest
    exact ⟨rfl, .cons doc docs⟩
termination_by sizeOf vs

/-- A member that is read is described by its document. -/
theorem MemberDoc.of_yields (v : Json) {ns : List String} {m : Member String}
    (h : (readMember v).Yields ns m) : ns = m.names ∧ MemberDoc v m := by
  rw [readMember] at h
  obtain ⟨kind, ⟨tag, hKind, hTag⟩, h₁⟩ := yields_kind_bind.mp h
  cases MemberKind.ofTag?_eq_some_iff.mp hTag
  cases kind with
  | prop =>
    obtain ⟨w, hw, _, _, type, hType, h₂, rfl⟩ := yields_field_bind.mp h₁
    obtain ⟨name, hName, h₃⟩ := yields_string_bind.mp h₂
    obtain ⟨isOptional, hOptional, h₄⟩ := yields_flag_bind.mp h₃
    obtain ⟨isReadonly, hReadonly, h₅⟩ := yields_flag_bind.mp h₄
    obtain ⟨_, h₆, rfl⟩ := Reading.yields_enter_bind.mp h₅
    obtain ⟨rfl, rfl⟩ := Reading.yields_pure.mp h₆
    obtain ⟨rfl, doc⟩ := TypeDoc.of_yields w hType
    exact ⟨rfl, .prop hKind hName hw doc hOptional hReadonly⟩
  | indexer =>
    obtain ⟨w, hw, _, _, keyType, hKeyType, h₂, rfl⟩ := yields_field_bind.mp h₁
    obtain ⟨x, hx, _, _, valueType, hValueType, h₃, rfl⟩ := yields_field_bind.mp h₂
    obtain ⟨keyName, hName, h₄⟩ := yields_string_bind.mp h₃
    obtain ⟨isReadonly, hReadonly, h₅⟩ := yields_flag_bind.mp h₄
    obtain ⟨_, h₆, rfl⟩ := Reading.yields_enter_bind.mp h₅
    obtain ⟨rfl, rfl⟩ := Reading.yields_pure.mp h₆
    obtain ⟨rfl, keyDoc⟩ := TypeDoc.of_yields w hKeyType
    obtain ⟨rfl, valueDoc⟩ := TypeDoc.of_yields x hValueType
    exact ⟨rfl, .indexer hKind hName hw keyDoc hx valueDoc hReadonly⟩
termination_by sizeOf v
decreasing_by all_goals exact Json.sizeOf_field? ‹_›

theorem MemberDocs.of_yields (vs : List Json) {ns : List String} {ms : List (Member String)}
    (h : (Reading.each readMember vs).Yields ns ms) :
    ns = Member.listNames ms ∧ MemberDocs vs ms := by
  match vs with
  | [] =>
    obtain ⟨rfl, rfl⟩ := Reading.yields_each_nil.mp h
    exact ⟨rfl, .nil⟩
  | v :: vs =>
    obtain ⟨_, _, m, ms, hFirst, hRest, rfl, rfl⟩ := Reading.yields_each_cons.mp h
    obtain ⟨rfl, doc⟩ := MemberDoc.of_yields v hFirst
    obtain ⟨rfl, docs⟩ := MemberDocs.of_yields vs hRest
    exact ⟨rfl, .cons doc docs⟩
termination_by sizeOf vs

end

/-! ## A document is read -/

theorem EntityNameDoc.yields {v : Json} {n : EntityName String} (doc : EntityNameDoc v n) :
    (readEntityName v).Yields n.names n := by
  induction doc with
  | identifier =>
    rw [readEntityName]
    exact Reading.yields_enter_bind.mpr ⟨_, Reading.yields_pure.mpr ⟨rfl, rfl⟩, rfl⟩
  | @qualified v w parent name hw _ hName ih =>
    cases v with
    | obj fields =>
      rw [readEntityName]
      refine yields_field_bind.mpr ⟨w, hw, _, _, _, ih, ?_, rfl⟩
      refine yields_string_bind.mpr ⟨name, hName, ?_⟩
      exact Reading.yields_enter_bind.mpr ⟨_, Reading.yields_pure.mpr ⟨rfl, rfl⟩, rfl⟩
    | _ => cases hw

mutual

/-- A type that is described is read, with its names. -/
theorem TypeDoc.yields : ∀ {v : Json} {t : Ty String}, TypeDoc v t →
    (readType v).Yields t.names t
  | _, _, .primitive hKind hName => by
    rw [readType]
    refine yields_kind_bind.mpr ⟨.primitive, ⟨_, hKind, rfl⟩, ?_⟩
    exact yields_string_bind.mpr ⟨_, hName, Reading.yields_enter_bind.mpr
      ⟨_, Reading.yields_pure.mpr ⟨rfl, rfl⟩, rfl⟩⟩
  | _, _, .literal hKind hText => by
    rw [readType]
    refine yields_kind_bind.mpr ⟨.literal, ⟨_, hKind, rfl⟩, ?_⟩
    exact yields_string_bind.mpr ⟨_, hText, Reading.yields_pure.mpr ⟨rfl, rfl⟩⟩
  | _, _, .optional hKind hw doc => by
    rw [readType]
    refine yields_kind_bind.mpr ⟨.optional, ⟨_, hKind, rfl⟩, ?_⟩
    exact yields_field_bind.mpr ⟨_, hw, _, _, _, doc.yields,
      Reading.yields_pure.mpr ⟨rfl, rfl⟩, (List.append_nil _).symm⟩
  | _, _, .array hKind hw doc hFlag => by
    rw [readType]
    refine yields_kind_bind.mpr ⟨.array, ⟨_, hKind, rfl⟩, ?_⟩
    exact yields_field_bind.mpr ⟨_, hw, _, _, _, doc.yields,
      yields_flag_bind.mpr ⟨_, hFlag, Reading.yields_pure.mpr ⟨rfl, rfl⟩⟩,
      (List.append_nil _).symm⟩
  | _, _, .object hKind hds mixinDocs hes memberDocs => by
    rw [readType]
    refine yields_kind_bind.mpr ⟨.object, ⟨_, hKind, rfl⟩, ?_⟩
    refine yields_optionalList_bind.mpr ⟨_, hds, _, _, _, mixinDocs.yields, ?_, rfl⟩
    exact yields_list_bind.mpr ⟨_, hes, _, _, _, memberDocs.yields,
      Reading.yields_pure.mpr ⟨rfl, rfl⟩, (List.append_nil _).symm⟩
  | _, _, .decorated hKind hw doc => by
    rw [readType]
    refine yields_kind_bind.mpr ⟨.decorated, ⟨_, hKind, rfl⟩, ?_⟩
    exact yields_field_bind.mpr ⟨_, hw, _, _, _, doc.yields,
      Reading.yields_pure.mpr ⟨rfl, rfl⟩, (List.append_nil _).symm⟩
  | _, _, .union hKind hds docs => by
    rw [readType]
    refine yields_kind_bind.mpr ⟨.union, ⟨_, hKind, rfl⟩, ?_⟩
    exact yields_list_bind.mpr ⟨_, hds, _, _, _, docs.yields,
      Reading.yields_pure.mpr ⟨rfl, rfl⟩, (List.append_nil _).symm⟩
  | _, _, .reference hKind hw nameDoc hds docs => by
    rw [readType]
    refine yields_kind_bind.mpr ⟨.reference, ⟨_, hKind, rfl⟩, ?_⟩
    refine yields_field_bind.mpr ⟨_, hw, _, _, _, nameDoc.yields, ?_, rfl⟩
    exact yields_optionalList_bind.mpr ⟨_, hds, _, _, _, docs.yields,
      Reading.yields_pure.mpr ⟨rfl, rfl⟩, (List.append_nil _).symm⟩
  | _, _, .paren hKind hw doc => by
    rw [readType]
    refine yields_kind_bind.mpr ⟨.paren, ⟨_, hKind, rfl⟩, ?_⟩
    exact yields_field_bind.mpr ⟨_, hw, _, _, _, doc.yields,
      Reading.yields_pure.mpr ⟨rfl, rfl⟩, (List.append_nil _).symm⟩

theorem TypeDocs.yields : ∀ {vs : List Json} {ts : List (Ty String)}, TypeDocs vs ts →
    (Reading.each readType vs).Yields (Ty.listNames ts) ts
  | _, _, .nil => Reading.yields_each_nil.mpr ⟨rfl, rfl⟩
  | _, _, .cons doc docs =>
    Reading.yields_each_cons.mpr ⟨_, _, _, _, doc.yields, docs.yields, rfl, rfl⟩

theorem MemberDoc.yields : ∀ {v : Json} {m : Member String}, MemberDoc v m →
    (readMember v).Yields m.names m
  | _, _, .prop hKind hName hw doc hOptional hReadonly => by
    rw [readMember]
    refine yields_kind_bind.mpr ⟨.prop, ⟨_, hKind, rfl⟩, ?_⟩
    refine yields_field_bind.mpr ⟨_, hw, _, _, _, doc.yields, ?_, rfl⟩
    refine yields_string_bind.mpr ⟨_, hName, yields_flag_bind.mpr ⟨_, hOptional, ?_⟩⟩
    exact yields_flag_bind.mpr ⟨_, hReadonly, Reading.yields_enter_bind.mpr
      ⟨_, Reading.yields_pure.mpr ⟨rfl, rfl⟩, rfl⟩⟩
  | _, _, .indexer hKind hName hw keyDoc hx valueDoc hReadonly => by
    rw [readMember]
    refine yields_kind_bind.mpr ⟨.indexer, ⟨_, hKind, rfl⟩, ?_⟩
    refine yields_field_bind.mpr ⟨_, hw, _, _, _, keyDoc.yields, ?_, rfl⟩
    refine yields_field_bind.mpr ⟨_, hx, _, _, _, valueDoc.yields, ?_, rfl⟩
    refine yields_string_bind.mpr ⟨_, hName, yields_flag_bind.mpr ⟨_, hReadonly, ?_⟩⟩
    exact Reading.yields_enter_bind.mpr ⟨_, Reading.yields_pure.mpr ⟨rfl, rfl⟩, rfl⟩

theorem MemberDocs.yields : ∀ {vs : List Json} {ms : List (Member String)}, MemberDocs vs ms →
    (Reading.each readMember vs).Yields (Member.listNames ms) ms
  | _, _, .nil => Reading.yields_each_nil.mpr ⟨rfl, rfl⟩
  | _, _, .cons doc docs =>
    Reading.yields_each_cons.mpr ⟨_, _, _, _, doc.yields, docs.yields, rfl, rfl⟩

end

/-! ## What is read, at every place -/

/-- An entity name is read exactly from its documents, and its names are entered. -/
theorem readEntityName_yields_iff {v : Json} {ns : List String} {n : EntityName String} :
    (readEntityName v).Yields ns n ↔ ns = n.names ∧ EntityNameDoc v n := by
  constructor
  · exact EntityNameDoc.of_yields v
  · rintro ⟨rfl, doc⟩
    exact doc.yields

/-- A type is read exactly from its documents, and its names are entered. -/
theorem readType_yields_iff {v : Json} {ns : List String} {t : Ty String} :
    (readType v).Yields ns t ↔ ns = t.names ∧ TypeDoc v t := by
  constructor
  · exact TypeDoc.of_yields v
  · rintro ⟨rfl, doc⟩
    exact doc.yields

/-- A member is read exactly from its documents, and its names are entered. -/
theorem readMember_yields_iff {v : Json} {ns : List String} {m : Member String} :
    (readMember v).Yields ns m ↔ ns = m.names ∧ MemberDoc v m := by
  constructor
  · exact MemberDoc.of_yields v
  · rintro ⟨rfl, doc⟩
    exact doc.yields

/-- A statement is read exactly from its documents, and its names are entered. -/
theorem readStatement_yields_iff {v : Json} {ns : List String} {s : Statement String} :
    (readStatement v).Yields ns s ↔ ns = s.names ∧ StatementDoc v s := by
  rw [readStatement]
  constructor
  · intro h
    obtain ⟨kind, ⟨tag, hKind, hTag⟩, h₁⟩ := yields_kind_bind.mp h
    cases StatementKind.ofTag?_eq_some_iff.mp hTag
    cases kind with
    | useStrict =>
      obtain ⟨rfl, rfl⟩ := Reading.yields_pure.mp h₁
      exact ⟨rfl, .useStrict hKind⟩
    | typeAlias =>
      obtain ⟨w, hw, _, _, type, hType, h₂, rfl⟩ := yields_field_bind.mp h₁
      obtain ⟨name, hName, h₃⟩ := yields_string_bind.mp h₂
      obtain ⟨hasExport, hFlag, h₄⟩ := yields_flag_bind.mp h₃
      obtain ⟨_, h₅, rfl⟩ := Reading.yields_enter_bind.mp h₄
      obtain ⟨rfl, rfl⟩ := Reading.yields_pure.mp h₅
      obtain ⟨rfl, doc⟩ := TypeDoc.of_yields w hType
      exact ⟨rfl, .typeAlias hKind hName hw doc hFlag⟩
  · rintro ⟨rfl, doc⟩
    cases doc with
    | useStrict hKind =>
      exact yields_kind_bind.mpr ⟨.useStrict, ⟨_, hKind, rfl⟩,
        Reading.yields_pure.mpr ⟨rfl, rfl⟩⟩
    | typeAlias hKind hName hw doc hFlag =>
      refine yields_kind_bind.mpr ⟨.typeAlias, ⟨_, hKind, rfl⟩, ?_⟩
      refine yields_field_bind.mpr ⟨_, hw, _, _, _, doc.yields, ?_, rfl⟩
      refine yields_string_bind.mpr ⟨_, hName, yields_flag_bind.mpr ⟨_, hFlag, ?_⟩⟩
      exact Reading.yields_enter_bind.mpr ⟨_, Reading.yields_pure.mpr ⟨rfl, rfl⟩, rfl⟩

/-- Statements are read exactly if each of them is described. -/
theorem readStatements_yields_iff {vs : List Json} :
    ∀ {ns : List String} {ss : List (Statement String)},
      (Reading.each readStatement vs).Yields ns ss ↔
        ns = ss.flatMap Statement.names ∧ List.Forall₂ StatementDoc vs ss := by
  induction vs with
  | nil =>
    intro ns ss
    rw [Reading.yields_each_nil]
    constructor
    · rintro ⟨rfl, rfl⟩
      exact ⟨rfl, .nil⟩
    · rintro ⟨rfl, docs⟩
      cases docs
      exact ⟨rfl, rfl⟩
  | cons v vs ih =>
    intro ns ss
    rw [Reading.yields_each_cons]
    constructor
    · rintro ⟨_, _, s, ss, hFirst, hRest, rfl, rfl⟩
      obtain ⟨rfl, doc⟩ := readStatement_yields_iff.mp hFirst
      obtain ⟨rfl, docs⟩ := ih.mp hRest
      exact ⟨rfl, .cons doc docs⟩
    · rintro ⟨rfl, docs⟩
      cases docs with
      | cons doc docs =>
        exact ⟨_, _, _, _, readStatement_yields_iff.mpr ⟨rfl, doc⟩, ih.mpr ⟨rfl, docs⟩, rfl, rfl⟩

/-- The list of statements of a value, as a list or as the field of an object. -/
theorem readStatements_eq_ok_iff {v : Json} {vs : List Json} :
    readStatements v = .ok vs ↔ v = .arr vs ∨ v.HasList "statements" vs := by
  unfold readStatements Json.HasList
  cases v with
  | arr items => simp [Json.field?]
  | obj fields =>
    simp only [Json.field?, reduceCtorEq, false_or]
    split
    next items found =>
      rw [found, Except.ok.injEq, Option.some.injEq, Json.arr.injEq]
    next other notList found =>
      rw [found, Option.some.injEq]
      constructor
      · intro h
        cases h
      · intro h
        exact absurd h (notList vs)
    next absent => simp [absent]
  | _ => simp [Json.field?]

/-- A program is read exactly from its documents, and its names are entered. -/
theorem readProgram_yields_iff {v : Json} {ns : List String} {p : Program String} :
    (readProgram v).Yields ns p ↔ ns = p.names ∧ ProgramDoc v p := by
  have silent : ∀ names vs, (Reading.ofExcept (readStatements v)).Yields names vs ↔
      names = [] ∧ (v = .arr vs ∨ v.HasList "statements" vs) := by
    intro names vs
    rw [← readStatements_eq_ok_iff]
    exact and_congr_left' eq_comm
  rw [readProgram, Reading.yields_bind_silent silent]
  constructor
  · rintro ⟨vs, isList, h₁⟩
    obtain ⟨_, _, statements, hEach, h₂, rfl⟩ := Reading.yields_bind.mp h₁
    obtain ⟨rfl, rfl⟩ := Reading.yields_pure.mp h₂
    obtain ⟨rfl, docs⟩ := readStatements_yields_iff.mp hEach
    refine ⟨List.append_nil _, ?_⟩
    rcases isList with rfl | hList
    · exact .list docs
    · exact .object hList docs
  · rintro ⟨rfl, doc⟩
    cases doc with
    | list docs =>
      exact ⟨_, .inl rfl, Reading.yields_bind.mpr ⟨_, _, _,
        readStatements_yields_iff.mpr ⟨rfl, docs⟩, Reading.yields_pure.mpr ⟨rfl, rfl⟩,
        (List.append_nil _).symm⟩⟩
    | object hList docs =>
      exact ⟨_, .inr hList, Reading.yields_bind.mpr ⟨_, _, _,
        readStatements_yields_iff.mpr ⟨rfl, docs⟩, Reading.yields_pure.mpr ⟨rfl, rfl⟩,
        (List.append_nil _).symm⟩⟩

/-! ## Loading -/

section Loading

variable {τ : Type → Type} [Functor τ]

/-- A load succeeds, and its tree is the given one once the handles are resolved in the
table that the load leaves behind. -/
def Loads (read : Json → Reading (τ String)) (table : NameTable) (v : Json) (t : τ String) :
    Prop :=
  ∃ table' loaded, (read v).load table = (table', .ok loaded) ∧ table'.resolve <$> loaded = t

/-- A load gives the tree that was read, once the handles are resolved in the table that the
load leaves behind.  The names of the tree are among the names entered, so its handles
resolve. -/
theorem load_resolved {read : Json → Reading (τ String)} {namesOf : τ String → List String}
    (enters : ∀ v ns t, (read v).Yields ns t → ns = namesOf t)
    (restore : ∀ (f : String → Handle) (g : Handle → String) (t : τ String),
      (∀ name ∈ namesOf t, g (f name) = name) → g <$> f <$> t = t)
    (table : NameTable) (v : Json) :
    ((read v).load table).2.map (fun t => ((read v).load table).1.resolve <$> t) =
      (read v).outcome := by
  cases hOutcome : (read v).outcome with
  | error e =>
    rw [Reading.load, hOutcome]
    rfl
  | ok t =>
    have entered : (read v).names = namesOf t := enters v _ t ⟨rfl, hOutcome⟩
    have resolved : (table.insertAll (read v).names).resolve <$>
        (table.insertAll (read v).names).handle <$> t = t := by
      refine restore _ _ t fun name member => ?_
      exact NameTable.resolve_handle (NameTable.mem_insertAll.mpr (.inr (entered ▸ member)))
    rw [Reading.load, hOutcome]
    exact congrArg Except.ok resolved

/-- A load succeeds with the tree of the document. -/
theorem loads_iff_doc {read : Json → Reading (τ String)} {namesOf : τ String → List String}
    {Doc : Json → τ String → Prop}
    (reads : ∀ v ns t, (read v).Yields ns t ↔ ns = namesOf t ∧ Doc v t)
    (restore : ∀ (f : String → Handle) (g : Handle → String) (t : τ String),
      (∀ name ∈ namesOf t, g (f name) = name) → g <$> f <$> t = t)
    {table : NameTable} {v : Json} {t : τ String} :
    Loads read table v t ↔ Doc v t := by
  have resolved := load_resolved (fun v ns t yields => ((reads v ns t).mp yields).1) restore table v
  constructor
  · rintro ⟨table', loaded, hLoad, rfl⟩
    rw [hLoad] at resolved
    exact ((reads v _ _).mp ⟨rfl, resolved.symm⟩).2
  · intro doc
    have yields := (reads v _ t).mpr ⟨rfl, doc⟩
    rw [yields.2, yields.eq] at resolved
    exact ⟨_, _, by rw [yields.eq]; rfl, Except.ok.inj resolved⟩

end Loading

/-- Loading accepts exactly the documents, at every place, and the tree it builds is the
tree of the document. -/
theorem load_iff_document (table : NameTable) (v : Json) :
    (∀ n, Loads readEntityName table v n ↔ EntityNameDoc v n) ∧
      (∀ t, Loads readType table v t ↔ TypeDoc v t) ∧
      (∀ m, Loads readMember table v m ↔ MemberDoc v m) ∧
      (∀ s, Loads readStatement table v s ↔ StatementDoc v s) ∧
      (∀ p, Loads readProgram table v p ↔ ProgramDoc v p) := by
  refine ⟨fun n => ?_, fun t => ?_, fun m => ?_, fun s => ?_, fun p => ?_⟩
  · exact loads_iff_doc (fun _ _ _ => readEntityName_yields_iff)
      fun f g n => EntityName.map_map_eq_self
  · exact loads_iff_doc (fun _ _ _ => readType_yields_iff)
      fun f g t => Ty.map_map_eq_self
  · exact loads_iff_doc (fun _ _ _ => readMember_yields_iff)
      fun f g m => Member.map_map_eq_self
  · exact loads_iff_doc (fun _ _ _ => readStatement_yields_iff)
      fun f g s => Statement.map_map_eq_self
  · exact loads_iff_doc (fun _ _ _ => readProgram_yields_iff)
      fun f g p => Program.map_map_eq_self

end FlowDecl
