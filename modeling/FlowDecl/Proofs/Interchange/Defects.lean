import FlowDecl.Proofs.Interchange.Grammar

/-!
# All defects of a document

Loading stops at the first defect.  The check of this module does not stop: it lists
every defect of a value, in the order in which a load looks at the fields, with the
defects of a part in the place of the field that holds it.  The order is written down
once, as a table of the fields of each kind.

A load succeeds if the list is empty, and otherwise it fails with the first defect of
the list.  A reading *finds* a list of defects in this sense, and a sequence of
readings finds one list after the other.
-/

namespace FlowDecl

/-! ## The fields of a kind -/

/-- The places of the parts of a node. -/
inductive Place where
  | node (category : Category)
  | entityName
deriving DecidableEq, Repr, Inhabited

/-- What a field has to hold. -/
inductive Need where
  /-- A string. -/
  | string
  /-- A flag, which may be absent or null. -/
  | flag
  /-- A part. -/
  | part (place : Place)
  /-- A list of parts. -/
  | parts (place : Place)
  /-- A list of parts, which may be absent. -/
  | optionalParts (place : Place)
deriving DecidableEq, Repr, Inhabited

/-- The fields of a kind, in the order in which they are looked at. -/
def NodeKind.fields : NodeKind → List (String × Need)
  | .type .primitive => [("name", .string)]
  | .type .literal => [("text", .string)]
  | .type .optional => [("elementType", .part (.node .type))]
  | .type .array => [("elementType", .part (.node .type)), ("isReadonly", .flag)]
  | .type .object =>
    [("mixinTypes", .optionalParts (.node .type)), ("members", .parts (.node .objectMember))]
  | .type .decorated => [("elementType", .part (.node .type))]
  | .type .union => [("elementTypes", .parts (.node .type))]
  | .type .reference =>
    [("name", .part .entityName), ("typeArguments", .optionalParts (.node .type))]
  | .type .paren => [("elementType", .part (.node .type))]
  | .member .prop =>
    [("propType", .part (.node .type)), ("name", .string), ("isOptional", .flag),
      ("isReadonly", .flag)]
  | .member .indexer =>
    [("keyType", .part (.node .type)), ("valueType", .part (.node .type)), ("keyName", .string),
      ("isReadonly", .flag)]
  | .statement .useStrict => []
  | .statement .typeAlias =>
    [("aliasedType", .part (.node .type)), ("name", .string), ("hasExport", .flag)]

/-! ## The lists of defects -/

/-- The defects of a value that has to be a list, given those of its items. -/
def listDefects {v : Json} (holder : Holder) (key : String)
    (check : Json.Part v → List LoadError) (child : Json.Part v) : List LoadError :=
  match child.items? with
  | some items => items.flatMap check
  | none => [.invalidField holder key .array]

/-- The defects of a field, given those of its parts. -/
def Need.defects (holder : Holder) (v : Json) (check : Place → Json.Part v → List LoadError)
    (key : String) : Need → List LoadError
  | .string =>
    match v.field? key with
    | some (.str _) => []
    | some _ => [.invalidField holder key .string]
    | none => [.missingField holder key]
  | .flag =>
    match v.field? key with
    | none => []
    | some .null => []
    | some (.bool _) => []
    | some _ => [.invalidField holder key .boolean]
  | .part place =>
    match v.child? key with
    | some child => check place child
    | none => [.missingField holder key]
  | .parts place =>
    match v.child? key with
    | some child => listDefects holder key (check place) child
    | none => [.missingField holder key]
  | .optionalParts place =>
    match v.child? key with
    | some child => listDefects holder key (check place) child
    | none => []

/-- The defects of a node of a category, given those of a node of a kind. -/
def kindDefects (category : Category) (v : Json) (check : NodeKind → List LoadError) :
    List LoadError :=
  match v.field? "kind" with
  | none => [.notANode category]
  | some (.str tag) =>
    match NodeKind.ofTag? category tag with
    | some kind => check kind
    | none => [.unrecognizedKind category tag]
  | some other => [.unrecognizedKind category other.compact]

/-- All defects of a value in a place, in order. -/
def Place.defects (place : Place) (v : Json) : List LoadError :=
  match place, v with
  | .node category, v =>
    kindDefects category v fun kind => kind.fields.flatMap fun field =>
      field.2.defects (.node kind) v (fun place child => Place.defects place child.val) field.1
  | .entityName, .str _ => []
  | .entityName, .obj fields =>
    [("parent", .part .entityName), ("name", .string)].flatMap fun field : String × Need =>
      field.2.defects .entityName (.obj fields)
        (fun place child => Place.defects place child.val) field.1
  | .entityName, _ => [.invalidField .entityName "name" .entityName]
termination_by sizeOf v
decreasing_by all_goals exact child.sizeOf_val

/-- All defects of a program, in order. -/
def programDefects : Json → List LoadError
  | .arr items => items.flatMap (Place.node .statement).defects
  | .obj fields =>
    match Json.lookup "statements" fields with
    | some (.arr items) => items.flatMap (Place.node .statement).defects
    | some _ => [.invalidField .program "statements" .array]
    | none => [.missingField .program "statements"]
  | _ => [.invalidField .program "statements" .array]

/-! ## Readings that find defects -/

namespace Reading

variable {α β : Type}

/-- The reading ends without a defect if the list is empty, and otherwise in the first
defect of the list. -/
def Finds (r : Reading α) : List LoadError → Prop
  | [] => ∃ a, r.outcome = .ok a
  | e :: _ => r.outcome = .error e

theorem finds_pure {a : α} : (pure a : Reading α).Finds [] := ⟨a, rfl⟩

/-- A reading that fails finds its failure first. -/
theorem finds_fail {e : LoadError} {rest : List LoadError} :
    (fail e : Reading α).Finds (e :: rest) := rfl

/-- A sequence of readings finds the list of the first and then that of the second. -/
theorem finds_bind {r : Reading α} {next : α → Reading β} {ds es : List LoadError}
    (first : r.Finds ds) (second : ∀ a, r.outcome = .ok a → (next a).Finds es) :
    (r >>= next).Finds (ds ++ es) := by
  change (andThen r next).Finds (ds ++ es)
  unfold andThen
  cases ds with
  | nil =>
    obtain ⟨a, hOk⟩ := first
    have rest := second a hOk
    rw [hOk, List.nil_append]
    cases es with
    | nil => exact rest
    | cons e es => exact rest
  | cons d ds =>
    have hError : r.outcome = .error d := first
    rw [hError]
    rfl

theorem finds_pure_bind {a : α} {next : α → Reading β} {es : List LoadError}
    (second : (next a).Finds es) : (pure a >>= next).Finds es := by
  have silent : (pure a : Reading α).Finds [] := finds_pure
  refine finds_bind silent ?_
  intro b hb
  cases hb
  exact second

theorem finds_enter_bind {name : String} {next : String → Reading β} {es : List LoadError}
    (second : (next name).Finds es) : (enter name >>= next).Finds es := by
  have silent : (enter name).Finds [] := ⟨name, rfl⟩
  refine finds_bind silent ?_
  intro a ha
  cases ha
  exact second

theorem finds_map {f : α → β} {r : Reading α} {ds : List LoadError} (h : r.Finds ds) :
    (f <$> r).Finds ds := by
  obtain ⟨names, outcome⟩ := r
  cases ds with
  | nil =>
    obtain ⟨a, rfl⟩ := h
    exact ⟨f a, rfl⟩
  | cons d ds =>
    cases (h : outcome = .error d)
    rfl

/-- Readings one after the other find their defects in this order. -/
theorem finds_each {read : α → Reading β} {check : α → List LoadError} {as : List α}
    (reads : ∀ a ∈ as, (read a).Finds (check a)) : (each read as).Finds (as.flatMap check) := by
  induction as with
  | nil => exact finds_pure
  | cons a rest ih =>
    rw [each, List.flatMap_cons]
    refine finds_bind (reads a List.mem_cons_self) fun b _ => finds_map ?_
    exact ih fun other member => reads other (List.mem_cons_of_mem a member)

end Reading

section Fields

variable {κ β γ : Type} {holder : Holder} {v : Json} {key : String}
  {check : Place → Json.Part v → List LoadError} {es : List LoadError}

theorem finds_string :
    (readString holder v key).Finds (Need.string.defects holder v check key) := by
  rw [readString, Need.defects]
  cases v.field? key with
  | none => exact Reading.finds_fail
  | some w =>
    cases w with
    | str s => exact Reading.finds_pure
    | _ => exact Reading.finds_fail

theorem finds_flag : (readFlag holder v key).Finds (Need.flag.defects holder v check key) := by
  rw [readFlag, Need.defects]
  cases v.field? key with
  | none => exact Reading.finds_pure
  | some w =>
    cases w with
    | null => exact Reading.finds_pure
    | bool b => exact Reading.finds_pure
    | _ => exact Reading.finds_fail

theorem finds_string_bind {next : String → Reading γ} (rest : ∀ s, (next s).Finds es) :
    (readString holder v key >>= next).Finds (Need.string.defects holder v check key ++ es) :=
  Reading.finds_bind finds_string fun s _ => rest s

theorem finds_flag_bind {next : Bool → Reading γ} (rest : ∀ b, (next b).Finds es) :
    (readFlag holder v key >>= next).Finds (Need.flag.defects holder v check key ++ es) :=
  Reading.finds_bind finds_flag fun b _ => rest b

/-- A field whose value is read in its turn. -/
theorem finds_field_bind {read : Json → Reading β} {next : β → Reading γ} {place : Place}
    (reads : ∀ child : Json.Part v, (read child.val).Finds (check place child))
    (rest : ∀ b, (next b).Finds es) :
    (readField holder v key >>= fun child => read child.val >>= next).Finds
      ((Need.part place).defects holder v check key ++ es) := by
  rw [readField, Need.defects]
  cases v.child? key with
  | none => exact Reading.finds_fail
  | some child =>
    refine Reading.finds_pure_bind ?_
    exact Reading.finds_bind (reads child) fun b _ => rest b

/-- The items of a list that is there. -/
theorem finds_items {read : Json → Reading β} {next : List β → Reading γ} {place : Place}
    (child : Json.Part v)
    (reads : ∀ item : Json.Part v, (read item.val).Finds (check place item))
    (rest : ∀ bs, (next bs).Finds es) :
    ((match child.items? with
      | some items => pure items
      | none => .fail (.invalidField holder key .array)) >>= fun items : List (Json.Part v) =>
        Reading.each (fun item => read item.val) items >>= next).Finds
      (listDefects holder key (check place) child ++ es) := by
  rw [listDefects]
  cases child.items? with
  | none => exact Reading.finds_fail
  | some items =>
    refine Reading.finds_pure_bind ?_
    exact Reading.finds_bind (Reading.finds_each fun item _ => reads item) fun bs _ => rest bs

/-- Reading a list finds the defects of the field and of its items, and then those of the rest. -/
theorem finds_list_bind {read : Json → Reading β} {next : List β → Reading γ} {place : Place}
    (reads : ∀ item : Json.Part v, (read item.val).Finds (check place item))
    (rest : ∀ bs, (next bs).Finds es) :
    (readList holder v key >>= fun items =>
        Reading.each (fun item => read item.val) items >>= next).Finds
      ((Need.parts place).defects holder v check key ++ es) := by
  rw [readList, Need.defects]
  cases v.child? key with
  | none => exact Reading.finds_fail
  | some child => exact finds_items child reads rest

theorem finds_optionalList_bind {read : Json → Reading β} {next : List β → Reading γ}
    {place : Place} (reads : ∀ item : Json.Part v, (read item.val).Finds (check place item))
    (rest : ∀ bs, (next bs).Finds es) :
    (readListOrEmpty holder v key >>= fun items =>
        Reading.each (fun item => read item.val) items >>= next).Finds
      ((Need.optionalParts place).defects holder v check key ++ es) := by
  rw [readListOrEmpty, Need.defects]
  cases v.child? key with
  | none => exact Reading.finds_pure_bind (rest [])
  | some child => exact finds_items child reads rest

/-- The kind of a node, looked up in one of the families of kinds. -/
theorem finds_kind_bind {category : Category} {ofTag? : String → Option κ} {node : κ → NodeKind}
    {next : κ → Reading γ} {check : NodeKind → List LoadError}
    (lookup : ∀ tag, NodeKind.ofTag? category tag = (ofTag? tag).map node)
    (rest : ∀ kind, (next kind).Finds (check (node kind))) :
    (readKind category ofTag? v >>= next).Finds (kindDefects category v check) := by
  rw [readKind, kindDefects]
  cases v.field? "kind" with
  | none => exact Reading.finds_fail
  | some w =>
    cases w with
    | str tag =>
      simp only [lookup]
      cases ofTag? tag with
      | none => exact Reading.finds_fail
      | some kind => exact rest kind
    | _ => exact Reading.finds_fail

end Fields

/-! ## Every place -/

/-- The reading of an entity name finds its defects. -/
theorem readEntityName_finds (v : Json) :
    (readEntityName v).Finds (Place.entityName.defects v) := by
  have parents : ∀ child : Json.Part v,
      (readEntityName child.val).Finds (Place.entityName.defects child.val) :=
    fun child => readEntityName_finds child.val
  rw [readEntityName.eq_def, Place.defects.eq_def]
  cases v with
  | str name => exact Reading.finds_enter_bind Reading.finds_pure
  | obj fields =>
    refine finds_field_bind parents fun parent => ?_
    exact finds_string_bind fun name => Reading.finds_enter_bind Reading.finds_pure
  | _ => exact Reading.finds_fail
termination_by sizeOf v
decreasing_by exact child.sizeOf_val

mutual

/-- The reading of a type finds its defects. -/
theorem readType_finds (v : Json) : (readType v).Finds ((Place.node .type).defects v) := by
  have types : ∀ child : Json.Part v,
      (readType child.val).Finds ((Place.node .type).defects child.val) :=
    fun child => readType_finds child.val
  have members : ∀ child : Json.Part v,
      (readMember child.val).Finds ((Place.node .objectMember).defects child.val) :=
    fun child => readMember_finds child.val
  rw [readType, Place.defects]
  refine finds_kind_bind (fun tag => rfl) fun kind => ?_
  cases kind with
  | primitive => exact finds_string_bind fun name => Reading.finds_enter_bind Reading.finds_pure
  | literal => exact finds_string_bind fun text => Reading.finds_pure
  | optional => exact finds_field_bind types fun element => Reading.finds_pure
  | array =>
    refine finds_field_bind types fun element => ?_
    exact finds_flag_bind fun isReadonly => Reading.finds_pure
  | object =>
    refine finds_optionalList_bind types fun mixins => ?_
    exact finds_list_bind members fun members => Reading.finds_pure
  | decorated => exact finds_field_bind types fun element => Reading.finds_pure
  | union => exact finds_list_bind types fun elements => Reading.finds_pure
  | reference =>
    refine finds_field_bind (fun child => readEntityName_finds child.val) fun name => ?_
    exact finds_optionalList_bind types fun arguments => Reading.finds_pure
  | paren => exact finds_field_bind types fun element => Reading.finds_pure
termination_by sizeOf v
decreasing_by all_goals exact child.sizeOf_val

/-- The reading of a member finds its defects. -/
theorem readMember_finds (v : Json) :
    (readMember v).Finds ((Place.node .objectMember).defects v) := by
  have types : ∀ child : Json.Part v,
      (readType child.val).Finds ((Place.node .type).defects child.val) :=
    fun child => readType_finds child.val
  rw [readMember, Place.defects]
  refine finds_kind_bind (fun tag => rfl) fun kind => ?_
  cases kind with
  | prop =>
    refine finds_field_bind types fun type => finds_string_bind fun name => ?_
    refine finds_flag_bind fun isOptional => finds_flag_bind fun isReadonly => ?_
    exact Reading.finds_enter_bind Reading.finds_pure
  | indexer =>
    refine finds_field_bind types fun keyType => finds_field_bind types fun valueType => ?_
    refine finds_string_bind fun keyName => finds_flag_bind fun isReadonly => ?_
    exact Reading.finds_enter_bind Reading.finds_pure
termination_by sizeOf v
decreasing_by all_goals exact child.sizeOf_val

end

/-- The reading of a statement finds its defects. -/
theorem readStatement_finds (v : Json) :
    (readStatement v).Finds ((Place.node .statement).defects v) := by
  rw [readStatement, Place.defects]
  refine finds_kind_bind (fun tag => rfl) fun kind => ?_
  cases kind with
  | useStrict => exact Reading.finds_pure
  | typeAlias =>
    refine finds_field_bind (fun child => readType_finds child.val) fun type => ?_
    refine finds_string_bind fun name => finds_flag_bind fun hasExport => ?_
    exact Reading.finds_enter_bind Reading.finds_pure

theorem readStatements_finds (items : List Json) :
    (Reading.each readStatement items).Finds (items.flatMap (Place.node .statement).defects) :=
  Reading.finds_each fun item _ => readStatement_finds item

/-- The reading of a program finds its defects. -/
theorem readProgram_finds (v : Json) : (readProgram v).Finds (programDefects v) := by
  have listed : ∀ (items : List Json) (next : List (Statement String) → Program String),
      (Reading.ofExcept (.ok items) >>= fun items =>
        Reading.each readStatement items >>= fun statements => pure (next statements)).Finds
        (items.flatMap (Place.node .statement).defects) := by
    intro items next
    refine Reading.finds_pure_bind ?_
    rw [← List.append_nil (items.flatMap _)]
    exact Reading.finds_bind (readStatements_finds items) fun _ _ => Reading.finds_pure
  rw [readProgram]
  cases v with
  | arr items => exact listed items _
  | obj fields =>
    rw [readStatements, programDefects]
    cases Json.lookup "statements" fields with
    | none => exact Reading.finds_fail
    | some w =>
      cases w with
      | arr items => exact listed items _
      | _ => exact Reading.finds_fail
  | _ => exact Reading.finds_fail

/-! ## Documents have no defects -/

/-- A reading that yields exactly the trees of documents finds no defect in a document, and
some defect in any other value. -/
theorem Reading.Finds.eq_nil_iff {α : Type} {r : Reading α} {ds : List LoadError}
    {namesOf : α → List String} {Doc : α → Prop} (h : r.Finds ds)
    (reads : ∀ {ns a}, r.Yields ns a ↔ ns = namesOf a ∧ Doc a) : ds = [] ↔ ∃ a, Doc a := by
  cases ds with
  | nil =>
    obtain ⟨a, hOk⟩ := h
    exact ⟨fun _ => ⟨a, (reads.mp ⟨rfl, hOk⟩).2⟩, fun _ => rfl⟩
  | cons e rest =>
    have hError : r.outcome = .error e := h
    constructor
    · intro empty
      cases empty
    · rintro ⟨a, doc⟩
      have hOk := (reads.mpr ⟨rfl, doc⟩).2
      rw [hError] at hOk
      cases hOk

/-- The values without a defect are the documents, at every place. -/
theorem defects_eq_nil_iff (v : Json) :
    (Place.entityName.defects v = [] ↔ ∃ n, EntityNameDoc v n) ∧
      ((Place.node .type).defects v = [] ↔ ∃ t, TypeDoc v t) ∧
      ((Place.node .objectMember).defects v = [] ↔ ∃ m, MemberDoc v m) ∧
      ((Place.node .statement).defects v = [] ↔ ∃ s, StatementDoc v s) ∧
      (programDefects v = [] ↔ ∃ p, ProgramDoc v p) :=
  ⟨(readEntityName_finds v).eq_nil_iff readEntityName_yields_iff,
    (readType_finds v).eq_nil_iff readType_yields_iff,
    (readMember_finds v).eq_nil_iff readMember_yields_iff,
    (readStatement_finds v).eq_nil_iff readStatement_yields_iff,
    (readProgram_finds v).eq_nil_iff readProgram_yields_iff⟩

/-! ## Loading -/

section Loading

variable {τ : Type → Type}

/-- A load returns a tree if the list is empty, and otherwise the first defect of the list. -/
def Loaded.Reports (l : Loaded τ) : List LoadError → Prop
  | [] => ∃ tree, l.2 = .ok tree
  | e :: _ => l.2 = .error e

/-- A load reports the first defect that its reading finds. -/
theorem Reading.Finds.load [Functor τ] {r : Reading (τ String)} {ds : List LoadError}
    (h : r.Finds ds) (table : NameTable) : (r.load table).Reports ds := by
  cases ds with
  | nil =>
    obtain ⟨tree, hOk⟩ := h
    exact ⟨_, congrArg (Except.map _) hOk⟩
  | cons e rest =>
    have hError : r.outcome = .error e := h
    exact congrArg (Except.map _) hError

end Loading

/-- The outcome of a load, at every place, is decided by the list of all defects: an empty
list stands for a tree, and any other list for its first defect. -/
theorem load_reports_first_defect (table : NameTable) (v : Json) :
    ((readEntityName v).load table).Reports (Place.entityName.defects v) ∧
      ((readType v).load table).Reports ((Place.node .type).defects v) ∧
      ((readMember v).load table).Reports ((Place.node .objectMember).defects v) ∧
      ((readStatement v).load table).Reports ((Place.node .statement).defects v) ∧
      ((readProgram v).load table).Reports (programDefects v) :=
  ⟨(readEntityName_finds v).load table, (readType_finds v).load table,
    (readMember_finds v).load table, (readStatement_finds v).load table,
    (readProgram_finds v).load table⟩

end FlowDecl
