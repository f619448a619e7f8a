import FlowDecl.Proofs.Interchange.History
import Mathlib.Data.List.Nodup
import Mathlib.Logic.Relation

/-!
# Changes that a load does not see

A load looks at the fields of a kind and at nothing else, and some contents of a field stand for
its absence: a flag that is false or null, and an optional list that is empty.  `Place.Unseen` is
one change of this sort, at a value that is loaded in a place or at any part of it, and
`ProgramUnseen` is one change of a whole document.  Neither asks that the document loads.

One change leaves the reading of the value as it was: the same names in the same order, and the
same tree or the same defect.  What carries the induction is `Need.Alike`, which says of the
contents of one field that a load goes on alike after them.  Two nodes of a kind whose fields are
alike are read alike (`readType_congr` and its companions).  Documents that arise from each other
by any number of changes therefore load alike (`load_ignores_unseen_changes`).
-/

namespace FlowDecl

/-! ## Changes -/

/-- Both values are objects, and every key but one has the same value in both or is absent in
both. -/
def Json.AgreeExcept (key : String) (v w : Json) : Prop :=
  ∃ fs gs, v = .obj fs ∧ w = .obj gs ∧
    ∀ other, other ≠ key → Json.lookup other fs = Json.lookup other gs

/-- The fields that are looked at when a value is loaded in a place, besides its kind. -/
def Place.needs (place : Place) (v : Json) : List (String × Need) :=
  match place.fields? v with
  | some (_, fields) => fields
  | none => []

/-- The keys that are looked at when a value is loaded in a place. -/
def Place.keys (place : Place) (v : Json) : List String :=
  match place with
  | .node _ => "kind" :: (place.needs v).map Prod.fst
  | .entityName => (place.needs v).map Prod.fst

theorem Place.mem_keys {place : Place} {v : Json} {key : String} {need : Need}
    (member : (key, need) ∈ place.needs v) : key ∈ place.keys v := by
  have listed : key ∈ (place.needs v).map Prod.fst := List.mem_map_of_mem member
  cases place with
  | entityName => exact listed
  | node category => exact List.mem_cons_of_mem _ listed

mutual

/-- One value becomes another by one change that is not seen when it is loaded in a place. -/
inductive Place.Unseen : Place → Json → Json → Prop where
  /-- A key that is not looked at is added, removed or set. -/
  | key {place : Place} {v w : Json} {key : String} :
    v.AgreeExcept key w → key ∉ place.keys v → Place.Unseen place v w
  /-- The contents of a field change. -/
  | field {place : Place} {v w : Json} {key : String} {need : Need} :
    v.AgreeExcept key w → (key, need) ∈ place.needs v →
    Need.Unseen need (v.field? key) (w.field? key) → Place.Unseen place v w

/-- The contents of a field become others by one change that is not seen. -/
inductive Need.Unseen : Need → Option Json → Option Json → Prop where
  /-- An absent flag is written as false. -/
  | flagFalse : Need.Unseen .flag none (some (.bool false))
  /-- An absent flag is written as null. -/
  | flagNull : Need.Unseen .flag none (some .null)
  /-- An absent list is written as an empty one. -/
  | emptyList {place : Place} : Need.Unseen (.optionalParts place) none (some (.arr []))
  /-- A part is changed. -/
  | part {place : Place} {a b : Json} :
    Place.Unseen place a b → Need.Unseen (.part place) (some a) (some b)
  /-- An item of a list is changed. -/
  | item {place : Place} {front back : List Json} {a b : Json} :
    Place.Unseen place a b →
    Need.Unseen (.parts place) (some (.arr (front ++ a :: back)))
      (some (.arr (front ++ b :: back)))
  /-- An item of an optional list is changed. -/
  | optionalItem {place : Place} {front back : List Json} {a b : Json} :
    Place.Unseen place a b →
    Need.Unseen (.optionalParts place) (some (.arr (front ++ a :: back)))
      (some (.arr (front ++ b :: back)))

end

/-- One document becomes another by one change that is not seen when a program is loaded. -/
inductive ProgramUnseen : Json → Json → Prop where
  /-- A list of statements is put into an object. -/
  | wrap (items : List Json) : ProgramUnseen (.arr items) (.obj [("statements", .arr items)])
  /-- A statement of a list is changed. -/
  | statement {v w : Json} :
    Need.Unseen (.parts (.node .statement)) (some v) (some w) → ProgramUnseen v w
  /-- A statement of an object is changed. -/
  | field {v w : Json} :
    v.AgreeExcept "statements" w →
    Need.Unseen (.parts (.node .statement)) (v.field? "statements") (w.field? "statements") →
    ProgramUnseen v w
  /-- A key of the object that is not looked at is added, removed or set. -/
  | key {v w : Json} {key : String} :
    v.AgreeExcept key w → key ≠ "statements" → ProgramUnseen v w

/-- Values that agree except in one field agree in every other one. -/
theorem Json.AgreeExcept.field?_eq {key other : String} {v w : Json} (h : v.AgreeExcept key w)
    (differs : other ≠ key) : v.field? other = w.field? other := by
  obtain ⟨fs, gs, rfl, rfl, agree⟩ := h
  exact agree other differs

theorem Json.lookup_append_cons_of_ne {key other : String} (value : Json)
    (front back : List (String × Json)) (differs : other ≠ key) :
    lookup other (front ++ (key, value) :: back) = lookup other (front ++ back) := by
  induction front with
  | nil => exact if_neg differs.symm
  | cons field front ih => rw [List.cons_append, List.cons_append, lookup, lookup, ih]

/-- A key that is added or removed. -/
theorem Json.agreeExcept_insert (key : String) (value : Json)
    (front back : List (String × Json)) :
    (obj (front ++ back)).AgreeExcept key (obj (front ++ (key, value) :: back)) :=
  ⟨_, _, rfl, rfl, fun _ differs => (lookup_append_cons_of_ne value front back differs).symm⟩

/-- A key that is set to another value. -/
theorem Json.agreeExcept_set (key : String) (value value' : Json)
    (front back : List (String × Json)) :
    (obj (front ++ (key, value) :: back)).AgreeExcept key
      (obj (front ++ (key, value') :: back)) := by
  refine ⟨_, _, rfl, rfl, fun _ differs => ?_⟩
  rw [lookup_append_cons_of_ne value front back differs,
    lookup_append_cons_of_ne value' front back differs]

/-! ## Readings without parts

A field is read through a part of the value that holds it, whose type mentions the value.  To
compare the readings of two values, the part is taken out. -/

section Fields

variable {β γ : Type} {holder : Holder} {v w : Json} {key : String}

/-- What a list of items gives, once it is known to be a list. -/
def Reading.items (holder : Holder) (key : String) (read : List Json → Reading γ) :
    Json → Reading γ
  | .arr items => read items
  | _ => .fail (.invalidField holder key .array)

/-- A required field decides how the reading goes on. -/
theorem field_bind_eq (read : Json → Reading β) (next : β → Reading γ) :
    (readField holder v key >>= fun part => read part.val >>= next) =
      match v.field? key with
      | some a => read a >>= next
      | none => .fail (.missingField holder key) := by
  rw [readField]
  cases given : v.child? key with
  | none =>
    rw [Json.child?_eq_none_iff.mp given]
    rfl
  | some part =>
    rw [Json.child?_eq_some_iff.mp given]
    rfl

theorem items_bind_eq (read : Json → Reading β) (next : List β → Reading γ) (part : Json.Part v) :
    ((match part.items? with
      | some items => pure items
      | none => .fail (.invalidField holder key .array)) >>= fun items : List (Json.Part v) =>
        Reading.each (fun item => read item.val) items >>= next) =
      Reading.items holder key (fun items => Reading.each read items >>= next) part.val := by
  have values := Json.map_items? part
  obtain ⟨a, smaller⟩ := part
  cases a with
  | arr vs =>
    obtain ⟨items, given, same⟩ := Option.map_eq_some_iff.mp values
    rw [given]
    change Reading.each (fun item => read item.val) items >>= next = Reading.each read vs >>= next
    rw [Reading.each_parts, same]
  | _ => rfl

theorem list_bind_eq (read : Json → Reading β) (next : List β → Reading γ) :
    (readList holder v key >>= fun parts =>
        Reading.each (fun part => read part.val) parts >>= next) =
      match v.field? key with
      | some a => Reading.items holder key (fun items => Reading.each read items >>= next) a
      | none => .fail (.missingField holder key) := by
  rw [readList]
  cases given : v.child? key with
  | none =>
    rw [Json.child?_eq_none_iff.mp given]
    rfl
  | some part =>
    rw [Json.child?_eq_some_iff.mp given]
    exact items_bind_eq read next part

theorem optionalList_bind_eq (read : Json → Reading β) (next : List β → Reading γ) :
    (readListOrEmpty holder v key >>= fun parts =>
        Reading.each (fun part => read part.val) parts >>= next) =
      Reading.items holder key (fun items => Reading.each read items >>= next)
        ((v.field? key).getD (.arr [])) := by
  rw [readListOrEmpty]
  cases given : v.child? key with
  | none =>
    rw [Json.child?_eq_none_iff.mp given]
    rfl
  | some part =>
    rw [Json.child?_eq_some_iff.mp given]
    exact items_bind_eq read next part

end Fields

/-! ## Contents that a load cannot tell apart -/

/-- Two values are read alike in a place. -/
def Place.SameReading : Place → Json → Json → Prop
  | .entityName, v, w => readEntityName v = readEntityName w
  | .node .type, v, w => readType v = readType w
  | .node .objectMember, v, w => readMember v = readMember w
  | .node .statement, v, w => readStatement v = readStatement w

/-- A flag with these contents is off. -/
def IsOff (contents : Option Json) : Prop :=
  contents = none ∨ contents = some .null ∨ contents = some (.bool false)

/-- Two values are the same, or lists whose items are the same in some sense. -/
inductive Json.SameItems (Same : Json → Json → Prop) : Json → Json → Prop where
  | refl {a : Json} : SameItems Same a a
  | lists {as bs : List Json} : List.Forall₂ Same as bs → SameItems Same (.arr as) (.arr bs)

/-- A load goes on alike after two contents of a field. -/
def Need.Alike : Need → Option Json → Option Json → Prop
  | .string, x, y => x = y
  | .flag, x, y => x = y ∨ IsOff x ∧ IsOff y
  | .part place, x, y => Option.Rel place.SameReading x y
  | .parts place, x, y => Option.Rel (Json.SameItems place.SameReading) x y
  | .optionalParts place, x, y =>
    Json.SameItems place.SameReading (x.getD (.arr [])) (y.getD (.arr []))

theorem Place.SameReading.refl (place : Place) (v : Json) : place.SameReading v v := by
  cases place with
  | entityName => exact rfl
  | node category => cases category <;> exact rfl

theorem Need.Alike.refl (need : Need) (x : Option Json) : need.Alike x x := by
  cases need with
  | string => exact rfl
  | flag => exact .inl rfl
  | part place =>
    cases x with
    | none => exact .none
    | some a => exact .some (.refl place a)
  | parts place =>
    cases x with
    | none => exact .none
    | some a => exact .some .refl
  | optionalParts place => exact Json.SameItems.refl

section Fields

variable {κ β γ : Type} {holder : Holder} {v w : Json} {key : String} {place : Place}
  {read : Json → Reading β}

theorem string_bind_congr {next next' : String → Reading γ}
    (alike : Need.string.Alike (v.field? key) (w.field? key)) (rest : ∀ s, next s = next' s) :
    readString holder v key >>= next = readString holder w key >>= next' := by
  have contents : v.field? key = w.field? key := alike
  have same : readString holder v key = readString holder w key := by
    rw [readString, readString, contents]
  rw [same, funext rest]

/-- A flag that is absent, null or false is off. -/
theorem readFlag_of_isOff (off : IsOff (v.field? key)) : readFlag holder v key = pure false := by
  rw [readFlag]
  rcases off with absent | null | false
  · rw [absent]
  · rw [null]
  · rw [false]

theorem flag_bind_congr {next next' : Bool → Reading γ}
    (alike : Need.flag.Alike (v.field? key) (w.field? key)) (rest : ∀ b, next b = next' b) :
    readFlag holder v key >>= next = readFlag holder w key >>= next' := by
  have same : readFlag holder v key = readFlag holder w key := by
    rcases alike with contents | ⟨off, off'⟩
    · rw [readFlag, readFlag, contents]
    · rw [readFlag_of_isOff off, readFlag_of_isOff off']
  rw [same, funext rest]

/-- A field whose value is read in its turn. -/
theorem field_bind_congr {next next' : β → Reading γ}
    (reads : ∀ a b, place.SameReading a b → read a = read b)
    (alike : (Need.part place).Alike (v.field? key) (w.field? key))
    (rest : ∀ b, next b = next' b) :
    (readField holder v key >>= fun part => read part.val >>= next) =
      readField holder w key >>= fun part => read part.val >>= next' := by
  rw [field_bind_eq, field_bind_eq, funext rest]
  have contents : Option.Rel place.SameReading (v.field? key) (w.field? key) := alike
  generalize v.field? key = x, w.field? key = y at contents ⊢
  cases contents with
  | none => rfl
  | some same => exact congrArg (· >>= next') (reads _ _ same)

/-- Lists of values that are read alike are read alike. -/
theorem Reading.each_congr (reads : ∀ a b, place.SameReading a b → read a = read b)
    {as bs : List Json} (same : List.Forall₂ place.SameReading as bs) :
    each read as = each read bs := by
  induction same with
  | nil => rfl
  | cons first _ ih => rw [each, each, reads _ _ first, ih]

theorem Reading.items_congr {next next' : List β → Reading γ}
    (reads : ∀ a b, place.SameReading a b → read a = read b) {a b : Json}
    (same : a.SameItems place.SameReading b) (rest : ∀ bs, next bs = next' bs) :
    items holder key (fun as => each read as >>= next) a =
      items holder key (fun as => each read as >>= next') b := by
  rw [funext rest]
  cases same with
  | refl => rfl
  | lists same => rw [items, items, each_congr reads same]

/-- A list whose items are read in their turn. -/
theorem list_bind_congr {next next' : List β → Reading γ}
    (reads : ∀ a b, place.SameReading a b → read a = read b)
    (alike : (Need.parts place).Alike (v.field? key) (w.field? key))
    (rest : ∀ bs, next bs = next' bs) :
    (readList holder v key >>= fun parts =>
        Reading.each (fun part => read part.val) parts >>= next) =
      readList holder w key >>= fun parts =>
        Reading.each (fun part => read part.val) parts >>= next' := by
  rw [list_bind_eq, list_bind_eq]
  have contents :
      Option.Rel (Json.SameItems place.SameReading) (v.field? key) (w.field? key) := alike
  generalize v.field? key = x, w.field? key = y at contents ⊢
  cases contents with
  | none => rfl
  | some same => exact Reading.items_congr reads same rest

/-- A list that may be absent, whose items are read in their turn. -/
theorem optionalList_bind_congr {next next' : List β → Reading γ}
    (reads : ∀ a b, place.SameReading a b → read a = read b)
    (alike : (Need.optionalParts place).Alike (v.field? key) (w.field? key))
    (rest : ∀ bs, next bs = next' bs) :
    (readListOrEmpty holder v key >>= fun parts =>
        Reading.each (fun part => read part.val) parts >>= next) =
      readListOrEmpty holder w key >>= fun parts =>
        Reading.each (fun part => read part.val) parts >>= next' := by
  rw [optionalList_bind_eq, optionalList_bind_eq]
  exact Reading.items_congr reads alike rest

/-- The fields of a kind are those that are looked at in a node of the kind. -/
theorem Place.needs_of_kind {category : Category} {tag : String} {kind : NodeKind}
    (given : v.HasKind tag) (known : NodeKind.ofTag? category tag = some kind) :
    (Place.node category).needs v = kind.fields := by
  have given' : v.field? "kind" = some (.str tag) := given
  simp [needs, fields?, given', known]

/-- The kind of a node, and what is read after it. -/
theorem kind_bind_congr {category : Category} {ofTag? : String → Option κ} {node : κ → NodeKind}
    {next next' : κ → Reading γ}
    (lookup : ∀ tag, NodeKind.ofTag? category tag = (ofTag? tag).map node)
    (sameKind : v.field? "kind" = w.field? "kind")
    (alike : ∀ field ∈ (Place.node category).needs v,
      field.2.Alike (v.field? field.1) (w.field? field.1))
    (rest : ∀ kind,
      (∀ field ∈ (node kind).fields, field.2.Alike (v.field? field.1) (w.field? field.1)) →
        next kind = next' kind) :
    readKind category ofTag? v >>= next = readKind category ofTag? w >>= next' := by
  have same : readKind category ofTag? v = readKind category ofTag? w := by
    rw [readKind, readKind, sameKind]
  rw [← same]
  cases hOutcome : (readKind category ofTag? v).outcome with
  | error e => rw [Reading.bind_of_error hOutcome, Reading.bind_of_error hOutcome]
  | ok kind =>
    obtain ⟨-, tag, given, hTag⟩ := yields_readKind.mp ⟨rfl, hOutcome⟩
    have known : NodeKind.ofTag? category tag = some (node kind) := by
      rw [lookup, hTag]
      rfl
    rw [Place.needs_of_kind given known] at alike
    rw [Reading.bind_of_ok hOutcome, Reading.bind_of_ok hOutcome, rest kind alike]

end Fields

/-! ## Values whose fields are alike -/

section Values

variable {v w : Json}

theorem readEntityName_of_same {a b : Json} (same : Place.entityName.SameReading a b) :
    readEntityName a = readEntityName b := same

theorem readType_of_same {a b : Json} (same : (Place.node .type).SameReading a b) :
    readType a = readType b := same

theorem readMember_of_same {a b : Json} (same : (Place.node .objectMember).SameReading a b) :
    readMember a = readMember b := same

theorem readStatement_of_same {a b : Json} (same : (Place.node .statement).SameReading a b) :
    readStatement a = readStatement b := same

theorem readEntityName_congr {fs gs : List (String × Json)}
    (alike : ∀ field ∈ Place.entityName.needs (.obj fs),
      field.2.Alike (Json.field? field.1 (.obj fs)) (Json.field? field.1 (.obj gs))) :
    readEntityName (.obj fs) = readEntityName (.obj gs) := by
  obtain ⟨parent, rest⟩ := List.forall_mem_cons.mp alike
  obtain ⟨name, -⟩ := List.forall_mem_cons.mp rest
  rw [readEntityName, readEntityName]
  refine field_bind_congr (fun _ _ => readEntityName_of_same) parent fun _ => ?_
  exact string_bind_congr name fun _ => rfl

/-- Types of one kind whose needs are alike are read alike. -/
theorem readType_congr (sameKind : v.field? "kind" = w.field? "kind")
    (alike : ∀ field ∈ (Place.node .type).needs v,
      field.2.Alike (v.field? field.1) (w.field? field.1)) : readType v = readType w := by
  have types : ∀ a b, (Place.node .type).SameReading a b → readType a = readType b :=
    fun _ _ => readType_of_same
  rw [readType, readType]
  refine kind_bind_congr (fun _ => rfl) sameKind alike fun kind fields => ?_
  cases kind with
  | primitive =>
    obtain ⟨name, -⟩ := List.forall_mem_cons.mp fields
    exact string_bind_congr name fun _ => rfl
  | literal =>
    obtain ⟨text, -⟩ := List.forall_mem_cons.mp fields
    exact string_bind_congr text fun _ => rfl
  | optional =>
    obtain ⟨element, -⟩ := List.forall_mem_cons.mp fields
    exact field_bind_congr types element fun _ => rfl
  | array =>
    obtain ⟨element, fields⟩ := List.forall_mem_cons.mp fields
    obtain ⟨isReadonly, -⟩ := List.forall_mem_cons.mp fields
    refine field_bind_congr types element fun _ => ?_
    exact flag_bind_congr isReadonly fun _ => rfl
  | object =>
    obtain ⟨mixins, fields⟩ := List.forall_mem_cons.mp fields
    obtain ⟨members, -⟩ := List.forall_mem_cons.mp fields
    refine optionalList_bind_congr types mixins fun _ => ?_
    exact list_bind_congr (fun _ _ => readMember_of_same) members fun _ => rfl
  | decorated =>
    obtain ⟨element, -⟩ := List.forall_mem_cons.mp fields
    exact field_bind_congr types element fun _ => rfl
  | union =>
    obtain ⟨elements, -⟩ := List.forall_mem_cons.mp fields
    exact list_bind_congr types elements fun _ => rfl
  | reference =>
    obtain ⟨name, fields⟩ := List.forall_mem_cons.mp fields
    obtain ⟨arguments, -⟩ := List.forall_mem_cons.mp fields
    refine field_bind_congr (fun _ _ => readEntityName_of_same) name fun _ => ?_
    exact optionalList_bind_congr types arguments fun _ => rfl
  | paren =>
    obtain ⟨element, -⟩ := List.forall_mem_cons.mp fields
    exact field_bind_congr types element fun _ => rfl

theorem readMember_congr (sameKind : v.field? "kind" = w.field? "kind")
    (alike : ∀ field ∈ (Place.node .objectMember).needs v,
      field.2.Alike (v.field? field.1) (w.field? field.1)) : readMember v = readMember w := by
  have types : ∀ a b, (Place.node .type).SameReading a b → readType a = readType b :=
    fun _ _ => readType_of_same
  rw [readMember, readMember]
  refine kind_bind_congr (fun _ => rfl) sameKind alike fun kind fields => ?_
  cases kind with
  | prop =>
    obtain ⟨type, fields⟩ := List.forall_mem_cons.mp fields
    obtain ⟨name, fields⟩ := List.forall_mem_cons.mp fields
    obtain ⟨isOptional, fields⟩ := List.forall_mem_cons.mp fields
    obtain ⟨isReadonly, -⟩ := List.forall_mem_cons.mp fields
    refine field_bind_congr types type fun _ => string_bind_congr name fun _ => ?_
    exact flag_bind_congr isOptional fun _ => flag_bind_congr isReadonly fun _ => rfl
  | indexer =>
    obtain ⟨keyType, fields⟩ := List.forall_mem_cons.mp fields
    obtain ⟨valueType, fields⟩ := List.forall_mem_cons.mp fields
    obtain ⟨keyName, fields⟩ := List.forall_mem_cons.mp fields
    obtain ⟨isReadonly, -⟩ := List.forall_mem_cons.mp fields
    refine field_bind_congr types keyType fun _ => field_bind_congr types valueType fun _ => ?_
    exact string_bind_congr keyName fun _ => flag_bind_congr isReadonly fun _ => rfl

theorem readStatement_congr (sameKind : v.field? "kind" = w.field? "kind")
    (alike : ∀ field ∈ (Place.node .statement).needs v,
      field.2.Alike (v.field? field.1) (w.field? field.1)) :
    readStatement v = readStatement w := by
  rw [readStatement, readStatement]
  refine kind_bind_congr (fun _ => rfl) sameKind alike fun kind fields => ?_
  cases kind with
  | useStrict => rfl
  | typeAlias =>
    obtain ⟨type, fields⟩ := List.forall_mem_cons.mp fields
    obtain ⟨name, fields⟩ := List.forall_mem_cons.mp fields
    obtain ⟨hasExport, -⟩ := List.forall_mem_cons.mp fields
    refine field_bind_congr (fun _ _ => readType_of_same) type fun _ => ?_
    exact string_bind_congr name fun _ => flag_bind_congr hasExport fun _ => rfl

end Values

/-! ## One change -/

/-- No key of a node or of an entity name is looked at twice, and the kind has no need of its
own. -/
theorem Place.needs_nodup (place : Place) (v : Json) :
    ("kind" :: (place.needs v).map Prod.fst).Nodup := by
  have kinds : ∀ kind : NodeKind, ("kind" :: kind.fields.map Prod.fst).Nodup := by
    intro kind
    rcases kind with kind | kind | kind <;> cases kind <;> decide
  have nothing : ("kind" :: List.map Prod.fst ([] : List (String × Need))).Nodup :=
    List.nodup_singleton _
  cases place with
  | entityName =>
    have segments : ["kind", "parent", "name"].Nodup := by decide
    cases v with
    | obj fields => exact segments
    | _ => exact nothing
  | node category =>
    cases given : v.field? "kind" with
    | none =>
      rw [needs, fields?, given]
      exact nothing
    | some kind =>
      rw [needs, fields?, given]
      cases kind with
      | str tag =>
        cases known : NodeKind.ofTag? category tag with
        | none => simp [known]
        | some kind => simpa [known] using kinds kind
      | _ => exact nothing

/-- A place needs a key in one way only. -/
theorem Place.need_unique {place : Place} {v : Json} {key : String} {need other : Need}
    (member : (key, need) ∈ place.needs v) (member' : (key, other) ∈ place.needs v) :
    other = need := by
  have unique := List.inj_on_of_nodup_map (List.nodup_cons.mp (place.needs_nodup v)).2
  exact congrArg Prod.snd (unique member' member rfl)

/-- The kind is looked at before any other need. -/
theorem Place.kind_not_need {place : Place} {v : Json} {need : Need} :
    ("kind", need) ∉ place.needs v := fun member =>
  (List.nodup_cons.mp (place.needs_nodup v)).1 (List.mem_map_of_mem member)

/-- Two objects that agree except under one key are read alike, if the contents of the key are
alike where it is a field, and if it is not the kind of a node. -/
theorem Place.sameReading_of_agreeExcept {place : Place} {v w : Json} {key : String}
    (agree : v.AgreeExcept key w) (keepsKind : "kind" ∈ place.keys v → key ≠ "kind")
    (alike : ∀ need, (key, need) ∈ place.needs v → need.Alike (v.field? key) (w.field? key)) :
    place.SameReading v w := by
  have fields : ∀ field ∈ place.needs v,
      field.2.Alike (v.field? field.1) (w.field? field.1) := by
    rintro ⟨other, need⟩ member
    by_cases same : other = key
    · subst same
      exact alike need member
    · rw [agree.field?_eq same]
      exact .refl need _
  have kinds : ∀ category, place = .node category → v.field? "kind" = w.field? "kind" := by
    rintro category rfl
    exact agree.field?_eq (keepsKind List.mem_cons_self).symm
  cases place with
  | entityName =>
    obtain ⟨fs, gs, rfl, rfl, -⟩ := agree
    exact readEntityName_congr fields
  | node category =>
    cases category with
    | type => exact readType_congr (kinds _ rfl) fields
    | objectMember => exact readMember_congr (kinds _ rfl) fields
    | statement => exact readStatement_congr (kinds _ rfl) fields

/-- Lists that differ in one item. -/
theorem Place.forall₂_item {place : Place} {a b : Json} (same : place.SameReading a b)
    (front back : List Json) :
    List.Forall₂ place.SameReading (front ++ a :: back) (front ++ b :: back) := by
  have unchanged : ∀ items, List.Forall₂ place.SameReading items items := fun items =>
    List.forall₂_same.mpr fun item _ => .refl place item
  induction front with
  | nil => exact .cons same (unchanged back)
  | cons item front ih => exact .cons (.refl place item) ih

mutual

/-- A change that is not seen leaves the reading of a value as it was. -/
theorem Place.Unseen.sameReading : ∀ {place : Place} {v w : Json}, place.Unseen v w →
    place.SameReading v w
  | _, _, _, .key agree fresh =>
    Place.sameReading_of_agreeExcept agree (fun looked same => fresh (same ▸ looked))
      fun _ member => absurd (Place.mem_keys member) fresh
  | _, _, _, .field agree member change =>
    Place.sameReading_of_agreeExcept agree
      (fun _ same => Place.kind_not_need (same ▸ member))
      fun _ member' => Place.need_unique member member' ▸ change.alike

/-- After a change that is not seen the contents of a field are alike. -/
theorem Need.Unseen.alike : ∀ {need : Need} {x y : Option Json}, need.Unseen x y →
    need.Alike x y
  | _, _, _, .flagFalse => .inr ⟨.inl rfl, .inr (.inr rfl)⟩
  | _, _, _, .flagNull => .inr ⟨.inl rfl, .inr (.inl rfl)⟩
  | _, _, _, .emptyList => Json.SameItems.refl
  | _, _, _, .part change => Option.Rel.some change.sameReading
  | _, _, _, .item change => Option.Rel.some (.lists (Place.forall₂_item change.sameReading _ _))
  | _, _, _, .optionalItem change =>
    Json.SameItems.lists (Place.forall₂_item change.sameReading _ _)

end

/-- The program of a value that has to be a list of statements. -/
def readStatementList (v : Json) : Reading (Program String) :=
  Reading.items .program "statements"
    (fun items => Reading.each readStatement items >>= fun statements => pure ⟨statements⟩) v

theorem readProgram_obj (fields : List (String × Json)) :
    readProgram (.obj fields) =
      match Json.lookup "statements" fields with
      | some a => readStatementList a
      | none => .fail (.missingField .program "statements") := by
  rw [readProgram, readStatements]
  cases Json.lookup "statements" fields with
  | none => rfl
  | some a => cases a <;> rfl

theorem readStatementList_congr {a b : Json}
    (same : a.SameItems (Place.node .statement).SameReading b) :
    readStatementList a = readStatementList b :=
  Reading.items_congr (fun _ _ => readStatement_of_same) same fun _ => rfl

/-- A change of a document that is not seen leaves its reading as it was. -/
theorem ProgramUnseen.readProgram_eq {v w : Json} (change : ProgramUnseen v w) :
    readProgram v = readProgram w := by
  cases change with
  | wrap items =>
    rw [readProgram_obj]
    rfl
  | statement change =>
    cases change with
    | @item _ front back _ _ change =>
      exact readStatementList_congr (.lists (Place.forall₂_item change.sameReading front back))
  | field agree change =>
    obtain ⟨fs, gs, rfl, rfl, -⟩ := agree
    have contents : Option.Rel (Json.SameItems (Place.node .statement).SameReading)
        (Json.lookup "statements" fs) (Json.lookup "statements" gs) := change.alike
    rw [readProgram_obj, readProgram_obj]
    generalize Json.lookup "statements" fs = x, Json.lookup "statements" gs = y at contents ⊢
    cases contents with
    | none => rfl
    | some same => exact readStatementList_congr same
  | key agree differs =>
    obtain ⟨fs, gs, rfl, rfl, agree⟩ := agree
    rw [readProgram_obj, readProgram_obj, agree _ differs.symm]

/-! ## Any number of changes -/

/-- What one change leaves as it was, any number of changes does, in both directions. -/
theorem eq_of_changes {α β : Type} {Change : α → α → Prop} {f : α → β}
    (step : ∀ a b, Change a b → f a = f b) {a b : α} (h : Relation.EqvGen Change a b) :
    f a = f b := by
  induction h with
  | rel a b change => exact step a b change
  | refl a => rfl
  | symm a b _ ih => exact ih.symm
  | trans a b c _ _ first second => exact first.trans second

/-- Documents that arise from each other by changes that are not seen load alike, at every place:
from any table the load gives the same tree or the same defect, and leaves the same table. -/
theorem load_ignores_unseen_changes (table : NameTable) {v w : Json} :
    (Relation.EqvGen ProgramUnseen v w →
        (readProgram v).load table = (readProgram w).load table) ∧
      (Relation.EqvGen (Place.node .statement).Unseen v w →
        (readStatement v).load table = (readStatement w).load table) ∧
      (Relation.EqvGen (Place.node .type).Unseen v w →
        (readType v).load table = (readType w).load table) ∧
      (Relation.EqvGen (Place.node .objectMember).Unseen v w →
        (readMember v).load table = (readMember w).load table) ∧
      (Relation.EqvGen Place.entityName.Unseen v w →
        (readEntityName v).load table = (readEntityName w).load table) := by
  refine ⟨fun h => ?_, fun h => ?_, fun h => ?_, fun h => ?_, fun h => ?_⟩
  · rw [eq_of_changes (fun _ _ change => change.readProgram_eq) h]
  · rw [eq_of_changes (f := readStatement) (fun _ _ change => change.sameReading) h]
  · rw [eq_of_changes (f := readType) (fun _ _ change => change.sameReading) h]
  · rw [eq_of_changes (f := readMember) (fun _ _ change => change.sameReading) h]
  · rw [eq_of_changes (f := readEntityName) (fun _ _ change => change.sameReading) h]

/-- A list with one alias, whose name is no string, and an object that holds the alias with a list
of type arguments, a flag and a version besides.  Both fail in the same way, with the name of the
reference entered. -/
theorem defective_documents_load_alike :
    let reference : Json := .obj [("kind", .str "TypeReference"), ("name", .str "M")]
    let applied : Json := .obj
      [("kind", .str "TypeReference"), ("name", .str "M"), ("typeArguments", .arr [])]
    let bare : Json := .arr
      [.obj [("aliasedType", reference), ("kind", .str "TypeAliasDecl"), ("name", .null)]]
    let full : Json := .obj
      [("statements", .arr [.obj [("aliasedType", applied), ("hasExport", .null),
        ("kind", .str "TypeAliasDecl"), ("name", .null)]]), ("version", .str "2")]
    Relation.EqvGen ProgramUnseen bare full ∧
      (readProgram bare).load .empty = (readProgram full).load .empty ∧
      ((readProgram full).load .empty).1.names = ["M"] := by
  intro reference applied bare full
  let kind : String × Json := ("kind", .str "TypeAliasDecl")
  let name : String × Json := ("name", .null)
  let flagged : Json := .obj [("aliasedType", applied), ("hasExport", .null), kind, name]
  have arguments : (Place.node .type).Unseen reference applied :=
    .field (Json.agreeExcept_insert "typeArguments" (.arr [])
      [("kind", .str "TypeReference"), ("name", .str "M")] []) (.tail _ (.head _)) .emptyList
  have type : (Place.node .statement).Unseen
      (.obj [("aliasedType", reference), kind, name])
      (.obj [("aliasedType", applied), kind, name]) :=
    .field (Json.agreeExcept_set "aliasedType" reference applied [] [kind, name]) (.head _)
      (.part arguments)
  have flag : (Place.node .statement).Unseen (.obj [("aliasedType", applied), kind, name])
      flagged :=
    .field (Json.agreeExcept_insert "hasExport" .null [("aliasedType", applied)] [kind, name])
      (.tail _ (.tail _ (.head _))) .flagNull
  have version : ProgramUnseen (.obj [("statements", .arr [flagged])]) full :=
    .key (Json.agreeExcept_insert "version" (.str "2") [("statements", .arr [flagged])] [])
      (by decide)
  have changes : Relation.EqvGen ProgramUnseen bare full := by
    refine .trans _ _ _ (.rel _ _ (.statement (@Need.Unseen.item _ [] [] _ _ type))) ?_
    refine .trans _ _ _ (.rel _ _ (.statement (@Need.Unseen.item _ [] [] _ _ flag))) ?_
    exact .trans _ _ _ (.rel _ _ (.wrap [flagged])) (.rel _ _ version)
  exact ⟨changes, (load_ignores_unseen_changes .empty).1 changes, by decide +kernel⟩

end FlowDecl
