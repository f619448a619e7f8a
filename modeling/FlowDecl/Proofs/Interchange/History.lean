import FlowDecl.Proofs.Interchange.Defects

/-!
# Names entered by a load

A load enters the names of a tree part by part, and a load that fails leaves behind the names
of the parts that were complete by then.  Which parts these are is said here by a *history*:
the list of all defects of a value, in the order in which they are looked for, with an event
put in wherever the load of a part returns.  Like the list of defects it does not stop.  The
parts that a failing load has completed are those that return before the first defect.

A load that succeeds enters the names of its tree.  A load that fails enters the names of the
parts that its history returns before the first defect, and no other name.  In both cases the
handles of the names known before stay as they are (`load_enters_names_of_completed_parts`).
-/

namespace FlowDecl

/-! ## Parts -/

/-- A value that is loaded in a place, by a call of its own. -/
structure Subdocument where
  /-- The place. -/
  place : Place
  /-- The value. -/
  value : Json

/-- The name is one of the tree that the value describes in its place. -/
def Subdocument.HasName (part : Subdocument) (name : String) : Prop :=
  match part.place with
  | .entityName => ∃ n, EntityNameDoc part.value n ∧ name ∈ n.names
  | .node .type => ∃ t, TypeDoc part.value t ∧ name ∈ t.names
  | .node .objectMember => ∃ m, MemberDoc part.value m ∧ name ∈ m.names
  | .node .statement => ∃ s, StatementDoc part.value s ∧ name ∈ s.names

/-! ## Histories -/

/-- What happens while a value is checked. -/
inductive CheckEvent where
  /-- A defect is found. -/
  | defect (cause : LoadError)
  /-- The load of a part returns. -/
  | returned (part : Subdocument)

/-- The defects of a history. -/
def defectsIn : List CheckEvent → List LoadError
  | [] => []
  | .defect cause :: es => cause :: defectsIn es
  | .returned _ :: es => defectsIn es

/-- The parts that return before the first defect of a history. -/
def completedIn : List CheckEvent → List Subdocument
  | .returned part :: es => part :: completedIn es
  | _ => []

/-- The history of a load whose fields have a history.  The load returns if they have no
defect. -/
def closeHistory (part : Subdocument) (es : List CheckEvent) : List CheckEvent :=
  if defectsIn es = [] then es ++ [.returned part] else es

/-- The parts that a field holds, each with its place. -/
def Need.children (v : Json) (key : String) : Need → List (Place × Json.Part v)
  | .string => []
  | .flag => []
  | .part place => (v.child? key).toList.map fun child => (place, child)
  | .parts place =>
    (((v.child? key).bind Json.Part.items?).getD []).map fun child => (place, child)
  | .optionalParts place =>
    (((v.child? key).bind Json.Part.items?).getD []).map fun child => (place, child)

/-- The history of a field, given those of its parts: the parts one after the other, or the
defect of the field itself. -/
def Need.history (holder : Holder) (v : Json) (check : Place → Json.Part v → List CheckEvent)
    (key : String) (need : Need) : List CheckEvent :=
  (need.children v key).flatMap (fun child => check child.1 child.2) ++
    (need.defects holder v (fun _ _ => []) key).map .defect

/-- The fields that are looked at in a place, and what they belong to, if the value can stand
there. -/
def Place.fields? : Place → Json → Option (Holder × List (String × Need))
  | .node category, v =>
    match v.field? "kind" with
    | some (.str tag) =>
      (NodeKind.ofTag? category tag).map fun kind => (.node kind, kind.fields)
    | _ => none
  | .entityName, .str _ => some (.entityName, [])
  | .entityName, .obj _ => some (.entityName, [("parent", .part .entityName), ("name", .string)])
  | .entityName, _ => none

/-- The history of a load in a place. -/
def Place.history (place : Place) (v : Json) : List CheckEvent :=
  match place.fields? v with
  | none => (place.defects v).map .defect
  | some (holder, fields) =>
    closeHistory ⟨place, v⟩ <| fields.flatMap fun field =>
      field.2.history holder v (fun place child => Place.history place child.val) field.1
termination_by sizeOf v
decreasing_by exact child.sizeOf_val

/-- The history of the load of a program: its statements one after the other. -/
def programHistory (v : Json) : List CheckEvent :=
  match readStatements v with
  | .ok items => items.flatMap (Place.node .statement).history
  | .error cause => [.defect cause]

/-- The history of the load of a text that holds a program. -/
def textHistory (text : String) : List CheckEvent :=
  match parseDocument text with
  | .ok v => programHistory v
  | .error cause => [.defect cause]

/-! ## Laws of histories -/

theorem defectsIn_append (es fs : List CheckEvent) :
    defectsIn (es ++ fs) = defectsIn es ++ defectsIn fs := by
  induction es with
  | nil => rfl
  | cons e es ih =>
    cases e with
    | defect cause => exact congrArg (cause :: ·) ih
    | returned part => exact ih

theorem defectsIn_map_defect (ds : List LoadError) : defectsIn (ds.map .defect) = ds := by
  induction ds with
  | nil => rfl
  | cons d ds ih => exact congrArg (d :: ·) ih

theorem defectsIn_flatMap {α : Type} (f : α → List CheckEvent) (as : List α) :
    defectsIn (as.flatMap f) = as.flatMap fun a => defectsIn (f a) := by
  induction as with
  | nil => rfl
  | cons a as ih => rw [List.flatMap_cons, List.flatMap_cons, defectsIn_append, ih]

/-- Completing a part is no defect. -/
theorem defectsIn_closeHistory (part : Subdocument) (es : List CheckEvent) :
    defectsIn (closeHistory part es) = defectsIn es := by
  rw [closeHistory]
  split
  · rw [defectsIn_append]
    exact List.append_nil _
  · rfl

theorem completedIn_map_defect (ds : List LoadError) : completedIn (ds.map .defect) = [] := by
  cases ds <;> rfl

/-- What returns later is completed if there is no defect before. -/
theorem mem_completedIn_append {part : Subdocument} {es fs : List CheckEvent} :
    part ∈ completedIn (es ++ fs) ↔
      part ∈ completedIn es ∨ defectsIn es = [] ∧ part ∈ completedIn fs := by
  induction es with
  | nil => simp [completedIn, defectsIn]
  | cons e es ih =>
    cases e with
    | defect cause => simp [completedIn, defectsIn]
    | returned other =>
      simp only [List.cons_append, completedIn, defectsIn, List.mem_cons, ih, or_assoc]

/-- A history with a defect, cut at the first one. -/
theorem exists_after_of_defectsIn {es : List CheckEvent} {cause : LoadError}
    {ds : List LoadError} (defects : defectsIn es = cause :: ds) :
    ∃ after, es = (completedIn es).map .returned ++ .defect cause :: after := by
  induction es with
  | nil => cases defects
  | cons e es ih =>
    cases e with
    | defect other =>
      cases defects
      exact ⟨es, rfl⟩
    | returned part =>
      obtain ⟨after, rest⟩ := ih defects
      exact ⟨after, congrArg (CheckEvent.returned part :: ·) rest⟩

/-- The defects in the history of a field are the defects of the field. -/
theorem Need.defectsIn_history {holder : Holder} {v : Json} {key : String} {need : Need}
    {check : Place → Json.Part v → List CheckEvent}
    {defects : Place → Json.Part v → List LoadError}
    (same : ∀ place child, defectsIn (check place child) = defects place child) :
    defectsIn (need.history holder v check key) = need.defects holder v defects key := by
  rw [history, defectsIn_append, defectsIn_flatMap, defectsIn_map_defect]
  simp only [same]
  cases need with
  | string => rfl
  | flag => rfl
  | part place => cases h : v.child? key <;> simp [children, Need.defects, h]
  | parts place =>
    cases h : v.child? key with
    | none => simp [children, Need.defects, h]
    | some child =>
      cases h' : child.items? <;>
        simp [children, Need.defects, listDefects, h, h', List.flatMap_map]
  | optionalParts place =>
    cases h : v.child? key with
    | none => simp [children, Need.defects, h]
    | some child =>
      cases h' : child.items? <;>
        simp [children, Need.defects, listDefects, h, h', List.flatMap_map]

/-- The defects of a history are all defects of the value. -/
theorem Place.defectsIn_history (place : Place) (v : Json) :
    defectsIn (place.history v) = place.defects v := by
  have parts : ∀ place (child : Json.Part v),
      defectsIn (Place.history place child.val) = place.defects child.val :=
    fun place child => Place.defectsIn_history place child.val
  rw [Place.history]
  cases hFields : place.fields? v with
  | none => exact defectsIn_map_defect _
  | some entry =>
    obtain ⟨holder, fields⟩ := entry
    have each : defectsIn (fields.flatMap fun field =>
        field.2.history holder v (fun place child => Place.history place child.val) field.1) =
        fields.flatMap fun field =>
          field.2.defects holder v (fun place child => place.defects child.val) field.1 := by
      rw [defectsIn_flatMap]
      simp only [Need.defectsIn_history parts]
    dsimp only
    rw [defectsIn_closeHistory, each]
    cases place with
    | node category =>
      rw [Place.defects.eq_def]
      simp only [fields?] at hFields
      split at hFields
      next tag given =>
        obtain ⟨kind, hKind, same⟩ := Option.map_eq_some_iff.mp hFields
        cases same
        simp only [kindDefects, given, hKind]
      next => cases hFields
    | entityName =>
      rw [Place.defects.eq_def]
      cases v with
      | str name =>
        cases hFields
        rfl
      | obj pairs =>
        cases hFields
        rfl
      | _ => cases hFields
termination_by sizeOf v
decreasing_by exact child.sizeOf_val

/-! ## Readings that follow a history -/

namespace Reading

variable {α β : Type}

/-- The reading enters the names of the parts that the history completes, and only these, and
ends in its first defect. -/
structure Traced (r : Reading α) (es : List CheckEvent) : Prop where
  /-- It ends in the first defect. -/
  finds : r.Finds (defectsIn es)
  /-- It enters the names of the parts. -/
  names : ∀ name, name ∈ r.names ↔ ∃ part ∈ completedIn es, part.HasName name

/-- The reading enters the names of the parts that the history completes, and only these if it
ends in a defect.  At its end it may enter a name of its own. -/
structure Follows (r : Reading α) (es : List CheckEvent) : Prop where
  /-- It enters the names of the parts. -/
  covers : ∀ part ∈ completedIn es, ∀ name, part.HasName name → name ∈ r.names
  /-- It enters no other name if it fails. -/
  exact : ∀ cause, r.outcome = .error cause →
    ∀ name ∈ r.names, ∃ part ∈ completedIn es, part.HasName name

/-- A reading that finds no defect has a result. -/
theorem Finds.ok_iff {r : Reading α} {ds : List LoadError} (h : r.Finds ds) :
    ds = [] ↔ ∃ a, r.outcome = .ok a := by
  cases ds with
  | nil => exact ⟨fun _ => h, fun _ => rfl⟩
  | cons d ds =>
    have failed : r.outcome = .error d := h
    simp [failed]

/-- A reading that enters no name. -/
theorem Traced.of_silent {r : Reading α} {ds : List LoadError} (silent : r.names = [])
    (finds : r.Finds ds) : r.Traced (ds.map .defect) where
  finds := by rwa [defectsIn_map_defect]
  names := by simp [silent, completedIn_map_defect]

/-- A result that is changed at the end. -/
theorem Traced.bind_pure {r : Reading α} {es : List CheckEvent} (h : r.Traced es) (f : α → β) :
    (r >>= fun a => pure (f a)).Traced es where
  finds := by
    rw [← List.append_nil (defectsIn es)]
    exact finds_bind h.finds fun a _ => finds_pure
  names := by
    intro name
    rw [mem_names_bind, h.names]
    simp [pure, ofExcept]

theorem follows_pure {a : α} : (pure a : Reading α).Follows [] where
  covers := by simp [completedIn]
  exact := by
    intro cause failed
    cases failed

/-- A name that is entered at the very end. -/
theorem follows_enter {name : String} {f : String → α} :
    (enter name >>= fun name => pure (f name)).Follows [] where
  covers := by simp [completedIn]
  exact := by
    intro cause failed
    cases failed

/-- A sequence of readings follows the history of the first and then that of the second. -/
theorem follows_bind {r : Reading α} {next : α → Reading β} {es fs : List CheckEvent}
    (first : r.Traced es) (second : ∀ a, r.outcome = .ok a → (next a).Follows fs) :
    (r >>= next).Follows (es ++ fs) where
  covers := by
    intro part member name has
    rcases mem_completedIn_append.mp member with before | ⟨sound, after⟩
    · exact mem_names_bind.mpr (.inl ((first.names name).mpr ⟨part, before, has⟩))
    · obtain ⟨a, hOk⟩ := first.finds.ok_iff.mp sound
      exact mem_names_bind.mpr (.inr ⟨a, hOk, (second a hOk).covers part after name has⟩)
  exact := by
    intro cause failed name entered
    rcases mem_names_bind.mp entered with before | ⟨a, hOk, after⟩
    · obtain ⟨part, member, has⟩ := (first.names name).mp before
      exact ⟨part, mem_completedIn_append.mpr (.inl member), has⟩
    · rw [bind_of_ok hOk] at failed
      obtain ⟨part, member, has⟩ := (second a hOk).exact cause failed name after
      have sound := first.finds.ok_iff.mpr ⟨a, hOk⟩
      exact ⟨part, mem_completedIn_append.mpr (.inr ⟨sound, member⟩), has⟩

theorem follows_pure_bind {a : α} {next : α → Reading β} {es : List CheckEvent}
    (second : (next a).Follows es) : (pure a >>= next).Follows es := by
  rw [bind_of_ok rfl]
  exact second

/-- Readings of several things follow one history after the other. -/
theorem traced_each {read : α → Reading β} {history : α → List CheckEvent} {as : List α}
    (reads : ∀ a ∈ as, (read a).Traced (history a)) :
    (each read as).Traced (as.flatMap history) where
  finds := by
    rw [defectsIn_flatMap]
    exact finds_each fun a member => (reads a member).finds
  names := by
    induction as with
    | nil => simp [each, pure, ofExcept, completedIn]
    | cons a rest ih =>
      intro name
      have first := reads a List.mem_cons_self
      have later := ih fun other member => reads other (List.mem_cons_of_mem a member)
      have unchanged : ∀ b, ((b :: ·) <$> each read rest).names = (each read rest).names :=
        fun b => rfl
      rw [each, mem_names_bind, first.names, List.flatMap_cons]
      simp only [unchanged, later, mem_completedIn_append, first.finds.ok_iff]
      constructor
      · rintro (⟨part, member, has⟩ | ⟨b, hOk, part, member, has⟩)
        · exact ⟨part, .inl member, has⟩
        · exact ⟨part, .inr ⟨⟨b, hOk⟩, member⟩, has⟩
      · rintro ⟨part, member | ⟨⟨b, hOk⟩, member⟩, has⟩
        · exact .inl ⟨part, member, has⟩
        · exact .inr ⟨b, hOk, part, member, has⟩

end Reading

/-! ## Fields -/

section Fields

variable {β γ : Type} {holder : Holder} {v : Json} {key : String}
  {check : Place → Json.Part v → List CheckEvent} {es : List CheckEvent}

theorem names_readString : (readString holder v key).names = [] := by
  rw [readString]
  split <;> rfl

theorem names_readFlag : (readFlag holder v key).names = [] := by
  rw [readFlag]
  split <;> rfl

theorem names_readKind {κ : Type} {category : Category} {ofTag? : String → Option κ} :
    (readKind category ofTag? v).names = [] := by
  rw [readKind]
  split
  · rfl
  · split <;> rfl
  · rfl

/-- Reading a string follows the history of its field, and then that of the rest. -/
theorem follows_string_bind {next : String → Reading γ} (rest : ∀ s, (next s).Follows es) :
    (readString holder v key >>= next).Follows (Need.string.history holder v check key ++ es) :=
  Reading.follows_bind (.of_silent names_readString finds_string) fun s _ => rest s

theorem follows_flag_bind {next : Bool → Reading γ} (rest : ∀ b, (next b).Follows es) :
    (readFlag holder v key >>= next).Follows (Need.flag.history holder v check key ++ es) :=
  Reading.follows_bind (.of_silent names_readFlag finds_flag) fun b _ => rest b

/-- A defect of a field itself leaves the rest unread. -/
theorem follows_fail_bind {cause : LoadError} {next : β → Reading γ} :
    ((.fail cause : Reading β) >>= next).Follows (.defect cause :: es) := by
  have found : (.fail cause : Reading β).Finds [cause] := Reading.finds_fail
  have failed : (.fail cause : Reading β).Traced [.defect cause] := .of_silent rfl found
  refine Reading.follows_bind failed ?_
  intro b hOk
  cases hOk

/-- A field whose value is read in its turn. -/
theorem follows_field_bind {read : Json → Reading β} {next : β → Reading γ} {place : Place}
    (reads : ∀ child : Json.Part v, (read child.val).Traced (check place child))
    (rest : ∀ b, (next b).Follows es) :
    (readField holder v key >>= fun child => read child.val >>= next).Follows
      ((Need.part place).history holder v check key ++ es) := by
  rw [readField]
  cases given : v.child? key with
  | none =>
    have own : (Need.part place).history holder v check key =
        [.defect (.missingField holder key)] := by
      simp [Need.history, Need.children, Need.defects, given]
    rw [own]
    exact follows_fail_bind
  | some child =>
    have own : (Need.part place).history holder v check key = check place child := by
      simp [Need.history, Need.children, Need.defects, given]
    rw [own]
    refine Reading.follows_pure_bind ?_
    exact Reading.follows_bind (reads child) fun b _ => rest b

/-- The items of a list that is there. -/
theorem follows_items {read : Json → Reading β} {next : List β → Reading γ} {place : Place}
    (child : Json.Part v) (reads : ∀ item : Json.Part v, (read item.val).Traced (check place item))
    (rest : ∀ bs, (next bs).Follows es) :
    ((match child.items? with
      | some items => pure items
      | none => .fail (.invalidField holder key .array)) >>= fun items : List (Json.Part v) =>
        Reading.each (fun item => read item.val) items >>= next).Follows
      ((child.items?.getD []).flatMap (check place) ++
        (listDefects holder key (fun _ => []) child).map .defect ++ es) := by
  rw [listDefects]
  cases child.items? with
  | none => exact follows_fail_bind
  | some items =>
    have own : ((some items).getD []).flatMap (check place) ++
        (items.flatMap fun _ => []).map .defect = items.flatMap (check place) := by simp
    dsimp only
    rw [own]
    refine Reading.follows_pure_bind ?_
    exact Reading.follows_bind (Reading.traced_each fun item _ => reads item) fun bs _ => rest bs

/-- Reading a list follows the histories of its field and its items, and then that of the rest. -/
theorem follows_list_bind {read : Json → Reading β} {next : List β → Reading γ} {place : Place}
    (reads : ∀ item : Json.Part v, (read item.val).Traced (check place item))
    (rest : ∀ bs, (next bs).Follows es) :
    (readList holder v key >>= fun items =>
        Reading.each (fun item => read item.val) items >>= next).Follows
      ((Need.parts place).history holder v check key ++ es) := by
  rw [readList, Need.history, Need.children, Need.defects, List.flatMap_map]
  cases v.child? key with
  | none => exact follows_fail_bind
  | some child => exact follows_items child reads rest

theorem follows_optionalList_bind {read : Json → Reading β} {next : List β → Reading γ}
    {place : Place} (reads : ∀ item : Json.Part v, (read item.val).Traced (check place item))
    (rest : ∀ bs, (next bs).Follows es) :
    (readListOrEmpty holder v key >>= fun items =>
        Reading.each (fun item => read item.val) items >>= next).Follows
      ((Need.optionalParts place).history holder v check key ++ es) := by
  rw [readListOrEmpty, Need.history, Need.children, Need.defects, List.flatMap_map]
  cases v.child? key with
  | none =>
    refine Reading.follows_pure_bind ?_
    exact Reading.follows_pure_bind (rest [])
  | some child => exact follows_items child reads rest

end Fields

/-! ## Every place -/

/-- A load that returns has the names of its tree, and one that does not has those of the parts
that are complete. -/
theorem Reading.Follows.close {α : Type} {r : Reading α} {namesOf : α → List String}
    {Doc : α → Prop} {part : Subdocument} {es : List CheckEvent} (h : r.Follows es)
    (finds : r.Finds (defectsIn es))
    (reads : ∀ {ns a}, r.Yields ns a ↔ ns = namesOf a ∧ Doc a)
    (describes : ∀ name, part.HasName name ↔ ∃ a, Doc a ∧ name ∈ namesOf a) :
    r.Traced (closeHistory part es) where
  finds := by rwa [defectsIn_closeHistory]
  names := by
    intro name
    rw [closeHistory]
    cases hOutcome : r.outcome with
    | ok a =>
      obtain ⟨hNames, doc⟩ := reads.mp ⟨rfl, hOutcome⟩
      have sound : defectsIn es = [] := finds.ok_iff.mpr ⟨a, hOutcome⟩
      rw [if_pos sound]
      constructor
      · intro entered
        refine ⟨part, mem_completedIn_append.mpr (.inr ⟨sound, List.mem_cons_self⟩), ?_⟩
        exact (describes name).mpr ⟨a, doc, hNames ▸ entered⟩
      · rintro ⟨other, member, has⟩
        rcases mem_completedIn_append.mp member with before | ⟨-, last⟩
        · exact h.covers other before name has
        · cases List.mem_singleton.mp last
          obtain ⟨b, hDoc, hName⟩ := (describes name).mp has
          exact (reads.mpr ⟨rfl, hDoc⟩).1 ▸ hName
    | error cause =>
      have defective : defectsIn es ≠ [] := by
        intro sound
        obtain ⟨a, hOk⟩ := finds.ok_iff.mp sound
        rw [hOutcome] at hOk
        cases hOk
      rw [if_neg defective]
      constructor
      · exact h.exact cause hOutcome name
      · rintro ⟨other, member, has⟩
        exact h.covers other member name has

/-- A node follows the fields of its kind. -/
theorem traced_node {κ γ : Type} {category : Category} {ofTag? : String → Option κ}
    {node : κ → NodeKind} {next : κ → Reading γ} {v : Json} {namesOf : γ → List String}
    {Doc : γ → Prop} (lookup : ∀ tag, NodeKind.ofTag? category tag = (ofTag? tag).map node)
    (body : ∀ kind, (next kind).Follows ((node kind).fields.flatMap fun field =>
      field.2.history (.node (node kind)) v (fun place child => place.history child.val) field.1))
    (finds : (readKind category ofTag? v >>= next).Finds ((Place.node category).defects v))
    (reads : ∀ {ns a},
      (readKind category ofTag? v >>= next).Yields ns a ↔ ns = namesOf a ∧ Doc a)
    (describes : ∀ name, Subdocument.HasName ⟨.node category, v⟩ name ↔
      ∃ a, Doc a ∧ name ∈ namesOf a) :
    (readKind category ofTag? v >>= next).Traced ((Place.node category).history v) := by
  have known := (Place.node category).defectsIn_history v
  cases hOutcome : (readKind category ofTag? v).outcome with
  | error e =>
    have noFields : (Place.node category).fields? v = none := by
      rw [Place.fields?]
      split
      next tag given =>
        rw [lookup, Option.map_eq_none_iff, Option.map_eq_none_iff,
          Option.eq_none_iff_forall_ne_some]
        intro kind hTag
        have found := (yields_readKind.mpr ⟨rfl, tag, given, hTag⟩ :
          (readKind category ofTag? v).Yields [] kind)
        rw [found.2] at hOutcome
        cases hOutcome
      next => rfl
    rw [Place.history, noFields]
    refine .of_silent ?_ finds
    rw [Reading.bind_of_error hOutcome]
    exact names_readKind
  | ok kind =>
    obtain ⟨-, tag, given, hTag⟩ := yields_readKind.mp ⟨rfl, hOutcome⟩
    have itsFields : (Place.node category).fields? v =
        some (.node (node kind), (node kind).fields) := by
      have given' : v.field? "kind" = some (.str tag) := given
      simp [Place.fields?, given', lookup, hTag]
    have whole : readKind category ofTag? v >>= next = next kind := by
      rw [Reading.bind_of_ok hOutcome, names_readKind]
      rfl
    rw [Place.history, itsFields] at known ⊢
    dsimp only at known ⊢
    rw [whole] at finds reads ⊢
    rw [defectsIn_closeHistory] at known
    exact (body kind).close (known ▸ finds) reads describes

/-- The reading of an entity name follows its history.  A name that is a string and one that is
an object return in the same way, once their fields are read. -/
theorem readEntityName_traced (v : Json) :
    (readEntityName v).Traced (Place.entityName.history v) := by
  have parents : ∀ child : Json.Part v,
      (readEntityName child.val).Traced (Place.entityName.history child.val) :=
    fun child => readEntityName_traced child.val
  have known := Place.entityName.defectsIn_history v
  have finds := readEntityName_finds v
  have describes : ∀ name, Subdocument.HasName ⟨.entityName, v⟩ name ↔
      ∃ n, EntityNameDoc v n ∧ name ∈ n.names := fun name => Iff.rfl
  have returns : ∀ {holder fields}, Place.entityName.fields? v = some (holder, fields) →
      (readEntityName v).Follows (fields.flatMap fun field =>
        field.2.history holder v (fun place child => place.history child.val) field.1) →
      (readEntityName v).Traced (Place.entityName.history v) := by
    intro holder fields given body
    rw [Place.history, given] at known ⊢
    dsimp only at known ⊢
    rw [defectsIn_closeHistory] at known
    exact body.close (known ▸ finds) readEntityName_yields_iff describes
  cases v with
  | str name =>
    refine returns rfl ?_
    rw [readEntityName]
    exact Reading.follows_enter
  | obj pairs =>
    refine returns rfl ?_
    rw [readEntityName]
    refine follows_field_bind parents fun parent => ?_
    exact follows_string_bind fun name => Reading.follows_enter
  | _ =>
    rw [readEntityName.eq_def] at finds ⊢
    rw [Place.history]
    exact .of_silent rfl finds
termination_by sizeOf v
decreasing_by exact child.sizeOf_val

mutual

/-- The reading of a type follows its history. -/
theorem readType_traced (v : Json) : (readType v).Traced ((Place.node .type).history v) := by
  have types : ∀ child : Json.Part v,
      (readType child.val).Traced ((Place.node .type).history child.val) :=
    fun child => readType_traced child.val
  have members : ∀ child : Json.Part v,
      (readMember child.val).Traced ((Place.node .objectMember).history child.val) :=
    fun child => readMember_traced child.val
  have finds := readType_finds v
  have reads : ∀ {ns t}, (readType v).Yields ns t ↔ ns = t.names ∧ TypeDoc v t :=
    readType_yields_iff
  rw [readType] at finds reads ⊢
  refine traced_node (fun tag => rfl) (fun kind => ?_) finds reads fun name => Iff.rfl
  cases kind with
  | primitive => exact follows_string_bind fun name => Reading.follows_enter
  | literal => exact follows_string_bind fun text => Reading.follows_pure
  | optional => exact follows_field_bind types fun element => Reading.follows_pure
  | array =>
    refine follows_field_bind types fun element => ?_
    exact follows_flag_bind fun isReadonly => Reading.follows_pure
  | object =>
    refine follows_optionalList_bind types fun mixins => ?_
    exact follows_list_bind members fun members => Reading.follows_pure
  | decorated => exact follows_field_bind types fun element => Reading.follows_pure
  | union => exact follows_list_bind types fun elements => Reading.follows_pure
  | reference =>
    refine follows_field_bind (fun child => readEntityName_traced child.val) fun name => ?_
    exact follows_optionalList_bind types fun arguments => Reading.follows_pure
  | paren => exact follows_field_bind types fun element => Reading.follows_pure
termination_by sizeOf v
decreasing_by all_goals exact child.sizeOf_val

/-- The reading of a member follows its history. -/
theorem readMember_traced (v : Json) :
    (readMember v).Traced ((Place.node .objectMember).history v) := by
  have types : ∀ child : Json.Part v,
      (readType child.val).Traced ((Place.node .type).history child.val) :=
    fun child => readType_traced child.val
  have finds := readMember_finds v
  have reads : ∀ {ns m}, (readMember v).Yields ns m ↔ ns = m.names ∧ MemberDoc v m :=
    readMember_yields_iff
  rw [readMember] at finds reads ⊢
  refine traced_node (fun tag => rfl) (fun kind => ?_) finds reads fun name => Iff.rfl
  cases kind with
  | prop =>
    refine follows_field_bind types fun type => follows_string_bind fun name => ?_
    refine follows_flag_bind fun isOptional => follows_flag_bind fun isReadonly => ?_
    exact Reading.follows_enter
  | indexer =>
    refine follows_field_bind types fun keyType => follows_field_bind types fun valueType => ?_
    refine follows_string_bind fun keyName => follows_flag_bind fun isReadonly => ?_
    exact Reading.follows_enter
termination_by sizeOf v
decreasing_by all_goals exact child.sizeOf_val

end

/-- The reading of a statement follows its history. -/
theorem readStatement_traced (v : Json) :
    (readStatement v).Traced ((Place.node .statement).history v) := by
  have finds := readStatement_finds v
  have reads : ∀ {ns s}, (readStatement v).Yields ns s ↔ ns = s.names ∧ StatementDoc v s :=
    readStatement_yields_iff
  rw [readStatement] at finds reads ⊢
  refine traced_node (fun tag => rfl) (fun kind => ?_) finds reads fun name => Iff.rfl
  cases kind with
  | useStrict => exact Reading.follows_pure
  | typeAlias =>
    refine follows_field_bind (fun child => readType_traced child.val) fun type => ?_
    refine follows_string_bind fun name => follows_flag_bind fun hasExport => ?_
    exact Reading.follows_enter

/-- The reading of a program follows the histories of its statements. -/
theorem readProgram_traced (v : Json) : (readProgram v).Traced (programHistory v) := by
  rw [readProgram, programHistory]
  cases readStatements v with
  | error cause =>
    have found : (.fail cause : Reading (Program String)).Finds [cause] := Reading.finds_fail
    exact .of_silent rfl found
  | ok items =>
    have statements : (Reading.each readStatement items).Traced
        (items.flatMap (Place.node .statement).history) :=
      Reading.traced_each fun item _ => readStatement_traced item
    have whole : (Reading.ofExcept (.ok items) >>= fun items =>
        Reading.each readStatement items >>= fun statements => pure (Program.mk statements)) =
        Reading.each readStatement items >>= fun statements => pure (Program.mk statements) :=
      Reading.bind_of_ok rfl _
    rw [whole]
    exact statements.bind_pure Program.mk

/-! ## Loading -/

theorem NameTable.resolve?_insertAll {t : NameTable} {names : List String} {h : Handle}
    {name : String} (known : t.resolve? h = some name) :
    (t.insertAll names).resolve? h = some name := by
  obtain ⟨more, hMore⟩ := t.names_insertAll_eq_append names
  rw [resolve?] at known ⊢
  rw [hMore, List.getElem?_append_left (List.getElem?_eq_some_iff.mp known).1, known]

section Loading

variable {τ : Type → Type} [Functor τ]

/-- What a load does to the names of a table, given the history of the load. -/
structure Loaded.Enters (l : Loaded τ) (namesOf : τ String → List String)
    (history : List CheckEvent) (table : NameTable) : Prop where
  /-- A handle keeps its name. -/
  keeps : ∀ h name, table.resolve? h = some name → l.1.resolve? h = some name
  /-- A load that returns a tree has entered the names of the tree, and no other name. -/
  of_ok : ∀ tree, l.2 = .ok tree → ∀ name,
    name ∈ l.1.names ↔ name ∈ table.names ∨ name ∈ namesOf (l.1.resolve <$> tree)
  /-- A load that fails with a defect has entered the names of the parts that return before
  this defect, and no other name. -/
  of_error : ∀ cause, l.2 = .error cause → ∃ (parts : List Subdocument) (after : List CheckEvent),
    history = parts.map .returned ++ .defect cause :: after ∧
      ∀ name, name ∈ l.1.names ↔ name ∈ table.names ∨ ∃ part ∈ parts, part.HasName name

theorem Reading.Traced.load (read : Json → Reading (τ String))
    {namesOf : τ String → List String} {Doc : Json → τ String → Prop}
    (reads : ∀ v ns t, (read v).Yields ns t ↔ ns = namesOf t ∧ Doc v t)
    (restore : ∀ (f : String → Handle) (g : Handle → String) (t : τ String),
      (∀ name ∈ namesOf t, g (f name) = name) → g <$> f <$> t = t)
    {v : Json} {history : List CheckEvent} (h : (read v).Traced history) (table : NameTable) :
    ((read v).load table).Enters namesOf history table where
  keeps := fun _ _ known => NameTable.resolve?_insertAll known
  of_ok := by
    intro tree loaded name
    have resolved := load_resolved (fun v ns t yields => ((reads v ns t).mp yields).1) restore
      table v
    rw [loaded] at resolved
    have entered := ((reads v _ _).mp ⟨rfl, resolved.symm⟩).1
    rw [← entered]
    exact NameTable.mem_insertAll
  of_error := by
    intro cause failed
    have hOutcome : (read v).outcome = .error cause := by
      cases hOutcome : (read v).outcome with
      | ok tree =>
        rw [Reading.load, hOutcome] at failed
        cases failed
      | error other =>
        rw [Reading.load, hOutcome] at failed
        cases failed
        rfl
    have finds := h.finds
    cases hDefects : defectsIn history with
    | nil =>
      obtain ⟨tree, hOk⟩ := finds.ok_iff.mp hDefects
      rw [hOutcome] at hOk
      cases hOk
    | cons first rest =>
      rw [hDefects] at finds
      have same : first = cause := Except.error.inj (Eq.trans (Eq.symm finds) hOutcome)
      subst same
      obtain ⟨after, cut⟩ := exists_after_of_defectsIn hDefects
      refine ⟨completedIn history, after, cut, fun name => ?_⟩
      rw [← h.names name]
      exact NameTable.mem_insertAll

end Loading

/-- What a load enters, at every place.  The handles of the names known before stay as they are.
If the load succeeds, the names of its tree are entered, to which the texts of literal types do
not belong.  If it fails, the names of the parts that returned before the first defect are
entered, and no name of the failing node, of a node around it or of anything after it.  A text
that is not JSON enters nothing. -/
theorem load_enters_names_of_completed_parts (table : NameTable) (v : Json) (text : String) :
    ((readEntityName v).load table).Enters EntityName.names (Place.entityName.history v) table ∧
      ((readType v).load table).Enters Ty.names ((Place.node .type).history v) table ∧
      ((readMember v).load table).Enters Member.names
        ((Place.node .objectMember).history v) table ∧
      ((readStatement v).load table).Enters Statement.names
        ((Place.node .statement).history v) table ∧
      ((readProgram v).load table).Enters Program.names (programHistory v) table ∧
      (loadProgram text table).Enters Program.names (textHistory text) table := by
  have program : ∀ v,
      ((readProgram v).load table).Enters Program.names (programHistory v) table := fun v =>
    (readProgram_traced v).load readProgram (fun _ _ _ => readProgram_yields_iff)
      (fun f g p => Program.map_map_eq_self) table
  refine ⟨?_, ?_, ?_, ?_, program v, ?_⟩
  · exact (readEntityName_traced v).load readEntityName (fun _ _ _ => readEntityName_yields_iff)
      (fun f g n => EntityName.map_map_eq_self) table
  · exact (readType_traced v).load readType (fun _ _ _ => readType_yields_iff)
      (fun f g t => Ty.map_map_eq_self) table
  · exact (readMember_traced v).load readMember (fun _ _ _ => readMember_yields_iff)
      (fun f g m => Member.map_map_eq_self) table
  · exact (readStatement_traced v).load readStatement (fun _ _ _ => readStatement_yields_iff)
      (fun f g s => Statement.map_map_eq_self) table
  · rw [loadProgram, loadText, textHistory]
    cases parseDocument text with
    | ok v => exact program v
    | error cause =>
      refine ⟨fun _ _ known => known, ?_, ?_⟩
      · intro tree loaded
        cases loaded
      · intro other failed
        cases failed
        exact ⟨[], [], rfl, fun name => by simp⟩

/-- The name of the reference and its first argument are complete, and the second argument has
no element type. -/
example :
    let first : Json := .obj [("kind", .str "PrimitiveType"), ("name", .str "string")]
    let second : Json := .obj [("kind", .str "ArrayType")]
    let reference : Json := .obj [("kind", .str "TypeReference"), ("name", .str "M"),
      ("typeArguments", .arr [first, second])]
    let statement : Json := .obj [("kind", .str "TypeAliasDecl"), ("name", .str "A"),
      ("aliasedType", reference)]
    ((readStatement statement).load .empty).1.names = ["M", "string"] := by decide +kernel

end FlowDecl
