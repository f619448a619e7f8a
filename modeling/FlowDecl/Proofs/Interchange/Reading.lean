import FlowDecl.Interchange.Load

/-!
# Laws of readings

A reading *yields* a result when it ends without a defect; the names it has
entered are part of the statement.  `Reading.yields_bind` takes a sequence of
readings apart, and each reading of a field has one lemma that says when it yields
what.

A value *has* a kind, a string, a flag or a list under a key in the sense of the
definitions of this module, which do not mention any reading.
-/

namespace FlowDecl

namespace Reading

variable {α β : Type}

/-- The reading ends without a defect. -/
def Yields (r : Reading α) (names : List String) (a : α) : Prop :=
  r.names = names ∧ r.outcome = .ok a

/-- A reading is its names and its result. -/
theorem Yields.eq {r : Reading α} {names : List String} {a : α} (h : r.Yields names a) :
    r = ⟨names, .ok a⟩ := by
  obtain ⟨rfl, hOutcome⟩ := h
  rw [← hOutcome]

theorem yields_pure {names : List String} {a b : α} :
    (pure a : Reading α).Yields names b ↔ names = [] ∧ b = a := by
  constructor
  · rintro ⟨rfl, h⟩
    cases h
    exact ⟨rfl, rfl⟩
  · rintro ⟨rfl, rfl⟩
    exact ⟨rfl, rfl⟩

theorem not_yields_fail {e : LoadError} {names : List String} {a : α} :
    ¬ (fail e : Reading α).Yields names a := by
  rintro ⟨-, h⟩
  cases h

/-- A reading that succeeds goes on with its result. -/
theorem bind_of_ok {r : Reading α} {a : α} (done : r.outcome = .ok a) (next : α → Reading β) :
    r >>= next = ⟨r.names ++ (next a).names, (next a).outcome⟩ := by
  change andThen r next = _
  rw [andThen, done]

theorem bind_of_error {r : Reading α} {e : LoadError} (failed : r.outcome = .error e)
    (next : α → Reading β) : r >>= next = ⟨r.names, .error e⟩ := by
  change andThen r next = _
  rw [andThen, failed]

/-- A name is entered by the first reading, or by the second one if that is reached. -/
theorem mem_names_bind {r : Reading α} {next : α → Reading β} {name : String} :
    name ∈ (r >>= next).names ↔
      name ∈ r.names ∨ ∃ a, r.outcome = .ok a ∧ name ∈ (next a).names := by
  cases hOutcome : r.outcome with
  | ok a => simp [bind_of_ok hOutcome]
  | error e => simp [bind_of_error hOutcome]

/-- A sequence of readings yields what its second part yields after the first. -/
theorem yields_bind {r : Reading α} {next : α → Reading β} {names : List String} {b : β} :
    (r >>= next).Yields names b ↔
      ∃ first second a, r.Yields first a ∧ (next a).Yields second b ∧ names = first ++ second := by
  change (andThen r next).Yields names b ↔ _
  unfold andThen
  constructor
  · intro h
    split at h
    next a hOutcome => exact ⟨r.names, _, a, ⟨rfl, hOutcome⟩, ⟨rfl, h.2⟩, h.1.symm⟩
    next e hOutcome => cases h.2
  · rintro ⟨first, second, a, hFirst, hSecond, rfl⟩
    obtain ⟨rfl, hOutcome⟩ := hFirst
    rw [hOutcome]
    exact ⟨congrArg (r.names ++ ·) hSecond.1, hSecond.2⟩

/-- A first part that enters no name. -/
theorem yields_bind_silent {r : Reading α} {P : α → Prop}
    (first : ∀ names a, r.Yields names a ↔ names = [] ∧ P a) {next : α → Reading β}
    {names : List String} {b : β} :
    (r >>= next).Yields names b ↔ ∃ a, P a ∧ (next a).Yields names b := by
  rw [yields_bind]
  constructor
  · rintro ⟨_, second, a, hFirst, hSecond, rfl⟩
    obtain ⟨rfl, ha⟩ := (first _ a).mp hFirst
    exact ⟨a, ha, hSecond⟩
  · rintro ⟨a, ha, hSecond⟩
    exact ⟨[], names, a, (first _ a).mpr ⟨rfl, ha⟩, hSecond, rfl⟩

theorem yields_enter_bind {name : String} {next : String → Reading β} {names : List String}
    {b : β} :
    (enter name >>= next).Yields names b ↔
      ∃ second, (next name).Yields second b ∧ names = name :: second := by
  rw [yields_bind]
  constructor
  · rintro ⟨_, second, a, ⟨rfl, ha⟩, hSecond, rfl⟩
    cases ha
    exact ⟨second, hSecond, rfl⟩
  · rintro ⟨second, hSecond, rfl⟩
    exact ⟨[name], second, name, ⟨rfl, rfl⟩, hSecond, rfl⟩

/-- A map changes the result and not the names. -/
theorem yields_map {f : α → β} {r : Reading α} {names : List String} {b : β} :
    (f <$> r).Yields names b ↔ ∃ a, r.Yields names a ∧ b = f a := by
  obtain ⟨entered, outcome⟩ := r
  cases outcome with
  | error e =>
    constructor
    · rintro ⟨-, h⟩
      cases h
    · rintro ⟨a, ⟨-, h⟩, -⟩
      cases h
  | ok a =>
    constructor
    · rintro ⟨rfl, h⟩
      cases h
      exact ⟨a, ⟨rfl, rfl⟩, rfl⟩
    · rintro ⟨a, ⟨rfl, h⟩, rfl⟩
      cases h
      exact ⟨rfl, rfl⟩

theorem yields_each_nil {read : α → Reading β} {names : List String} {bs : List β} :
    (each read []).Yields names bs ↔ names = [] ∧ bs = [] :=
  yields_pure

theorem yields_each_cons {read : α → Reading β} {a : α} {rest : List α} {names : List String}
    {bs : List β} :
    (each read (a :: rest)).Yields names bs ↔
      ∃ first second b ds, (read a).Yields first b ∧ (each read rest).Yields second ds ∧
        names = first ++ second ∧ bs = b :: ds := by
  rw [each, yields_bind]
  constructor
  · rintro ⟨first, second, b, hFirst, hSecond, rfl⟩
    obtain ⟨ds, hRest, rfl⟩ := yields_map.mp hSecond
    exact ⟨first, second, b, ds, hFirst, hRest, rfl, rfl⟩
  · rintro ⟨first, second, b, ds, hFirst, hRest, rfl, rfl⟩
    exact ⟨first, second, b, hFirst, yields_map.mpr ⟨ds, hRest, rfl⟩, rfl⟩

end Reading

/-! ## Fields of values -/

namespace Json

/-- The value is an object of a kind. -/
def HasKind (v : Json) (tag : String) : Prop := v.field? "kind" = some (.str tag)

/-- A key of the value holds a string. -/
def HasString (v : Json) (key : String) (s : String) : Prop := v.field? key = some (.str s)

/-- A key of the value holds a flag.  A flag is off if the key is absent or null. -/
def HasFlag (v : Json) (key : String) (b : Bool) : Prop :=
  v.field? key = some (.bool b) ∨
    b = false ∧ (v.field? key = some .null ∨ v.field? key = none)

/-- A key of the value holds a list. -/
def HasList (v : Json) (key : String) (items : List Json) : Prop :=
  v.field? key = some (.arr items)

/-- A key of the value holds a list or is absent, and then the list is empty. -/
def HasOptionalList (v : Json) (key : String) (items : List Json) : Prop :=
  v.HasList key items ∨ items = [] ∧ v.field? key = none

theorem child?_eq_some_iff {v : Json} {key : String} {part : Part v} :
    v.child? key = some part ↔ v.field? key = some part.val := by
  rw [← map_child?, Option.map_eq_some_iff]
  constructor
  · intro h
    exact ⟨part, h, rfl⟩
  · rintro ⟨other, h, same⟩
    rw [h, Subtype.ext same]

theorem child?_eq_none_iff {v : Json} {key : String} :
    v.child? key = none ↔ v.field? key = none := by
  rw [← map_child?, Option.map_eq_none_iff]

/-- A part has items exactly if its value is a list. -/
theorem Part.items?_eq_some_iff {whole : Json} {p : Part whole} {parts : List (Part whole)} :
    p.items? = some parts ↔ p.val = .arr (parts.map Subtype.val) := by
  have values := map_items? p
  constructor
  · intro h
    rw [h] at values
    split at values
    next vs hVal => rw [hVal, Option.some.inj values]
    next => cases values
  · intro h
    rw [h, Option.map_eq_some_iff] at values
    obtain ⟨others, hOthers, same⟩ := values
    rw [hOthers, (List.map_inj_right fun _ _ => Subtype.ext).mp same]

/-- The items of a list under a key, as parts of the value. -/
theorem HasList.parts {v : Json} {key : String} {items : List Json} (h : v.HasList key items) :
    ∃ parts : List (Part v), parts.map Subtype.val = items := by
  obtain ⟨part, hPart, hVal⟩ := Option.map_eq_some_iff.mp ((map_child? v key).trans h)
  have values := map_items? part
  rw [hVal, Option.map_eq_some_iff] at values
  obtain ⟨parts, -, same⟩ := values
  exact ⟨parts, same⟩

/-- The items of a list are smaller than the object, so reading them ends. -/
theorem HasList.sizeOf_lt {v : Json} {key : String} {items : List Json}
    (h : v.HasList key items) : sizeOf items < sizeOf v := by
  have list := sizeOf_field? h
  simp only [arr.sizeOf_spec] at list
  omega

theorem HasOptionalList.sizeOf_lt {v : Json} {tag key : String} {items : List Json}
    (hKind : v.HasKind tag) (h : v.HasOptionalList key items) : sizeOf items < sizeOf v := by
  obtain given | ⟨rfl, -⟩ := h
  · exact given.sizeOf_lt
  · have kind := sizeOf_field? hKind
    simp only [str.sizeOf_spec] at kind
    simp only [List.nil.sizeOf_spec]
    omega

end Json

/-! ## Readings of fields -/

section Fields

variable {κ β γ : Type} {category : Category} {ofTag? : String → Option κ} {holder : Holder}
  {v : Json} {key : String} {names : List String} {c : γ}

/-- A kind is read exactly if there is a known tag. -/
theorem yields_readKind {kind : κ} :
    (readKind category ofTag? v).Yields names kind ↔
      names = [] ∧ ∃ tag, v.HasKind tag ∧ ofTag? tag = some kind := by
  unfold readKind Json.HasKind
  split
  next absent => simp [Reading.not_yields_fail, absent]
  next tag given =>
    split
    next known hKnown => simp [Reading.yields_pure, given, hKnown, eq_comm]
    next hKnown => simp [Reading.not_yields_fail, given, hKnown]
  next other notString given =>
    simp only [Reading.not_yields_fail, given, Option.some.injEq, false_iff]
    rintro ⟨-, tag, rfl, -⟩
    exact notString tag rfl

theorem yields_readField {part : Json.Part v} :
    (readField holder v key).Yields names part ↔ names = [] ∧ v.field? key = some part.val := by
  rw [← Json.child?_eq_some_iff]
  unfold readField
  split
  next other given => simp [Reading.yields_pure, given, eq_comm]
  next absent => simp [Reading.not_yields_fail, absent]

theorem yields_readString {s : String} :
    (readString holder v key).Yields names s ↔ names = [] ∧ v.HasString key s := by
  unfold readString Json.HasString
  split
  next s' given => simp [Reading.yields_pure, given, eq_comm]
  next other notString given =>
    simp only [Reading.not_yields_fail, given, Option.some.injEq, false_iff]
    rintro ⟨-, rfl⟩
    exact notString s rfl
  next absent => simp [Reading.not_yields_fail, absent]

/-- A flag is read exactly if the field holds it or it is off. -/
theorem yields_readFlag {b : Bool} :
    (readFlag holder v key).Yields names b ↔ names = [] ∧ v.HasFlag key b := by
  unfold readFlag Json.HasFlag
  split
  next given => simp [Reading.yields_pure, given, eq_comm]
  next given => simp [Reading.yields_pure, given]
  next absent => simp [Reading.yields_pure, absent]
  next other notFlag notNull given =>
    simp only [Reading.not_yields_fail, given, Option.some.injEq, false_iff]
    rintro ⟨-, rfl | ⟨-, rfl | absent⟩⟩
    · exact notFlag b rfl
    · exact notNull rfl
    · cases absent

theorem yields_readList {parts : List (Json.Part v)} :
    (readList holder v key).Yields names parts ↔
      names = [] ∧ v.HasList key (parts.map Subtype.val) := by
  unfold readList Json.HasList
  split
  next absent => simp [Reading.not_yields_fail, Json.child?_eq_none_iff.mp absent]
  next part given =>
    rw [Json.child?_eq_some_iff.mp given, Option.some.injEq, ← Json.Part.items?_eq_some_iff]
    split
    next others hOthers => simp [Reading.yields_pure, hOthers, eq_comm]
    next notList => simp [Reading.not_yields_fail, notList]

/-- A list that may be absent is read exactly if the field holds it or it is empty. -/
theorem yields_readListOrEmpty {parts : List (Json.Part v)} :
    (readListOrEmpty holder v key).Yields names parts ↔
      names = [] ∧ v.HasOptionalList key (parts.map Subtype.val) := by
  unfold readListOrEmpty Json.HasOptionalList Json.HasList
  split
  next absent =>
    rw [Json.child?_eq_none_iff.mp absent, Reading.yields_pure, List.map_eq_nil_iff]
    simp
  next part given =>
    rw [Json.child?_eq_some_iff.mp given, Option.some.injEq, ← Json.Part.items?_eq_some_iff]
    split
    next others hOthers =>
      rw [Reading.yields_pure, hOthers, Option.some.injEq, eq_comm (a := others)]
      simp
    next notList => simp [Reading.not_yields_fail, notList]

/-! ## A field and what is read after it -/

theorem yields_kind_bind {next : κ → Reading γ} :
    (readKind category ofTag? v >>= next).Yields names c ↔
      ∃ kind, (∃ tag, v.HasKind tag ∧ ofTag? tag = some kind) ∧ (next kind).Yields names c :=
  Reading.yields_bind_silent fun _ _ => yields_readKind

theorem yields_string_bind {next : String → Reading γ} :
    (readString holder v key >>= next).Yields names c ↔
      ∃ s, v.HasString key s ∧ (next s).Yields names c :=
  Reading.yields_bind_silent fun _ _ => yields_readString

theorem yields_flag_bind {next : Bool → Reading γ} :
    (readFlag holder v key >>= next).Yields names c ↔
      ∃ b, v.HasFlag key b ∧ (next b).Yields names c :=
  Reading.yields_bind_silent fun _ _ => yields_readFlag

/-- A field whose value is read in its turn. -/
theorem yields_field_bind {read : Json → Reading β} {next : β → Reading γ} :
    (readField holder v key >>= fun part => read part.val >>= next).Yields names c ↔
      ∃ w, v.field? key = some w ∧
        ∃ first second b, (read w).Yields first b ∧ (next b).Yields second c ∧
          names = first ++ second := by
  rw [Reading.yields_bind_silent fun _ _ => yields_readField]
  simp only [Reading.yields_bind]
  constructor
  · rintro ⟨part, given, rest⟩
    exact ⟨part.val, given, rest⟩
  · rintro ⟨w, given, rest⟩
    exact ⟨⟨w, Json.sizeOf_field? given⟩, given, rest⟩

theorem Reading.each_parts (read : Json → Reading β) (parts : List (Json.Part v)) :
    each (fun part => read part.val) parts = each read (parts.map Subtype.val) := by
  induction parts with
  | nil => rfl
  | cons part parts ih => rw [each, ih, List.map_cons, each]

/-- A list whose items are read in their turn. -/
theorem yields_list_bind {read : Json → Reading β} {next : List β → Reading γ} :
    (readList holder v key >>= fun parts =>
        Reading.each (fun part => read part.val) parts >>= next).Yields names c ↔
      ∃ items, v.HasList key items ∧
        ∃ first second bs, (Reading.each read items).Yields first bs ∧
          (next bs).Yields second c ∧ names = first ++ second := by
  rw [Reading.yields_bind_silent fun _ _ => yields_readList]
  simp only [Reading.yields_bind, Reading.each_parts]
  constructor
  · rintro ⟨parts, given, rest⟩
    exact ⟨_, given, rest⟩
  · rintro ⟨items, given, rest⟩
    obtain ⟨parts, rfl⟩ := given.parts
    exact ⟨parts, given, rest⟩

/-- A list that may be absent, whose items are read in their turn. -/
theorem yields_optionalList_bind {read : Json → Reading β} {next : List β → Reading γ} :
    (readListOrEmpty holder v key >>= fun parts =>
        Reading.each (fun part => read part.val) parts >>= next).Yields names c ↔
      ∃ items, v.HasOptionalList key items ∧
        ∃ first second bs, (Reading.each read items).Yields first bs ∧
          (next bs).Yields second c ∧ names = first ++ second := by
  rw [Reading.yields_bind_silent fun _ _ => yields_readListOrEmpty]
  simp only [Reading.yields_bind, Reading.each_parts]
  constructor
  · rintro ⟨parts, given, rest⟩
    exact ⟨_, given, rest⟩
  · rintro ⟨items, given | ⟨rfl, absent⟩, rest⟩
    · obtain ⟨parts, rfl⟩ := given.parts
      exact ⟨parts, Or.inl given, rest⟩
    · exact ⟨[], Or.inr ⟨rfl, absent⟩, rest⟩

end Fields

end FlowDecl
