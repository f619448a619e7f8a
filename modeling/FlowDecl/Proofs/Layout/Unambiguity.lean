import FlowDecl.Proofs.Layout.Readback

/-!
# Printed texts have one reading

The text of a clear tree is read back to the canonical form of the tree.  There are four
ways to read a type (`Ty.ReadsBack`): as what can stand in front of `[]`, as an element of
a union, as a whole type, and after an equals sign or a colon, where a union is stacked.
Each way says what must not follow.  There is one lemma for each form of a type, and
`Ty.readsBack` goes through them along the tree.

A clear program is read back from its text (`scanProgram_listText`), so two clear programs
have the same text only if they have the same canonical form.
-/

namespace FlowDecl

/-! ## Types that are read back -/

section Types

open Scanner

variable {config : PrintConfig}

/-- The text of a type is read back to its canonical form, in each of the four ways. -/
structure Ty.ReadsBack (config : PrintConfig) (t : Ty String) : Prop where
  /-- As a whole type, element by element. -/
  elements (level : Nat) {rest : List Char} : EndsType rest →
    Reads (scanElements config level) (t.text config level) t.canonical.elements rest
  /-- After an equals sign or a colon. -/
  right (level : Nat) {rest : List Char} : rest.head? = some ';' →
    Reads (scanRight config level) (t.bodyText config level) t.canonical rest
  /-- As an element of a union. -/
  element (level : Nat) {rest : List Char} : t.unionElements? = none → EndsElement rest →
    Reads (scanElement config level) (t.text config level) t.canonical rest
  /-- In front of brackets.  What is made of the brackets is left open. -/
  operand (level : Nat) {s : String} {u : Ty String} {rest : List Char} : t.IsOperand →
    EndsOperand (s.toList ++ rest) → Reads (scanSuffixes t.canonical) s u rest →
    Reads (scanOperand config level) (t.text config level ++ s) u rest

/-- No brackets are taken where there are none. -/
theorem scanSuffixes_none (t : Ty String) {rest : List Char}
    (noSuffix : ¬ "[]".toList <+: rest) : Reads (scanSuffixes t) "" t rest := by
  refine .of_succ (.of_forall fun fuel => ?_)
  rw [scanSuffixes]
  exact takes_skip_bind noSuffix takes_pure

/-- A type that is read as an element of a union is a whole type in front of its end. -/
theorem scanElements_single {level : Nat} {text : String} {t : Ty String} {rest : List Char}
    (element : Reads (scanElement config level) text t rest) (noBar : ¬ " | ".toList <+: rest) :
    Reads (scanElements config level) text [t] rest := by
  refine .of_succ ?_
  filter_upwards [element] with fuel element
  rw [scanElements]
  exact element.bind_empty (takes_skip_bind noBar takes_pure)

/-- A type that is read as an element of a union is read in the wider ways. -/
theorem Ty.ReadsBack.of_element {t : Ty String} (notUnion : t.unionElements? = none)
    (element : ∀ level rest, EndsElement rest →
      Reads (scanElement config level) (t.text config level) t.canonical rest)
    (operand : t.IsOperand → ∀ level s u rest, EndsOperand (s.toList ++ rest) →
      Reads (scanSuffixes t.canonical) s u rest →
      Reads (scanOperand config level) (t.text config level ++ s) u rest) :
    t.ReadsBack config := by
  have still : t.canonical.unionElements? = none := by
    rw [Ty.unionElements?_canonical, notUnion, Option.map_none]
  have elements : ∀ level rest, EndsType rest →
      Reads (scanElements config level) (t.text config level) [t.canonical] rest := by
    intro level rest ends
    exact scanElements_single (element level rest ends.toEndsElement) ends.noBar
  refine ⟨fun level rest ends => ?_, fun level rest ends => ?_, fun level rest _ =>
    element level rest, fun level s u rest isOperand => operand isOperand level s u rest⟩
  · rw [Ty.elements_of_not_union still]
    exact elements level rest ends
  · have type : Reads (scanType config level) (t.text config level) t.canonical rest := by
      refine .of_succ ?_
      filter_upwards [elements level rest (.of_head? ends (by decide))] with fuel elements
      rw [scanType]
      exact elements.bind_empty takes_pure
    rw [Ty.bodyText_of_not_union config notUnion]
    refine .of_succ ?_
    filter_upwards [type] with fuel type
    rw [scanRight]
    exact takes_accept_bind type

/-- A type that is read in front of brackets is read in the wider ways. -/
theorem Ty.ReadsBack.of_operand {t : Ty String} (notUnion : t.unionElements? = none)
    (operand : ∀ level s u rest, EndsOperand (s.toList ++ rest) →
      Reads (scanSuffixes t.canonical) s u rest →
      Reads (scanOperand config level) (t.text config level ++ s) u rest) :
    t.ReadsBack config := by
  refine .of_element notUnion ?_ fun _ => operand
  intro level rest ends
  have whole := operand level "" _ rest ends.toEndsOperand (scanSuffixes_none _ ends.noSuffix)
  rw [String.append_empty] at whole
  refine .of_succ ?_
  filter_upwards [whole] with fuel whole
  rw [scanElement]
  exact whole.bind_empty (takes_skip_bind ends.noSpread takes_pure)

/-- A type without brackets of its own after it. -/
theorem Ty.ReadsBack.of_primary {t : Ty String} (notUnion : t.unionElements? = none)
    (primary : ∀ level rest, EndsOperand rest →
      Reads (scanPrimary config level) (t.text config level) t.canonical rest) :
    t.ReadsBack config := by
  refine .of_operand notUnion ?_
  intro level s u rest ends suffixes
  refine .of_succ ?_
  filter_upwards [primary level _ ends, suffixes] with fuel primary suffixes
  rw [scanOperand]
  exact primary.bind suffixes

/-! ## Types, one form after the other -/

theorem Ty.ReadsBack.type {t : Ty String} (h : t.ReadsBack config) (clear : t.Clear)
    (level : Nat) {rest : List Char} (ends : EndsType rest) :
    Reads (scanType config level) (t.text config level) t.canonical rest := by
  refine .of_succ ?_
  filter_upwards [h.elements level ends] with fuel elements
  rw [scanType, ← Ty.unite_elements clear]
  exact elements.bind_empty takes_pure

theorem scanPrimary_word {level : Nat} {w : String} {rest : List Char} (plain : Plain w)
    (ends : EndsOperand rest) : Reads (scanPrimary config level) w (.literal w) rest := by
  refine .of_succ (.of_forall fun fuel => ?_)
  rw [scanPrimary]
  refine takes_skip_bind (not_prefix_of_plain rfl (by decide) plain) ?_
  refine takes_skip_bind (not_prefix_of_plain rfl (by decide) plain) ?_
  exact (takes_word plain ends.word).bind_empty (takes_skip_bind ends.noArguments takes_pure)

/-- A name with arguments is read as an applied one. -/
theorem scanPrimary_applied {level : Nat} {name text : String} {ts : List (Ty String)}
    {rest : List Char} (plain : Plain name)
    (arguments : Reads (scanArguments config level) text ts rest) :
    Reads (scanPrimary config level) (name ++ ("<" ++ text)) (Ty.applied name ts) rest := by
  have skip : ∀ {p : String} {c : Char}, p.toList.head? = some c → c ∈ reserved →
      ¬ p.toList <+: (name ++ ("<" ++ text)).toList ++ rest := by
    intro p c starts hc
    rw [String.toList_append, List.append_assoc]
    exact not_prefix_of_plain starts hc plain
  refine .of_succ ?_
  filter_upwards [arguments] with fuel arguments
  rw [scanPrimary]
  refine takes_skip_bind (skip rfl (by decide)) (takes_skip_bind (skip rfl (by decide)) ?_)
  refine takes_word_bind plain (.of_head? (c := '<') ?_ (by decide)) ?_
  · simp
  · exact takes_accept_bind (arguments.bind_empty takes_pure)

/-- Elements in parentheses are read as an enclosed type. -/
theorem scanPrimary_enclosed {level : Nat} {text : String} {ts : List (Ty String)}
    {rest : List Char}
    (elements : Reads (scanElements config level) text ts (")".toList ++ rest)) :
    Reads (scanPrimary config level) ("(" ++ (text ++ ")")) (Ty.enclose config.absentWord ts)
      rest := by
  refine .of_succ ?_
  filter_upwards [elements] with fuel elements
  rw [scanPrimary]
  exact takes_accept_bind (elements.bind (takes_token.bind_empty takes_pure))

/-- A type whose text is a single word. -/
theorem Ty.ReadsBack.of_word {t : Ty String} {w : String} (canonical : t.canonical = .literal w)
    (text : ∀ level, t.text config level = w) (plain : Plain w)
    (notUnion : t.unionElements? = none) : t.ReadsBack config := by
  refine .of_primary notUnion ?_
  intro level rest ends
  rw [canonical, text]
  exact scanPrimary_word plain ends

theorem Ty.ReadsBack.paren {t : Ty String} (h : t.ReadsBack config) (clear : t.Clear) :
    (Ty.paren t).ReadsBack config := by
  refine .of_primary rfl ?_
  intro level rest _
  have whole : Ty.enclose config.absentWord t.canonical.elements = .paren t.canonical := by
    rw [Ty.enclose_of_ne, Ty.unite_elements clear]
    rintro text others starts rfl
    exact Ty.head_elements_ne_keyword clear starts config.absentWord_mem_keywords
  rw [Ty.canonical, ← whole, Ty.text, String.append_assoc]
  exact scanPrimary_enclosed (h.elements level .parenthesis)

/-- An optional type is read back as the union of the absent value and the type in it. -/
theorem Ty.ReadsBack.optional {t : Ty String} (h : t.ReadsBack config) (clear : t.Clear) :
    (Ty.optional t).ReadsBack config := by
  refine .of_primary rfl ?_
  intro level rest _
  have absent : Plain config.absentWord := by
    unfold PrintConfig.absentWord
    split <;> decide
  have first : Ty.ReadsBack config (.literal config.absentWord) :=
    .of_word rfl (fun _ => rfl) absent rfl
  have whole : Ty.enclose config.absentWord (.literal config.absentWord :: t.canonical.elements) =
      .optional t.canonical := by
    rw [Ty.enclose_absent _ (Ty.elements_ne_nil clear), Ty.unite_elements clear]
  have text : (Ty.optional t).text config level =
      "(" ++ (config.absentWord ++ (" | " ++ t.text config level) ++ ")") := by
    simp only [Ty.text, PrintConfig.absentHalf_eq, String.append_assoc]
  rw [Ty.canonical, ← whole, text]
  refine scanPrimary_enclosed (.of_succ ?_)
  filter_upwards [first.element level rfl .bar, h.elements level .parenthesis] with
    fuel first others
  rw [scanElements]
  exact first.bind (takes_accept_bind (others.bind_empty takes_pure))

/-- Arguments up to the bracket after them. -/
theorem scanArguments_reads {level : Nat} {rest : List Char} (t : Ty String)
    (ts : List (Ty String)) (clear : Ty.ClearList (t :: ts))
    (reads : ∀ u ∈ t :: ts, u.ReadsBack config) :
    Reads (scanArguments config level) (Ty.listText config level ", " (t :: ts) ++ ">")
      (Ty.canonicalList (t :: ts)) rest := by
  induction ts generalizing t with
  | nil =>
    refine .of_succ ?_
    filter_upwards [(reads t List.mem_cons_self).type clear.1 level .angle] with fuel first
    rw [scanArguments]
    refine first.bind (takes_skip_bind ?_ (takes_token.bind_empty takes_pure))
    simp
  | cons u ts ih =>
    have tail := ih u clear.2 fun w hw => reads w (List.mem_cons_of_mem t hw)
    rw [Ty.listText, String.append_assoc, String.append_assoc]
    refine .of_succ ?_
    filter_upwards [(reads t List.mem_cons_self).type clear.1 level .comma, tail] with
      fuel first tail
    rw [scanArguments]
    exact first.bind (takes_accept_bind (tail.bind_empty takes_pure))

/-- A type that is written as a name with arguments. -/
theorem Ty.ReadsBack.of_applied {t : Ty String} (name : String) (plain : Plain name)
    (first : Ty String) (others : List (Ty String)) (clear : Ty.ClearList (first :: others))
    (reads : ∀ u ∈ first :: others, u.ReadsBack config)
    (text : ∀ level, t.text config level =
      name ++ ("<" ++ (Ty.listText config level ", " (first :: others) ++ ">")))
    (canonical : Ty.applied name (Ty.canonicalList (first :: others)) = t.canonical)
    (notUnion : t.unionElements? = none) : t.ReadsBack config := by
  refine .of_primary notUnion ?_
  intro level rest _
  rw [text, ← canonical]
  exact scanPrimary_applied plain (scanArguments_reads first others clear reads)

/-- A type that is written as a keyword with one argument. -/
theorem Ty.ReadsBack.of_keyword {t u : Ty String} (h : t.ReadsBack config) (clear : t.Clear)
    (keyword : String) (plain : Plain keyword)
    (text : ∀ level, u.text config level = keyword ++ ("<" ++ (t.text config level ++ ">")))
    (canonical : Ty.applied keyword [t.canonical] = u.canonical)
    (notUnion : u.unionElements? = none) : u.ReadsBack config := by
  refine .of_applied keyword plain t [] ⟨clear, trivial⟩ ?_ text canonical notUnion
  intro v hv
  cases List.mem_singleton.mp hv
  exact h

/-- A decorated type is read back as the keyword applied to its element. -/
theorem Ty.ReadsBack.decorated {t : Ty String} (h : t.ReadsBack config) (clear : t.Clear) :
    (Ty.decorated t).ReadsBack config := by
  have start : "Readonly<" = "Readonly" ++ "<" := rfl
  refine h.of_keyword clear "Readonly" (by decide) ?_ rfl rfl
  intro level
  rw [Ty.text, start, String.append_assoc, String.append_assoc]

theorem Ty.ReadsBack.readonlyArray {t : Ty String} (h : t.ReadsBack config) (clear : t.Clear) :
    (Ty.array t true).ReadsBack config := by
  have start : "ReadonlyArray<" = "ReadonlyArray" ++ "<" := rfl
  refine h.of_keyword clear "ReadonlyArray" (by decide) ?_ rfl rfl
  intro level
  rw [Ty.text, start, String.append_assoc, String.append_assoc]

/-- An array is read back if its element needs no parentheses. -/
theorem Ty.ReadsBack.array {t : Ty String} (h : t.ReadsBack config) (isOperand : t.IsOperand) :
    (Ty.array t false).ReadsBack config := by
  refine .of_operand rfl ?_
  intro level s u rest ends suffixes
  rw [Ty.text, String.append_assoc]
  refine h.operand level isOperand .suffix (.of_succ ?_)
  filter_upwards [suffixes] with fuel suffixes
  rw [scanSuffixes]
  exact takes_accept_bind suffixes

theorem Ty.ReadsBack.reference {name : EntityName String} {arguments : List (Ty String)}
    (clear : (Ty.reference name arguments).Clear)
    (reads : ∀ t ∈ arguments, t.ReadsBack config) :
    (Ty.reference name arguments).ReadsBack config := by
  obtain ⟨⟨plain, notKeyword⟩, all⟩ := clear
  cases arguments with
  | nil => exact .of_word rfl (fun _ => rfl) plain rfl
  | cons t ts =>
    refine .of_applied name.text plain t ts all reads ?_
      (Ty.applied_of_not_keyword notKeyword _) rfl
    intro level
    simp only [Ty.text, String.append_assoc]

/-- The elements of a union on one line. -/
theorem scanElements_reads {level : Nat} {rest : List Char} (t : Ty String)
    (ts : List (Ty String)) (single : ∀ u ∈ t :: ts, u.unionElements? = none)
    (reads : ∀ u ∈ t :: ts, u.ReadsBack config) (ends : EndsType rest) :
    Reads (scanElements config level) (Ty.listText config level " | " (t :: ts))
      (Ty.canonicalList (t :: ts)) rest := by
  have element : ∀ w ∈ t :: ts, ∀ cs, EndsElement cs →
      Reads (scanElement config level) (w.text config level) w.canonical cs :=
    fun w hw cs => (reads w hw).element level (single w hw)
  clear single reads
  induction ts generalizing t with
  | nil =>
    have only := element t List.mem_cons_self rest ends.toEndsElement
    exact scanElements_single only ends.noBar
  | cons u ts ih =>
    have tail := ih u fun w hw => element w (List.mem_cons_of_mem t hw)
    rw [Ty.listText, String.append_assoc]
    refine .of_succ ?_
    filter_upwards [element t List.mem_cons_self _ .bar, tail] with fuel first tail
    rw [scanElements]
    exact first.bind (takes_accept_bind (tail.bind_empty takes_pure))

/-- The elements of a stacked union, each on a line of its own, up to the semicolon after them. -/
theorem scanStack_reads {level : Nat} {rest : List Char} (ts : List (Ty String))
    (single : ∀ t ∈ ts, t.unionElements? = none) (reads : ∀ t ∈ ts, t.ReadsBack config)
    (ends : rest.head? = some ';') :
    Reads (scanStack config level) (Ty.stackText config level ts) (Ty.canonicalList ts) rest := by
  have start : (lineEnd ++ indentText level ++ "| ").toList.head? = some '\r' := by
    simp [lineEnd]
  induction ts with
  | nil =>
    refine .of_succ (.of_forall fun fuel => ?_)
    rw [scanStack]
    refine takes_skip_bind (not_prefix_of_head? start ?_) takes_pure
    rw [Ty.stackText]
    intro other
    cases ends.symm.trans other
  | cons t ts ih =>
    have tail := ih (fun w hw => single w (List.mem_cons_of_mem t hw))
      (fun w hw => reads w (List.mem_cons_of_mem t hw))
    have between : EndsType ((Ty.stackText config level ts).toList ++ rest) := by
      cases ts with
      | nil => exact .of_head? ends (by decide)
      | cons u us => exact .of_head? (c := '\r') (by simp [Ty.stackText, lineEnd]) (by decide)
    have first := (reads t List.mem_cons_self).element (level + 1) (single t List.mem_cons_self)
      between.toEndsElement
    rw [Ty.stackText, String.append_assoc]
    refine .of_succ ?_
    filter_upwards [first, tail] with fuel first tail
    rw [scanStack]
    exact takes_accept_bind (first.bind (tail.bind_empty takes_pure))

/-- A union is read back if its elements are, inline and stacked. -/
theorem Ty.ReadsBack.union {elements : List (Ty String)} (clear : (Ty.union elements).Clear)
    (reads : ∀ t ∈ elements, t.ReadsBack config) : (Ty.union elements).ReadsBack config where
  elements level rest ends := by
    have single := clear.2.2
    obtain ⟨t, u, ts, rfl⟩ := clear.two_elements
    exact scanElements_reads t (u :: ts) single reads ends
  right level rest ends := by
    have single := clear.2.2
    refine .of_succ ?_
    filter_upwards [scanStack_reads elements single reads ends] with fuel stack
    rw [scanRight]
    refine takes_skip_bind ?_ (stack.bind_empty takes_pure)
    obtain ⟨t, u, ts, rfl⟩ := clear.two_elements
    simp [Ty.bodyText, Ty.stackText, lineEnd]
  element _ _ notUnion := by cases notUnion
  operand _ _ _ _ isOperand := isOperand.elim

/-! ## Members and objects -/

/-- The text of a member is read back, up to the semicolon after it. -/
def Member.ReadsBack (config : PrintConfig) (m : Member String) : Prop :=
  ∀ (level : Nat) {rest : List Char}, rest.head? = some ';' →
    Reads (scanMember config level) (m.text config level) m.canonical rest

theorem Member.ReadsBack.prop {name : String} {isOptional isReadonly : Bool} {type : Ty String}
    (plain : Plain name) (h : type.ReadsBack config) :
    (Member.prop name isOptional isReadonly type).ReadsBack config := by
  intro level rest ends
  let right := ":" ++ type.bodyText config level
  let afterName := markText "?" isOptional ++ right
  have text : (Member.prop name isOptional isReadonly type).text config level =
      markText "readonly " isReadonly ++ (name ++ afterName) := by
    simp only [Member.text_prop, String.append_assoc, afterName, right]
  have sign : ∃ c, (afterName.toList ++ rest).head? = some c ∧ c ∈ reserved ∧
      c ∉ "readonly ".toList := by
    cases isOptional with
    | true => exact ⟨'?', by simp [afterName, markText], by decide, by simp⟩
    | false => exact ⟨':', by simp [afterName, right, markText], by decide, by simp⟩
  obtain ⟨c, starts, hc, outside⟩ := sign
  rw [text, Member.canonical]
  refine .of_succ ?_
  filter_upwards [h.right level ends] with fuel body
  rw [scanMember]
  refine takes_mark_bind isReadonly ?_ ?_
  · rw [String.toList_append, List.append_assoc]
    exact not_prefix_of_word (c := ' ') (by simp) (by decide) plain.2 starts outside
  refine takes_skip_bind ?_ ?_
  · rw [String.toList_append, List.append_assoc]
    exact not_prefix_of_plain rfl (by decide) plain
  refine takes_word_bind plain (.of_head? starts hc) (takes_mark_bind isOptional ?_ ?_)
  · simp [right]
  · exact takes_token_bind (body.bind_empty takes_pure)

theorem Member.ReadsBack.indexer {keyName : String} {keyType valueType : Ty String}
    {isReadonly : Bool} (plain : Plain keyName) (key : keyType.ReadsBack config)
    (clearKey : keyType.Clear) (value : valueType.ReadsBack config)
    (clearValue : valueType.Clear) :
    (Member.indexer keyName keyType valueType isReadonly).ReadsBack config := by
  intro level rest ends
  let right := "]: " ++ valueType.text config level
  have text : (Member.indexer keyName keyType valueType isReadonly).text config level =
      markText "readonly " isReadonly ++ ("[" ++ (keyName ++ (": " ++
        (keyType.text config level ++ right)))) := by
    simp only [Member.text, String.append_assoc, right]
  have afterKey : EndsType (right.toList ++ rest) :=
    .of_head? (c := ']') (by simp [right]) (by decide)
  rw [text, Member.canonical]
  refine .of_succ ?_
  filter_upwards [key.type clearKey level afterKey,
    value.type clearValue level (.of_head? ends (by decide))] with fuel key value
  rw [scanMember]
  refine takes_mark_bind isReadonly (by simp) (takes_accept_bind ?_)
  refine takes_word_bind plain (.of_head? (c := ':') (by simp) (by decide)) (takes_token_bind ?_)
  exact key.bind (takes_token_bind (value.bind_empty takes_pure))

/-- The members of an object, up to the brace after them.  A member is told from the brace by its
indentation, which is one level deeper. -/
theorem scanBody_reads {level : Nat} {rest : List Char} (ms : List (Member String))
    (reads : ∀ m ∈ ms, m.ReadsBack config) :
    Reads (scanBody config level)
      (Member.bodyText config (level + 1) ms ++ (indentText level ++ "\x7d"))
      (Member.canonicalList ms) rest := by
  induction ms with
  | nil =>
    refine .of_succ (.of_forall fun fuel => ?_)
    rw [Member.bodyText, String.empty_append, scanBody]
    exact takes_accept.bind_empty takes_pure
  | cons m ms ih =>
    have tail := ih fun w hw => reads w (List.mem_cons_of_mem m hw)
    let others := lineEnd ++ (Member.bodyText config (level + 1) ms ++ (indentText level ++ "\x7d"))
    have text : Member.bodyText config (level + 1) (m :: ms) ++ (indentText level ++ "\x7d") =
        indentText (level + 1) ++ (m.text config (level + 1) ++ (";" ++ others)) := by
      simp only [Member.bodyText, String.append_assoc, others]
    have first := reads m List.mem_cons_self (level + 1)
      (by simp : ((";" ++ others).toList ++ rest).head? = some ';')
    rw [text]
    refine .of_succ ?_
    filter_upwards [first, tail] with fuel first tail
    rw [scanBody]
    refine takes_skip_bind ?_ (takes_token_bind ?_)
    · simp [indentText, indentUnit, List.append_assoc]
    · exact first.bind (takes_token_bind (takes_token_bind (tail.bind_empty takes_pure)))

/-- An object without mixins is read back if its members are. -/
theorem Ty.ReadsBack.plainObject {members : List (Member String)}
    (reads : ∀ m ∈ members, m.ReadsBack config) :
    (Ty.object [] members).ReadsBack config := by
  refine .of_primary rfl ?_
  intro level rest _
  have text : (Ty.object [] members).text config level = "\x7b" ++ (lineEnd ++
      (Member.bodyText config (level + 1) members ++ (indentText level ++ "\x7d"))) := by
    simp only [Ty.text, Ty.mixinText, String.append_assoc, String.empty_append]
  rw [text]
  refine .of_succ ?_
  filter_upwards [scanBody_reads members reads] with fuel body
  rw [scanPrimary]
  refine takes_skip_bind (by simp) (takes_accept_bind (takes_token_bind ?_))
  exact body.bind_empty takes_pure

/-- An object with the types spread into it. -/
theorem scanElement_object {level : Nat} {rest : List Char} {members : List (Member String)}
    (mixins : List (Ty String)) (operands : ∀ t ∈ mixins, t.IsOperand)
    (reads : ∀ t ∈ mixins, t.ReadsBack config)
    (readsMembers : ∀ m ∈ members, m.ReadsBack config) (ends : EndsElement rest) :
    Reads (scanElement config level) ((Ty.object mixins members).text config level)
      (.object (Ty.canonicalList mixins) (Member.canonicalList members)) rest := by
  induction mixins with
  | nil => exact (Ty.ReadsBack.plainObject readsMembers).element level rfl ends
  | cons t ts ih =>
    have tail := ih (fun w hw => operands w (List.mem_cons_of_mem t hw))
      (fun w hw => reads w (List.mem_cons_of_mem t hw))
    let others := " & " ++ (Ty.object ts members).text config level
    have text : (Ty.object (t :: ts) members).text config level =
        t.text config level ++ "" ++ others := by
      simp only [Ty.text, Ty.mixinText, String.append_assoc, String.empty_append, others]
    have spread : EndsOperand ("".toList ++ (others.toList ++ rest)) := by
      rw [String.toList_empty, List.nil_append]
      exact .spread
    have noSuffix : ¬ "[]".toList <+: others.toList ++ rest := by simp [others]
    have first := (reads t List.mem_cons_self).operand level (operands t List.mem_cons_self)
      spread (scanSuffixes_none _ noSuffix)
    rw [text]
    refine .of_succ ?_
    filter_upwards [first, tail] with fuel first tail
    rw [scanElement]
    exact first.bind (takes_accept_bind (tail.bind_empty takes_pure))

/-- An object is read back if its mixins and its members are. -/
theorem Ty.ReadsBack.object {mixins : List (Ty String)} {members : List (Member String)}
    (clear : (Ty.object mixins members).Clear) (reads : ∀ t ∈ mixins, t.ReadsBack config)
    (readsMembers : ∀ m ∈ members, m.ReadsBack config) :
    (Ty.object mixins members).ReadsBack config := by
  cases mixins with
  | nil => exact .plainObject readsMembers
  | cons t ts =>
    refine .of_element rfl (fun level rest ends => ?_) fun isOperand => isOperand.elim
    exact scanElement_object (t :: ts) clear.2.1 reads readsMembers ends

/-! ## Every clear tree -/

mutual

/-- The text of a clear type is read back. -/
theorem Ty.readsBack : ∀ {t : Ty String}, t.Clear → t.ReadsBack config
  | .primitive _, clear => .of_word rfl (fun _ => rfl) clear.1 rfl
  | .literal _, clear => .of_word rfl (fun _ => rfl) clear.1 rfl
  | .optional _, clear => .optional (Ty.readsBack clear) clear
  | .array _ true, clear => .readonlyArray (Ty.readsBack clear.1) clear.1
  | .array _ false, clear => .array (Ty.readsBack clear.1) (clear.2 rfl)
  | .object _ _, clear =>
    .object clear (Ty.readsBack_of_mem clear.1) (Member.readsBack_of_mem clear.2.2)
  | .decorated _, clear => .decorated (Ty.readsBack clear) clear
  | .union _, clear => .union clear (Ty.readsBack_of_mem clear.1)
  | .reference _ _, clear => .reference clear (Ty.readsBack_of_mem clear.2)
  | .paren _, clear => .paren (Ty.readsBack clear) clear

theorem Ty.readsBack_of_mem : ∀ {ts : List (Ty String)}, Ty.ClearList ts →
    ∀ t ∈ ts, t.ReadsBack config
  | _ :: _, clear, _, .head _ => Ty.readsBack clear.1
  | _ :: _, clear, _, .tail _ member => Ty.readsBack_of_mem clear.2 _ member

theorem Member.readsBack : ∀ {m : Member String}, m.Clear → m.ReadsBack config
  | .prop _ _ _ _, clear => .prop clear.1 (Ty.readsBack clear.2)
  | .indexer _ _ _ _, clear =>
    .indexer clear.1 (Ty.readsBack clear.2.1) clear.2.1 (Ty.readsBack clear.2.2) clear.2.2

theorem Member.readsBack_of_mem : ∀ {ms : List (Member String)}, Member.ClearList ms →
    ∀ m ∈ ms, m.ReadsBack config
  | _ :: _, clear, _, .head _ => Member.readsBack clear.1
  | _ :: _, clear, _, .tail _ member => Member.readsBack_of_mem clear.2 _ member

end

end Types

/-! ## Statements and programs -/

section Programs

open Scanner

variable (config : PrintConfig)

/-- A clear statement is read back up to leaf forms. -/
theorem scanStatement_reads {s : Statement String} (clear : s.Clear) (rest : List Char) :
    Reads (scanStatement config) (s.text config false) s.canonical rest := by
  cases s with
  | useStrict =>
    refine .of_forall fun fuel => ?_
    rw [scanStatement]
    exact takes_accept.bind_empty takes_pure
  | typeAlias name hasExport type =>
    have text : (Statement.typeAlias name hasExport type).text config false =
        markText "export " hasExport ++ ("type " ++ (name ++ (" =" ++
          (type.bodyText config 0 ++ ";")))) := by
      simp only [Statement.text, Bool.false_or, String.append_assoc]
    have reads : type.ReadsBack config := Ty.readsBack clear.2
    have semicolon : (";".toList ++ rest).head? = some ';' := by simp
    filter_upwards [reads.right 0 semicolon] with fuel body
    rw [text, scanStatement, Statement.canonical]
    refine takes_skip_bind ?_ (takes_mark_bind hasExport (by simp) (takes_token_bind ?_))
    · cases hasExport <;> simp [markText]
    refine takes_word_bind clear.1 (.of_head? (c := ' ') (by simp) (by decide)) ?_
    exact takes_token_bind (body.bind (takes_token.bind_empty takes_pure))

/-- Clear statements are read back one after the other, up to the end of the text. -/
theorem scanStatements_reads {ss : List (Statement String)} (clear : ∀ s ∈ ss, s.Clear) :
    Reads (scanStatements config) (Statement.listText config false ss)
      (ss.map Statement.canonical) [] := by
  induction ss with
  | nil =>
    refine .of_succ (.of_forall fun fuel => ?_)
    rw [scanStatements]
    exact takes_atEnd_bind rfl takes_pure
  | cons s ss ih =>
    have tail := ih fun w hw => clear w (List.mem_cons_of_mem s hw)
    have first := scanStatement_reads config (clear s List.mem_cons_self)
    have left : ((s.text config false ++ (lineEnd ++ lineEnd ++
        Statement.listText config false ss)).toList ++ []).isEmpty = false := by
      simp [lineEnd]
    rw [Statement.listText, String.append_assoc]
    refine .of_succ ?_
    filter_upwards [first _, tail] with fuel first tail
    rw [scanStatements]
    exact takes_atEnd_bind left (first.bind (takes_token_bind (tail.bind_empty takes_pure)))

/-- With enough fuel, the text of a clear program is read back to the canonical form of the
program. -/
theorem scanProgram_listText {p : Program String} (clear : p.Clear) :
    ∀ᶠ fuel in Filter.atTop,
      scanProgram config fuel (Statement.listText config false p.statements) =
        some p.canonical := by
  filter_upwards [scanStatements_reads config clear] with fuel whole
  rw [Takes, List.append_nil] at whole
  rw [scanProgram, whole]
  rfl

/-- Clear programs have the same text exactly if they have the same canonical form. -/
theorem programText_eq_iff_canonical_eq (names names' : NameTable) (p q : Program Handle)
    (clear : (p.map names.resolve).Clear) (clear' : (q.map names'.resolve).Clear) :
    programText config false names p = programText config false names' q ↔
      (p.map names.resolve).canonical = (q.map names'.resolve).canonical := by
  rw [programText_eq_listText, programText_eq_listText]
  constructor
  · intro same
    obtain ⟨fuel, read, read'⟩ :=
      ((scanProgram_listText config clear).and (scanProgram_listText config clear')).exists
    rw [same, read'] at read
    exact (Option.some.inj read).symm
  · intro same
    rw [← Program.listText_canonical, same, Program.listText_canonical]

end Programs

/-- A qualified name and a built-in type that are written alike make no difference.  A
read-only array does. -/
theorem programText_react_node :
    let names : NameTable := ⟨["React", "Node", "ReactNode", "Props"], by decide⟩
    let qualified : Ty Handle := .reference (.qualified (.identifier ⟨0⟩) ⟨1⟩) []
    let builtin : Ty Handle := .primitive ⟨2⟩
    let program (leaf : Ty Handle) (isReadonly : Bool) : Program Handle :=
      ⟨[.typeAlias ⟨3⟩ true
        (.object [] [.prop ⟨1⟩ true false (.union [leaf, .array (.optional leaf) isReadonly])])]⟩
    ((program qualified false).map names.resolve).Clear ∧
      ((program builtin false).map names.resolve).Clear ∧
      ((program builtin true).map names.resolve).Clear ∧
      programText ⟨false⟩ false names (program qualified false) =
        programText ⟨false⟩ false names (program builtin false) ∧
      programText ⟨false⟩ false names (program qualified false) ≠
        programText ⟨false⟩ false names (program builtin true) := by
  intro names qualified builtin program
  have clear : ∀ leaf isReadonly, (leaf.map names.resolve).Clear →
      (leaf.map names.resolve).unionElements? = none →
      ((program leaf isReadonly).map names.resolve).Clear := by
    intro leaf isReadonly hLeaf single s hs
    cases List.mem_singleton.mp hs
    refine ⟨by decide, trivial, nofun, ⟨by decide, ?_⟩, trivial⟩
    refine ⟨⟨hLeaf, ⟨hLeaf, fun _ => trivial⟩, trivial⟩, Nat.le_refl 2, ?_⟩
    rintro t (_ | ⟨_, _ | ⟨_, ⟨⟩⟩⟩)
    · exact single
    · rfl
  have first := clear qualified false ⟨by decide, trivial⟩ rfl
  have second := clear builtin false (by decide : ClearWord _) rfl
  have third := clear builtin true (by decide : ClearWord _) rfl
  refine ⟨first, second, third, ?_, ?_⟩
  · exact (programText_eq_iff_canonical_eq ⟨false⟩ names names _ _ first second).mpr rfl
  · intro same
    have trees := (programText_eq_iff_canonical_eq ⟨false⟩ names names _ _ first third).mp same
    cases trees

end FlowDecl
