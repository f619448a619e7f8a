import FlowDecl.Proofs.Interchange.Grammar
import FlowDecl.Proofs.Layout.Text
import FlowDecl.Proofs.Tree

/-!
# Filled positions

Every type stands at a position of a statement, of a member or of another type.  A document may
leave a position without text: a union that has no elements is loaded, and nothing is printed
of it (`empty_union_prints_nothing`).

Nothing else leaves a position empty (`positions_are_filled_iff`).  If the words of a type are not
empty, nothing is printed of it only if it is a union without elements, or a union of one such
type (`Ty.Hollow`).  All other types have words or marks of their own, whatever their parts are.
So the positions of a program are filled exactly when it has no union without elements, at any
depth.
-/

namespace FlowDecl

/-! ## Hollow types -/

/-- A type without words and marks. -/
inductive Ty.Hollow {ν : Type} : Ty ν → Prop where
  | empty : Hollow (.union [])
  | single {t : Ty ν} : Hollow t → Hollow (.union [t])

/-- An entity name has a text if its names have one. -/
theorem EntityName.text_ne_empty {name : EntityName String}
    (proper : ∀ word ∈ name.names, word ≠ "") : name.text ≠ "" := by
  cases name with
  | identifier name => exact proper name List.mem_cons_self
  | qualified parent name =>
    have last := proper name (List.mem_append_right _ List.mem_cons_self)
    rw [text]
    exact fun none => last (String.append_eq_empty_iff.mp none).2

section Texts

variable {ν : Type} {f : ν → String}

/-- Only the text of a hollow type is empty. -/
theorem Ty.text_eq_empty_iff (config : PrintConfig) (level : Nat) : ∀ {t : Ty ν},
    (∀ word ∈ (t.map f).words, word ≠ "") → ((t.map f).text config level = "" ↔ t.Hollow)
  | .primitive name, proper => iff_of_false (proper _ List.mem_cons_self) nofun
  | .literal text, proper => iff_of_false (proper _ List.mem_cons_self) nofun
  | .optional element, _ => iff_of_false (by simp [Ty.map, Ty.text]) nofun
  | .array element true, _ => iff_of_false (by simp [Ty.map, Ty.text]) nofun
  | .array element false, _ => iff_of_false (by simp [Ty.map, Ty.text]) nofun
  | .object mixins members, _ => iff_of_false (by simp [Ty.map, Ty.text]) nofun
  | .decorated element, _ => iff_of_false (by simp [Ty.map, Ty.text]) nofun
  | .union [], _ => iff_of_true rfl .empty
  | .union [t], proper => by
    have alone : ∀ word ∈ (t.map f).words, word ≠ "" := (List.forall_mem_append.1 proper).1
    have element : (t.map f).text config level = "" ↔ t.Hollow :=
      Ty.text_eq_empty_iff config level alone
    constructor
    · intro none
      exact .single (element.mp none)
    · rintro (_ | hollow)
      exact element.mpr hollow
  | .union (t :: u :: ts), _ =>
    iff_of_false (by simp [Ty.map, Ty.mapList, Ty.text, Ty.listText]) nofun
  | .reference name [], proper =>
    iff_of_false (EntityName.text_ne_empty (List.forall_mem_append.1 proper).1) nofun
  | .reference name (argument :: arguments), _ =>
    iff_of_false (by simp [Ty.map, Ty.mapList, Ty.text]) nofun
  | .paren element, _ => iff_of_false (by simp [Ty.map, Ty.text]) nofun

/-! ## Types inside trees -/

/-- The nodes and the words of a type are among those of a tree. -/
structure Ty.Within (f : ν → String) (u : Ty ν) (nodes : List (Node ν)) (words : List String) :
    Prop where
  /-- The nodes of the type are nodes of the tree. -/
  nodes : u.nodes ⊆ nodes
  /-- The words of the type are words of the tree. -/
  words : (u.map f).words ⊆ words

theorem Ty.Within.mono {u : Ty ν} {nodes nodes' : List (Node ν)} {words words' : List String}
    (within : u.Within f nodes words) (more : nodes ⊆ nodes') (more' : words ⊆ words') :
    u.Within f nodes' words' :=
  ⟨List.Subset.trans within.nodes more, List.Subset.trans within.words more'⟩

theorem Ty.Within.self (t : Ty ν) : t.Within f t.nodes (t.map f).words :=
  ⟨List.Subset.refl _, List.Subset.refl _⟩

/-- A type that is a node of another one is the other one or a node inside it. -/
theorem Ty.Within.of_node {t u : Ty ν} {inner : List (Node ν)} (split : t.nodes = .type t :: inner)
    (deeper : .type u ∈ inner → u.Within f inner (t.map f).words) (member : .type u ∈ t.nodes) :
    u.Within f t.nodes (t.map f).words := by
  rw [split] at member
  obtain same | member := List.mem_cons.mp member
  · cases same
    exact .self _
  · exact (deeper member).mono (split ▸ List.subset_cons_self _ _) (List.Subset.refl _)

mutual

/-- A type that is a node of a tree is within the tree. -/
theorem Ty.within {u : Ty ν} : ∀ {t : Ty ν}, .type u ∈ t.nodes → u.Within f t.nodes (t.map f).words
  | .primitive _, member => .of_node rfl nofun member
  | .literal _, member => .of_node rfl nofun member
  | .optional _, member => .of_node rfl (fun deeper => Ty.within deeper) member
  | .array _ _, member => .of_node rfl (fun deeper => Ty.within deeper) member
  | .object mixins members, member => by
    refine .of_node rfl (fun deeper => ?_) member
    obtain deeper | deeper := List.mem_append.mp deeper
    · exact (Ty.within_list deeper).mono (List.subset_append_left _ _)
        (List.subset_append_left _ _)
    · exact (Member.within_list deeper).mono (List.subset_append_right _ _)
        (List.subset_append_right _ _)
  | .decorated _, member => .of_node rfl (fun deeper => Ty.within deeper) member
  | .union _, member => .of_node rfl (fun deeper => Ty.within_list deeper) member
  | .reference _ _, member => by
    refine .of_node rfl (fun deeper => ?_) member
    exact (Ty.within_list deeper).mono (List.Subset.refl _) (List.subset_append_right _ _)
  | .paren _, member => .of_node rfl (fun deeper => Ty.within deeper) member

theorem Ty.within_list {u : Ty ν} : ∀ {ts : List (Ty ν)}, .type u ∈ Ty.listNodes ts →
    u.Within f (Ty.listNodes ts) (Ty.listWords (Ty.mapList f ts))
  | t :: ts, member => by
    obtain member | member := List.mem_append.mp member
    · exact (Ty.within member).mono (List.subset_append_left _ _) (List.subset_append_left _ _)
    · exact (Ty.within_list member).mono (List.subset_append_right _ _)
        (List.subset_append_right _ _)

theorem Member.within {u : Ty ν} : ∀ {m : Member ν}, .type u ∈ m.nodes →
    u.Within f m.nodes (m.map f).words
  | .prop name isOptional isReadonly type, member => by
    obtain same | member := List.mem_cons.mp member
    · cases same
    · exact (Ty.within member).mono (List.subset_cons_self _ _) (List.subset_cons_self _ _)
  | .indexer keyName keyType valueType isReadonly, member => by
    obtain same | member := List.mem_cons.mp member
    · cases same
    · obtain member | member := List.mem_append.mp member
      · exact (Ty.within member).mono (List.subset_cons_of_subset _ (List.subset_append_left _ _))
          (List.subset_cons_of_subset _ (List.subset_append_left _ _))
      · exact (Ty.within member).mono (List.subset_cons_of_subset _ (List.subset_append_right _ _))
          (List.subset_cons_of_subset _ (List.subset_append_right _ _))

theorem Member.within_list {u : Ty ν} : ∀ {ms : List (Member ν)}, .type u ∈ Member.listNodes ms →
    u.Within f (Member.listNodes ms) (Member.listWords (Member.mapList f ms))
  | m :: ms, member => by
    obtain member | member := List.mem_append.mp member
    · exact (Member.within member).mono (List.subset_append_left _ _) (List.subset_append_left _ _)
    · exact (Member.within_list member).mono (List.subset_append_right _ _)
        (List.subset_append_right _ _)

end

theorem Program.within {u : Ty ν} {p : Program ν} (member : .type u ∈ p.nodes) :
    u.Within f p.nodes (p.map f).words := by
  obtain ⟨s, there, member⟩ := List.mem_flatMap.mp member
  cases s with
  | useStrict => cases member
  | typeAlias name hasExport type =>
    have there' : Statement.map f (.typeAlias name hasExport type) ∈ (p.map f).statements :=
      List.mem_map_of_mem there
    refine (Ty.within member).mono ?_ ?_
    · exact fun n inner => List.mem_flatMap.mpr ⟨_, there, inner⟩
    · exact fun w inner => List.mem_flatMap.mpr ⟨_, there', List.mem_cons_of_mem _ inner⟩

/-- A hollow type has a union without elements in it. -/
theorem Ty.Hollow.exists_empty {t : Ty ν} (hollow : t.Hollow) : .type (.union []) ∈ t.nodes := by
  induction hollow with
  | empty => exact List.mem_cons_self
  | single _ inner => exact List.mem_cons_of_mem _ (List.mem_append_left _ inner)

end Texts

/-! ## Printed types -/

/-- A printer has printed something since. -/
def Printer.PrintsBetween (before after : Printer) : Prop :=
  ∃ text, text ≠ "" ∧ after.sink.text = before.sink.text ++ text

/-- A printer prints something between two states exactly if the steps have a text. -/
theorem Printer.printsBetween_iff (p : Printer) {steps : List Step} (balanced : Balanced steps) :
    p.PrintsBetween (p.print steps) ↔ textFrom p.sink.level steps ≠ "" := by
  rw [print_eq p balanced]
  constructor
  · rintro ⟨text, some, whole⟩
    rw [String.append_right_inj] at whole
    rwa [whole]
  · intro some
    exact ⟨_, some, rfl⟩

/-- Printing a type prints something exactly if the type is not hollow. -/
theorem Printer.printsBetween_printType {names : NameTable} {t : Ty Handle}
    (proper : ∀ word ∈ (t.map names.resolve).words, word ≠ "") (p : Printer) :
    p.PrintsBetween (p.printType names t) ↔ ¬t.Hollow := by
  rw [printType, p.printsBetween_iff (Ty.layout_balanced _ _), Ty.textFrom_layout]
  exact not_congr (Ty.text_eq_empty_iff p.config p.sink.level proper)

/-- A stacked union has a line for each of its elements. -/
theorem Printer.printsBetween_printUnionStacked (names : NameTable) (elements : List (Ty Handle))
    (p : Printer) : p.PrintsBetween (p.printUnionStacked names elements) ↔ elements ≠ [] := by
  rw [printUnionStacked, p.printsBetween_iff (unionStackedLayout_balanced _ _)]
  cases elements with
  | nil => simp [unionStackedLayout, Ty.stackLayout, Step.textAt]
  | cons t ts => simp [unionStackedLayout, Ty.stackLayout, Step.textAt, lineEnd]

/-! ## Positions -/

/-- A union without elements is loaded, and nothing is printed of it. -/
theorem empty_union_prints_nothing :
    ¬ ∀ (table : NameTable) (v : Json) (table' : NameTable) (t : Ty Handle),
      (readType v).load table = (table', .ok t) →
      (∀ word ∈ (t.map table'.resolve).words, word ≠ "") →
      ∀ p : Printer, p.PrintsBetween (p.printType table' t) := by
  intro claim
  let v : Json := .obj [("elementTypes", .arr []), ("kind", .str "UnionType")]
  have doc : TypeDoc v (.union []) := .union rfl rfl .nil
  have loaded : (readType v).load .empty = (.empty, .ok (.union [])) := by
    rw [doc.yields.eq]
    rfl
  obtain ⟨text, some, printed⟩ := claim .empty v .empty (.union []) loaded nofun (.new {})
  exact some printed.symm

/-- Of a type that is loaded something is printed exactly if the type is not hollow.  All types of
a program that is loaded are printed as something, inline and stacked, exactly if the program has
no union without elements. -/
theorem positions_are_filled_iff (table : NameTable) (v : Json) :
    (∀ table' t, (readType v).load table = (table', .ok t) →
      (∀ word ∈ (t.map table'.resolve).words, word ≠ "") →
      ∀ p : Printer, p.PrintsBetween (p.printType table' t) ↔ ¬t.Hollow) ∧
      ∀ table' program, (readProgram v).load table = (table', .ok program) →
        (∀ word ∈ (program.map table'.resolve).words, word ≠ "") →
        ∀ p : Printer,
          (∀ t, .type t ∈ program.nodes → p.PrintsBetween (p.printType table' t) ∧
            ∀ elements, t = .union elements →
              p.PrintsBetween (p.printUnionStacked table' elements)) ↔
          .type (.union []) ∉ program.nodes := by
  constructor
  · intro table' t _ proper p
    exact p.printsBetween_printType proper
  · intro table' program _ proper p
    constructor
    · intro filled empty
      obtain ⟨-, stacked⟩ := filled _ empty
      exact (p.printsBetween_printUnionStacked table' []).mp (stacked [] rfl) rfl
    · intro absent t member
      have within : t.Within table'.resolve _ _ := Program.within member
      constructor
      · refine (p.printsBetween_printType fun word there => proper word (within.words there)).mpr ?_
        exact fun hollow => absent (within.nodes hollow.exists_empty)
      · rintro elements rfl
        refine (p.printsBetween_printUnionStacked table' elements).mpr ?_
        rintro rfl
        exact absent member

/-- Nothing is printed of a union of an empty union, and all of an alias for an array of literals
is filled. -/
theorem positions_of_loaded_types :
    let empty : Json := .obj [("elementTypes", .arr []), ("kind", .str "UnionType")]
    let nested : Json := .obj [("elementTypes", .arr [empty]), ("kind", .str "UnionType")]
    let letter : Json := .obj [("kind", .str "LiteralType"), ("text", .str "A")]
    let letters : Json := .obj [("elementType", letter), ("kind", .str "ArrayType")]
    let file : Json := .arr
      [.obj [("aliasedType", letters), ("kind", .str "TypeAliasDecl"), ("name", .str "T")]]
    let names := NameTable.empty.insert "T"
    let program : Program Handle := ⟨[.typeAlias ⟨0⟩ false (.array (.literal "A") false)]⟩
    (readType nested).load .empty = (.empty, .ok (.union [.union []])) ∧
      (∀ p : Printer, ¬p.PrintsBetween (p.printType .empty (.union [.union []]))) ∧
      (readProgram file).load .empty = (names, .ok program) ∧
      ∀ (p : Printer) (t : Ty Handle), .type t ∈ program.nodes →
        p.PrintsBetween (p.printType names t) := by
  intro empty nested letter letters file names program
  have nestedDoc : TypeDoc nested (.union [.union []]) :=
    .union rfl rfl (.cons (.union rfl rfl .nil) .nil)
  have loaded : (readType nested).load .empty = (.empty, .ok (.union [.union []])) := by
    rw [nestedDoc.yields.eq]
    rfl
  have lettersDoc : TypeDoc letters (.array (.literal "A") false) :=
    .array rfl rfl (.literal rfl rfl) (.inr ⟨rfl, .inr rfl⟩)
  have fileDoc : ProgramDoc file ⟨[.typeAlias "T" false (.array (.literal "A") false)]⟩ :=
    .list (.cons (.typeAlias rfl rfl rfl lettersDoc (.inr ⟨rfl, .inr rfl⟩)) .nil)
  have loadedFile : (readProgram file).load .empty = (names, .ok program) := by
    rw [(readProgram_yields_iff.mpr ⟨rfl, fileDoc⟩).eq]
    rfl
  have hollow : (Ty.union [.union []] : Ty Handle).Hollow := .single .empty
  refine ⟨loaded, ?_, loadedFile, ?_⟩
  · intro p printed
    exact ((positions_are_filled_iff .empty nested).1 _ _ loaded nofun p).mp printed hollow
  · intro p t member
    have filled := (positions_are_filled_iff .empty file).2 _ _ loadedFile (by decide) p
    have full : .type (.union []) ∉ program.nodes := by
      simp [program, Program.nodes, Statement.nodes, Ty.nodes]
    exact (filled.mpr full t member).1

end FlowDecl
