import FlowDecl.Proofs.Layout.Lines
import Mathlib.Algebra.GroupWithZero.Nat
import Mathlib.Data.List.Forall2

/-!
# Programs line by line

The text of a program is cut in two ways.  At its empty lines it falls into the texts of the
statements, and at its line ends into lines, which are those of the statements with an empty
line after each.  Both follow from the statements being texts in lines.

The line ends are counted over the nodes of the program.
-/

namespace FlowDecl

/-! ## Line ends in pairs -/

/-- A line feed stands after a carriage return, and a carriage return in front of a line feed,
everywhere. -/
structure PairedLineEnds (cs : List Char) : Prop where
  /-- Every line feed follows a carriage return. -/
  feed {before after : List Char} : cs = before ++ '\n' :: after → before.getLast? = some '\r'
  /-- Every carriage return precedes a line feed. -/
  carriage {before after : List Char} : cs = before ++ '\r' :: after → after.head? = some '\n'

namespace PairedLineEnds

variable {cs ds : List Char}

theorem append (first : PairedLineEnds cs) (second : PairedLineEnds ds) :
    PairedLineEnds (cs ++ ds) := by
  constructor
  · intro before after found
    rcases List.append_eq_append_iff.1 found with ⟨more, rfl, rest⟩ | ⟨more, rest, tail⟩
    · rw [List.getLast?_append, second.feed rest, Option.some_or]
    · rcases List.append_eq_cons_iff.1 tail.symm with ⟨rfl, tail⟩ | ⟨more, rfl, tail⟩
      · rw [List.append_nil] at rest
        subst rest
        have opens : ds = [] ++ '\n' :: after := tail.symm
        cases second.feed opens
      · exact first.feed rest
  · intro before after found
    rcases List.append_eq_append_iff.1 found with ⟨more, rfl, rest⟩ | ⟨more, rest, tail⟩
    · exact second.carriage rest
    · rcases List.append_eq_cons_iff.1 tail.symm with ⟨rfl, tail⟩ | ⟨more, rfl, rfl⟩
      · have opens : ds = [] ++ '\r' :: after := tail.symm
        exact second.carriage opens
      · rw [List.head?_append, first.carriage rest, Option.some_or]

theorem of_noLineEnd {text : String} (clean : NoLineEnd text) : PairedLineEnds text.toList := by
  constructor
  · intro before after found
    exact absurd (found ▸ List.mem_append_right _ List.mem_cons_self) clean.2
  · intro before after found
    exact absurd (found ▸ List.mem_append_right _ List.mem_cons_self) clean.1

theorem lineEnd : PairedLineEnds lineEnd.toList := by
  rw [toList_lineEnd]
  constructor
  · rintro (_ | ⟨c, _ | ⟨d, before⟩⟩) after found
    · cases found
    · cases found
      rfl
    · simp at found
  · rintro (_ | ⟨c, _ | ⟨d, before⟩⟩) after found
    · cases found
      rfl
    · simp at found
    · simp at found

end PairedLineEnds

/-- All line ends of a text with lines are paired. -/
theorem Lined.paired {marks : List LineMark} {text : String} (lined : Lined marks text) :
    PairedLineEnds text.toList := by
  induction lined with
  | words clean => exact .of_noLineEnd clean
  | line clean starts _ ih =>
    rw [String.toList_append, String.toList_append, String.toList_append]
    exact (PairedLineEnds.of_noLineEnd clean).append
      (.append .lineEnd ((PairedLineEnds.of_noLineEnd starts.noLineEnd_front).append ih))

/-! ## The number of lines -/

/-- The line ends that a node brings: one for the brace of an object and one for each of its
members, and one for each element of a union that is the type of a property. -/
def Node.lineEnds : Node String → Nat
  | .type (.object _ members) => 1 + members.length
  | .member (.prop _ _ _ (.union elements)) => elements.length
  | _ => 0

/-- The elements of the union that the statement gives a name to. -/
def Statement.stackedElements : Statement String → Nat
  | .typeAlias _ _ (.union elements) => elements.length
  | _ => 0

mutual

/-- The lines that begin in a type are those that its nodes bring. -/
theorem Ty.length_lineMarks : ∀ (bodies elements : Nat) (t : Ty String),
    (t.lineMarks bodies elements).length = (t.nodes.map Node.lineEnds).sum
  | _, _, .primitive _ => rfl
  | _, _, .literal _ => rfl
  | bodies, elements, .optional element => by
    simp [Ty.lineMarks, Ty.nodes, Node.lineEnds, Ty.length_lineMarks bodies elements element]
  | bodies, elements, .array element _ => by
    simp [Ty.lineMarks, Ty.nodes, Node.lineEnds, Ty.length_lineMarks bodies elements element]
  | bodies, elements, .object mixins members => by
    simp [Ty.lineMarks, Ty.nodes, Node.lineEnds, Ty.length_listMarks bodies elements mixins,
      Member.length_bodyMarks (bodies + 1) elements members]
    omega
  | bodies, elements, .decorated element => by
    simp [Ty.lineMarks, Ty.nodes, Node.lineEnds, Ty.length_lineMarks bodies elements element]
  | bodies, elements, .union types => by
    simp [Ty.lineMarks, Ty.nodes, Node.lineEnds, Ty.length_listMarks bodies elements types]
  | bodies, elements, .reference _ arguments => by
    simp [Ty.lineMarks, Ty.nodes, Node.lineEnds, Ty.length_listMarks bodies elements arguments]
  | bodies, elements, .paren element => by
    simp [Ty.lineMarks, Ty.nodes, Node.lineEnds, Ty.length_lineMarks bodies elements element]

theorem Ty.length_listMarks : ∀ (bodies elements : Nat) (ts : List (Ty String)),
    (Ty.listMarks bodies elements ts).length = ((Ty.listNodes ts).map Node.lineEnds).sum
  | _, _, [] => rfl
  | bodies, elements, t :: ts => by
    simp [Ty.listMarks, Ty.listNodes, Ty.length_lineMarks bodies elements t,
      Ty.length_listMarks bodies elements ts]

/-- Stacked types have a line each, besides those that their nodes make. -/
theorem Ty.length_stackMarks : ∀ (bodies elements : Nat) (ts : List (Ty String)),
    (Ty.stackMarks bodies elements ts).length =
      ts.length + ((Ty.listNodes ts).map Node.lineEnds).sum
  | _, _, [] => rfl
  | bodies, elements, t :: ts => by
    simp [Ty.stackMarks, Ty.listNodes, Ty.length_lineMarks bodies (elements + 1) t,
      Ty.length_stackMarks bodies elements ts]
    omega

theorem Member.length_lineMarks : ∀ (bodies elements : Nat) (m : Member String),
    (m.lineMarks bodies elements).length = (m.nodes.map Node.lineEnds).sum
  | bodies, elements, .prop name isOptional isReadonly type => by
    have inline := Ty.length_lineMarks bodies elements type
    cases type with
    | union types =>
      simp [Member.lineMarks, Member.nodes, Ty.nodes, Node.lineEnds,
        Ty.length_stackMarks bodies elements types]
    | _ => simp [Member.lineMarks, Member.nodes, Node.lineEnds, inline]
  | bodies, elements, .indexer _ keyType valueType _ => by
    simp [Member.lineMarks, Member.nodes, Node.lineEnds,
      Ty.length_lineMarks bodies elements keyType, Ty.length_lineMarks bodies elements valueType]

/-- A body has a line for each member, besides those that their nodes make. -/
theorem Member.length_bodyMarks : ∀ (bodies elements : Nat) (ms : List (Member String)),
    (Member.bodyMarks bodies elements ms).length =
      ms.length + ((Member.listNodes ms).map Node.lineEnds).sum
  | _, _, [] => rfl
  | bodies, elements, m :: ms => by
    simp [Member.bodyMarks, Member.listNodes, Member.length_lineMarks bodies elements m,
      Member.length_bodyMarks bodies elements ms]
    omega

end

/-- A statement has a line of its own, one for each stacked element, and those of its nodes. -/
theorem Statement.length_lineMarks (forceExport : Bool) (s : Statement String) :
    (s.lineMarks forceExport).length =
      1 + s.stackedElements + (s.nodes.map Node.lineEnds).sum := by
  cases s with
  | useStrict => rfl
  | typeAlias name hasExport type =>
    have inline := Ty.length_lineMarks 0 0 type
    cases type with
    | union types =>
      simp [Statement.lineMarks, Ty.bodyMarks, Statement.stackedElements, Statement.nodes,
        Ty.nodes, Node.lineEnds, Ty.length_stackMarks 0 0 types]
      omega
    | _ =>
      simp [Statement.lineMarks, Ty.bodyMarks, Statement.stackedElements, Statement.nodes, inline]
      omega

/-! ## Statements and programs -/

section Programs

variable (config : PrintConfig) (forceExport : Bool)

section Statements

variable {s : Statement String} (clean : ∀ word ∈ s.words, NoLineEnd word)
  (ink : ∀ n ∈ s.nodes, n.StartsLine)
include clean ink

/-- The lines of a statement, alone and in front of a line end. -/
theorem Statement.cut_text :
    List.Forall₂ LineMark.Fits (s.lineMarks forceExport) (cut lineEnd (s.text config forceExport)) ∧
      ∀ more, cut lineEnd (s.text config forceExport ++ (lineEnd ++ more)) =
        cut lineEnd (s.text config forceExport) ++ cut lineEnd more := by
  have starts := s.opening_starts forceExport clean
  obtain ⟨marks, rest, hMarks, text, lined⟩ := s.text_lined config forceExport clean ink
  obtain ⟨first, lines, whole, fit, ends⟩ := lined.cut_eq
  have cutFront : ∀ more, cut lineEnd (s.opening forceExport ++ more) =
      (cut lineEnd more).modifyHead (s.opening forceExport ++ ·) := fun more =>
    cut_append (starts.1.unbroken rfl)
  have fits := starts.fits_front first
  rw [LineMark.front, LineMark.depth, indentText, String.empty_append, LineMark.opening] at fits
  rw [hMarks, text, cutFront, whole, List.modifyHead_cons]
  refine ⟨.cons fits fit, fun more => ?_⟩
  rw [String.append_assoc, cutFront, ends, List.modifyHead_cons, List.cons_append]

/-- No empty line breaks the text of a statement. -/
theorem Statement.unbroken_text (more : List Char) :
    Unbroken "\r\n\r\n".toList (s.text config forceExport).toList more := by
  obtain ⟨marks, rest, -, text, lined⟩ := s.text_lined config forceExport clean ink
  rw [text, String.toList_append]
  exact ((s.opening_starts forceExport clean).1.unbroken rfl).append (lined.unbroken more)

theorem Statement.paired_text : PairedLineEnds (s.text config forceExport).toList := by
  obtain ⟨marks, rest, -, text, lined⟩ := s.text_lined config forceExport clean ink
  rw [text, String.toList_append]
  exact (PairedLineEnds.of_noLineEnd (s.opening_starts forceExport clean).1).append lined.paired

end Statements

section Lists

variable {ss : List (Statement String)} (clean : ∀ s ∈ ss, ∀ word ∈ s.words, NoLineEnd word)
  (ink : ∀ s ∈ ss, ∀ n ∈ s.nodes, n.StartsLine)
include clean ink

/-- Cut at its empty lines, a text falls into statements. -/
theorem Statement.cut_listText_statements :
    cut "\r\n\r\n" (Statement.listText config forceExport ss) =
      ss.map (Statement.text config forceExport) ++ [""] := by
  induction ss with
  | nil => rfl
  | cons s ss ih =>
    have clean := List.forall_mem_cons.1 clean
    have ink := List.forall_mem_cons.1 ink
    have ends : lineEnd ++ lineEnd = "\r\n\r\n" := rfl
    rw [Statement.listText, ends, String.append_assoc, cut_append_separator (by decide)
      (s.unbroken_text config forceExport clean.1 ink.1 _), ih clean.2 ink.2]
    rfl

/-- Cut at its line ends, a text falls into the lines of the statements and the empty lines. -/
theorem Statement.cut_listText_lines :
    cut lineEnd (Statement.listText config forceExport ss) =
      ss.flatMap (fun s => cut lineEnd (s.text config forceExport) ++ [""]) ++ [""] := by
  induction ss with
  | nil => rfl
  | cons s ss ih =>
    have clean := List.forall_mem_cons.1 clean
    have ink := List.forall_mem_cons.1 ink
    rw [Statement.listText, String.append_assoc, String.append_assoc,
      (s.cut_text config forceExport clean.1 ink.1).2, cut_separator (by decide),
      ih clean.2 ink.2, List.flatMap_cons, List.append_assoc, List.append_assoc]
    rfl

theorem Statement.paired_listText :
    PairedLineEnds (Statement.listText config forceExport ss).toList := by
  induction ss with
  | nil => exact .of_noLineEnd (by decide : NoLineEnd "")
  | cons s ss ih =>
    have clean := List.forall_mem_cons.1 clean
    have ink := List.forall_mem_cons.1 ink
    rw [Statement.listText, String.toList_append, String.toList_append, String.toList_append]
    exact ((s.paired_text config forceExport clean.1 ink.1).append
      (PairedLineEnds.lineEnd.append .lineEnd)).append (ih clean.2 ink.2)

/-- The number of lines of a text, the empty ones among them. -/
theorem Statement.length_cut_listText :
    (cut lineEnd (Statement.listText config forceExport ss)).length =
      2 * ss.length + (ss.map Statement.stackedElements).sum +
        ((ss.flatMap Statement.nodes).map Node.lineEnds).sum + 1 := by
  rw [Statement.cut_listText_lines config forceExport clean ink, List.length_append]
  refine congrArg (· + 1) ?_
  induction ss with
  | nil => rfl
  | cons s ss ih =>
    have clean := List.forall_mem_cons.1 clean
    have ink := List.forall_mem_cons.1 ink
    have lines := (s.cut_text config forceExport clean.1 ink.1).1.length_eq
    rw [s.length_lineMarks] at lines
    rw [List.flatMap_cons, List.length_append, List.length_append, ih clean.2 ink.2, ← lines,
      List.flatMap_cons, List.map_append, List.sum_append, List.map_cons, List.sum_cons,
      List.length_singleton, List.length_cons]
    omega

end Lists

/-- The lines of a program whose words have no line ends of their own. -/
theorem program_lines (names : NameTable) (program : Program Handle)
    (clean : ∀ word ∈ (program.map names.resolve).words,
      '\r' ∉ word.toList ∧ '\n' ∉ word.toList)
    (ink : ∀ node ∈ (program.map names.resolve).nodes, node.StartsLine) :
    let text := programText config forceExport names program
    let textOf (s : Statement Handle) := statementText config forceExport names s
    let tree := program.map names.resolve
    PairedLineEnds text.toList ∧
      cut "\r\n\r\n" text = program.statements.map textOf ++ [""] ∧
      cut "\r\n" text =
        program.statements.flatMap (fun s => cut "\r\n" (textOf s) ++ [""]) ++ [""] ∧
      (∀ s ∈ program.statements, List.Forall₂ LineMark.Fits
        ((s.map names.resolve).lineMarks forceExport) (cut "\r\n" (textOf s))) ∧
      (cut "\r\n" text).length =
        2 * tree.statements.length + (tree.statements.map Statement.stackedElements).sum +
          (tree.nodes.map Node.lineEnds).sum + 1 := by
  intro text textOf tree
  have cleanEach : ∀ s ∈ tree.statements, ∀ word ∈ s.words, NoLineEnd word :=
    List.forall_mem_flatMap.1 clean
  have inkEach : ∀ s ∈ tree.statements, ∀ n ∈ s.nodes, n.StartsLine :=
    List.forall_mem_flatMap.1 ink
  have whole : text = Statement.listText config forceExport tree.statements :=
    programText_eq_listText config forceExport names program
  have each : ∀ s, textOf s = (s.map names.resolve).text config forceExport := fun s =>
    (statementText_eq ..).trans (Statement.textFrom_layout ..)
  rw [whole]
  refine ⟨Statement.paired_listText config forceExport cleanEach inkEach, ?_, ?_, ?_,
    Statement.length_cut_listText config forceExport cleanEach inkEach⟩
  · rw [Statement.cut_listText_statements config forceExport cleanEach inkEach]
    simp only [tree, Program.map, List.map_map]
    exact congrArg (· ++ [""]) (List.map_congr_left fun s _ => (each s).symm)
  · change cut lineEnd _ = _
    rw [Statement.cut_listText_lines config forceExport cleanEach inkEach]
    simp only [tree, Program.map, List.flatMap_map, each]
    rfl
  · intro s hs
    have member : s.map names.resolve ∈ tree.statements := List.mem_map_of_mem hs
    rw [each]
    exact (Statement.cut_text config forceExport (cleanEach _ member) (inkEach _ member)).1

end Programs

/-- A stacked union inside an object that is itself an element of a stacked union, and an object
type as the key of an index signature. -/
theorem program_lines_nested :
    let names := NameTable.empty.insertAll ["A", "b", "C", "k"]
    let b : Member Handle := .prop ⟨1⟩ true false (.union [.literal "1", .object [] []])
    let i : Member Handle := .indexer ⟨3⟩ (.object [] [b]) (.primitive ⟨2⟩) true
    let s : Statement Handle := .typeAlias ⟨0⟩ false (.union [.object [] [i], .primitive ⟨2⟩])
    let tree := (Program.mk [.useStrict, s]).map names.resolve
    (∀ word ∈ tree.words, '\r' ∉ word.toList ∧ '\n' ∉ word.toList) ∧
      (∀ node ∈ tree.nodes, node.StartsLine) ∧
      List.Forall₂ LineMark.Fits
        [.statement "export type A =", .bar 0 0, .member "readonly [k: " 1 1, .member "b?:" 2 1,
          .bar 2 1, .bar 2 1, .brace 3 2, .brace 2 1, .brace 1 1, .bar 0 0]
        ["export type A =", "  | \x7b", "      readonly [k: \x7b", "        b?:",
          "          | 1", "          | \x7b", "            \x7d;", "      \x7d]: C;",
          "    \x7d", "  | C;"] ∧
      (cut "\r\n" (programText {} true names ⟨[.useStrict, s]⟩)).length = 14 := by
  intro names b i s tree
  have clean : ∀ word ∈ tree.words, '\r' ∉ word.toList ∧ '\n' ∉ word.toList := by decide
  have ink : ∀ node ∈ tree.nodes, node.StartsLine := by decide
  have lines := program_lines {} true names ⟨[.useStrict, s]⟩ clean ink
  have cuts : cut "\r\n" (statementText {} true names s) =
      ["export type A =", "  | \x7b", "      readonly [k: \x7b", "        b?:",
          "          | 1", "          | \x7b", "            \x7d;", "      \x7d]: C;",
          "    \x7d", "  | C;"] := by decide +kernel
  refine ⟨clean, ink, ?_, lines.2.2.2.2.trans ?_⟩
  · rw [← cuts]
    exact lines.2.2.2.1 s (by simp)
  · decide

end FlowDecl
