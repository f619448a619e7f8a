import FlowDecl.Proofs.Layout.Relocation
import FlowDecl.Proofs.Layout.Text
import FlowDecl.Proofs.Text.Cut

/-!
# Lines of programs

A printed program is a sequence of lines.  A line opens a statement, a member of an object
type or an element of a stacked union, or it closes an object, or it is the empty line after
a statement.  Which lines there are is told from the tree alone (`Program.lineMarks`).  The
marks count how many object bodies and how many elements of stacked unions are around the
line, and its depth follows from the two numbers.

The text of a type starts inside a line and ends inside a line.  `Lined` says this of a text
and of the marks of the lines that begin in it.  Such texts can be put together, and cutting
one at its line ends gives one line for each mark.
-/

namespace FlowDecl

/-! ## The lines of a tree -/

/-- What stands at the front of a line. -/
inductive LineMark where
  /-- A statement, with its first words. -/
  | statement (opening : String)
  /-- A member, with its first words, inside some bodies of objects and some elements of
  stacked unions. -/
  | member (opening : String) (bodies elements : Nat)
  /-- The closing brace of an object, whose members are inside some bodies and elements. -/
  | brace (bodies elements : Nat)
  /-- An element of a stacked union, which is inside some bodies and elements. -/
  | bar (bodies elements : Nat)
deriving DecidableEq, Repr

namespace LineMark

/-- The levels by which a line is indented. -/
def depth : LineMark → Nat
  | statement _ => 0
  | member _ bodies elements => bodies + 2 * elements
  | brace bodies elements => bodies + 2 * elements - 1
  | bar bodies elements => bodies + 2 * elements + 1

/-- The first words of a line. -/
def opening : LineMark → String
  | statement opening => opening
  | member opening _ _ => opening
  | brace _ _ => "\x7d"
  | bar _ _ => "| "

/-- The blanks of a line and its first words. -/
def front (mark : LineMark) : String := indentText mark.depth ++ mark.opening

/-- The line starts with two blanks for each level of its depth and then with the first words of
its mark, which do not start with a blank themselves. -/
def Fits (mark : LineMark) (line : String) : Prop :=
  (∃ rest, line.toList = List.replicate (2 * mark.depth) ' ' ++ (mark.opening.toList ++ rest)) ∧
    ∃ c, mark.opening.toList.head? = some c ∧ c ≠ ' '

end LineMark

/-- The first words of a member. -/
def Member.opening : Member String → String
  | .prop name isOptional isReadonly _ =>
    markText "readonly " isReadonly ++ name ++ markText "?" isOptional ++ ":"
  | .indexer keyName _ _ isReadonly => markText "readonly " isReadonly ++ "[" ++ keyName ++ ": "

mutual

/-- The lines that begin inside a type.  The numbers are those of the object bodies and of the
elements of stacked unions around it. -/
def Ty.lineMarks (bodies elements : Nat) : Ty String → List LineMark
  | .primitive _ => []
  | .literal _ => []
  | .optional element => element.lineMarks bodies elements
  | .array element _ => element.lineMarks bodies elements
  | .object mixins members =>
    Ty.listMarks bodies elements mixins ++
      (Member.bodyMarks (bodies + 1) elements members ++ [.brace (bodies + 1) elements])
  | .decorated element => element.lineMarks bodies elements
  | .union types => Ty.listMarks bodies elements types
  | .reference _ arguments => Ty.listMarks bodies elements arguments
  | .paren element => element.lineMarks bodies elements

/-- The lines that begin inside types. -/
def Ty.listMarks (bodies elements : Nat) : List (Ty String) → List LineMark
  | [] => []
  | t :: ts => t.lineMarks bodies elements ++ Ty.listMarks bodies elements ts

/-- The lines of the elements of a stacked union. -/
def Ty.stackMarks (bodies elements : Nat) : List (Ty String) → List LineMark
  | [] => []
  | t :: ts =>
    .bar bodies elements ::
      (t.lineMarks bodies (elements + 1) ++ Ty.stackMarks bodies elements ts)

/-- The lines that begin inside a member. -/
def Member.lineMarks (bodies elements : Nat) : Member String → List LineMark
  | .prop _ _ _ (.union types) => Ty.stackMarks bodies elements types
  | .prop _ _ _ type => type.lineMarks bodies elements
  | .indexer _ keyType valueType _ =>
    keyType.lineMarks bodies elements ++ valueType.lineMarks bodies elements

/-- The lines of the members of an object. -/
def Member.bodyMarks (bodies elements : Nat) : List (Member String) → List LineMark
  | [] => []
  | m :: ms =>
    .member m.opening bodies elements ::
      (m.lineMarks bodies elements ++ Member.bodyMarks bodies elements ms)

end

/-- The lines that begin inside a type after an equals sign or a colon. -/
def Ty.bodyMarks (bodies elements : Nat) : Ty String → List LineMark
  | .union types => Ty.stackMarks bodies elements types
  | type => type.lineMarks bodies elements

/-- The first words of a statement. -/
def Statement.opening (forceExport : Bool) : Statement String → String
  | .useStrict => "'use strict';"
  | .typeAlias name hasExport _ =>
    markText "export " (forceExport || hasExport) ++ "type " ++ name ++ " ="

/-- The lines of a statement. -/
def Statement.lineMarks (forceExport : Bool) (s : Statement String) : List LineMark :=
  .statement (s.opening forceExport) ::
    match s with
    | .useStrict => []
    | .typeAlias _ _ type => type.bodyMarks 0 0

/-! ## Texts in lines -/

/-- The text has no part of a line end in it. -/
def NoLineEnd (text : String) : Prop := '\r' ∉ text.toList ∧ '\n' ∉ text.toList

instance (text : String) : Decidable (NoLineEnd text) := inferInstanceAs (Decidable (_ ∧ _))

/-- The mark can stand at the front of a line. -/
def LineMark.Starts (mark : LineMark) : Prop :=
  NoLineEnd mark.opening ∧ ∃ c, mark.opening.toList.head? = some c ∧ c ≠ ' '

theorem LineMark.brace_starts (bodies elements : Nat) : (brace bodies elements).Starts :=
  ⟨(by decide : NoLineEnd "\x7d"), '\x7d', (by decide : "\x7d".toList.head? = _), by decide⟩

theorem LineMark.bar_starts (bodies elements : Nat) : (bar bodies elements).Starts :=
  ⟨(by decide : NoLineEnd "| "), '|', (by decide : "| ".toList.head? = _), by decide⟩

theorem NoLineEnd.append {a b : String} (ha : NoLineEnd a) (hb : NoLineEnd b) :
    NoLineEnd (a ++ b) := by
  rw [NoLineEnd, String.toList_append]
  exact ⟨List.not_mem_append ha.1 hb.1, List.not_mem_append ha.2 hb.2⟩

theorem noLineEnd_markText {mark : String} (clean : NoLineEnd mark) (isThere : Bool) :
    NoLineEnd (markText mark isThere) := by
  cases isThere with
  | false => exact (by decide : NoLineEnd "")
  | true => exact clean

theorem noLineEnd_indentText (level : Nat) : NoLineEnd (indentText level) :=
  ⟨fun member => absurd (eq_blank_of_mem_indentText member) (by decide),
    fun member => absurd (eq_blank_of_mem_indentText member) (by decide)⟩

theorem LineMark.Starts.noLineEnd_front {mark : LineMark} (starts : mark.Starts) :
    NoLineEnd mark.front :=
  (noLineEnd_indentText _).append starts.1

theorem LineMark.Starts.fits_front {mark : LineMark} (starts : mark.Starts) (rest : String) :
    mark.Fits (mark.front ++ rest) := by
  refine ⟨⟨rest.toList, ?_⟩, starts.2⟩
  rw [front, String.toList_append, String.toList_append, toList_indentText, List.append_assoc]

theorem LineMark.Starts.front_ne_nil {mark : LineMark} (starts : mark.Starts) :
    mark.front.toList ≠ [] := by
  intro empty
  rw [front, String.toList_append, List.append_eq_nil_iff] at empty
  obtain ⟨-, c, opens, -⟩ := starts
  rw [empty.2] at opens
  cases opens

/-- A text that starts and ends inside a line, and the marks of the lines that begin in it. -/
inductive Lined : List LineMark → String → Prop where
  /-- A text without a line end. -/
  | words {text : String} : NoLineEnd text → Lined [] text
  /-- A text up to a line end, and the line after it. -/
  | line {text : String} {mark : LineMark} {marks : List LineMark} {rest : String} :
    NoLineEnd text → mark.Starts → Lined marks rest →
      Lined (mark :: marks)
        (text ++ (lineEnd ++ (mark.front ++ rest)))

namespace Lined

variable {marks more : List LineMark} {a b : String}

theorem append (first : Lined marks a) (second : Lined more b) :
    Lined (marks ++ more) (a ++ b) := by
  induction first with
  | words clean =>
    cases second with
    | words cleanNext => exact .words (clean.append cleanNext)
    | line cleanNext starts rest =>
      rw [← String.append_assoc]
      exact .line (clean.append cleanNext) starts rest
  | line clean starts _ ih =>
    simp only [String.append_assoc]
    exact .line clean starts ih

/-- A text without a line end lengthens the line before the first mark. -/
theorem before (clean : NoLineEnd a) (second : Lined marks b) : Lined marks (a ++ b) :=
  (words clean).append second

/-- A text without a line end lengthens the last line. -/
theorem after (first : Lined marks a) (clean : NoLineEnd b) : Lined marks (a ++ b) := by
  rw [← List.append_nil marks]
  exact first.append (words clean)

end Lined

/-! ## The text of a tree in lines -/

/-- The name of a property, which may be at the front of a line, does not start with a blank. -/
def Node.StartsLine : Node String → Prop
  | .member (.prop name _ _ _) => name.toList.head? ≠ some ' '
  | _ => True

instance : DecidablePred Node.StartsLine
  | .member (.prop name _ _ _) => inferInstanceAs (Decidable (name.toList.head? ≠ some ' '))
  | .member (.indexer ..) => .isTrue trivial
  | .type _ => .isTrue trivial

section Texts

variable (config : PrintConfig)

theorem PrintConfig.noLineEnd_absentHalf : NoLineEnd config.absentHalf := by
  rw [absentHalf]
  split
  · decide
  · decide

/-- An entity name is written on one line. -/
theorem EntityName.noLineEnd_text : ∀ {name : EntityName String},
    (∀ word ∈ name.names, NoLineEnd word) → NoLineEnd name.text
  | .identifier name, clean => clean name List.mem_cons_self
  | .qualified parent name, clean => by
    have split := List.forall_mem_append.1 clean
    have front : NoLineEnd parent.text := parent.noLineEnd_text split.1
    exact front.append (split.2 name List.mem_cons_self)

/-- The first words of a member are on one line. -/
theorem Member.noLineEnd_opening {m : Member String}
    (clean : ∀ word ∈ m.words, NoLineEnd word) : NoLineEnd m.opening := by
  cases m with
  | prop name isOptional isReadonly type =>
    have front := (noLineEnd_markText (by decide : NoLineEnd "readonly ") isReadonly).append
      (clean name List.mem_cons_self)
    have mark := noLineEnd_markText (by decide : NoLineEnd "?") isOptional
    rw [opening]
    exact (front.append mark).append (by decide)
  | indexer keyName keyType valueType isReadonly =>
    have front := (noLineEnd_markText (by decide : NoLineEnd "readonly ") isReadonly).append
      (by decide : NoLineEnd "[")
    rw [opening]
    exact (front.append (clean keyName List.mem_cons_self)).append (by decide)

/-- The opening of a member does not start with a blank. -/
theorem Member.head?_opening {m : Member String} (ink : ∀ n ∈ m.nodes, n.StartsLine) :
    ∃ c, m.opening.toList.head? = some c ∧ c ≠ ' ' := by
  cases m with
  | prop name isOptional isReadonly type =>
    have first : name.toList.head? ≠ some ' ' := ink _ List.mem_cons_self
    cases isReadonly with
    | true => exact ⟨'r', by simp [opening, markText], by decide⟩
    | false =>
      cases starts : name.toList with
      | cons c cs =>
        rw [starts] at first
        exact ⟨c, by simp [opening, markText, starts], fun blank => first (by simp [blank])⟩
      | nil =>
        cases isOptional with
        | true => exact ⟨'?', by simp [opening, markText, starts], by decide⟩
        | false => exact ⟨':', by simp [opening, markText, starts], by decide⟩
  | indexer keyName keyType valueType isReadonly =>
    cases isReadonly with
    | true => exact ⟨'r', by simp [opening, markText], by decide⟩
    | false => exact ⟨'[', by simp [opening, markText], by decide⟩

mutual

/-- The text of a type is in lines, at the level that its object bodies and stacked unions give. -/
theorem Ty.text_lined : ∀ {level bodies elements : Nat} {t : Ty String},
    level = bodies + 2 * elements → (∀ word ∈ t.words, NoLineEnd word) →
      (∀ n ∈ t.nodes, n.StartsLine) → Lined (t.lineMarks bodies elements) (t.text config level)
  | _, _, _, .primitive name, _, clean, _ => .words (clean name List.mem_cons_self)
  | _, _, _, .literal text, _, clean, _ => .words (clean text List.mem_cons_self)
  | _, _, _, .optional element, hLevel, clean, ink => by
    have inner := Ty.text_lined (t := element) hLevel clean (List.forall_mem_cons.1 ink).2
    exact (inner.before config.noLineEnd_absentHalf).after (by decide)
  | _, _, _, .array element true, hLevel, clean, ink => by
    have inner := Ty.text_lined (t := element) hLevel clean (List.forall_mem_cons.1 ink).2
    exact (inner.before (by decide)).after (by decide)
  | _, _, _, .array element false, hLevel, clean, ink => by
    have inner := Ty.text_lined (t := element) hLevel clean (List.forall_mem_cons.1 ink).2
    exact inner.after (by decide)
  | level, bodies, elements, .object mixins members, hLevel, clean, ink => by
    have parts := List.forall_mem_append.1 clean
    have nodes := List.forall_mem_append.1 (List.forall_mem_cons.1 ink).2
    have front := Ty.mixinText_lined hLevel parts.1 nodes.1
    have body := Member.bodyText_lined hLevel parts.2 nodes.2 (by decide : NoLineEnd "\x7b")
    rw [Ty.text, Ty.lineMarks]
    simp only [String.append_assoc]
    exact front.append body
  | _, _, _, .decorated element, hLevel, clean, ink => by
    have inner := Ty.text_lined (t := element) hLevel clean (List.forall_mem_cons.1 ink).2
    exact (inner.before (by decide)).after (by decide)
  | _, _, _, .union _, hLevel, clean, ink =>
    Ty.listText_lined hLevel (by decide) clean (List.forall_mem_cons.1 ink).2
  | _, _, _, .reference name [], _, clean, _ =>
    .words (EntityName.noLineEnd_text (List.forall_mem_append.1 clean).1)
  | level, bodies, elements, .reference name (argument :: arguments), hLevel, clean, ink => by
    have parts := List.forall_mem_append.1 clean
    have inner : Lined (Ty.listMarks bodies elements (argument :: arguments))
        (Ty.listText config level ", " (argument :: arguments)) :=
      Ty.listText_lined hLevel (by decide) parts.2 (List.forall_mem_cons.1 ink).2
    have front := (EntityName.noLineEnd_text parts.1).append (by decide : NoLineEnd "<")
    exact (inner.before front).after (by decide)
  | _, _, _, .paren element, hLevel, clean, ink => by
    have inner := Ty.text_lined (t := element) hLevel clean (List.forall_mem_cons.1 ink).2
    exact (inner.before (by decide)).after (by decide)

theorem Ty.listText_lined : ∀ {level bodies elements : Nat} {between : String}
    {ts : List (Ty String)}, level = bodies + 2 * elements → NoLineEnd between →
      (∀ word ∈ Ty.listWords ts, NoLineEnd word) → (∀ n ∈ Ty.listNodes ts, n.StartsLine) →
        Lined (Ty.listMarks bodies elements ts) (Ty.listText config level between ts)
  | _, _, _, _, [], _, _, _, _ => .words (by decide : NoLineEnd "")
  | _, _, _, _, [t], hLevel, _, clean, ink => by
    have whole := Ty.text_lined (t := t) hLevel (List.forall_mem_append.1 clean).1
      (List.forall_mem_append.1 ink).1
    rw [Ty.listMarks, Ty.listMarks, List.append_nil]
    exact whole
  | level, bodies, elements, between, t :: u :: ts, hLevel, cleanBetween, clean, ink => by
    have words := List.forall_mem_append.1 clean
    have nodes := List.forall_mem_append.1 ink
    have first := Ty.text_lined (t := t) hLevel words.1 nodes.1
    have others : Lined (Ty.listMarks bodies elements (u :: ts))
        (Ty.listText config level between (u :: ts)) :=
      Ty.listText_lined hLevel cleanBetween words.2 nodes.2
    exact (first.after cleanBetween).append others

theorem Ty.mixinText_lined : ∀ {level bodies elements : Nat} {ts : List (Ty String)},
    level = bodies + 2 * elements → (∀ word ∈ Ty.listWords ts, NoLineEnd word) →
      (∀ n ∈ Ty.listNodes ts, n.StartsLine) →
        Lined (Ty.listMarks bodies elements ts) (Ty.mixinText config level ts)
  | _, _, _, [], _, _, _ => .words (by decide : NoLineEnd "")
  | _, _, _, t :: ts, hLevel, clean, ink => by
    have words := List.forall_mem_append.1 clean
    have nodes := List.forall_mem_append.1 ink
    have first := Ty.text_lined (t := t) hLevel words.1 nodes.1
    exact (first.after (by decide)).append (Ty.mixinText_lined hLevel words.2 nodes.2)

/-- The elements of a stacked union stand two levels deeper than the line of the union. -/
theorem Ty.stackText_lined : ∀ {level bodies elements : Nat} {ts : List (Ty String)},
    level = bodies + 2 * elements → (∀ word ∈ Ty.listWords ts, NoLineEnd word) →
      (∀ n ∈ Ty.listNodes ts, n.StartsLine) →
        Lined (Ty.stackMarks bodies elements ts) (Ty.stackText config (level + 1) ts)
  | _, _, _, [], _, _, _ => .words (by decide : NoLineEnd "")
  | level, bodies, elements, t :: ts, hLevel, clean, ink => by
    have words := List.forall_mem_append.1 clean
    have nodes := List.forall_mem_append.1 ink
    have first := Ty.text_lined (t := t) (by omega : level + 2 = bodies + 2 * (elements + 1))
      words.1 nodes.1
    have others := Ty.stackText_lined hLevel words.2 nodes.2
    have depth : (LineMark.bar bodies elements).depth = level + 1 := by
      rw [LineMark.depth, hLevel]
    have text : Ty.stackText config (level + 1) (t :: ts) =
        "" ++ (lineEnd ++ ((LineMark.bar bodies elements).front ++
          (t.text config (level + 2) ++ Ty.stackText config (level + 1) ts))) := by
      simp only [Ty.stackText, LineMark.front, depth, LineMark.opening, String.append_assoc,
        String.empty_append]
    rw [text]
    exact .line (by decide) (LineMark.bar_starts _ _) (first.append others)

theorem Member.text_lined : ∀ {level bodies elements : Nat} {m : Member String},
    level = bodies + 2 * elements → (∀ word ∈ m.words, NoLineEnd word) →
      (∀ n ∈ m.nodes, n.StartsLine) →
        ∃ rest, m.text config level = m.opening ++ rest ∧
          Lined (m.lineMarks bodies elements) rest
  | level, bodies, elements, .prop name isOptional isReadonly type, hLevel, clean, ink => by
    have words := (List.forall_mem_cons.1 clean).2
    have nodes := (List.forall_mem_cons.1 ink).2
    refine ⟨type.bodyText config level, Member.text_prop .., ?_⟩
    have inline := Ty.text_lined (t := type) hLevel words nodes
    cases type with
    | union types => exact Ty.stackText_lined hLevel words (List.forall_mem_cons.1 nodes).2
    | _ => exact inline.before (by decide)
  | level, bodies, elements, .indexer keyName keyType valueType isReadonly, hLevel, clean, ink => by
    have words := List.forall_mem_append.1 (List.forall_mem_cons.1 clean).2
    have nodes := List.forall_mem_append.1 (List.forall_mem_cons.1 ink).2
    have key := Ty.text_lined (t := keyType) hLevel words.1 nodes.1
    have value := Ty.text_lined (t := valueType) hLevel words.2 nodes.2
    refine ⟨keyType.text config level ++ "]: " ++ valueType.text config level, ?_, ?_⟩
    · simp only [Member.text, Member.opening, String.append_assoc]
    · exact (key.after (by decide)).append value

/-- The members of an object and its closing brace, after the text in front of them. -/
theorem Member.bodyText_lined : ∀ {level bodies elements : Nat} {ms : List (Member String)}
    {front : String}, level = bodies + 2 * elements →
      (∀ word ∈ Member.listWords ms, NoLineEnd word) →
        (∀ n ∈ Member.listNodes ms, n.StartsLine) → NoLineEnd front →
          Lined (Member.bodyMarks (bodies + 1) elements ms ++ [.brace (bodies + 1) elements])
            (front ++ (lineEnd ++ (Member.bodyText config (level + 1) ms ++
              (indentText level ++ "\x7d"))))
  | level, bodies, elements, [], front, hLevel, _, _, cleanFront => by
    have depth : (LineMark.brace (bodies + 1) elements).depth = level := by
      rw [LineMark.depth]
      omega
    have closed : Lined [.brace (bodies + 1) elements]
        (front ++ (lineEnd ++ ((LineMark.brace (bodies + 1) elements).front ++ ""))) :=
      .line cleanFront (LineMark.brace_starts _ _) (.words (by decide))
    rw [LineMark.front, depth, String.append_empty] at closed
    rw [Member.bodyText, String.empty_append]
    exact closed
  | level, bodies, elements, m :: ms, front, hLevel, clean, ink, cleanFront => by
    have words := List.forall_mem_append.1 clean
    have nodes := List.forall_mem_append.1 ink
    have deeper : level + 1 = bodies + 1 + 2 * elements := by omega
    obtain ⟨rest, text, first⟩ := Member.text_lined (m := m) deeper words.1 nodes.1
    have others := Member.bodyText_lined hLevel words.2 nodes.2 (by decide : NoLineEnd ";")
    have starts : (LineMark.member m.opening (bodies + 1) elements).Starts :=
      ⟨Member.noLineEnd_opening words.1, Member.head?_opening nodes.1⟩
    have whole := Lined.line cleanFront starts (first.append others)
    rw [LineMark.front, LineMark.depth, ← deeper, String.append_assoc] at whole
    rw [Member.bodyMarks, Member.bodyText, text, List.cons_append, List.append_assoc]
    simp only [String.append_assoc]
    exact whole

end

/-- The lines of a body at the level of a statement. -/
theorem Ty.bodyText_lined {t : Ty String} (clean : ∀ word ∈ t.words, NoLineEnd word)
    (ink : ∀ n ∈ t.nodes, n.StartsLine) : Lined (t.bodyMarks 0 0) (t.bodyText config 0) := by
  have inline : Lined (t.lineMarks 0 0) (t.text config 0) := Ty.text_lined config rfl clean ink
  cases t with
  | union types =>
    have stacked : Lined (Ty.stackMarks 0 0 types) (Ty.stackText config (0 + 1) types) :=
      Ty.stackText_lined config rfl clean (List.forall_mem_cons.1 ink).2
    exact stacked
  | _ => exact inline.before (by decide)

theorem Statement.opening_starts (forceExport : Bool) {s : Statement String}
    (clean : ∀ word ∈ s.words, NoLineEnd word) :
    (LineMark.statement (s.opening forceExport)).Starts := by
  cases s with
  | useStrict =>
    exact ⟨(by decide : NoLineEnd "'use strict';"), '\'', by simp [LineMark.opening, opening],
      by decide⟩
  | typeAlias name hasExport type =>
    have front := (noLineEnd_markText (by decide : NoLineEnd "export ")
      (forceExport || hasExport)).append (by decide : NoLineEnd "type ")
    have noEnd : NoLineEnd (Statement.opening forceExport (.typeAlias name hasExport type)) := by
      rw [opening]
      exact (front.append (clean name List.mem_cons_self)).append (by decide)
    refine ⟨noEnd, ?_⟩
    cases isThere : forceExport || hasExport with
    | true => exact ⟨'e', by simp [LineMark.opening, opening, markText, isThere], by decide⟩
    | false => exact ⟨'t', by simp [LineMark.opening, opening, markText, isThere], by decide⟩

/-- A statement is its first words and a text in lines after them. -/
theorem Statement.text_lined (forceExport : Bool) {s : Statement String}
    (clean : ∀ word ∈ s.words, NoLineEnd word) (ink : ∀ n ∈ s.nodes, n.StartsLine) :
    ∃ marks rest, s.lineMarks forceExport = .statement (s.opening forceExport) :: marks ∧
      s.text config forceExport = s.opening forceExport ++ rest ∧ Lined marks rest := by
  cases s with
  | useStrict => exact ⟨[], "", rfl, rfl, .words (by decide)⟩
  | typeAlias name hasExport type =>
    have body := Ty.bodyText_lined config (List.forall_mem_cons.1 clean).2 ink
    exact ⟨_, _, rfl, String.append_assoc .., body.after (by decide)⟩

end Texts

/-! ## Cutting a text in lines -/

section Cuts

variable {marks : List LineMark} {text : String}

/-- A text without line ends is not broken by a separator that starts with one. -/
theorem NoLineEnd.unbroken (clean : NoLineEnd text) {sep rest : List Char}
    (starts : sep.head? = some '\r') : Unbroken sep text.toList rest :=
  unbroken_of_not_mem starts clean.1

/-- A text in lines gives one line for each mark, after the rest of the line it starts in.  A
line end after it ends its last line. -/
theorem Lined.cut_eq (lined : Lined marks text) :
    ∃ first lines, cut lineEnd text = first :: lines ∧ List.Forall₂ LineMark.Fits marks lines ∧
      ∀ more, cut lineEnd (text ++ (lineEnd ++ more)) = first :: (lines ++ cut lineEnd more) := by
  induction lined with
  | @words text clean =>
    refine ⟨text, [], cut_of_unbroken (clean.unbroken rfl), .nil, fun more => ?_⟩
    exact cut_append_separator (by decide) (clean.unbroken rfl)
  | @line text mark marks rest clean starts _ ih =>
    obtain ⟨first, lines, whole, fit, ends⟩ := ih
    have cutFront : ∀ more, cut lineEnd (text ++ (lineEnd ++ (mark.front ++ more))) =
        text :: (cut lineEnd more).modifyHead (mark.front ++ ·) := by
      intro more
      rw [cut_append_separator (by decide) (clean.unbroken rfl),
        cut_append (starts.noLineEnd_front.unbroken rfl)]
    refine ⟨text, (mark.front ++ first) :: lines, ?_, .cons (starts.fits_front first) fit,
      fun more => ?_⟩
    · rw [cutFront, whole, List.modifyHead_cons]
    · rw [String.append_assoc, String.append_assoc, String.append_assoc, cutFront, ends,
        List.modifyHead_cons, List.cons_append]

/-- A single line end is no separator of statements. -/
theorem unbroken_lineEnd {rest : List Char} (other : rest.head? ≠ some '\r') :
    Unbroken "\r\n\r\n".toList lineEnd.toList rest := by
  have sep : "\r\n\r\n".toList = ['\r', '\n', '\r', '\n'] := by decide
  rw [sep, toList_lineEnd]
  refine ⟨?_, by simp, trivial⟩
  simp only [List.cons_append, List.nil_append, List.cons_prefix_cons, true_and]
  rintro ⟨tail, rfl⟩
  exact other rfl

/-- No empty line begins in a text in lines. -/
theorem Lined.unbroken (lined : Lined marks text) (more : List Char) :
    Unbroken "\r\n\r\n".toList text.toList more := by
  induction lined with
  | words clean => exact clean.unbroken rfl
  | @line text mark marks rest clean starts _ ih =>
    have cleanFront := starts.noLineEnd_front
    have inLine : (mark.front.toList ++ (rest.toList ++ more)).head? ≠ some '\r' := by
      rw [List.head?_append_of_ne_nil _ starts.front_ne_nil]
      intro found
      exact cleanFront.1 (List.mem_of_mem_head? found)
    rw [String.toList_append, String.toList_append, String.toList_append]
    refine (clean.unbroken rfl).append (Unbroken.append ?_ ((cleanFront.unbroken rfl).append ih))
    rw [List.append_assoc]
    exact unbroken_lineEnd inLine

end Cuts

end FlowDecl
