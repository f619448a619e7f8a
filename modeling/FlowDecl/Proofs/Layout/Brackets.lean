import FlowDecl.Proofs.Layout.Relocation
import FlowDecl.Proofs.Layout.Text
import Mathlib.Data.List.Count

/-!
# Brackets of printed texts

There are four pairs of brackets.  A text is read from the left, with the brackets that are
open at the time, and a closing bracket has to end the last of them (`openAfter`).

A printed text leaves no bracket open and ends none that it has not opened.  It has one pair
of brackets for each node that is written in brackets, and none for any other node, as long as
the words of the tree have no brackets of their own.  `Bracketed` says both of a text and the
nodes printed in it, and such texts can be put together.
-/

namespace FlowDecl

/-! ## Reading brackets -/

/-- The brackets that open, each with the one that closes it. -/
def bracketPairs : List (Char × Char) := [('(', ')'), ('[', ']'), ('\x7b', '\x7d'), ('<', '>')]

/-- The brackets that are open after a character, the last one first.  There are none to tell if
the character closes a bracket that is not the last one. -/
def readBracket (opened : List Char) (c : Char) : Option (List Char) :=
  if c ∈ bracketPairs.map Prod.fst then some (c :: opened)
  else
    match bracketPairs.find? (·.2 = c) with
    | none => some opened
    | some (opener, _) => if opened.head? = some opener then some opened.tail else none

/-- The brackets that are open after a text. -/
def openAfter (opened text : List Char) : Option (List Char) := text.foldlM readBracket opened

example : openAfter [] "a(b[c]".toList = some ['('] := by decide
example : openAfter [] "a(b[c)]".toList = none := by decide

/-- The bracket that a node is written in. -/
def Node.opener? {ν : Type} : Node ν → Option Char
  | .type (.optional _) => some '('
  | .type (.paren _) => some '('
  | .type (.array _ true) => some '<'
  | .type (.array _ false) => some '['
  | .type (.object ..) => some '\x7b'
  | .type (.decorated _) => some '<'
  | .type (.reference _ (_ :: _)) => some '<'
  | .member (.indexer ..) => some '['
  | _ => none

/-- A text in which some nodes are printed.  It leaves the open brackets as they were, and it has
as many of each bracket as there are nodes written in it. -/
structure Bracketed (nodes : List (Node String)) (text : String) : Prop where
  /-- Every bracket that the text opens is closed in it, and it closes no other. -/
  nested (opened : List Char) : openAfter opened text.toList = some opened
  /-- The brackets that open are those of the nodes. -/
  count {opener : Char} : opener ∈ bracketPairs.map Prod.fst →
    text.toList.count opener = nodes.countP fun n => n.opener? = some opener

/-- The text has no bracket. -/
def NoBracket (text : String) : Prop :=
  ∀ pair ∈ bracketPairs, pair.1 ∉ text.toList ∧ pair.2 ∉ text.toList

instance (text : String) : Decidable (NoBracket text) :=
  inferInstanceAs (Decidable (∀ pair ∈ bracketPairs, _))

/-! ## Texts put together -/

/-- What is open after two texts is found by reading one after the other. -/
theorem openAfter_append {opened between : List Char} {a : List Char}
    (first : openAfter opened a = some between) (b : List Char) :
    openAfter opened (a ++ b) = openAfter between b := by
  rw [openAfter, List.foldlM_append]
  change (openAfter opened a >>= _) = _
  rw [first]
  rfl

theorem readBracket_of_noBracket {text : String} (clean : NoBracket text) {c : Char}
    (hc : c ∈ text.toList) (opened : List Char) : readBracket opened c = some opened := by
  have opens : c ∉ bracketPairs.map Prod.fst := by
    intro member
    obtain ⟨pair, hPair, rfl⟩ := List.mem_map.1 member
    exact (clean pair hPair).1 hc
  have closes : bracketPairs.find? (·.2 = c) = none := by
    rw [List.find?_eq_none]
    intro pair hPair same
    exact (clean pair hPair).2 (of_decide_eq_true same ▸ hc)
  rw [readBracket, if_neg opens, closes]

theorem openAfter_of_noBracket {text : String} (clean : NoBracket text) (opened : List Char) :
    openAfter opened text.toList = some opened := by
  have each : ∀ cs : List Char, (∀ c ∈ cs, c ∈ text.toList) →
      openAfter opened cs = some opened := by
    intro cs inText
    induction cs with
    | nil => rfl
    | cons c cs ih =>
      rw [openAfter, List.foldlM_cons, readBracket_of_noBracket clean (inText c List.mem_cons_self)]
      exact ih fun d hd => inText d (List.mem_cons_of_mem c hd)
  exact each _ fun _ hc => hc

/-- A bracket of a pair opens, and the other one closes it again. -/
theorem readBracket_pair {pair : Char × Char} (hPair : pair ∈ bracketPairs) (opened : List Char) :
    readBracket opened pair.1 = some (pair.1 :: opened) ∧
      readBracket (pair.1 :: opened) pair.2 = some opened := by
  simp only [bracketPairs, List.mem_cons, List.not_mem_nil, or_false] at hPair
  rcases hPair with rfl | rfl | rfl | rfl <;> exact ⟨rfl, rfl⟩

namespace Bracketed

variable {ns ms : List (Node String)} {a b : String}

theorem words (clean : NoBracket a) : Bracketed [] a where
  nested := openAfter_of_noBracket clean
  count opener := by
    obtain ⟨pair, hPair, rfl⟩ := List.mem_map.1 opener
    exact List.count_eq_zero.2 (clean pair hPair).1

/-- Nested texts nest one after the other, and their brackets add up. -/
theorem append (first : Bracketed ns a) (second : Bracketed ms b) :
    Bracketed (ns ++ ms) (a ++ b) where
  nested opened := by
    rw [String.toList_append, openAfter_append (first.nested opened), second.nested]
  count opener := by
    rw [String.toList_append, List.count_append, List.countP_append, first.count opener,
      second.count opener]

theorem before (clean : NoBracket a) (second : Bracketed ns b) : Bracketed ns (a ++ b) :=
  (words clean).append second

theorem after (first : Bracketed ns a) (clean : NoBracket b) : Bracketed ns (a ++ b) := by
  rw [← List.append_nil ns]
  exact first.append (words clean)

/-- The order in which brackets are counted does not matter. -/
theorem perm (text : Bracketed ns a) (same : ns.Perm ms) : Bracketed ms a where
  nested := text.nested
  count opener := (text.count opener).trans (same.countP_eq _)

/-- A node that is not written in brackets. -/
theorem bare {n : Node String} (noBracket : n.opener? = none) (text : Bracketed ns a) :
    Bracketed (n :: ns) a where
  nested := text.nested
  count opener := by
    rw [text.count opener, List.countP_cons_of_neg (by simp [noBracket])]

/-- A node that is written in a pair of brackets. -/
theorem enclosed {n : Node String} (pair : Char × Char) (own : n.opener? = some pair.1)
    (hPair : pair ∈ bracketPairs) (text : Bracketed ns a) :
    Bracketed (n :: ns) (.ofList [pair.1] ++ (a ++ .ofList [pair.2])) where
  nested opened := by
    have pairs := readBracket_pair hPair
    have opens : openAfter opened [pair.1] = some (pair.1 :: opened) := by
      rw [openAfter, List.foldlM_cons, (pairs opened).1]
      rfl
    rw [String.toList_append, String.toList_append, String.toList_ofList, String.toList_ofList,
      openAfter_append opens, openAfter_append (text.nested _), openAfter, List.foldlM_cons,
      (pairs opened).2]
    rfl
  count {opener} hOpener := by
    have notOpener : pair.2 ≠ opener := by
      rintro rfl
      revert hOpener
      simp only [bracketPairs, List.mem_cons, List.not_mem_nil, or_false] at hPair
      rcases hPair with rfl | rfl | rfl | rfl <;> decide
    rw [String.toList_append, String.toList_append, String.toList_ofList, String.toList_ofList,
      List.count_append, List.count_append, text.count hOpener, List.count_singleton,
      List.count_singleton, List.countP_cons, own]
    simp [notOpener, Nat.add_comm]

section Enclosed

variable {n : Node String} (text : Bracketed ns a)
include text

theorem inParens (own : n.opener? = some '(') : Bracketed (n :: ns) ("(" ++ (a ++ ")")) :=
  text.enclosed ('(', ')') own (by decide)

theorem inSquares (own : n.opener? = some '[') : Bracketed (n :: ns) ("[" ++ (a ++ "]")) :=
  text.enclosed ('[', ']') own (by decide)

theorem inBraces (own : n.opener? = some '\x7b') :
    Bracketed (n :: ns) ("\x7b" ++ (a ++ "\x7d")) :=
  text.enclosed ('\x7b', '\x7d') own (by decide)

theorem inAngles (own : n.opener? = some '<') : Bracketed (n :: ns) ("<" ++ (a ++ ">")) :=
  text.enclosed ('<', '>') own (by decide)

end Enclosed

end Bracketed

/-! ## Texts of trees -/

section Texts

variable (config : PrintConfig)

/-- The text of an absent half opens one parenthesis. -/
theorem PrintConfig.absentHalf_eq_append :
    ∃ word, NoBracket word ∧ config.absentHalf = "(" ++ word := by
  rw [absentHalf]
  split
  · exact ⟨"ReactNull | ", by decide, rfl⟩
  · exact ⟨"undefined | ", by decide, rfl⟩

theorem noBracket_markText {mark : String} (clean : NoBracket mark) (isThere : Bool) :
    NoBracket (markText mark isThere) := by
  cases isThere with
  | false => exact (by decide : NoBracket "")
  | true => exact clean

theorem noBracket_indentText (level : Nat) : NoBracket (indentText level) := by
  intro pair hPair
  have blank : pair.1 ≠ ' ' ∧ pair.2 ≠ ' ' := by
    revert pair
    decide
  exact ⟨fun member => blank.1 (eq_blank_of_mem_indentText member),
    fun member => blank.2 (eq_blank_of_mem_indentText member)⟩

/-- An entity name has no brackets. -/
theorem EntityName.text_bracketed : ∀ {name : EntityName String},
    (∀ word ∈ name.names, NoBracket word) → Bracketed [] name.text
  | .identifier name, clean => .words (clean name List.mem_cons_self)
  | .qualified parent name, clean => by
    have split := List.forall_mem_append.1 clean
    have front : Bracketed [] parent.text := parent.text_bracketed split.1
    exact front.after (split.2 name List.mem_cons_self)

mutual

/-- The text of a type has one pair of brackets for each node written in brackets.  The brackets of
an array come after those of its element, and the braces of an object after those of its mixins. -/
theorem Ty.text_bracketed : ∀ (level : Nat) {t : Ty String}, (∀ word ∈ t.words, NoBracket word) →
    Bracketed t.nodes (t.text config level)
  | _, .primitive name, clean => (Bracketed.words (clean name List.mem_cons_self)).bare rfl
  | _, .literal text, clean => (Bracketed.words (clean text List.mem_cons_self)).bare rfl
  | level, .optional element, clean => by
    obtain ⟨word, cleanWord, half⟩ := config.absentHalf_eq_append
    have inner := (Ty.text_bracketed level (t := element) clean).before cleanWord
    have whole := inner.inParens (n := .type (.optional element)) rfl
    rw [Ty.text, half]
    simp only [String.append_assoc] at whole ⊢
    exact whole
  | level, .array element true, clean => by
    have inner := Ty.text_bracketed level (t := element) clean
    have front : "ReadonlyArray<" = "ReadonlyArray" ++ "<" := rfl
    rw [Ty.text, front, String.append_assoc, String.append_assoc]
    exact (inner.inAngles rfl).before (by decide)
  | level, .array element false, clean => by
    have inner := Ty.text_bracketed level (t := element) clean
    have brackets : Bracketed [.type (.array element false)] ("[" ++ ("" ++ "]")) :=
      (Bracketed.words (by decide)).inSquares rfl
    exact (inner.append brackets).perm (List.perm_append_singleton ..)
  | level, .object mixins members, clean => by
    have words := List.forall_mem_append.1 clean
    have front := Ty.mixinText_bracketed level words.1
    have body := ((Member.bodyText_bracketed (level + 1) words.2).before
      (by decide : NoBracket lineEnd)).after (noBracket_indentText level)
    have braces := body.inBraces (n := .type (.object mixins members)) rfl
    have whole := (front.append braces).perm List.perm_middle
    rw [Ty.text]
    simp only [String.append_assoc] at whole ⊢
    exact whole
  | level, .decorated element, clean => by
    have inner := Ty.text_bracketed level (t := element) clean
    have front : "Readonly<" = "Readonly" ++ "<" := rfl
    rw [Ty.text, front, String.append_assoc, String.append_assoc]
    exact (inner.inAngles rfl).before (by decide)
  | level, .union elements, clean =>
    (Ty.listText_bracketed level (by decide) clean).bare rfl
  | _, .reference name [], clean =>
    (EntityName.text_bracketed (List.forall_mem_append.1 clean).1).bare rfl
  | level, .reference name (argument :: arguments), clean => by
    have words := List.forall_mem_append.1 clean
    have inner : Bracketed (Ty.listNodes (argument :: arguments))
        (Ty.listText config level ", " (argument :: arguments)) :=
      Ty.listText_bracketed level (by decide) words.2
    have front := EntityName.text_bracketed words.1
    rw [Ty.text, String.append_assoc, String.append_assoc]
    exact front.append (inner.inAngles rfl)
  | level, .paren element, clean => by
    have inner := Ty.text_bracketed level (t := element) clean
    rw [Ty.text, String.append_assoc]
    exact inner.inParens rfl

/-- The brackets of listed types are those of their nodes. -/
theorem Ty.listText_bracketed : ∀ (level : Nat) {between : String} {ts : List (Ty String)},
    NoBracket between → (∀ word ∈ Ty.listWords ts, NoBracket word) →
      Bracketed (Ty.listNodes ts) (Ty.listText config level between ts)
  | _, _, [], _, _ => .words (by decide : NoBracket "")
  | level, _, [t], _, clean => by
    rw [Ty.listNodes, Ty.listNodes, List.append_nil]
    exact Ty.text_bracketed level (List.forall_mem_append.1 clean).1
  | level, between, t :: u :: ts, cleanBetween, clean => by
    have words := List.forall_mem_append.1 clean
    have others : Bracketed (Ty.listNodes (u :: ts)) (Ty.listText config level between (u :: ts)) :=
      Ty.listText_bracketed level cleanBetween words.2
    exact ((Ty.text_bracketed level words.1).after cleanBetween).append others

theorem Ty.mixinText_bracketed : ∀ (level : Nat) {ts : List (Ty String)},
    (∀ word ∈ Ty.listWords ts, NoBracket word) →
      Bracketed (Ty.listNodes ts) (Ty.mixinText config level ts)
  | _, [], _ => .words (by decide : NoBracket "")
  | level, _ :: _, clean => by
    have words := List.forall_mem_append.1 clean
    exact ((Ty.text_bracketed level words.1).after (by decide)).append
      (Ty.mixinText_bracketed level words.2)

theorem Ty.stackText_bracketed : ∀ (level : Nat) {ts : List (Ty String)},
    (∀ word ∈ Ty.listWords ts, NoBracket word) →
      Bracketed (Ty.listNodes ts) (Ty.stackText config level ts)
  | _, [], _ => .words (by decide : NoBracket "")
  | level, _ :: _, clean => by
    have words := List.forall_mem_append.1 clean
    have front := (Bracketed.words (by decide : NoBracket lineEnd)).after
      (noBracket_indentText level)
    exact ((front.after (by decide)).append (Ty.text_bracketed (level + 1) words.1)).append
      (Ty.stackText_bracketed level words.2)

/-- The brackets of a member are those of its nodes. -/
theorem Member.text_bracketed : ∀ (level : Nat) {m : Member String},
    (∀ word ∈ m.words, NoBracket word) → Bracketed m.nodes (m.text config level)
  | level, .prop name isOptional isReadonly type, clean => by
    have words := List.forall_mem_cons.1 clean
    have readonlyMark := noBracket_markText (by decide : NoBracket "readonly ") isReadonly
    have optionalMark := noBracket_markText (by decide : NoBracket "?") isOptional
    have front := (((Bracketed.words readonlyMark).after words.1).after optionalMark).after
      (by decide : NoBracket ":")
    have inline := Ty.text_bracketed level (t := type) words.2
    rw [Member.text_prop]
    refine Bracketed.bare rfl (front.append ?_)
    cases type with
    | union elements => exact (Ty.stackText_bracketed (level + 1) words.2).bare rfl
    | _ => exact inline.before (by decide)
  | level, .indexer keyName keyType valueType isReadonly, clean => by
    have words := List.forall_mem_cons.1 clean
    have types := List.forall_mem_append.1 words.2
    have readonlyMark := noBracket_markText (by decide : NoBracket "readonly ") isReadonly
    have key := ((Ty.text_bracketed level types.1).before (by decide : NoBracket ": ")).before
      words.1
    have value := (Ty.text_bracketed level types.2).before (by decide : NoBracket ": ")
    have squares := key.inSquares (n := .member (.indexer keyName keyType valueType isReadonly)) rfl
    have whole := (squares.append value).before readonlyMark
    have split : "]: " = "]" ++ ": " := rfl
    rw [Member.text, split]
    simp only [String.append_assoc] at whole ⊢
    exact whole

theorem Member.bodyText_bracketed : ∀ (level : Nat) {ms : List (Member String)},
    (∀ word ∈ Member.listWords ms, NoBracket word) →
      Bracketed (Member.listNodes ms) (Member.bodyText config level ms)
  | _, [], _ => .words (by decide : NoBracket "")
  | level, _ :: _, clean => by
    have words := List.forall_mem_append.1 clean
    have line := ((Member.text_bracketed level words.1).before (noBracket_indentText level)).after
      (by decide : NoBracket ";")
    exact (line.after (by decide)).append (Member.bodyText_bracketed level words.2)

end

theorem Ty.bodyText_bracketed (level : Nat) {t : Ty String}
    (clean : ∀ word ∈ t.words, NoBracket word) : Bracketed t.nodes (t.bodyText config level) := by
  have inline := Ty.text_bracketed config level clean
  cases t with
  | union elements => exact (Ty.stackText_bracketed config (level + 1) clean).bare rfl
  | _ => exact inline.before (by decide)

/-- The text of a statement has the brackets of its nodes. -/
theorem Statement.text_bracketed (forceExport : Bool) {s : Statement String}
    (clean : ∀ word ∈ s.words, NoBracket word) :
    Bracketed s.nodes (s.text config forceExport) := by
  cases s with
  | useStrict => exact .words (by decide : NoBracket "'use strict';")
  | typeAlias name hasExport type =>
    have words := List.forall_mem_cons.1 clean
    have exportMark := noBracket_markText (by decide : NoBracket "export ")
      (forceExport || hasExport)
    have front := (((Bracketed.words exportMark).after (by decide : NoBracket "type ")).after
      words.1).after (by decide : NoBracket " =")
    exact (front.append (Ty.bodyText_bracketed config 0 words.2)).after (by decide)

/-- The brackets of a program are those of its statements. -/
theorem Statement.listText_bracketed (forceExport : Bool) {ss : List (Statement String)}
    (clean : ∀ s ∈ ss, ∀ word ∈ s.words, NoBracket word) :
    Bracketed (ss.flatMap Statement.nodes) (Statement.listText config forceExport ss) := by
  induction ss with
  | nil => exact .words (by decide : NoBracket "")
  | cons s ss ih =>
    have each := List.forall_mem_cons.1 clean
    have first := (Statement.text_bracketed config forceExport each.1).after
      (by decide : NoBracket (lineEnd ++ lineEnd))
    exact first.append (ih each.2)

end Texts

/-- A printer, after any calls, prints a type, a statement or a program whose words have no
brackets.  In the text that it appends or returns the brackets are nested, and there is one pair
for each node that is written in brackets. -/
theorem brackets_match (config : PrintConfig) (cs : List PrinterCall) (names : NameTable) :
    let printer := (Printer.new config).calls cs
    (∀ type : Ty Handle, (∀ word ∈ (type.map names.resolve).words, NoBracket word) →
      ∃ text, printer.printType names type = ⟨config, ⟨printer.sink.text ++ text, 0⟩⟩ ∧
        Bracketed (type.map names.resolve).nodes text) ∧
      (∀ (forceExport : Bool) (s : Statement Handle),
        (∀ word ∈ (s.map names.resolve).words, NoBracket word) →
          ∃ text, printer.printStatement names forceExport s =
              ⟨config, ⟨printer.sink.text ++ text, 0⟩⟩ ∧
            Bracketed (s.map names.resolve).nodes text) ∧
      ∀ (forceExport : Bool) (program : Program Handle),
        (∀ word ∈ (program.map names.resolve).words, NoBracket word) →
          Bracketed (program.map names.resolve).nodes
            (printer.printProgram names forceExport program).1 := by
  intro printer
  have state : printer = ⟨config, ⟨printer.sink.text, 0⟩⟩ := by
    simp only [printer, Printer.calls_eq]
  have appended : ∀ {steps : List Step}, Balanced steps →
      printer.print steps = ⟨config, ⟨printer.sink.text ++ textFrom 0 steps, 0⟩⟩ := by
    intro steps balanced
    rw [state, Printer.print_eq _ balanced]
  refine ⟨?_, ?_, ?_⟩
  · intro type clean
    refine ⟨(type.map names.resolve).text config 0, ?_, Ty.text_bracketed config 0 clean⟩
    rw [← Ty.textFrom_layout, ← appended (Ty.layout_balanced ..), Printer.printType, state]
  · intro forceExport s clean
    refine ⟨(s.map names.resolve).text config forceExport, ?_,
      Statement.text_bracketed config forceExport clean⟩
    rw [← Statement.textFrom_layout, ← appended (Statement.layout_balanced ..),
      Printer.printStatement, state]
  · intro forceExport program clean
    have returned : (printer.printProgram names forceExport program).1 =
        programText config forceExport names program := by
      rw [state]
      rfl
    rw [returned, programText_eq_listText]
    exact Statement.listText_bracketed config forceExport (List.forall_mem_flatMap.1 clean)

/-- A type with every bracket, in an alias and in a program.  Some text is pending before it. -/
theorem brackets_match_nested :
    let names := NameTable.empty.insertAll ["A", "k", "B"]
    let index : Member Handle := .indexer ⟨1⟩ (.array (.literal "1") true)
      (.decorated (.reference (.identifier ⟨2⟩) [.array (.primitive ⟨0⟩) false])) false
    let type : Ty Handle := .object [.optional (.paren (.primitive ⟨0⟩))] [index]
    let s : Statement Handle := .typeAlias ⟨2⟩ false type
    let program : Program Handle := ⟨[.useStrict, s]⟩
    let printer := (Printer.new {}).calls [⟨names, .type (.optional (.primitive ⟨0⟩))⟩]
    let text := "(undefined | (A)) & \x7b\r\n  [k: ReadonlyArray<1>]: Readonly<B<A[]>>;\r\n\x7d"
    (∀ word ∈ (type.map names.resolve).words, NoBracket word) ∧
      (∀ word ∈ (s.map names.resolve).words, NoBracket word) ∧
      (∀ word ∈ (program.map names.resolve).words, NoBracket word) ∧
      (type.map names.resolve).nodes.filterMap Node.opener? =
        ['\x7b', '(', '(', '[', '<', '<', '<', '['] ∧
      (printer.printType names type).sink.text = "(undefined | A)" ++ text ∧
      Bracketed (type.map names.resolve).nodes text ∧
      Bracketed (s.map names.resolve).nodes ("type B = " ++ text ++ ";") ∧
      Bracketed (program.map names.resolve).nodes
        ("'use strict';\r\n\r\ntype B = " ++ text ++ ";\r\n\r\n") := by
  intro names index type s program printer text
  have cleanType : ∀ word ∈ (type.map names.resolve).words, NoBracket word := by decide
  have cleanAlias : ∀ word ∈ (s.map names.resolve).words, NoBracket word := by decide
  have cleanProgram : ∀ word ∈ (program.map names.resolve).words, NoBracket word := by decide
  obtain ⟨onType, onAlias, onProgram⟩ :=
    brackets_match {} [⟨names, .type (.optional (.primitive ⟨0⟩))⟩] names
  obtain ⟨typeText, typePrinted, typeBrackets⟩ := onType type cleanType
  obtain ⟨aliasText, aliasPrinted, aliasBrackets⟩ := onAlias false s cleanAlias
  have typeTextEq : typeText = text := by
    rw [← String.append_right_inj printer.sink.text]
    refine (congrArg (fun p => p.sink.text) typePrinted).symm.trans ?_
    decide +kernel
  have aliasTextEq : aliasText = "type B = " ++ text ++ ";" := by
    rw [← String.append_right_inj printer.sink.text]
    refine (congrArg (fun p => p.sink.text) aliasPrinted).symm.trans ?_
    decide +kernel
  have programTextEq : (printer.printProgram names false program).1 =
      "'use strict';\r\n\r\ntype B = " ++ text ++ ";\r\n\r\n" := by decide +kernel
  refine ⟨cleanType, cleanAlias, cleanProgram, by decide, by decide +kernel, ?_, ?_, ?_⟩
  · exact typeTextEq ▸ typeBrackets
  · exact aliasTextEq ▸ aliasBrackets
  · exact programTextEq ▸ onProgram false program cleanProgram

end FlowDecl
