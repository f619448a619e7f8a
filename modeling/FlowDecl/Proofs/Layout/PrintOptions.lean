import FlowDecl.Proofs.Layout.Text
import FlowDecl.Proofs.Text.Cut
import FlowDecl.Proofs.Tree

/-!
# What the print options change

There are two options.  One gives the word for an absent value, which an optional type
starts with.  The other one exports every alias.

The texts of a tree under the two words differ in these words only, one for each optional
type (`Spelled`).  The words are of one length, so that all lines are cut at the same places.
Exporting every alias puts a word in front of the aliases that are not exported, under both
words alike.
-/

namespace FlowDecl

/-! ## Two spellings of a text -/

/-- The node is a type whose value may be absent. -/
def Node.isOptional {ν : Type} : Node ν → Bool
  | .type (.optional _) => true
  | _ => false

/-- Two texts that are the same but for the words for an absent value, of which there are so
many. -/
inductive Spelled : Nat → String → String → Prop where
  /-- Texts without such a word. -/
  | same (text : String) : Spelled 0 text text
  /-- A text up to the first such word. -/
  | absent (front : String) {count : Nat} {a b : String} : Spelled count a b →
    Spelled (count + 1) (front ++ ("(undefined | " ++ a)) (front ++ ("(ReactNull | " ++ b))

namespace Spelled

variable {m n : Nat} {a b c d : String}

theorem before (text : String) (spelled : Spelled n a b) : Spelled n (text ++ a) (text ++ b) := by
  cases spelled with
  | same rest => exact .same _
  | absent front rest => simpa only [String.append_assoc] using absent (text ++ front) rest

/-- Texts behind each other differ in as many places as both of them. -/
theorem append (first : Spelled m a b) (second : Spelled n c d) :
    Spelled (m + n) (a ++ c) (b ++ d) := by
  induction first with
  | same text =>
    rw [Nat.zero_add]
    exact second.before text
  | absent front _ ih =>
    rw [Nat.add_right_comm]
    simp only [String.append_assoc]
    exact .absent front ih

theorem after (spelled : Spelled n a b) (text : String) : Spelled n (a ++ text) (b ++ text) :=
  spelled.append (.same text)

theorem eq_of_zero (spelled : Spelled 0 a b) : a = b := by
  cases spelled
  rfl

/-- The pieces around the words. -/
theorem pieces (spelled : Spelled n a b) :
    ∃ pieces : List String, pieces.length = n + 1 ∧
      (∀ piece ∈ pieces.dropLast, "(".toList <:+ piece.toList) ∧
      (∀ piece ∈ pieces.tail, " | ".toList <+: piece.toList) ∧
      a = "undefined".intercalate pieces ∧ b = "ReactNull".intercalate pieces := by
  induction spelled with
  | same text => exact ⟨[text], rfl, nofun, nofun, by simp, by simp⟩
  | @absent front n a b _ ih =>
    obtain ⟨pieces, count, opens, closes, first, second⟩ := ih
    obtain ⟨piece, more, rfl⟩ := List.exists_cons_of_length_eq_add_one count
    have joined : ∀ word : String, word.intercalate ((front ++ "(") :: (" | " ++ piece) :: more) =
        front ++ ("(" ++ (word ++ (" | " ++ word.intercalate (piece :: more)))) := by
      intro word
      rw [String.intercalate_cons_cons, String.intercalate_cons_append]
      simp only [String.append_assoc]
    refine ⟨(front ++ "(") :: (" | " ++ piece) :: more, by simpa using count, ?_, ?_, ?_, ?_⟩
    · rw [List.dropLast_cons_of_ne_nil (by simp), List.forall_mem_cons]
      refine ⟨⟨front.toList, String.toList_append.symm⟩, ?_⟩
      cases more with
      | nil => exact nofun
      | cons next more =>
        rw [List.dropLast_cons_of_ne_nil (by simp), List.forall_mem_cons] at opens ⊢
        obtain ⟨⟨text, hPiece⟩, others⟩ := opens
        refine ⟨⟨" | ".toList ++ text, ?_⟩, others⟩
        rw [List.append_assoc, hPiece, String.toList_append]
    · rw [List.tail_cons, List.forall_mem_cons]
      exact ⟨⟨piece.toList, String.toList_append.symm⟩, closes⟩
    · have word : "(undefined | " = "(" ++ ("undefined" ++ " | ") := rfl
      rw [joined, first, word]
      simp only [String.append_assoc]
    · have word : "(ReactNull | " = "(" ++ ("ReactNull" ++ " | ") := rfl
      rw [joined, second, word]
      simp only [String.append_assoc]

/-- The two texts have the same characters of line ends at the same places. -/
theorem map_eq (spelled : Spelled n a b) :
    a.toList.map (fun c => if c ∈ lineEnd.toList then c else ' ') =
      b.toList.map fun c => if c ∈ lineEnd.toList then c else ' ' := by
  induction spelled with
  | same text => rfl
  | absent front _ ih =>
    have words : "(undefined | ".toList.map (fun c => if c ∈ lineEnd.toList then c else ' ') =
        "(ReactNull | ".toList.map fun c => if c ∈ lineEnd.toList then c else ' ' := by decide
    simp only [String.toList_append, List.map_append, ih, words]

/-- Each place where the texts differ has the same length in both. -/
theorem length_eq (spelled : Spelled n a b) : a.length = b.length := by
  have lengths := congrArg List.length spelled.map_eq
  rw [List.length_map, List.length_map] at lengths
  exact lengths

/-- The two texts have lines of the same lengths. -/
theorem length_lines_eq (spelled : Spelled n a b) :
    (cut lineEnd a).map String.length = (cut lineEnd b).map String.length := by
  refine length_cut_of_map_eq (fun c hc d => ?_) spelled.map_eq
  split
  · exact Iff.rfl
  · next outside =>
    constructor
    · rintro rfl
      exact absurd hc (by decide)
    · rintro rfl
      exact absurd hc outside

end Spelled

/-! ## The two spellings of a tree -/

section Spellings

mutual

/-- The texts of a type under the two words. -/
theorem Ty.text_spelled : ∀ (level : Nat) (t : Ty String),
    Spelled (t.nodes.countP Node.isOptional) (t.text ⟨false⟩ level) (t.text ⟨true⟩ level)
  | _, .primitive name => .same name
  | _, .literal text => .same text
  | level, .optional element => by
    have inner := (Ty.text_spelled level element).after ")"
    rw [Ty.nodes, List.countP_cons_of_pos rfl, Ty.text, Ty.text, String.append_assoc,
      String.append_assoc]
    exact .absent "" inner
  | level, .array element true =>
    ((Ty.text_spelled level element).before "ReadonlyArray<").after ">"
  | level, .array element false => (Ty.text_spelled level element).after "[]"
  | level, .object mixins members => by
    have front := (Ty.mixinText_spelled level mixins).after "\x7b"
    have body := Member.bodyText_spelled (level + 1) members
    rw [Ty.nodes, List.countP_cons_of_neg (by simp [Node.isOptional]), List.countP_append]
    exact (((front.after lineEnd).append body).after (indentText level)).after "\x7d"
  | level, .decorated element => ((Ty.text_spelled level element).before "Readonly<").after ">"
  | level, .union elements => Ty.listText_spelled level " | " elements
  | _, .reference name [] => .same name.text
  | level, .reference name (argument :: arguments) =>
    ((Ty.listText_spelled level ", " (argument :: arguments)).before (name.text ++ "<")).after ">"
  | level, .paren element => ((Ty.text_spelled level element).before "(").after ")"

theorem Ty.listText_spelled : ∀ (level : Nat) (between : String) (ts : List (Ty String)),
    Spelled ((Ty.listNodes ts).countP Node.isOptional) (Ty.listText ⟨false⟩ level between ts)
      (Ty.listText ⟨true⟩ level between ts)
  | _, _, [] => .same ""
  | level, _, [t] => by
    rw [Ty.listNodes, Ty.listNodes, List.append_nil]
    exact Ty.text_spelled level t
  | level, between, t :: u :: ts => by
    rw [Ty.listNodes, List.countP_append]
    exact ((Ty.text_spelled level t).after between).append
      (Ty.listText_spelled level between (u :: ts))

theorem Ty.mixinText_spelled : ∀ (level : Nat) (ts : List (Ty String)),
    Spelled ((Ty.listNodes ts).countP Node.isOptional) (Ty.mixinText ⟨false⟩ level ts)
      (Ty.mixinText ⟨true⟩ level ts)
  | _, [] => .same ""
  | level, t :: ts => by
    rw [Ty.listNodes, List.countP_append]
    exact ((Ty.text_spelled level t).after " & ").append (Ty.mixinText_spelled level ts)

theorem Ty.stackText_spelled : ∀ (level : Nat) (ts : List (Ty String)),
    Spelled ((Ty.listNodes ts).countP Node.isOptional) (Ty.stackText ⟨false⟩ level ts)
      (Ty.stackText ⟨true⟩ level ts)
  | _, [] => .same ""
  | level, t :: ts => by
    rw [Ty.listNodes, List.countP_append]
    exact ((Ty.text_spelled (level + 1) t).before (lineEnd ++ indentText level ++ "| ")).append
      (Ty.stackText_spelled level ts)

/-- A member differs in the places of its optional types. -/
theorem Member.text_spelled : ∀ (level : Nat) (m : Member String),
    Spelled (m.nodes.countP Node.isOptional) (m.text ⟨false⟩ level) (m.text ⟨true⟩ level)
  | level, .prop name isOptional isReadonly type => by
    have inline := Ty.text_spelled level type
    rw [Member.nodes, List.countP_cons_of_neg (by simp [Node.isOptional]), Member.text_prop,
      Member.text_prop]
    refine .before _ ?_
    cases type with
    | union elements => exact Ty.stackText_spelled (level + 1) elements
    | _ => exact inline.before " "
  | level, .indexer keyName keyType valueType isReadonly => by
    have key := (Ty.text_spelled level keyType).before
      (markText "readonly " isReadonly ++ "[" ++ keyName ++ ": ")
    rw [Member.nodes, List.countP_cons_of_neg (by simp [Node.isOptional]), List.countP_append]
    exact (key.after "]: ").append (Ty.text_spelled level valueType)

theorem Member.bodyText_spelled : ∀ (level : Nat) (ms : List (Member String)),
    Spelled ((Member.listNodes ms).countP Node.isOptional) (Member.bodyText ⟨false⟩ level ms)
      (Member.bodyText ⟨true⟩ level ms)
  | _, [] => .same ""
  | level, m :: ms => by
    rw [Member.listNodes, List.countP_append]
    exact ((((Member.text_spelled level m).before (indentText level)).after ";").after
      lineEnd).append (Member.bodyText_spelled level ms)

end

theorem Statement.text_spelled (forceExport : Bool) (s : Statement String) :
    Spelled (s.nodes.countP Node.isOptional) (s.text ⟨false⟩ forceExport)
      (s.text ⟨true⟩ forceExport) := by
  cases s with
  | useStrict => exact .same _
  | typeAlias name hasExport type =>
    refine .after (.before _ ?_) ";"
    have inline := Ty.text_spelled 0 type
    cases type with
    | union elements => exact Ty.stackText_spelled 1 elements
    | _ => exact inline.before " "

/-- The texts of statements under the two words. -/
theorem Statement.listText_spelled (forceExport : Bool) (ss : List (Statement String)) :
    Spelled ((ss.flatMap Statement.nodes).countP Node.isOptional)
      (Statement.listText ⟨false⟩ forceExport ss) (Statement.listText ⟨true⟩ forceExport ss) := by
  induction ss with
  | nil => exact .same ""
  | cons s ss ih =>
    rw [List.flatMap_cons, List.countP_append]
    exact ((s.text_spelled forceExport).after _).append ih

end Spellings

/-! ## Exporting every alias -/

/-- The word that an alias gets when every alias is exported. -/
def Statement.missingExport {ν : Type} : Statement ν → String
  | .typeAlias _ false _ => "export "
  | _ => ""

/-- Forcing exports puts the missing prefix before a statement. -/
theorem Statement.text_forceExport (config : PrintConfig) (s : Statement String) :
    s.text config true = s.missingExport ++ s.text config false := by
  cases s with
  | useStrict => rfl
  | typeAlias name hasExport type =>
    have there : markText "export " true = "export " := rfl
    have absent : markText "export " false = "" := rfl
    cases hasExport with
    | true => rfl
    | false =>
      simp only [Statement.text, missingExport, Bool.or_false, there, absent, String.empty_append,
        String.append_assoc]

theorem statementText_forceExport (config : PrintConfig) (names : NameTable)
    (s : Statement Handle) : statementText config true names s =
      s.missingExport ++ statementText config false names s := by
  have word : (s.map names.resolve).missingExport = s.missingExport := by
    cases s with
    | useStrict => rfl
    | typeAlias name hasExport type => cases hasExport <;> rfl
  rw [statementText_eq, statementText_eq, Statement.textFrom_layout, Statement.textFrom_layout,
    Statement.text_forceExport, word]

/-- What each of the two options changes in the text of a program, whatever the other one is. -/
theorem print_options_change (names : NameTable) (program : Program Handle) :
    let text (useReactNull forceExport : Bool) :=
      programText ⟨useReactNull⟩ forceExport names program
    let absent := (program.map names.resolve).nodes.countP Node.isOptional
    (∀ forceExport,
      (∃ pieces : List String, pieces.length = absent + 1 ∧
        (∀ piece ∈ pieces.dropLast, "(".toList <:+ piece.toList) ∧
        (∀ piece ∈ pieces.tail, " | ".toList <+: piece.toList) ∧
        text false forceExport = "undefined".intercalate pieces ∧
        text true forceExport = "ReactNull".intercalate pieces) ∧
      (text false forceExport).length = (text true forceExport).length ∧
      (cut "\r\n" (text false forceExport)).map String.length =
        (cut "\r\n" (text true forceExport)).map String.length ∧
      (absent = 0 → text false forceExport = text true forceExport)) ∧
    ∀ useReactNull,
      let textOf (s : Statement Handle) := statementText ⟨useReactNull⟩ false names s
      text useReactNull false =
        String.join (program.statements.map fun s => textOf s ++ "\r\n\r\n") ∧
      text useReactNull true =
        String.join (program.statements.map fun s =>
          s.missingExport ++ textOf s ++ "\r\n\r\n") := by
  intro text absent
  constructor
  · intro forceExport
    have spelled : Spelled absent (text false forceExport) (text true forceExport) := by
      simp only [text, programText_eq_listText]
      exact Statement.listText_spelled forceExport _
    refine ⟨spelled.pieces, spelled.length_eq, spelled.length_lines_eq, ?_⟩
    intro none
    rw [none] at spelled
    exact spelled.eq_of_zero
  · intro useReactNull textOf
    refine ⟨programText_eq _ _ _ _, ?_⟩
    simp only [text, programText_eq, statementText_forceExport, textOf]

end FlowDecl
