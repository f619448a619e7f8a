import FlowDecl.Proofs.Layout.PrinterCalls

/-!
# Texts of trees

The text of a tree is given here by recursion on the tree, without steps and without
a sink.  It depends on the level for the lines of objects and of stacked unions alone.
The layout of a tree appends this text to any sink, at every level
(`Ty.textFrom_layout` and its companions).
-/

namespace FlowDecl

/-! ## Texts -/

/-- The text of an entity name: its segments back to back. -/
def EntityName.text : EntityName String → String
  | .identifier name => name
  | .qualified parent name => parent.text ++ name

/-- The text of a mark that may be there. -/
def markText (mark : String) (isThere : Bool) : String := if isThere then mark else ""

mutual

/-- The text of a type, a union inline. -/
def Ty.text (config : PrintConfig) (level : Nat) : Ty String → String
  | .primitive name => name
  | .literal text => text
  | .optional element => config.absentHalf ++ element.text config level ++ ")"
  | .array element true => "ReadonlyArray<" ++ element.text config level ++ ">"
  | .array element false => element.text config level ++ "[]"
  | .object mixins members =>
    Ty.mixinText config level mixins ++ "\x7b" ++ lineEnd ++
      Member.bodyText config (level + 1) members ++ indentText level ++ "\x7d"
  | .decorated element => "Readonly<" ++ element.text config level ++ ">"
  | .union elements => Ty.listText config level " | " elements
  | .reference name [] => name.text
  | .reference name (argument :: arguments) =>
    name.text ++ "<" ++ Ty.listText config level ", " (argument :: arguments) ++ ">"
  | .paren element => "(" ++ element.text config level ++ ")"

/-- The text of types with a text between them. -/
def Ty.listText (config : PrintConfig) (level : Nat) (between : String) :
    List (Ty String) → String
  | [] => ""
  | [t] => t.text config level
  | t :: u :: ts => t.text config level ++ between ++ Ty.listText config level between (u :: ts)

/-- The text of the types spread into an object. -/
def Ty.mixinText (config : PrintConfig) (level : Nat) : List (Ty String) → String
  | [] => ""
  | t :: ts => t.text config level ++ " & " ++ Ty.mixinText config level ts

/-- The text of the elements of a stacked union. -/
def Ty.stackText (config : PrintConfig) (level : Nat) : List (Ty String) → String
  | [] => ""
  | t :: ts =>
    lineEnd ++ indentText level ++ "| " ++ t.text config (level + 1) ++
      Ty.stackText config level ts

/-- The text of a member. -/
def Member.text (config : PrintConfig) (level : Nat) : Member String → String
  | .prop name isOptional isReadonly (.union elements) =>
    markText "readonly " isReadonly ++ name ++ markText "?" isOptional ++ ":" ++
      Ty.stackText config (level + 1) elements
  | .prop name isOptional isReadonly type =>
    markText "readonly " isReadonly ++ name ++ markText "?" isOptional ++ ": " ++
      type.text config level
  | .indexer keyName keyType valueType isReadonly =>
    markText "readonly " isReadonly ++ "[" ++ keyName ++ ": " ++ keyType.text config level ++
      "]: " ++ valueType.text config level

/-- The text of the members of an object, each on a line. -/
def Member.bodyText (config : PrintConfig) (level : Nat) : List (Member String) → String
  | [] => ""
  | m :: ms =>
    indentText level ++ m.text config level ++ ";" ++ lineEnd ++ Member.bodyText config level ms

end

/-- The text of a type after an equals sign or a colon: a union is stacked, and any other
type follows a blank. -/
def Ty.bodyText (config : PrintConfig) (level : Nat) : Ty String → String
  | .union elements => Ty.stackText config (level + 1) elements
  | type => " " ++ type.text config level

theorem Member.text_prop (config : PrintConfig) (level : Nat) (name : String)
    (isOptional isReadonly : Bool) (type : Ty String) :
    (Member.prop name isOptional isReadonly type).text config level =
      markText "readonly " isReadonly ++ name ++ markText "?" isOptional ++ ":" ++
        type.bodyText config level := by
  have blank : ": " = ":" ++ " " := rfl
  cases type <;>
    simp only [Member.text, Ty.bodyText, blank, String.append_assoc]

/-- The text of a statement. -/
def Statement.text (config : PrintConfig) (forceExport : Bool) : Statement String → String
  | .useStrict => "'use strict';"
  | .typeAlias name hasExport type =>
    markText "export " (forceExport || hasExport) ++ "type " ++ name ++ " =" ++
      type.bodyText config 0 ++ ";"

/-- The text of statements, each with an empty line after it. -/
def Statement.listText (config : PrintConfig) (forceExport : Bool) :
    List (Statement String) → String
  | [] => ""
  | s :: ss =>
    s.text config forceExport ++ (lineEnd ++ lineEnd) ++ Statement.listText config forceExport ss

/-! ## Layouts append texts -/

section Layouts

variable (config : PrintConfig)

/-- The layout of an entity name writes its text, at every level. -/
theorem EntityName.textFrom_layout (level : Nat) :
    ∀ name : EntityName String, textFrom level name.layout = name.text
  | .identifier name => by simp [EntityName.layout, EntityName.text, Step.textAt]
  | .qualified parent name => by
    simp [EntityName.layout, EntityName.text, Step.textAt, parent.textFrom_layout]

theorem textFrom_readonlyMark (level : Nat) (isReadonly : Bool) :
    textFrom level (readonlyMark isReadonly) = markText "readonly " isReadonly := by
  cases isReadonly <;> simp [readonlyMark, markText, Step.textAt]

theorem textFrom_optionalMark (level : Nat) (isOptional : Bool) :
    textFrom level (optionalMark isOptional) = markText "?" isOptional := by
  cases isOptional <;> simp [optionalMark, markText, Step.textAt]

mutual

/-- The layout of a type appends its text. -/
theorem Ty.textFrom_layout : ∀ (level : Nat) (t : Ty String),
    textFrom level (t.layout config) = t.text config level
  | _, .primitive name => by simp [Ty.layout, Ty.text, Step.textAt]
  | _, .literal text => by simp [Ty.layout, Ty.text, Step.textAt]
  | level, .optional element => by
    simp [Ty.layout, Ty.text, Step.textAt, Step.levelAfter, Ty.textFrom_layout level element,
      (element.layout_balanced config).levelAfter_eq, String.append_assoc]
  | level, .array element true => by
    simp [Ty.layout, Ty.text, Step.textAt, Step.levelAfter, Ty.textFrom_layout level element,
      (element.layout_balanced config).levelAfter_eq, String.append_assoc]
  | level, .array element false => by
    simp [Ty.layout, Ty.text, Step.textAt, Ty.textFrom_layout level element]
  | level, .object mixins members => by
    simp [Ty.layout, Ty.text, Step.textAt, Step.levelAfter, Ty.textFrom_mixinLayout level mixins,
      (Ty.mixinLayout_balanced config mixins).levelAfter_eq,
      (Member.bodyLayout_balanced config members).levelAfter_eq,
      Member.textFrom_bodyLayout (level + 1) members, String.append_assoc]
  | level, .decorated element => by
    simp [Ty.layout, Ty.text, Step.textAt, Step.levelAfter, Ty.textFrom_layout level element,
      (element.layout_balanced config).levelAfter_eq, String.append_assoc]
  | level, .union elements => by
    rw [Ty.layout, Ty.text, Ty.textFrom_listLayout level " | " elements]
  | level, .reference name [] => by
    rw [Ty.layout, Ty.text, name.textFrom_layout]
  | level, .reference name (argument :: arguments) => by
    simp [Ty.layout, Ty.text, Step.textAt, Step.levelAfter, name.textFrom_layout,
      Ty.textFrom_listLayout level ", " (argument :: arguments),
      name.layout_balanced.levelAfter_eq, String.append_assoc]
  | level, .paren element => by
    simp [Ty.layout, Ty.text, Step.textAt, Step.levelAfter, Ty.textFrom_layout level element,
      (element.layout_balanced config).levelAfter_eq, String.append_assoc]

/-- The layout of types in a row writes their texts with the given text between them. -/
theorem Ty.textFrom_listLayout : ∀ (level : Nat) (between : String) (ts : List (Ty String)),
    textFrom level (Ty.listLayout config between ts) = Ty.listText config level between ts
  | _, _, [] => rfl
  | level, _, [t] => by rw [Ty.listLayout, Ty.listText, Ty.textFrom_layout level t]
  | level, between, t :: u :: ts => by
    simp [Ty.listLayout, Ty.listText, Step.textAt, Step.levelAfter, Ty.textFrom_layout level t,
      (t.layout_balanced config).levelAfter_eq, Ty.textFrom_listLayout level between (u :: ts),
      String.append_assoc]

theorem Ty.textFrom_mixinLayout : ∀ (level : Nat) (ts : List (Ty String)),
    textFrom level (Ty.mixinLayout config ts) = Ty.mixinText config level ts
  | _, [] => rfl
  | level, t :: ts => by
    simp [Ty.mixinLayout, Ty.mixinText, Step.textAt, Step.levelAfter, Ty.textFrom_layout level t,
      (t.layout_balanced config).levelAfter_eq, Ty.textFrom_mixinLayout level ts,
      String.append_assoc]

/-- The layout of stacked types writes each on a line of its own. -/
theorem Ty.textFrom_stackLayout : ∀ (level : Nat) (ts : List (Ty String)),
    textFrom level (Ty.stackLayout config ts) = Ty.stackText config level ts
  | _, [] => rfl
  | level, t :: ts => by
    simp [Ty.stackLayout, Ty.stackText, Step.textAt, Step.levelAfter,
      Ty.textFrom_layout (level + 1) t, (t.layout_balanced config).levelAfter_eq,
      Ty.textFrom_stackLayout level ts, String.append_assoc]

/-- The steps of a member have its text. -/
theorem Member.textFrom_layout : ∀ (level : Nat) (m : Member String),
    textFrom level (m.layout config) = m.text config level
  | level, .prop name isOptional isReadonly type => by
    have marks : ∀ steps, textFrom level (readonlyMark isReadonly ++
        .write name :: optionalMark isOptional ++ steps) =
        markText "readonly " isReadonly ++ name ++ markText "?" isOptional ++
          textFrom level steps := by
      intro steps
      simp [Step.textAt, Step.levelAfter, textFrom_readonlyMark, textFrom_optionalMark,
        (readonlyMark_balanced isReadonly).levelAfter_eq,
        (optionalMark_balanced isOptional).levelAfter_eq, String.append_assoc]
    have inline := Ty.textFrom_layout level type
    cases type with
    | union elements =>
      rw [Member.layout, Member.text, List.append_assoc, marks]
      simp [Step.textAt, Step.levelAfter, Ty.textFrom_stackLayout (level + 1) elements,
        String.append_assoc]
    | _ =>
      rw [Member.layout, Member.text, marks]
      · rw [textFrom_cons, ← inline]
        simp [Step.textAt, Step.levelAfter, String.append_assoc]
      · simp
      · simp
  | level, .indexer keyName keyType valueType isReadonly => by
    simp [Member.layout, Member.text, Step.textAt, Step.levelAfter, textFrom_readonlyMark,
      (readonlyMark_balanced isReadonly).levelAfter_eq, Ty.textFrom_layout level keyType,
      (keyType.layout_balanced config).levelAfter_eq, Ty.textFrom_layout level valueType,
      String.append_assoc]

/-- The layout of members writes each on a line of its own. -/
theorem Member.textFrom_bodyLayout : ∀ (level : Nat) (ms : List (Member String)),
    textFrom level (Member.bodyLayout config ms) = Member.bodyText config level ms
  | _, [] => rfl
  | level, m :: ms => by
    simp [Member.bodyLayout, Member.bodyText, Step.textAt, Step.levelAfter,
      Member.textFrom_layout level m, (m.layout_balanced config).levelAfter_eq,
      Member.textFrom_bodyLayout level ms, String.append_assoc]

end

example : textFrom 0 ((Ty.object [.literal "A"]
    [.prop "b" true false (.union [.literal "C", .literal "D"])]).layout ⟨false⟩) =
    "A & \x7b\r\n  b?:\r\n    | C\r\n    | D;\r\n\x7d" := by rfl

theorem Ty.textFrom_aliasBodyLayout (level : Nat) (t : Ty String) :
    textFrom level (t.aliasBodyLayout config) = t.bodyText config level := by
  have inline := Ty.textFrom_layout config level t
  cases t with
  | union elements =>
    simp [Ty.aliasBodyLayout, unionStackedLayout, Ty.bodyText, Step.textAt, Step.levelAfter,
      Ty.textFrom_stackLayout config (level + 1) elements]
  | _ =>
    rw [Ty.aliasBodyLayout, Ty.bodyText, textFrom_cons, ← inline]
    · rfl
    · simp
    · simp

/-- The layout of a statement writes its text. -/
theorem Statement.textFrom_layout (forceExport : Bool) (s : Statement String) :
    textFrom 0 (s.layout config forceExport) = s.text config forceExport := by
  cases s with
  | useStrict => simp [Statement.layout, Statement.text, Step.textAt]
  | typeAlias name hasExport type =>
    have mark : textFrom 0 (if forceExport || hasExport then [.write "export "] else []) =
        markText "export " (forceExport || hasExport) := by
      cases forceExport || hasExport <;> simp [markText, Step.textAt]
    have markLevel :
        levelAfter 0 (if forceExport || hasExport then [.write "export "] else []) = 0 := by
      split <;> rfl
    simp only [Statement.layout, Statement.text, textFrom_append, levelAfter_append, mark,
      markLevel, (type.aliasBodyLayout_balanced config).levelAfter_eq, textFrom_cons,
      Ty.textFrom_aliasBodyLayout, Step.textAt, Step.levelAfter, levelAfter_cons, textFrom_nil,
      String.append_assoc, String.append_empty]

/-- The steps of a program have the texts of its statements. -/
theorem Program.textFrom_layout (forceExport : Bool) (p : Program String) :
    textFrom 0 (p.layout config forceExport) =
      Statement.listText config forceExport p.statements := by
  obtain ⟨statements⟩ := p
  rw [Program.layout]
  induction statements with
  | nil => rfl
  | cons s ss ih =>
    have first : Balanced (s.layout config forceExport ++ [.line, .line]) :=
      (s.layout_balanced config forceExport).append (.line (.line .nil))
    rw [List.flatMap_cons, textFrom_append, first.levelAfter_eq, ih, Statement.listText,
      textFrom_append, Statement.textFrom_layout]
    simp [Step.textAt, String.append_assoc]

/-- The text of a program over handles is that of the program over their names. -/
theorem programText_eq_listText (forceExport : Bool) (names : NameTable)
    (program : Program Handle) :
    programText config forceExport names program =
      Statement.listText config forceExport (program.map names.resolve).statements := by
  rw [programText_eq_textFrom, Program.textFrom_layout]

end Layouts

end FlowDecl
