import FlowDecl.Layout
import Mathlib.Data.List.DropRight

/-!
# Calls of a printer

Every layout is balanced, and so calls of a printer put texts behind each other.
-/

namespace FlowDecl

/-! ## Balance of layouts

What steps do to a sink depends on the sink only through its level.  From a level
they append a text (`textFrom`) and end at a level (`levelAfter`), and
`Sink.run_eq` says that this is all they do.

Steps are *balanced* when every push is undone by a pop of its own.  Balanced
steps are never refused and end at the level they start from, at every level and
over every text.  The layout of every tree is balanced.  The proof follows the
trees, one case for each constructor.
-/

/-! ### Steps as a text and a level -/

/-- The text a step appends at a level. -/
def Step.textAt (level : Nat) : Step → String
  | .push => ""
  | .pop => ""
  | .write text => text
  | .line => lineEnd
  | .indent => indentText level

/-- The level a step leaves. -/
def Step.levelAfter (level : Nat) : Step → Nat
  | .push => level + 1
  | .pop => level - 1
  | .write _ => level
  | .line => level
  | .indent => level

/-- The level that steps leave. -/
def levelAfter (level : Nat) (steps : List Step) : Nat := steps.foldl Step.levelAfter level

/-- The text that steps append, from a level. -/
def textFrom (level : Nat) : List Step → String
  | [] => ""
  | x :: steps => x.textAt level ++ textFrom (x.levelAfter level) steps

@[simp] theorem levelAfter_nil (level : Nat) : levelAfter level [] = level := rfl

@[simp] theorem levelAfter_cons (level : Nat) (x : Step) (steps : List Step) :
    levelAfter level (x :: steps) = levelAfter (x.levelAfter level) steps := rfl

@[simp] theorem levelAfter_append (level : Nat) (a b : List Step) :
    levelAfter level (a ++ b) = levelAfter (levelAfter level a) b :=
  List.foldl_append ..

@[simp] theorem textFrom_nil (level : Nat) : textFrom level [] = "" := rfl

@[simp] theorem textFrom_cons (level : Nat) (x : Step) (steps : List Step) :
    textFrom level (x :: steps) = x.textAt level ++ textFrom (x.levelAfter level) steps := rfl

/-- The second list of steps is printed from the level that the first one leaves. -/
@[simp] theorem textFrom_append (level : Nat) (a b : List Step) :
    textFrom level (a ++ b) = textFrom level a ++ textFrom (levelAfter level a) b := by
  induction a generalizing level with
  | nil => simp
  | cons x a ih =>
    rw [List.cons_append, textFrom_cons, textFrom_cons, levelAfter_cons, ih, String.append_assoc]

/-- A step puts its text behind what is there and moves the level. -/
theorem Sink.perform_eq (s : Sink) (x : Step) :
    s.perform x = ⟨s.text ++ x.textAt s.level, x.levelAfter s.level⟩ := by
  cases x with
  | push => simp [Sink.perform, Step.textAt, Step.levelAfter]
  | pop => simp [Sink.perform, Step.textAt, Step.levelAfter]
  | write text => rfl
  | line => rfl
  | indent => rfl

/-- What steps do to a sink. -/
theorem Sink.run_eq (s : Sink) (steps : List Step) :
    s.run steps = ⟨s.text ++ textFrom s.level steps, levelAfter s.level steps⟩ := by
  induction steps generalizing s with
  | nil => simp [Sink.run]
  | cons x steps ih =>
    have first : s.run (x :: steps) = (s.perform x).run steps := rfl
    rw [first, ih, Sink.perform_eq]
    simp [String.append_assoc]

/-! ### Balanced steps -/

/-- Steps in which every push is undone. -/
inductive Balanced : List Step → Prop where
  /-- No steps. -/
  | nil : Balanced []
  /-- A text in front. -/
  | write {text : String} {steps : List Step} : Balanced steps → Balanced (.write text :: steps)
  /-- The end of a line in front. -/
  | line {steps : List Step} : Balanced steps → Balanced (.line :: steps)
  /-- The blanks of the level in front. -/
  | indent {steps : List Step} : Balanced steps → Balanced (.indent :: steps)
  /-- Steps one level deeper in front. -/
  | nest {inner steps : List Step} :
    Balanced inner → Balanced steps → Balanced (.push :: inner ++ .pop :: steps)

theorem Balanced.append {a b : List Step} (ha : Balanced a) (hb : Balanced b) :
    Balanced (a ++ b) := by
  induction ha with
  | nil => exact hb
  | write _ ih => exact ih.write
  | line _ ih => exact ih.line
  | indent _ ih => exact ih.indent
  | nest inner _ _ ih =>
    rw [List.append_assoc]
    exact inner.nest ih

/-- Balanced steps end at the level they start from. -/
theorem Balanced.levelAfter_eq {steps : List Step} (balanced : Balanced steps) (level : Nat) :
    levelAfter level steps = level := by
  induction balanced generalizing level with
  | nil => rfl
  | write _ ih => exact ih level
  | line _ ih => exact ih level
  | indent _ ih => exact ih level
  | nest _ _ ihInner ih =>
    rw [levelAfter_append, levelAfter_cons, levelAfter_cons, ihInner]
    exact ih level

theorem Sink.run?_cons {s : Sink} {x : Step} (notPop : x ≠ .pop) (steps : List Step) :
    s.run? (x :: steps) = (s.perform x).run? steps := by
  have ok : s.step x = .ok (s.perform x) := if_neg fun h => notPop h.1
  unfold Sink.run?
  rw [List.foldlM_cons, ok]
  rfl

theorem Sink.run?_append {s t : Sink} {a : List Step} (first : s.run? a = .ok t)
    (b : List Step) : s.run? (a ++ b) = t.run? b := by
  unfold Sink.run? at *
  rw [List.foldlM_append, first]
  rfl

/-- Balanced steps are never refused: the pop after the inner steps stands at the level that its
push has left. -/
theorem Balanced.run?_eq {steps : List Step} (balanced : Balanced steps) (s : Sink) :
    s.run? steps = .ok (s.run steps) := by
  induction balanced generalizing s with
  | nil => rfl
  | write _ ih => rw [Sink.run?_cons (by simp), ih]; rfl
  | line _ ih => rw [Sink.run?_cons (by simp), ih]; rfl
  | indent _ ih => rw [Sink.run?_cons (by simp), ih]; rfl
  | @nest inner steps hInner _ ihInner ih =>
    have deeper : (s.perform .push).run inner =
        ⟨s.text ++ textFrom (s.level + 1) inner, s.level + 1⟩ := by
      rw [Sink.run_eq]
      simp [Sink.perform, hInner.levelAfter_eq]
    have popped : Sink.step ⟨s.text ++ textFrom (s.level + 1) inner, s.level + 1⟩ .pop =
        .ok ⟨s.text ++ textFrom (s.level + 1) inner, s.level⟩ := by
      simp [Sink.step, Sink.perform]
    have upToPop : s.run? (.push :: inner) =
        .ok ⟨s.text ++ textFrom (s.level + 1) inner, s.level + 1⟩ := by
      rw [Sink.run?_cons (by simp), ihInner, deeper]
    rw [Sink.run?_append upToPop, Sink.run?, List.foldlM_cons, popped]
    change Sink.run? _ steps = _
    rw [ih, Sink.run_eq, Sink.run_eq]
    simp [Step.textAt, Step.levelAfter, hInner.levelAfter_eq, String.append_assoc]

/-! ### Layouts of trees -/

section Layouts

variable (config : PrintConfig)

theorem Balanced.single_write (text : String) : Balanced [.write text] := .write .nil

theorem EntityName.layout_balanced : ∀ name : EntityName String, Balanced name.layout
  | .identifier name => .single_write name
  | .qualified parent name => parent.layout_balanced.append (.single_write name)

theorem readonlyMark_balanced (isReadonly : Bool) : Balanced (readonlyMark isReadonly) := by
  cases isReadonly with
  | false => exact .nil
  | true => exact .single_write _

theorem optionalMark_balanced (isOptional : Bool) : Balanced (optionalMark isOptional) := by
  cases isOptional with
  | false => exact .nil
  | true => exact .single_write _

mutual

/-- The layout of a type is balanced. -/
theorem Ty.layout_balanced : ∀ t : Ty String, Balanced (t.layout config)
  | .primitive name => .single_write name
  | .literal text => .single_write text
  | .optional element =>
    .append (.write element.layout_balanced) (.single_write _)
  | .array element true => .append (.write element.layout_balanced) (.single_write _)
  | .array element false => element.layout_balanced.append (.single_write _)
  | .object mixins members => by
    have body := Member.bodyLayout_balanced members
    rw [Ty.layout, List.append_assoc]
    exact (Ty.mixinLayout_balanced mixins).append
      (.write (.line (.nest body (.indent (.single_write _)))))
  | .decorated element => .append (.write element.layout_balanced) (.single_write _)
  | .union elements => Ty.listLayout_balanced " | " elements
  | .reference name [] => name.layout_balanced
  | .reference name (argument :: arguments) =>
    (name.layout_balanced.append
      (.write (Ty.listLayout_balanced ", " (argument :: arguments)))).append (.single_write _)
  | .paren element => .append (.write element.layout_balanced) (.single_write _)

theorem Ty.listLayout_balanced (between : String) :
    ∀ ts : List (Ty String), Balanced (Ty.listLayout config between ts)
  | [] => .nil
  | [t] => t.layout_balanced
  | t :: u :: ts =>
    t.layout_balanced.append (.write (Ty.listLayout_balanced between (u :: ts)))

theorem Ty.mixinLayout_balanced :
    ∀ ts : List (Ty String), Balanced (Ty.mixinLayout config ts)
  | [] => .nil
  | t :: ts => t.layout_balanced.append (.write (Ty.mixinLayout_balanced ts))

theorem Ty.stackLayout_balanced :
    ∀ ts : List (Ty String), Balanced (Ty.stackLayout config ts)
  | [] => .nil
  | t :: ts =>
    .line (.indent (.write (.nest t.layout_balanced (Ty.stackLayout_balanced ts))))

/-- A member is laid out in balance. -/
theorem Member.layout_balanced : ∀ m : Member String, Balanced (m.layout config)
  | .prop name isOptional isReadonly type => by
    have marks : Balanced (readonlyMark isReadonly ++ .write name :: optionalMark isOptional) :=
      (readonlyMark_balanced isReadonly).append (.write (optionalMark_balanced isOptional))
    have inline := type.layout_balanced
    cases type with
    | union elements =>
      rw [Member.layout, List.append_assoc]
      exact marks.append (.write (.nest (Ty.stackLayout_balanced elements) .nil))
    | _ => exact marks.append (.write inline)
  | .indexer keyName keyType valueType isReadonly =>
    ((readonlyMark_balanced isReadonly).append
      (.write (.write (.write keyType.layout_balanced)))).append
        (.write valueType.layout_balanced)

theorem Member.bodyLayout_balanced :
    ∀ ms : List (Member String), Balanced (Member.bodyLayout config ms)
  | [] => .nil
  | m :: ms =>
    .append (.indent m.layout_balanced) (.write (.line (Member.bodyLayout_balanced ms)))

end

theorem unionInlineLayout_balanced (elements : List (Ty String)) :
    Balanced (unionInlineLayout config elements) :=
  Ty.listLayout_balanced config " | " elements

theorem unionStackedLayout_balanced (elements : List (Ty String)) :
    Balanced (unionStackedLayout config elements) :=
  .nest (Ty.stackLayout_balanced config elements) .nil

theorem Ty.aliasBodyLayout_balanced (t : Ty String) : Balanced (t.aliasBodyLayout config) := by
  have inline := t.layout_balanced config
  cases t with
  | union elements => exact unionStackedLayout_balanced config elements
  | _ => exact .write inline

/-- The layout of a statement is balanced. -/
theorem Statement.layout_balanced (forceExport : Bool) (s : Statement String) :
    Balanced (s.layout config forceExport) := by
  cases s with
  | useStrict => exact .single_write _
  | typeAlias name hasExport type =>
    have mark : Balanced (if forceExport || hasExport then [.write "export "] else []) := by
      split
      · exact .single_write _
      · exact .nil
    have body := type.aliasBodyLayout_balanced config
    exact (mark.append (.write (.write (.write body)))).append (.single_write _)

/-- Layouts behind each other are balanced if each of them is. -/
theorem flatMap_balanced {α : Type} {f : α → List Step} (h : ∀ a, Balanced (f a)) (as : List α) :
    Balanced (as.flatMap f) := by
  induction as with
  | nil => exact .nil
  | cons a as ih => exact (h a).append ih

/-- The layout of a program is balanced. -/
theorem Program.layout_balanced (forceExport : Bool) (p : Program String) :
    Balanced (p.layout config forceExport) :=
  flatMap_balanced
    (fun s => (s.layout_balanced config forceExport).append (.line (.line .nil))) p.statements

end Layouts

/-! ## Sequences of calls to a printer

A printer starts empty and is called any number of times.  A call prints a tree,
prints a program or takes the pending text.  The names of a tree are those of the
table at the time of the call, so the table may grow between two calls.

A call has a second form that stops at a refused pop (`Printer.call?`).  The two
forms agree on every printer, since every layout is balanced.

The pending text is made of the texts of single calls, each as an empty printer
prints it (`Printer.calls_eq`).  Taking the text and printing a program start it
anew.
-/

/-! ### Calls -/

/-- What a printer is asked for. -/
inductive PrinterOp where
  /-- To print a type. -/
  | type (type : Ty Handle)
  /-- To print a statement. -/
  | statement (forceExport : Bool) (statement : Statement Handle)
  /-- To print an entity name. -/
  | entityName (name : EntityName Handle)
  /-- To print a union on the current line. -/
  | unionInline (elements : List (Ty Handle))
  /-- To print a union with one element a line. -/
  | unionStacked (elements : List (Ty Handle))
  /-- To print a program and return its text. -/
  | program (forceExport : Bool) (program : Program Handle)
  /-- To return the pending text. -/
  | takeOutput

/-- A call to a printer: the names known at the time, and what is asked for. -/
structure PrinterCall where
  /-- The names known. -/
  names : NameTable
  /-- What is asked for. -/
  op : PrinterOp

/-- Whether a call drops what is pending. -/
def PrinterCall.resets (c : PrinterCall) : Bool :=
  match c.op with
  | .program .. => true
  | .takeOutput => true
  | _ => false

/-- The calls since the last one that dropped what was pending. -/
def pendingCalls (cs : List PrinterCall) : List PrinterCall := cs.rtakeWhile fun c => !c.resets

namespace Printer

/-- The text that a call returns, if it returns one, and the printer after it. -/
def call (p : Printer) (c : PrinterCall) : Option String × Printer :=
  match c.op with
  | .type type => (none, p.printType c.names type)
  | .statement forceExport statement => (none, p.printStatement c.names forceExport statement)
  | .entityName name => (none, p.printEntityName c.names name)
  | .unionInline elements => (none, p.printUnionInline c.names elements)
  | .unionStacked elements => (none, p.printUnionStacked c.names elements)
  | .program forceExport program =>
    let (text, p) := p.printProgram c.names forceExport program
    (some text, p)
  | .takeOutput =>
    let (text, p) := p.takeOutput
    (some text, p)

/-- The printer after calls. -/
def calls (p : Printer) (cs : List PrinterCall) : Printer := cs.foldl (fun p c => (p.call c).2) p

/-- The printer after some steps, up to a refused one. -/
def print? (p : Printer) (steps : List Step) : Except SinkError Printer :=
  (p.sink.run? steps).map fun sink => { p with sink }

/-- A call that stops at a refused pop. -/
def call? (p : Printer) (c : PrinterCall) : Except SinkError (Option String × Printer) :=
  let names := c.names.resolve
  let print (steps : List Step) := (p.print? steps).map fun p => (none, p)
  match c.op with
  | .type type => print ((type.map names).layout p.config)
  | .statement forceExport statement => print ((statement.map names).layout p.config forceExport)
  | .entityName name => print (name.map names).layout
  | .unionInline elements => print (unionInlineLayout p.config (elements.map (Ty.map names)))
  | .unionStacked elements => print (unionStackedLayout p.config (elements.map (Ty.map names)))
  | .program forceExport program =>
    ((new p.config).print? ((program.map names).layout p.config forceExport)).map fun p =>
      (some p.sink.text, new p.config)
  | .takeOutput => .ok (some p.sink.text, new p.config)

/-- The printer after calls, up to a refused pop. -/
def calls? (p : Printer) (cs : List PrinterCall) : Except SinkError Printer :=
  cs.foldlM (fun p c => (p.call? c).map Prod.snd) p

end Printer

/-- The text of a single call, pending in a printer that was empty before. -/
def PrinterCall.freshText (config : PrintConfig) (c : PrinterCall) : String :=
  ((Printer.new config).call c).2.sink.text

/-- The text of a single statement, pending in a printer that was empty before. -/
def statementText (config : PrintConfig) (forceExport : Bool) (names : NameTable)
    (statement : Statement Handle) : String :=
  PrinterCall.freshText config ⟨names, .statement forceExport statement⟩

/-! ### One call -/

namespace Printer

/-- Printing balanced steps puts their text behind what is pending. -/
theorem print_eq (p : Printer) {steps : List Step} (balanced : Balanced steps) :
    p.print steps = ⟨p.config, ⟨p.sink.text ++ textFrom p.sink.level steps, p.sink.level⟩⟩ := by
  rw [print, Sink.run_eq, balanced.levelAfter_eq]

/-- No pop of balanced steps is refused. -/
theorem print?_eq (p : Printer) {steps : List Step} (balanced : Balanced steps) :
    p.print? steps = .ok (p.print steps) := by
  rw [print?, balanced.run?_eq]
  rfl

/-- No call meets a refused pop. -/
theorem call?_eq (p : Printer) (c : PrinterCall) : p.call? c = .ok (p.call c) := by
  obtain ⟨names, op⟩ := c
  cases op with
  | type t => simp [call?, call, print?_eq _ (Ty.layout_balanced _ _), Except.map, printType]
  | statement forceExport s =>
    simp [call?, call, print?_eq _ (Statement.layout_balanced _ _ _), Except.map, printStatement]
  | entityName name =>
    simp [call?, call, print?_eq _ (EntityName.layout_balanced _), Except.map, printEntityName]
  | unionInline elements =>
    simp [call?, call, print?_eq _ (unionInlineLayout_balanced _ _), Except.map, printUnionInline]
  | unionStacked elements =>
    simp [call?, call, print?_eq _ (unionStackedLayout_balanced _ _), Except.map,
      printUnionStacked]
  | program forceExport program =>
    simp [call?, call, print?_eq _ (Program.layout_balanced _ _ _), Except.map, printProgram,
      takeOutput, new, print]
  | takeOutput => rfl

/-- What a call leaves in a printer at level zero. -/
theorem call_eq (config : PrintConfig) (text : String) (c : PrinterCall) :
    (call ⟨config, ⟨text, 0⟩⟩ c).2 =
      ⟨config, ⟨if c.resets then "" else text ++ c.freshText config, 0⟩⟩ := by
  obtain ⟨names, op⟩ := c
  have printed : ∀ {steps : List Step}, Balanced steps →
      print ⟨config, ⟨text, 0⟩⟩ steps =
        ⟨config, ⟨text ++ ((new config).print steps).sink.text, 0⟩⟩ := by
    intro steps balanced
    rw [print_eq _ balanced, print_eq _ balanced]
    simp [new, Sink.empty]
  cases op with
  | type t => exact printed (Ty.layout_balanced _ _)
  | statement forceExport s => exact printed (Statement.layout_balanced _ _ _)
  | entityName name => exact printed (EntityName.layout_balanced _)
  | unionInline elements => exact printed (unionInlineLayout_balanced _ _)
  | unionStacked elements => exact printed (unionStackedLayout_balanced _ _)
  | program forceExport program => rfl
  | takeOutput => rfl

/-! ### Sequences of calls -/

theorem calls_concat (p : Printer) (cs : List PrinterCall) (c : PrinterCall) :
    p.calls (cs ++ [c]) = ((p.calls cs).call c).2 := by
  rw [calls, calls, List.foldl_append]
  rfl

/-- No sequence of calls meets a refused pop. -/
theorem calls?_eq (p : Printer) (cs : List PrinterCall) : p.calls? cs = .ok (p.calls cs) := by
  induction cs generalizing p with
  | nil => rfl
  | cons c cs ih =>
    rw [calls?, List.foldlM_cons, call?_eq]
    exact ih (p.call c).2

/-- A new printer after calls: the texts of the pending calls, at level zero. -/
theorem calls_eq (config : PrintConfig) (cs : List PrinterCall) :
    (new config).calls cs =
      ⟨config, ⟨String.join ((pendingCalls cs).map (PrinterCall.freshText config)), 0⟩⟩ := by
  induction cs using List.reverseRecOn with
  | nil => rfl
  | append_singleton cs c ih =>
    rw [calls_concat, ih, call_eq]
    cases reset : c.resets with
    | true => simp [pendingCalls, reset]
    | false => simp [pendingCalls, reset]

end Printer

/-! ### Programs -/

/-- Balanced layouts are printed from the same level one after the other. -/
theorem textFrom_flatMap {α : Type} {f : α → List Step} (h : ∀ a, Balanced (f a)) (level : Nat)
    (as : List α) :
    textFrom level (as.flatMap f) = String.join (as.map fun a => textFrom level (f a)) := by
  induction as with
  | nil => rfl
  | cons a as ih => simp [(h a).levelAfter_eq, ih]

/-- The printed text of a statement is that of its layout, over the resolved names. -/
theorem statementText_eq (config : PrintConfig) (forceExport : Bool) (names : NameTable)
    (s : Statement Handle) :
    statementText config forceExport names s =
      textFrom 0 ((s.map names.resolve).layout config forceExport) := by
  change ((Printer.new config).print _).sink.text = _
  rw [Printer.print_eq _ (Statement.layout_balanced _ _ _)]
  simp [Printer.new, Sink.empty]

theorem programText_eq_textFrom (config : PrintConfig) (forceExport : Bool) (names : NameTable)
    (program : Program Handle) :
    programText config forceExport names program =
      textFrom 0 ((program.map names.resolve).layout config forceExport) := by
  change ((Printer.new config).print _).sink.text = _
  rw [Printer.print_eq _ (Program.layout_balanced _ _ _)]
  simp [Printer.new, Sink.empty]

/-- The text of a program: each statement, as an empty printer prints it, and an empty line
after it. -/
theorem programText_eq (config : PrintConfig) (forceExport : Bool) (names : NameTable)
    (program : Program Handle) :
    programText config forceExport names program =
      String.join (program.statements.map fun s =>
        statementText config forceExport names s ++ "\r\n\r\n") := by
  have lines : ∀ s : Statement String,
      textFrom 0 (s.layout config forceExport ++ [.line, .line]) =
        textFrom 0 (s.layout config forceExport) ++ "\r\n\r\n" := by
    intro s
    simp [Step.textAt, lineEnd]
  rw [programText_eq_textFrom, Program.layout, textFrom_flatMap fun s =>
    (s.layout_balanced config forceExport).append (.line (.line .nil))]
  simp only [Program.map, List.map_map, Function.comp_def, lines, statementText_eq]

/-- Any sequence of calls to a new printer, and what a further call returns. -/
theorem printer_calls_compose (config : PrintConfig) (cs : List PrinterCall) :
    let p := (Printer.new config).calls cs
    let pending := String.join ((pendingCalls cs).map (PrinterCall.freshText config))
    (Printer.new config).calls? cs = .ok p ∧
      p = ⟨config, ⟨pending, 0⟩⟩ ∧
      (∀ names, p.call ⟨names, .takeOutput⟩ = (some pending, .new config)) ∧
      (∀ names forceExport program,
        p.call ⟨names, .program forceExport program⟩ =
          (some (String.join (program.statements.map fun s =>
            statementText config forceExport names s ++ "\r\n\r\n")), .new config)) ∧
      ∀ names forceExport (first second : List (Statement Handle)),
        programText config forceExport names ⟨first ++ second⟩ =
          programText config forceExport names ⟨first⟩ ++
            programText config forceExport names ⟨second⟩ := by
  refine ⟨Printer.calls?_eq _ cs, Printer.calls_eq config cs, ?_, ?_, ?_⟩
  · intro names
    rw [Printer.calls_eq]
    rfl
  · intro names forceExport program
    rw [← programText_eq, Printer.calls_eq]
    rfl
  · intro names forceExport first second
    simp only [programText_eq, List.map_append, String.join_append]

end FlowDecl
