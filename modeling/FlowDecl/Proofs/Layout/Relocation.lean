import FlowDecl.Proofs.Layout.PrinterCalls
import FlowDecl.Proofs.Tree

/-!
# Layouts at a level

A tree is printed at some level of indentation, and the level shows in its text only after
the ends of lines.  So the text at a level is the text at the margin with the blanks of the
level put in after every line end.

This rests on how a layout is cut into lines.  A step that ends a line is followed by the
blanks of the next line, with at most pushes and pops in between, and blanks stand nowhere
else.  `Laid` says this of steps, together with the balance of their pushes, and every layout
is laid in lines as long as no word of the tree has a line feed of its own.
-/

namespace FlowDecl

/-! ## Steps laid in lines -/

/-- A place in a line. -/
inductive LinePlace where
  /-- The line before has ended, and the blanks of this one are still to come. -/
  | margin
  /-- Inside a line. -/
  | inside
deriving DecidableEq, Repr

/-- Steps that lead from a place in a line to another one.  Blanks stand exactly after line
ends, no text brings a line feed of its own, and every push is undone. -/
inductive Laid : LinePlace → List Step → LinePlace → Prop where
  /-- No steps. -/
  | nil {a : LinePlace} : Laid a [] a
  /-- A text in front. -/
  | write {text : String} {steps : List Step} {a : LinePlace} :
    '\n' ∉ text.toList → Laid .inside steps a → Laid .inside (.write text :: steps) a
  /-- The end of a line in front. -/
  | line {steps : List Step} {a : LinePlace} :
    Laid .margin steps a → Laid .inside (.line :: steps) a
  /-- The blanks of the level in front. -/
  | indent {steps : List Step} {a : LinePlace} :
    Laid .inside steps a → Laid .margin (.indent :: steps) a
  /-- Steps one level deeper in front. -/
  | nest {inner steps : List Step} {a b c : LinePlace} :
    Laid a inner b → Laid b steps c → Laid a (.push :: inner ++ .pop :: steps) c

namespace Laid

variable {a b c : LinePlace} {steps more : List Step}

/-- Laid steps are laid behind each other if the places meet. -/
theorem append (first : Laid a steps b) (second : Laid b more c) : Laid a (steps ++ more) c := by
  induction first with
  | nil => exact second
  | write clean _ ih => exact .write clean (ih second)
  | line _ ih => exact .line (ih second)
  | indent _ ih => exact .indent (ih second)
  | nest inner _ _ ih =>
    rw [List.append_assoc]
    exact .nest inner (ih second)

/-- A text without line feeds stays inside its line. -/
theorem single {text : String} (clean : '\n' ∉ text.toList) :
    Laid .inside [.write text] .inside :=
  .write clean .nil

theorem balanced (laid : Laid a steps b) : Balanced steps := by
  induction laid with
  | nil => exact .nil
  | write _ _ ih => exact .write ih
  | line _ ih => exact .line ih
  | indent _ ih => exact .indent ih
  | nest _ _ ihInner ih => exact .nest ihInner ih

end Laid

/-! ## Layouts are laid in lines -/

/-- None of the words has a line feed. -/
def NoLineFeed (words : List String) : Prop := ∀ word ∈ words, '\n' ∉ word.toList

namespace NoLineFeed

variable {word : String} {ws ws' : List String}

theorem left (h : NoLineFeed (ws ++ ws')) : NoLineFeed ws :=
  fun word member => h word (List.mem_append_left ws' member)

theorem right (h : NoLineFeed (ws ++ ws')) : NoLineFeed ws' :=
  fun word member => h word (List.mem_append_right ws member)

theorem head (h : NoLineFeed (word :: ws)) : '\n' ∉ word.toList := h word List.mem_cons_self

theorem tail (h : NoLineFeed (word :: ws)) : NoLineFeed ws :=
  fun other member => h other (List.mem_cons_of_mem word member)

end NoLineFeed

section Layouts

variable (config : PrintConfig)

/-- An entity name is laid out inside a line. -/
theorem EntityName.layout_laid : ∀ {name : EntityName String}, NoLineFeed name.names →
    Laid .inside name.layout .inside
  | .identifier _, h => .single h.head
  | .qualified parent _, h => by
    have front : Laid .inside parent.layout .inside := parent.layout_laid h.left
    exact front.append (.single h.right.head)

theorem readonlyMark_laid (isReadonly : Bool) :
    Laid .inside (readonlyMark isReadonly) .inside := by
  cases isReadonly with
  | false => exact .nil
  | true => exact .single (by decide)

theorem optionalMark_laid (isOptional : Bool) :
    Laid .inside (optionalMark isOptional) .inside := by
  cases isOptional with
  | false => exact .nil
  | true => exact .single (by decide)

theorem PrintConfig.lineFeed_not_mem_absentHalf : '\n' ∉ config.absentHalf.toList := by
  rw [absentHalf]
  split
  · decide
  · decide

mutual

/-- The layout of a type is laid in lines. -/
theorem Ty.layout_laid : ∀ {t : Ty String}, NoLineFeed t.words →
    Laid .inside (t.layout config) .inside
  | .primitive _, h => .single h.head
  | .literal _, h => .single h.head
  | .optional element, h =>
    .append (.write config.lineFeed_not_mem_absentHalf (Ty.layout_laid (t := element) h))
      (.single (by decide))
  | .array element true, h =>
    .append (.write (by decide) (Ty.layout_laid (t := element) h)) (.single (by decide))
  | .array element false, h => .append (Ty.layout_laid (t := element) h) (.single (by decide))
  | .object mixins members, h => by
    have body : Laid .margin (Member.bodyLayout config members) .margin :=
      Member.bodyLayout_laid h.right
    rw [Ty.layout, List.append_assoc]
    exact (Ty.mixinLayout_laid h.left).append
      (.write (by decide) (.line (.nest body (.indent (.single (by decide))))))
  | .decorated element, h =>
    .append (.write (by decide) (Ty.layout_laid (t := element) h)) (.single (by decide))
  | .union _, h => Ty.listLayout_laid (by decide) h
  | .reference _ [], h => EntityName.layout_laid h.left
  | .reference _ (_ :: _), h =>
    ((EntityName.layout_laid h.left).append
      (.write (by decide) (Ty.listLayout_laid (by decide) h.right))).append
        (.single (by decide))
  | .paren element, h =>
    .append (.write (by decide) (Ty.layout_laid (t := element) h)) (.single (by decide))

theorem Ty.listLayout_laid {between : String} (clean : '\n' ∉ between.toList) :
    ∀ {ts : List (Ty String)}, NoLineFeed (Ty.listWords ts) →
      Laid .inside (Ty.listLayout config between ts) .inside
  | [], _ => .nil
  | [_], h => Ty.layout_laid h.left
  | _ :: _ :: _, h =>
    .append (Ty.layout_laid h.left) (.write clean (Ty.listLayout_laid clean h.right))

theorem Ty.mixinLayout_laid : ∀ {ts : List (Ty String)}, NoLineFeed (Ty.listWords ts) →
    Laid .inside (Ty.mixinLayout config ts) .inside
  | [], _ => .nil
  | _ :: _, h =>
    .append (Ty.layout_laid h.left) (.write (by decide) (Ty.mixinLayout_laid h.right))

/-- Stacked types are laid out from inside a line, and the last one ends inside a line. -/
theorem Ty.stackLayout_laid : ∀ {ts : List (Ty String)}, NoLineFeed (Ty.listWords ts) →
    Laid .inside (Ty.stackLayout config ts) .inside
  | [], _ => .nil
  | _ :: _, h =>
    .line (.indent (.write (by decide)
      (.nest (Ty.layout_laid h.left) (Ty.stackLayout_laid h.right))))

/-- A member starts and ends inside a line. -/
theorem Member.layout_laid : ∀ {m : Member String}, NoLineFeed m.words →
    Laid .inside (m.layout config) .inside
  | .prop name isOptional isReadonly type, h => by
    have marks : Laid .inside
        (readonlyMark isReadonly ++ .write name :: optionalMark isOptional) .inside :=
      (readonlyMark_laid isReadonly).append (.write h.head (optionalMark_laid isOptional))
    have inline : Laid .inside (type.layout config) .inside := Ty.layout_laid h.tail
    cases type with
    | union elements =>
      rw [Member.layout, List.append_assoc]
      exact marks.append (.write (by decide) (.nest (Ty.stackLayout_laid h.tail) .nil))
    | _ => exact marks.append (.write (by decide) inline)
  | .indexer _ keyType valueType isReadonly, h =>
    ((readonlyMark_laid isReadonly).append
      (.write (by decide) (.write h.head (.write (by decide)
        (Ty.layout_laid (t := keyType) h.tail.left))))).append
          (.write (by decide) (Ty.layout_laid (t := valueType) h.tail.right))

/-- The members of an object start at the margin, and each ends its line. -/
theorem Member.bodyLayout_laid : ∀ {ms : List (Member String)},
    NoLineFeed (Member.listWords ms) → Laid .margin (Member.bodyLayout config ms) .margin
  | [], _ => .nil
  | _ :: _, h =>
    .append (.indent (Member.layout_laid h.left))
      (.write (by decide) (.line (Member.bodyLayout_laid h.right)))

end

theorem unionInlineLayout_laid {elements : List (Ty String)}
    (h : NoLineFeed (Ty.listWords elements)) :
    Laid .inside (unionInlineLayout config elements) .inside :=
  Ty.listLayout_laid config (by decide) h

theorem unionStackedLayout_laid {elements : List (Ty String)}
    (h : NoLineFeed (Ty.listWords elements)) :
    Laid .inside (unionStackedLayout config elements) .inside :=
  .nest (Ty.stackLayout_laid config h) .nil

theorem Ty.aliasBodyLayout_laid {t : Ty String} (h : NoLineFeed t.words) :
    Laid .inside (t.aliasBodyLayout config) .inside := by
  have inline : Laid .inside (t.layout config) .inside := Ty.layout_laid config h
  cases t with
  | union elements => exact unionStackedLayout_laid config h
  | _ => exact .write (by decide) inline

/-- The layout of a statement is laid in lines. -/
theorem Statement.layout_laid (forceExport : Bool) {s : Statement String}
    (h : NoLineFeed s.words) : Laid .inside (s.layout config forceExport) .inside := by
  cases s with
  | useStrict => exact .single (by decide)
  | typeAlias name hasExport type =>
    have mark :
        Laid .inside (if forceExport || hasExport then [.write "export "] else []) .inside := by
      split
      · exact .single (by decide)
      · exact .nil
    have body : Laid .inside (type.aliasBodyLayout config) .inside :=
      Ty.aliasBodyLayout_laid config h.tail
    exact (mark.append (.write (by decide) (.write h.head (.write (by decide) body)))).append
      (.single (by decide))

end Layouts

/-! ## Blanks after line ends -/

/-- A text with blanks put in after every line end. -/
def insertBlanks (count : Nat) : List Char → List Char
  | [] => []
  | '\r' :: '\n' :: rest => '\r' :: '\n' :: (List.replicate count ' ' ++ insertBlanks count rest)
  | c :: rest => c :: insertBlanks count rest

/-- A text moved to the right by some blanks, its first line apart. -/
def shiftLines (count : Nat) (text : String) : String := .ofList (insertBlanks count text.toList)

example : shiftLines 3 "a\r\n b\n\r\r\n" = "a\r\n    b\n\r\r\n   " := by decide

section InsertBlanks

variable (count : Nat)

/-- A character that does not end a line stays where it is. -/
theorem insertBlanks_cons {c : Char} {rest : List Char}
    (inLine : c ≠ '\r' ∨ rest.head? ≠ some '\n') :
    insertBlanks count (c :: rest) = c :: insertBlanks count rest := by
  rw [insertBlanks]
  rintro more rfl rfl
  rcases inLine with h | h
  · exact h rfl
  · exact h rfl

/-- Where the second text starts no line feed, no line end stands across the border. -/
theorem insertBlanks_append (cs : List Char) {ds : List Char} (border : ds.head? ≠ some '\n') :
    insertBlanks count (cs ++ ds) = insertBlanks count cs ++ insertBlanks count ds := by
  fun_induction insertBlanks count cs with
  | case1 => rfl
  | case2 rest ih => simp [insertBlanks, ih]
  | case3 c rest notEnd ih =>
    have inLine : c ≠ '\r' ∨ (rest ++ ds).head? ≠ some '\n' := by
      by_cases hc : c = '\r'
      · right
        intro feed
        cases rest with
        | nil => exact border feed
        | cons d rest =>
          rw [List.cons_append, List.head?_cons, Option.some.injEq] at feed
          exact notEnd rest hc (by rw [feed])
      · exact .inl hc
    rw [List.cons_append, insertBlanks_cons count inLine, ih]
    rfl

/-- A text without line feeds has no line to move. -/
theorem insertBlanks_of_lineFeed_not_mem {cs : List Char} (clean : '\n' ∉ cs) :
    insertBlanks count cs = cs := by
  induction cs with
  | nil => rfl
  | cons c rest ih =>
    have inLine : rest.head? ≠ some '\n' := by
      intro feed
      exact clean (List.mem_cons_of_mem c (List.mem_of_mem_head? feed))
    rw [insertBlanks_cons count (.inr inLine), ih fun member =>
      clean (List.mem_cons_of_mem c member)]

end InsertBlanks

/-! ## Steps at a level -/

theorem toList_lineEnd : lineEnd.toList = ['\r', '\n'] := by decide

theorem toList_indentText (level : Nat) :
    (indentText level).toList = List.replicate (2 * level) ' ' := by
  induction level with
  | zero => rfl
  | succ level ih =>
    have unit : indentUnit.toList = List.replicate 2 ' ' := by decide
    rw [indentText, String.toList_append, ih, unit, List.replicate_append_replicate]
    rfl

theorem eq_blank_of_mem_indentText {level : Nat} {c : Char}
    (member : c ∈ (indentText level).toList) : c = ' ' := by
  rw [toList_indentText] at member
  exact List.eq_of_mem_replicate member

/-- The blanks of a deeper level are more blanks before those of the level. -/
theorem indentText_add (level more : Nat) :
    (indentText (level + more)).toList =
      List.replicate (2 * more) ' ' ++ (indentText level).toList := by
  rw [toList_indentText, toList_indentText, List.replicate_append_replicate]
  congr 1
  omega

theorem head?_append_ne {c : Char} {cs ds : List Char} (h : cs.head? ≠ some c)
    (h' : ds.head? ≠ some c) : (cs ++ ds).head? ≠ some c := by
  cases cs with
  | nil => exact h'
  | cons d cs => exact h

/-- The text of steps laid in lines does not start with a line feed. -/
theorem Laid.head?_textFrom {a b : LinePlace} {steps : List Step} (laid : Laid a steps b)
    (level : Nat) : (textFrom level steps).toList.head? ≠ some '\n' := by
  induction laid generalizing level with
  | nil => simp
  | write clean _ ih =>
    rw [textFrom_cons, String.toList_append]
    refine head?_append_ne ?_ (ih level)
    intro feed
    exact clean (List.mem_of_mem_head? feed)
  | line _ _ =>
    rw [textFrom_cons, String.toList_append]
    simp [Step.textAt, lineEnd]
  | indent _ ih =>
    rw [textFrom_cons, String.toList_append]
    refine head?_append_ne ?_ (ih level)
    intro feed
    have blank := List.mem_of_mem_head? feed
    rw [Step.textAt, toList_indentText] at blank
    exact absurd (List.eq_of_mem_replicate blank) (by decide)
  | nest inner _ ihInner ih =>
    rw [List.cons_append, textFrom_cons, textFrom_append, textFrom_cons, String.toList_append,
      String.toList_append, String.toList_append]
    simp only [Step.textAt, Step.levelAfter, inner.balanced.levelAfter_eq, String.toList_empty,
      List.nil_append, Nat.add_sub_cancel]
    exact head?_append_ne (ihInner _) (ih level)

/-- The blanks that are still to come at a place, for some levels. -/
def LinePlace.pending (more : Nat) : LinePlace → List Char
  | .margin => List.replicate (2 * more) ' '
  | .inside => []

/-- Steps laid in lines, started some levels deeper: the blanks of these levels come after
every line end.  Those of a line end before the steps are the first of all, and those of a
line end that closes the steps are left to what follows. -/
theorem Laid.textFrom_add {a b : LinePlace} {steps : List Step} (laid : Laid a steps b)
    (level more : Nat) :
    (textFrom (level + more) steps).toList ++ b.pending more =
      a.pending more ++ insertBlanks (2 * more) (textFrom level steps).toList := by
  induction laid generalizing level with
  | nil => simp [insertBlanks]
  | write clean rest ih =>
    have border := rest.head?_textFrom level
    simp only [textFrom_cons, Step.textAt, Step.levelAfter, String.toList_append,
      List.append_assoc]
    rw [ih, insertBlanks_append _ _ border, insertBlanks_of_lineFeed_not_mem _ clean]
    rfl
  | line rest ih =>
    simp only [textFrom_cons, Step.textAt, Step.levelAfter, String.toList_append,
      List.append_assoc]
    rw [ih]
    rfl
  | indent rest ih =>
    have border := rest.head?_textFrom level
    have blank : '\n' ∉ (indentText level).toList := by
      rw [toList_indentText]
      intro member
      exact absurd (List.eq_of_mem_replicate member) (by decide)
    simp only [textFrom_cons, Step.textAt, Step.levelAfter, String.toList_append,
      List.append_assoc]
    rw [ih, insertBlanks_append _ _ border, insertBlanks_of_lineFeed_not_mem _ blank,
      indentText_add, List.append_assoc]
    rfl
  | @nest inner steps a b c hInner rest ihInner ih =>
    have border := rest.head?_textFrom level
    have split : ∀ level, (textFrom level (.push :: inner ++ .pop :: steps)).toList =
        (textFrom (level + 1) inner).toList ++ (textFrom level steps).toList := by
      intro level
      simp [Step.textAt, Step.levelAfter, hInner.balanced.levelAfter_eq]
    have deeper := ihInner (level + 1)
    rw [Nat.add_right_comm] at deeper
    rw [split, split, List.append_assoc, ih, insertBlanks_append _ _ border, ← List.append_assoc,
      deeper, List.append_assoc]

/-- Inside a line, printing some levels deeper moves the lines to the right. -/
theorem Laid.textFrom_eq_shiftLines {steps : List Step} (laid : Laid .inside steps .inside)
    (level : Nat) : textFrom level steps = shiftLines (2 * level) (textFrom 0 steps) := by
  have moved := laid.textFrom_add 0 level
  simp only [LinePlace.pending, List.append_nil, List.nil_append, Nat.zero_add] at moved
  rw [shiftLines, ← moved, String.ofList_toList]

/-! ## Calls -/

/-- The words of the tree that a call prints. -/
def PrinterCall.words (c : PrinterCall) : List String :=
  match c.op with
  | .type type => (type.map c.names.resolve).words
  | .statement _ statement => (statement.map c.names.resolve).words
  | .entityName name => (name.map c.names.resolve).names
  | .unionInline elements => Ty.listWords (elements.map (Ty.map c.names.resolve))
  | .unionStacked elements => Ty.listWords (elements.map (Ty.map c.names.resolve))
  | .program _ program => (program.map c.names.resolve).words
  | .takeOutput => []

/-- A call that prints a tree at a level, after a text: no pop is refused, the level is left as
it was, and what is appended is what the call prints to an empty sink at level zero, with the
two blanks of each level put in after every line end. -/
theorem call_at_level (config : PrintConfig) (c : PrinterCall) (prints : c.resets = false)
    (clean : ∀ word ∈ c.words, '\n' ∉ word.toList) (text : String) (level : Nat) :
    Printer.call? ⟨config, ⟨text, level⟩⟩ c =
      .ok (none, ⟨config, ⟨text ++ shiftLines (2 * level) (c.freshText config), level⟩⟩) := by
  have printed : ∀ {steps : List Step}, Laid .inside steps .inside →
      Printer.print ⟨config, ⟨text, level⟩⟩ steps = ⟨config, ⟨text ++ shiftLines (2 * level)
        ((Printer.new config).print steps).sink.text, level⟩⟩ := by
    intro steps laid
    rw [Printer.print_eq _ laid.balanced, Printer.print_eq _ laid.balanced,
      laid.textFrom_eq_shiftLines level]
    simp [Printer.new, Sink.empty]
  obtain ⟨names, op⟩ := c
  rw [Printer.call?_eq]
  refine congrArg Except.ok ?_
  cases op with
  | type t => exact congrArg (Prod.mk none) (printed (Ty.layout_laid config clean))
  | statement forceExport s =>
    exact congrArg (Prod.mk none) (printed (Statement.layout_laid config forceExport clean))
  | entityName name => exact congrArg (Prod.mk none) (printed (EntityName.layout_laid clean))
  | unionInline elements =>
    exact congrArg (Prod.mk none) (printed (unionInlineLayout_laid config clean))
  | unionStacked elements =>
    exact congrArg (Prod.mk none) (printed (unionStackedLayout_laid config clean))
  | program forceExport program => cases prints
  | takeOutput => cases prints

/-- A stacked union at level two, after a text.  Its first element is an object, whose property
is a stacked union again. -/
theorem nested_unions_at_level_two :
    let names := NameTable.empty.insertAll ["A", "b", "C"]
    let b : Member Handle := .prop ⟨1⟩ true false (.union [.literal "1", .primitive ⟨0⟩])
    let c : PrinterCall := ⟨names, .unionStacked [.object [] [b], .primitive ⟨2⟩]⟩
    c.resets = false ∧ (∀ word ∈ c.words, '\n' ∉ word.toList) ∧
      c.freshText {} =
        "\r\n  | \x7b\r\n      b?:\r\n        | 1\r\n        | A;\r\n    \x7d\r\n  | C" ∧
      Printer.call? ⟨{}, ⟨"x =", 2⟩⟩ c =
        .ok (none, ⟨{}, ⟨"x =\r\n      | \x7b\r\n          b?:\r\n            | 1\r\n" ++
          "            | A;\r\n        \x7d\r\n      | C", 2⟩⟩) := by
  intro names b c
  have clean : ∀ word ∈ c.words, '\n' ∉ word.toList := by decide
  have fresh : c.freshText {} =
      "\r\n  | \x7b\r\n      b?:\r\n        | 1\r\n        | A;\r\n    \x7d\r\n  | C" := by
    decide +kernel
  have moved : "x =" ++ shiftLines (2 * 2)
      "\r\n  | \x7b\r\n      b?:\r\n        | 1\r\n        | A;\r\n    \x7d\r\n  | C" =
      "x =\r\n      | \x7b\r\n          b?:\r\n            | 1\r\n" ++
        "            | A;\r\n        \x7d\r\n      | C" := by decide +kernel
  refine ⟨rfl, clean, fresh, ?_⟩
  rw [call_at_level {} c rfl clean "x =" 2, fresh, moved]

end FlowDecl
