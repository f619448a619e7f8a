import FlowDecl.Proofs.Layout.Relocation
import FlowDecl.Proofs.Layout.Text
import FlowDecl.Proofs.Text.Cut

/-!
# The two renderings of a union

A union is printed on the current line, or with one element a line.  The second rendering
becomes the first one by changes to the text alone: the line end and the bar in front of the
first element go away, those in front of any other element become a bar between blanks, and
the lines inside the elements move two levels to the left.

The elements of a stacked union may hold stacked unions themselves.  Their bars are not
mistaken for those of the outer union, because every line inside an element is indented more
than the bars are (`unbroken_insertBlanks`).
-/

namespace FlowDecl

/-! ## Changes to a text -/

/-- What a stacked union has in front of each element: the end of a line, the blanks of a line
one level deeper, and a bar. -/
def barSeparator (level : Nat) : String :=
  .ofList ('\r' :: '\n' :: (List.replicate (2 * (level + 1)) ' ' ++ ['|', ' ']))

/-- The text without the first separator, and with another text for every further one. -/
def replaceSeparators (sep new text : String) : String :=
  match cut sep text with
  | [] => ""
  | first :: pieces => first ++ new.intercalate pieces

/-- The text without some blanks at its front, if they are there. -/
def dropBlanks (count : Nat) (text : String) : Option String :=
  ((List.replicate count ' ').isPrefixOf? text.toList).map String.ofList

/-- The text without some blanks after every line end, if they are there. -/
def unshiftLines (count : Nat) (text : String) : Option String :=
  match cut lineEnd text with
  | [] => some ""
  | first :: lines =>
    (lines.mapM (dropBlanks count)).map fun lines => lineEnd.intercalate (first :: lines)

example : unshiftLines 2 "a\r\n   b\r\n  c" = some "a\r\n b\r\nc" := by decide
example : unshiftLines 2 "a\r\n b" = none := by decide

section InsertBlanks

variable {count : Nat} {cs rest : List Char}

theorem head?_insertBlanks (count : Nat) (cs : List Char) :
    (insertBlanks count cs).head? = cs.head? := by
  fun_cases insertBlanks count cs <;> rfl

/-- No separator that starts with a carriage return begins in blanks. -/
theorem unbroken_blanks (sep : List Char) :
    Unbroken ('\r' :: sep) (List.replicate count ' ') rest := by
  refine unbroken_of_not_mem rfl fun member => ?_
  exact absurd (List.eq_of_mem_replicate member) (by decide)

/-- No bar of a union begins in a text whose lines are indented more than the bars are: where the
bar would stand is one of the further blanks. -/
theorem unbroken_insertBlanks {level : Nat} (deeper : 2 * (level + 1) < count)
    (border : rest.head? ≠ some '\n') :
    Unbroken (barSeparator level).toList (insertBlanks count cs) rest := by
  have sep : (barSeparator level).toList =
      '\r' :: '\n' :: (List.replicate (2 * (level + 1)) ' ' ++ ['|', ' ']) :=
    String.toList_ofList
  rw [sep]
  fun_induction insertBlanks count cs with
  | case1 => trivial
  | case2 cs ih =>
    refine ⟨?_, by simp, (unbroken_blanks _).append ih⟩
    obtain ⟨more, hCount⟩ := Nat.exists_eq_add_of_lt deeper
    rw [hCount, Nat.add_assoc, ← List.replicate_append_replicate, List.replicate_succ]
    simp [List.append_assoc]
  | case3 c cs notEnd ih =>
    refine ⟨?_, ih⟩
    rw [List.cons_prefix_cons]
    rintro ⟨rfl, tail, found⟩
    have feed : (insertBlanks count cs ++ rest).head? = some '\n' := by
      rw [← found]
      rfl
    cases cs with
    | nil => exact border feed
    | cons d cs =>
      rw [List.head?_append, head?_insertBlanks, List.head?_cons, Option.some_or,
        Option.some.injEq] at feed
      exact notEnd cs rfl (by rw [feed])

end InsertBlanks

/-! ## Lines moved there and back -/

/-- Moving the lines of a text to the right moves all its pieces but the first one. -/
theorem piecesFrom_insertBlanks (count : Nat) (cs : List Char) :
    ∃ first lines, piecesFrom lineEnd.toList 0 cs = first :: lines ∧
      piecesFrom lineEnd.toList 0 (insertBlanks count cs) =
        first :: lines.map (List.replicate count ' ' ++ ·) := by
  rw [toList_lineEnd]
  fun_induction insertBlanks count cs with
  | case1 => exact ⟨[], [], rfl, rfl⟩
  | case2 cs ih =>
    obtain ⟨first, lines, pieces, moved⟩ := ih
    have atEnd : ∀ rest, piecesFrom ['\r', '\n'] 0 ('\r' :: '\n' :: rest) =
        [] :: piecesFrom ['\r', '\n'] 0 rest := by
      intro rest
      exact piecesFrom_separator (by simp)
    refine ⟨[], first :: lines, ?_, ?_⟩
    · rw [atEnd, pieces]
    · rw [atEnd, piecesFrom_append (unbroken_blanks _), moved]
      rfl
  | case3 c cs notEnd ih =>
    obtain ⟨first, lines, pieces, moved⟩ := ih
    have absent : ∀ ds : List Char, ds.head? = cs.head? → ¬ ['\r', '\n'] <+: c :: ds := by
      rintro ds sameHead ⟨tail, found⟩
      obtain ⟨rfl, rfl⟩ := List.cons.inj found
      cases cs with
      | nil => cases sameHead
      | cons d cs =>
        cases sameHead
        exact notEnd cs rfl rfl
    refine ⟨c :: first, lines, ?_, ?_⟩
    · rw [piecesFrom, if_neg (absent cs rfl), pieces, List.modifyHead_cons]
    · rw [piecesFrom, if_neg (absent _ (head?_insertBlanks count cs)), moved,
        List.modifyHead_cons]

/-- Blanks that were put before a line are dropped again. -/
theorem dropBlanks_append (count : Nat) (line : List Char) :
    dropBlanks count (.ofList (List.replicate count ' ' ++ line)) = some (.ofList line) := by
  have found : (List.replicate count ' ').isPrefixOf? (List.replicate count ' ' ++ line) =
      some line := List.isPrefixOf?_eq_some_iff_append_eq.mpr rfl
  rw [dropBlanks, String.toList_ofList, found, Option.map_some]

theorem mapM_dropBlanks (count : Nat) (lines : List (List Char)) :
    (lines.map fun line => String.ofList (List.replicate count ' ' ++ line)).mapM
      (dropBlanks count) = some (lines.map String.ofList) := by
  induction lines with
  | nil => rfl
  | cons line lines ih =>
    rw [List.map_cons, List.mapM_cons, dropBlanks_append, ih]
    rfl

/-- Lines that were moved to the right can be moved back. -/
theorem unshiftLines_shiftLines (count : Nat) (text : String) :
    unshiftLines count (shiftLines count text) = some text := by
  obtain ⟨first, lines, pieces, moved⟩ := piecesFrom_insertBlanks count text.toList
  have whole : cut lineEnd text = .ofList first :: lines.map String.ofList := by
    rw [cut, pieces, List.map_cons]
  have shifted : cut lineEnd (shiftLines count text) = .ofList first ::
      lines.map fun line => .ofList (List.replicate count ' ' ++ line) := by
    rw [cut, shiftLines, String.toList_ofList, moved, List.map_cons, List.map_map]
    rfl
  have opened : unshiftLines count (shiftLines count text) =
      ((lines.map fun line => String.ofList (List.replicate count ' ' ++ line)).mapM
        (dropBlanks count)).map fun lines => lineEnd.intercalate (.ofList first :: lines) := by
    rw [unshiftLines, shifted]
  rw [opened, mapM_dropBlanks, Option.map_some, ← whole, intercalate_cut (by decide)]

/-! ## The elements of a union -/

section Unions

variable {config : PrintConfig} {ts : List (Ty String)}

/-- Listed types have the same text between each two of them. -/
theorem Ty.listText_eq_intercalate (level : Nat) (between : String) (ts : List (Ty String)) :
    Ty.listText config level between ts =
      between.intercalate (ts.map (Ty.text config level)) := by
  induction ts with
  | nil => rfl
  | cons t ts ih =>
    cases ts with
    | nil => simp [Ty.listText]
    | cons u ts =>
      have notNil : (u :: ts).map (Ty.text config level) ≠ [] := by simp
      rw [Ty.listText, ih, ← String.intercalate_cons_of_ne_nil notNil]
      rfl

/-- A list of types that starts some levels deeper has its lines moved to the right. -/
theorem Ty.listText_add (clean : NoLineFeed (Ty.listWords ts)) (level more : Nat) :
    Ty.listText config (level + more) " | " ts =
      shiftLines (2 * more) (Ty.listText config level " | " ts) := by
  have laid : Laid .inside (Ty.listLayout config " | " ts) .inside :=
    Ty.listLayout_laid config (by decide) clean
  have moved := laid.textFrom_add level more
  simp only [LinePlace.pending, List.append_nil, List.nil_append] at moved
  rw [shiftLines, ← Ty.textFrom_listLayout config level, ← moved, String.ofList_toList,
    Ty.textFrom_listLayout]

/-- No bar of a stacked union begins inside one of its elements. -/
theorem Ty.unbroken_text {t : Ty String} (clean : NoLineFeed t.words) (level : Nat)
    {rest : List Char} (border : rest.head? ≠ some '\n') :
    Unbroken (barSeparator level).toList (t.text config (level + 2)).toList rest := by
  have laid : Laid .inside (t.layout config) .inside := Ty.layout_laid config clean
  have moved := laid.textFrom_eq_shiftLines (level + 2)
  rw [← Ty.textFrom_layout config, moved, shiftLines, String.toList_ofList]
  exact unbroken_insertBlanks (by omega) border

theorem toList_barSeparator (level : Nat) :
    (lineEnd ++ indentText (level + 1) ++ "| ").toList = (barSeparator level).toList := by
  have bar : "| ".toList = ['|', ' '] := by decide
  rw [String.toList_append, String.toList_append, toList_indentText, toList_lineEnd, bar,
    barSeparator, String.toList_ofList]
  rfl

/-- A stacked type stands behind a bar on a line of its own. -/
theorem Ty.stackText_cons (level : Nat) (t : Ty String) (ts : List (Ty String)) :
    Ty.stackText config (level + 1) (t :: ts) = barSeparator level ++
      (t.text config (level + 2) ++ Ty.stackText config (level + 1) ts) := by
  rw [Ty.stackText, String.toList_inj.mp (toList_barSeparator level), String.append_assoc]

/-- Cut at its bars, a stacked union falls into its elements. -/
theorem Ty.cut_stackText (clean : NoLineFeed (Ty.listWords ts)) (level : Nat) :
    cut (barSeparator level) (Ty.stackText config (level + 1) ts) =
      "" :: ts.map (Ty.text config (level + 2)) := by
  have notEmpty : (barSeparator level).toList ≠ [] := by
    rw [barSeparator, String.toList_ofList]
    simp
  induction ts with
  | nil => rfl
  | cons t ts ih =>
    have others := ih clean.right
    rw [Ty.stackText_cons, cut_separator notEmpty]
    cases ts with
    | nil =>
      rw [Ty.stackText, String.append_empty,
        cut_of_unbroken (Ty.unbroken_text clean.left level (by simp))]
      rfl
    | cons u ts =>
      have border : (Ty.stackText config (level + 1) (u :: ts)).toList.head? ≠ some '\n' := by
        rw [Ty.stackText_cons, String.toList_append, barSeparator, String.toList_ofList]
        simp
      rw [cut_append (Ty.unbroken_text clean.left level border), others, List.modifyHead_cons,
        String.append_empty]
      rfl

end Unions

/-- A union printed with one element a line, and the same union printed on the current line. -/
theorem union_renderings_agree (config : PrintConfig) (names : NameTable)
    (elements : List (Ty Handle))
    (clean : ∀ word ∈ Ty.listWords (elements.map (Ty.map names.resolve)), '\n' ∉ word.toList)
    (before : String) (level : Nat) :
    let printer : Printer := ⟨config, ⟨before, level⟩⟩
    ∃ stacked inline,
      printer.printUnionStacked names elements = ⟨config, ⟨before ++ stacked, level⟩⟩ ∧
        printer.printUnionInline names elements = ⟨config, ⟨before ++ inline, level⟩⟩ ∧
        (cut (barSeparator level) stacked).length = elements.length + 1 ∧
        (elements ≠ [] → (barSeparator level).toList <+: stacked.toList) ∧
        unshiftLines 4 (replaceSeparators (barSeparator level) " | " stacked) = some inline := by
  intro printer
  let types := elements.map (Ty.map names.resolve)
  have pieces : cut (barSeparator level) (Ty.stackText config (level + 1) types) =
      "" :: types.map (Ty.text config (level + 2)) := Ty.cut_stackText clean level
  refine ⟨Ty.stackText config (level + 1) types, Ty.listText config level " | " types,
    ?_, ?_, ?_, ?_, ?_⟩
  · rw [Printer.printUnionStacked, Printer.print_eq _ (unionStackedLayout_balanced _ _)]
    simp [printer, unionStackedLayout, Step.textAt, Step.levelAfter, Ty.textFrom_stackLayout, types]
  · rw [Printer.printUnionInline, Printer.print_eq _ (unionInlineLayout_balanced _ _)]
    simp only [printer, unionInlineLayout, Ty.textFrom_listLayout, types]
  · rw [pieces, List.length_cons, List.length_map, List.length_map]
  · intro notEmpty
    obtain ⟨t, ts, rfl⟩ := List.exists_cons_of_ne_nil notEmpty
    change _ <+: (Ty.stackText config (level + 1) (_ :: _)).toList
    rw [Ty.stackText_cons, String.toList_append]
    exact List.prefix_append ..
  · have joined : replaceSeparators (barSeparator level) " | "
        (Ty.stackText config (level + 1) types) = Ty.listText config (level + 2) " | " types := by
      rw [replaceSeparators, pieces, Ty.listText_eq_intercalate]
      exact String.empty_append ..
    rw [joined, Ty.listText_add clean, unshiftLines_shiftLines]

/-- At level one, a union of an object with a stacked union inside it, and of a name. -/
theorem union_renderings_nested :
    let names := NameTable.empty.insertAll ["a", "B"]
    let a : Member Handle := .prop ⟨0⟩ false true (.union [.literal "1", .primitive ⟨1⟩])
    let elements : List (Ty Handle) := [.object [] [a], .primitive ⟨1⟩]
    let printer : Printer := ⟨{}, ⟨"x: ", 1⟩⟩
    (∀ word ∈ Ty.listWords (elements.map (Ty.map names.resolve)), '\n' ∉ word.toList) ∧
      ∃ stacked inline,
        printer.printUnionStacked names elements = ⟨{}, ⟨"x: " ++ stacked, 1⟩⟩ ∧
          "x: " ++ stacked = "x: \r\n    | \x7b\r\n        readonly a:\r\n" ++
            "          | 1\r\n          | B;\r\n      \x7d\r\n    | B" ∧
          "x: " ++ inline = "x: \x7b\r\n    readonly a:\r\n" ++
            "      | 1\r\n      | B;\r\n  \x7d | B" ∧
          (cut (barSeparator 1) stacked).length = 3 ∧
          (barSeparator 1).toList <+: stacked.toList ∧
          unshiftLines 4 (replaceSeparators (barSeparator 1) " | " stacked) = some inline := by
  intro names a elements printer
  have clean : ∀ word ∈ Ty.listWords (elements.map (Ty.map names.resolve)),
      '\n' ∉ word.toList := by decide
  obtain ⟨stacked, inline, hStacked, hInline, count, opens, agree⟩ :=
    union_renderings_agree {} names elements clean "x: " 1
  refine ⟨clean, stacked, inline, hStacked, ?_, ?_, count, opens (by simp [elements]), agree⟩
  · have text := congrArg (fun p => p.sink.text) hStacked
    refine text.symm.trans ?_
    decide +kernel
  · have text := congrArg (fun p => p.sink.text) hInline
    refine text.symm.trans ?_
    decide +kernel

end FlowDecl
