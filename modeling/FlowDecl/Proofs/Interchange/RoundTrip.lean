import FlowDecl.Interchange.Encode
import FlowDecl.Proofs.Interchange.Grammar
import FlowDecl.Proofs.Layout.Text

/-!
# Loads that are written back

What a load leaves does not depend on the table, and a document that is written from a tree is
read as the tree.
-/

namespace FlowDecl

/-! ## Loads and name tables

A load leaves a tree over the handles of its table, and which handle a name has depends
on the names that the table held before.  Nothing else does: once the handles are
resolved, the tree is the one that was read, and so is its text.
-/

/-- A load gives the program that was read, once its handles are resolved. -/
theorem readProgram_load_resolved (table : NameTable) (v : Json) :
    ((readProgram v).load table).2.map (Program.map ((readProgram v).load table).1.resolve) =
      (readProgram v).outcome :=
  load_resolved (fun _ _ _ yields => (readProgram_yields_iff.mp yields).1)
    (fun _ _ _ => Program.map_map_eq_self) table v

/-- The printed text of the program that a value describes, or why the value does not load. -/
def documentText (config : PrintConfig) (forceExport : Bool) (table : NameTable) (v : Json) :
    Except LoadError String :=
  let (table, loaded) := (readProgram v).load table
  loaded.map (programText config forceExport table)

/-- The printed text is that of the program read, whatever the table holds. -/
theorem documentText_eq (config : PrintConfig) (forceExport : Bool) (table : NameTable)
    (v : Json) :
    documentText config forceExport table v =
      (readProgram v).outcome.map fun p => Statement.listText config forceExport p.statements := by
  rw [← readProgram_load_resolved table v]
  change ((readProgram v).load table).2.map _ = _
  cases ((readProgram v).load table).2 with
  | error e => rfl
  | ok loaded => exact congrArg Except.ok (programText_eq_listText config forceExport _ loaded)

/-! ## Documents of trees are read back

`toJson` writes a tree as a document, and the document it writes is one of the
documents of that tree in the sense of the grammar (`Program.toJson_doc`).  Loading
accepts exactly the documents of the grammar, so it undoes the writing.

A document that loads has a normal form, the document of the program it describes.
Flags and lists that it leaves out are written there, keys that no node reads are gone,
and a list of statements has become an object.  The normal form describes the same
program, so a second pass changes nothing, and neither pass changes the printed text.

A load leaves a tree over the handles of its table.  What such a tree describes is
compared through its names, which do not depend on the table.
-/

/-! ### Trees are described by their documents -/

theorem EntityName.toJson_doc : ∀ n : EntityName String, EntityNameDoc n.toJson n
  | .identifier _ => .identifier
  | .qualified parent _ => .qualified rfl parent.toJson_doc rfl

mutual

/-- The document of a type describes it. -/
theorem Ty.toJson_doc : ∀ t : Ty String, TypeDoc t.toJson t
  | .primitive _ => .primitive rfl rfl
  | .literal _ => .literal rfl rfl
  | .optional element => .optional rfl rfl element.toJson_doc
  | .array element _ => .array rfl rfl element.toJson_doc (.inl rfl)
  | .object mixins members =>
    .object rfl (.inl rfl) (Ty.toJsonList_docs mixins) rfl (Member.toJsonList_docs members)
  | .decorated element => .decorated rfl rfl element.toJson_doc
  | .union elements => .union rfl rfl (Ty.toJsonList_docs elements)
  | .reference name arguments =>
    .reference rfl rfl name.toJson_doc (.inl rfl) (Ty.toJsonList_docs arguments)
  | .paren element => .paren rfl rfl element.toJson_doc

theorem Ty.toJsonList_docs : ∀ ts : List (Ty String), TypeDocs (Ty.toJsonList ts) ts
  | [] => .nil
  | t :: ts => .cons t.toJson_doc (Ty.toJsonList_docs ts)

theorem Member.toJson_doc : ∀ m : Member String, MemberDoc m.toJson m
  | .prop _ _ _ type => .prop rfl rfl rfl type.toJson_doc (.inl rfl) (.inl rfl)
  | .indexer _ keyType valueType _ =>
    .indexer rfl rfl rfl keyType.toJson_doc rfl valueType.toJson_doc (.inl rfl)

theorem Member.toJsonList_docs : ∀ ms : List (Member String), MemberDocs (Member.toJsonList ms) ms
  | [] => .nil
  | m :: ms => .cons m.toJson_doc (Member.toJsonList_docs ms)

end

theorem Statement.toJson_doc : ∀ s : Statement String, StatementDoc s.toJson s
  | .useStrict => .useStrict rfl
  | .typeAlias _ _ type => .typeAlias rfl rfl rfl type.toJson_doc (.inl rfl)

/-- The document of a program describes it. -/
theorem Program.toJson_doc (p : Program String) : ProgramDoc p.toJson p := by
  have docs : List.Forall₂ StatementDoc (p.statements.map Statement.toJson) p.statements := by
    induction p.statements with
    | nil => exact .nil
    | cons s ss ih => exact .cons s.toJson_doc ih
  exact .object rfl docs

/-- Reading undoes writing. -/
theorem readProgram_toJson (p : Program String) : (readProgram p.toJson).outcome = .ok p :=
  (readProgram_yields_iff.mpr ⟨rfl, p.toJson_doc⟩).2

/-! ### Normal forms -/

/-- The document, with every field written out, of the program that a value describes. -/
def normalDocument (table : NameTable) (v : Json) : Except LoadError Json :=
  let (table, loaded) := (readProgram v).load table
  loaded.map fun program => (program.map table.resolve).toJson

/-- The normal document is that of the program that is read, whatever the table holds. -/
theorem normalDocument_eq (table : NameTable) (v : Json) :
    normalDocument table v = (readProgram v).outcome.map Program.toJson := by
  rw [← readProgram_load_resolved table v]
  change ((readProgram v).load table).2.map _ = _
  cases ((readProgram v).load table).2 with
  | error e => rfl
  | ok loaded => rfl

/-- The document of a program loads to that program, be it one that a load has built or not, and
writing a document anew changes neither the document it is written to nor the printed text.
The names known before a load make no difference. -/
theorem document_loads_back (table : NameTable) :
    (∀ (names : NameTable) (p : Program Handle), ∃ table' loaded,
      (readProgram (p.map names.resolve).toJson).load table = (table', .ok loaded) ∧
        loaded.map table'.resolve = p.map names.resolve ∧
        ∀ config forceExport,
          programText config forceExport table' loaded =
            programText config forceExport names p) ∧
      ∀ (start : NameTable) (v : Json),
        (normalDocument start v).bind (normalDocument table) = normalDocument start v ∧
          ∀ config forceExport,
            (normalDocument start v).bind (documentText config forceExport table) =
              documentText config forceExport start v := by
  constructor
  · intro names p
    have loads : Loads readProgram table (p.map names.resolve).toJson (p.map names.resolve) :=
      (loads_iff_doc (fun _ _ _ => readProgram_yields_iff)
        fun _ _ _ => Program.map_map_eq_self).mpr (p.map names.resolve).toJson_doc
    obtain ⟨table', loaded, hLoad, same⟩ := loads
    have resolved : loaded.map table'.resolve = p.map names.resolve := same
    refine ⟨table', loaded, hLoad, resolved, ?_⟩
    intro config forceExport
    rw [programText_eq_listText, programText_eq_listText, resolved]
  · intro start v
    rw [normalDocument_eq]
    cases hOutcome : (readProgram v).outcome with
    | error e =>
      refine ⟨rfl, ?_⟩
      intro config forceExport
      rw [documentText_eq, hOutcome]
      rfl
    | ok p =>
      constructor
      · change normalDocument table p.toJson = _
        rw [normalDocument_eq, readProgram_toJson]
      · intro config forceExport
        change documentText config forceExport table p.toJson = _
        rw [documentText_eq, documentText_eq, readProgram_toJson, hOutcome]

/-- A list of statements becomes an object, and a key that is not read is gone. -/
example :
    normalDocument .empty (.arr [.obj [("directive", .null), ("kind", .str "UseStrictStat")]]) =
      .ok (.obj [("statements", .arr [.obj [("kind", .str "UseStrictStat")]])]) := by
  rfl

end FlowDecl
