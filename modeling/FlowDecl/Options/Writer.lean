import FlowDecl.Options.Basic
import FlowDecl.Options.Record

/-!
# Options as text

Options are read from the text of a file, and they are written as a text that is read back.
-/

namespace FlowDecl

/-! ## Options from text

Each option is a field that may be null, which leaves the option unset.  A list
has to give all four.  A print configuration has one field, which may be left out
but may not be null.
-/

/-- The shape of the text of options. -/
def Options.shape : Record.Shape Options where
  name := "struct FlowTsOptions"
  initial := .empty
  fields := [
    ⟨"useReactNull", fun o s =>
      (Record.nullable Record.boolean s).map (·.map fun b => { o with useReactNull := b })⟩,
    ⟨"forceExport", fun o s =>
      (Record.nullable Record.boolean s).map (·.map fun b => { o with forceExport := b })⟩,
    ⟨"outDir", fun o s =>
      (Record.nullable Record.text s).map (·.map fun t => { o with outDir := t })⟩,
    ⟨"outExtension", fun o s =>
      (Record.nullable Record.text s).map (·.map fun t => { o with outExtension := t })⟩]
  mayBeShort := false

/-- The shape of the text of a print configuration. -/
def PrintConfig.shape : Record.Shape PrintConfig where
  name := "struct PrintConfig"
  initial := {}
  fields := [
    ⟨"useReactNull", fun c s =>
      (Record.boolean s).map (·.map fun b => { c with useReactNull := b })⟩]
  mayBeShort := true

/-- The options that a text holds. -/
def Options.parse (text : String) : Except Json.Refusal Options := Options.shape.parse text

/-- The print configuration that a text holds. -/
def PrintConfig.parse (text : String) : Except Json.Refusal PrintConfig :=
  PrintConfig.shape.parse text

/-! ## Options as text

Options are written as an object of all their fields in the order of their
declaration.  A field that is not set is null.
-/

/-- A value, or null where there is none. -/
def orNull {α : Type} (write : α → Json) : Option α → Json
  | some a => write a
  | none => .null

/-- Options as an object. -/
def Options.toJson (o : Options) : Json :=
  .obj [("useReactNull", orNull .bool o.useReactNull), ("forceExport", orNull .bool o.forceExport),
    ("outDir", orNull .str o.outDir), ("outExtension", orNull .str o.outExtension)]

/-- The text of options. -/
def Options.serialize (o : Options) : String := o.toJson.compact

/-- The text of a print configuration. -/
def PrintConfig.serialize (c : PrintConfig) : String :=
  Json.compact (.obj [("useReactNull", .bool c.useReactNull)])

end FlowDecl
