/-!
# Options

Options come in layers: a project file and the command line.  A layer may leave
any option unset.  Laying one over another keeps what the upper one sets, and an
option that no layer sets has a default.
-/

namespace FlowDecl

/-- How types are printed. -/
structure PrintConfig where
  /-- Whether the absent half of an optional type is `ReactNull` rather than
  `undefined`. -/
  useReactNull : Bool := false
deriving DecidableEq, Repr, Inhabited

/-- One layer of options. -/
structure Options where
  /-- Whether the absent half of an optional type is `ReactNull`. -/
  useReactNull : Option Bool := none
  /-- Whether every alias is exported. -/
  forceExport : Option Bool := none
  /-- The directory of the output files. -/
  outDir : Option String := none
  /-- The end of the names of the output files. -/
  outExtension : Option String := none
deriving DecidableEq, Repr, Inhabited

namespace Options

/-- The layer that sets nothing. -/
def empty : Options := {}

/-- A layer with another one over it.  What the upper one sets wins. -/
def merge (lower upper : Options) : Options where
  useReactNull := upper.useReactNull.or lower.useReactNull
  forceExport := upper.forceExport.or lower.forceExport
  outDir := upper.outDir.or lower.outDir
  outExtension := upper.outExtension.or lower.outExtension

/-- The extension of output files where none is set. -/
def defaultExtension : String := ".ts"

/-- How types are printed under these options. -/
def printConfig (o : Options) : PrintConfig := ⟨o.useReactNull.getD false⟩

/-- Whether every alias is exported under these options. -/
def exportsAll (o : Options) : Bool := o.forceExport.getD false

/-- The extension of output files under these options. -/
def extension (o : Options) : String := o.outExtension.getD defaultExtension

/-- A layer that sets nothing changes nothing above another one. -/
theorem merge_empty (o : Options) : o.merge empty = o := by cases o; rfl

/-- A layer that sets nothing changes nothing below another one. -/
theorem empty_merge (o : Options) : empty.merge o = o := by
  obtain ⟨a, b, c, d⟩ := o
  cases a <;> cases b <;> cases c <;> cases d <;> rfl

end Options

end FlowDecl
