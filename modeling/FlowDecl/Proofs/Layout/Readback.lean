import FlowDecl.Proofs.Layout.Scanner

/-!
# Reading printed texts back

`scanProgram` and its companions read a printed text back into a canonical tree.  They
know the levels of the lines, so no blanks are skipped.  They go on at a bar, an
ampersand, a pair of brackets or an opening angle bracket whenever they meet one, and
make no other choice that a later character could undo.  A parenthesis is read as a whole
type first, and what it holds decides whether it was an optional type.  In the same way
a name with arguments is read before its name decides what it is.

The scanners call each other to any depth, so each has a fuel that bounds the depth of
its calls.  That some fuel is enough is part of what is proved: a scanner *reads* a text
if it takes it off with every fuel from some point on (`Scanner.Reads`).

What a scanner takes depends on what follows.  `EndsOperand`, `EndsElement` and `EndsType`
say what may follow a type, each allowing less than the one before.
-/

namespace FlowDecl

/-! ## Putting the pieces together -/

/-- The word of an absent value. -/
def PrintConfig.absentWord (config : PrintConfig) : String :=
  if config.useReactNull then "ReactNull" else "undefined"

/-- The elements of a union.  Any other type is its own only element. -/
def Ty.elements : Ty String → List (Ty String)
  | .union elements => elements
  | t => [t]

/-- The type that has these elements. -/
def Ty.unite : List (Ty String) → Ty String
  | [t] => t
  | ts => .union ts

/-- The type in parentheses with these elements: optional if the absent value is the first of
several. -/
def Ty.enclose (absent : String) : List (Ty String) → Ty String
  | .literal text :: t :: ts =>
    if text = absent then .optional (Ty.unite (t :: ts))
    else .paren (Ty.unite (.literal text :: t :: ts))
  | ts => .paren (Ty.unite ts)

/-- The type of a name with arguments. -/
def Ty.applied (name : String) : List (Ty String) → Ty String
  | [t] =>
    if name = "Readonly" then .decorated t
    else if name = "ReadonlyArray" then .array t true
    else .reference (.identifier name) [t]
  | ts => .reference (.identifier name) ts

/-- The object with one more type spread into it. -/
def Ty.spread (mixin : Ty String) : Ty String → Ty String
  | .object mixins members => .object (mixin :: mixins) members
  | t => t

/-! ## Scanners of trees -/

section Scanners

open Scanner

variable (config : PrintConfig)

/-- Takes pairs of brackets off, each of which makes an array. -/
def scanSuffixes (t : Ty String) : Nat → Scanner (Ty String)
  | 0 => failure
  | fuel + 1 => do
    match ← accept "[]" with
    | true => scanSuffixes (.array t false) fuel
    | false => return t

mutual

/-- Takes a type off. -/
def scanType (level : Nat) : Nat → Scanner (Ty String)
  | 0 => failure
  | fuel + 1 => do
    let ts ← scanElements level fuel
    return Ty.unite ts

/-- Takes types with bars between them off. -/
def scanElements (level : Nat) : Nat → Scanner (List (Ty String))
  | 0 => failure
  | fuel + 1 => do
    let t ← scanElement level fuel
    match ← accept " | " with
    | true =>
      let ts ← scanElements level fuel
      return t :: ts
    | false => return [t]

/-- Takes a type that is not a union off. -/
def scanElement (level : Nat) : Nat → Scanner (Ty String)
  | 0 => failure
  | fuel + 1 => do
    let t ← scanOperand level fuel
    match ← accept " & " with
    | true =>
      let u ← scanElement level fuel
      return Ty.spread t u
    | false => return t

/-- Takes a type that can stand in front of brackets off, and the brackets. -/
def scanOperand (level : Nat) : Nat → Scanner (Ty String)
  | 0 => failure
  | fuel + 1 => do
    let t ← scanPrimary level fuel
    scanSuffixes t fuel

/-- Takes a type off that begins with a parenthesis, a brace or a word. -/
def scanPrimary (level : Nat) : Nat → Scanner (Ty String)
  | 0 => failure
  | fuel + 1 => do
    match ← accept "(" with
    | true =>
      let ts ← scanElements level fuel
      token ")"
      return Ty.enclose config.absentWord ts
    | false =>
      match ← accept "\x7b" with
      | true =>
        token lineEnd
        let members ← scanBody level fuel
        return .object [] members
      | false =>
        let name ← word
        match ← accept "<" with
        | true =>
          let arguments ← scanArguments level fuel
          return Ty.applied name arguments
        | false => return .literal name

/-- Takes the arguments of a name off, and the bracket after them. -/
def scanArguments (level : Nat) : Nat → Scanner (List (Ty String))
  | 0 => failure
  | fuel + 1 => do
    let t ← scanType level fuel
    match ← accept ", " with
    | true =>
      let ts ← scanArguments level fuel
      return t :: ts
    | false =>
      token ">"
      return [t]

/-- Takes the members of an object off, and the brace after them. -/
def scanBody (level : Nat) : Nat → Scanner (List (Member String))
  | 0 => failure
  | fuel + 1 => do
    match ← accept (indentText level ++ "\x7d") with
    | true => return []
    | false =>
      token (indentText (level + 1))
      let m ← scanMember (level + 1) fuel
      token ";"
      token lineEnd
      let ms ← scanBody level fuel
      return m :: ms

/-- Takes a member off. -/
def scanMember (level : Nat) : Nat → Scanner (Member String)
  | 0 => failure
  | fuel + 1 => do
    let isReadonly ← accept "readonly "
    match ← accept "[" with
    | true =>
      let keyName ← word
      token ": "
      let keyType ← scanType level fuel
      token "]: "
      let valueType ← scanType level fuel
      return .indexer keyName keyType valueType isReadonly
    | false =>
      let name ← word
      let isOptional ← accept "?"
      token ":"
      let type ← scanRight level fuel
      return .prop name isOptional isReadonly type

/-- Takes a type off that follows an equals sign or a colon. -/
def scanRight (level : Nat) : Nat → Scanner (Ty String)
  | 0 => failure
  | fuel + 1 => do
    match ← accept " " with
    | true => scanType level fuel
    | false =>
      let ts ← scanStack (level + 1) fuel
      return .union ts

/-- Takes the elements of a stacked union off. -/
def scanStack (level : Nat) : Nat → Scanner (List (Ty String))
  | 0 => failure
  | fuel + 1 => do
    match ← accept (lineEnd ++ indentText level ++ "| ") with
    | true =>
      let t ← scanElement (level + 1) fuel
      let ts ← scanStack level fuel
      return t :: ts
    | false => return []

end

/-- Takes a statement off. -/
def scanStatement (fuel : Nat) : Scanner (Statement String) := do
  match ← accept "'use strict';" with
  | true => return .useStrict
  | false =>
    let hasExport ← accept "export "
    token "type "
    let name ← word
    token " ="
    let type ← scanRight config 0 fuel
    token ";"
    return .typeAlias name hasExport type

/-- Takes all statements off. -/
def scanStatements : Nat → Scanner (List (Statement String))
  | 0 => failure
  | fuel + 1 => do
    match ← atEnd with
    | true => return []
    | false =>
      let s ← scanStatement config fuel
      token (lineEnd ++ lineEnd)
      let ss ← scanStatements fuel
      return s :: ss

/-- The program that a text holds. -/
def scanProgram (fuel : Nat) (text : String) : Option (Program String) :=
  ((scanStatements config fuel).run text.toList).map fun result => ⟨result.1⟩

end Scanners

/-! ## What may follow -/

section Ends

open Scanner

variable {s : String} {cs : List Char} {c : Char}

/-- What may follow a type in front of brackets: no word and no argument runs on. -/
structure EndsOperand (cs : List Char) : Prop where
  word : EndsWord cs
  noArguments : ¬ "<".toList <+: cs

/-- What may follow an element of a union. -/
structure EndsElement (cs : List Char) : Prop extends EndsOperand cs where
  noSuffix : ¬ "[]".toList <+: cs
  noSpread : ¬ " & ".toList <+: cs

/-- What may follow a type. -/
structure EndsType (cs : List Char) : Prop extends EndsElement cs where
  noBar : ¬ " | ".toList <+: cs

/-- The characters that end a type. -/
def closers : List Char := [')', '>', ',', ']', ';', '\r']

/-- A reserved character other than an angle ends an operand. -/
theorem EndsOperand.of_head? (starts : cs.head? = some c) (hc : c ∈ reserved)
    (notAngle : c ≠ '<') : EndsOperand cs where
  word := .of_head? starts hc
  noArguments := by
    refine not_prefix_of_head? rfl ?_
    rw [starts]
    intro same
    exact notAngle (Option.some.inj same)

theorem EndsOperand.spread : EndsOperand ((" & " ++ s).toList ++ cs) :=
  .of_head? (c := ' ') (by simp) (by decide) (by decide)

theorem EndsOperand.suffix : EndsOperand (("[]" ++ s).toList ++ cs) :=
  .of_head? (c := '[') (by simp) (by decide) (by decide)

theorem EndsElement.bar : EndsElement ((" | " ++ s).toList ++ cs) where
  toEndsOperand := .of_head? (c := ' ') (by simp) (by decide) (by decide)
  noSuffix := by simp
  noSpread := by simp

/-- A type ends in front of a character that closes it. -/
theorem EndsType.of_head? (starts : cs.head? = some c) (hc : c ∈ closers) : EndsType cs := by
  have other : ∀ d, d ∉ closers → cs.head? ≠ some d := by
    intro d hd same
    rw [starts] at same
    cases same
    exact hd hc
  have isReserved : c ∈ reserved := (by decide : closers ⊆ reserved) hc
  have notAngle : c ≠ '<' := by
    rintro rfl
    exact absurd hc (by decide)
  refine ⟨⟨.of_head? starts isReserved notAngle, ?_, ?_⟩, ?_⟩
  · exact not_prefix_of_head? rfl (other '[' (by decide))
  · exact not_prefix_of_head? rfl (other ' ' (by decide))
  · exact not_prefix_of_head? rfl (other ' ' (by decide))

theorem EndsType.parenthesis : EndsType (")".toList ++ cs) :=
  .of_head? (c := ')') (by simp) (by decide)

theorem EndsType.angle : EndsType (">".toList ++ cs) :=
  .of_head? (c := '>') (by simp) (by decide)

theorem EndsType.comma : EndsType ((", " ++ s).toList ++ cs) :=
  .of_head? (c := ',') (by simp) (by decide)

end Ends

/-! ## Clear types are made up of their elements -/

theorem Ty.elements_of_not_union {t : Ty String} (h : t.unionElements? = none) :
    t.elements = [t] := by
  cases t with
  | union elements => cases h
  | _ => rfl

/-- A clear union has two elements at least. -/
theorem Ty.Clear.two_elements {elements : List (Ty String)} (clear : (Ty.union elements).Clear) :
    ∃ t u ts, elements = t :: u :: ts := by
  obtain ⟨-, several, -⟩ := clear
  cases elements with
  | nil => cases several
  | cons t ts =>
    cases ts with
    | nil => cases Nat.le_of_succ_le_succ several
    | cons u ts => exact ⟨t, u, ts, rfl⟩

/-- The elements of a leaf form make it up again. -/
theorem Ty.unite_elements {t : Ty String} (clear : t.Clear) :
    Ty.unite t.canonical.elements = t.canonical := by
  cases t with
  | union elements =>
    obtain ⟨a, b, rest, rfl⟩ := clear.two_elements
    rfl
  | reference name arguments => cases arguments <;> rfl
  | _ => rfl

/-- A clear type has an element at least. -/
theorem Ty.elements_ne_nil {t : Ty String} (clear : t.Clear) : t.canonical.elements ≠ [] := by
  cases t with
  | union elements =>
    obtain ⟨a, b, rest, rfl⟩ := clear.two_elements
    exact List.cons_ne_nil _ _
  | reference name arguments => cases arguments <;> exact List.cons_ne_nil _ _
  | _ => exact List.cons_ne_nil _ _

/-- The leaves of a clear type are no keywords. -/
theorem Ty.canonical_ne_keyword {t : Ty String} (clear : t.Clear) {text : String}
    (leaf : t.canonical = .literal text) : text ∉ keywords := by
  cases t with
  | primitive name =>
    cases leaf
    exact clear.2
  | literal other =>
    cases leaf
    exact clear.2
  | reference name arguments =>
    cases arguments with
    | nil =>
      cases leaf
      exact clear.1.2
    | cons argument arguments => cases leaf
  | _ => cases leaf

/-- The first element of a clear type is no keyword. -/
theorem Ty.head_elements_ne_keyword {t : Ty String} (clear : t.Clear) {text : String}
    {ts : List (Ty String)} (starts : t.canonical.elements = .literal text :: ts) :
    text ∉ keywords := by
  cases t with
  | union elements =>
    obtain ⟨all, -, -⟩ := clear
    cases elements with
    | nil => cases starts
    | cons first rest => exact Ty.canonical_ne_keyword all.1 (List.cons.inj starts).1
  | reference name arguments =>
    refine Ty.canonical_ne_keyword clear ?_
    cases arguments <;> exact (List.cons.inj starts).1
  | _ => exact Ty.canonical_ne_keyword clear (List.cons.inj starts).1

theorem PrintConfig.absentWord_mem_keywords (config : PrintConfig) :
    config.absentWord ∈ keywords := by
  unfold absentWord
  split <;> decide

theorem PrintConfig.absentHalf_eq (config : PrintConfig) :
    config.absentHalf = "(" ++ (config.absentWord ++ " | ") := by
  unfold absentHalf absentWord
  split <;> rfl

/-- In parentheses, an absent word before other elements makes an optional type. -/
theorem Ty.enclose_absent (absent : String) {ts : List (Ty String)} (several : ts ≠ []) :
    Ty.enclose absent (.literal absent :: ts) = .optional (Ty.unite ts) := by
  match ts, several with
  | t :: ts, _ => exact if_pos rfl

/-- In parentheses, elements that do not start with the absent word stay in parentheses. -/
theorem Ty.enclose_of_ne (absent : String) {ts : List (Ty String)}
    (other : ∀ text rest, ts = .literal text :: rest → text ≠ absent) :
    Ty.enclose absent ts = .paren (Ty.unite ts) := by
  unfold enclose
  split
  next text t rest => exact if_neg (other text (t :: rest) rfl)
  next => rfl

/-- A name that is no keyword makes a reference to it. -/
theorem Ty.applied_of_not_keyword {name : String} (notKeyword : name ∉ keywords)
    (ts : List (Ty String)) : Ty.applied name ts = .reference (.identifier name) ts := by
  unfold applied
  split
  · rw [if_neg, if_neg]
    · rintro rfl
      exact notKeyword (by decide)
    · rintro rfl
      exact notKeyword (by decide)
  · rfl

end FlowDecl
