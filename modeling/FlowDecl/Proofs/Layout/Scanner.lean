import FlowDecl.Proofs.Layout.Text
import Mathlib.Data.List.Infix
import Mathlib.Order.Filter.AtTopBot.Basic

/-!
# Scanning printed text

A scanner for printed text, and the trees that it gives back.
-/

namespace FlowDecl

/-! ## Scanners

A scanner takes a part off the front of a text, or refuses the text.  Three of them
are enough to read printed texts: a fixed piece of text, a piece that may be there,
and a word, which is as long as it can be.

`Scanner.Takes` says what a scanner takes in front of a given rest.  The rest is part of
the statement, because a word and a piece that may be there both depend on what
follows.  Every scanner here has one law, and `Takes.bind` puts them together along the
text.
-/

/-! ### Words -/

/-- The characters that no word has. -/
def reserved : List Char :=
  [' ', '\r', '\n', '|', '&', '<', '>', '(', ')', '[', ']', '\x7b', '\x7d', ':', ';', ',', '?',
    '=']

/-- A text that can be a word: there is one character at least, and none is reserved. -/
def Plain (s : String) : Prop := s.toList ≠ [] ∧ ∀ c ∈ s.toList, c ∉ reserved

/-- The characters of the text are looked at, and not all characters there are. -/
instance (s : String) : Decidable (Plain s) :=
  @instDecidableAnd _ _ _ (List.decidableBAll (· ∉ reserved) s.toList)

/-- A word ends in front of this text. -/
def EndsWord (cs : List Char) : Prop := ∀ c, cs.head? = some c → c ∈ reserved

theorem EndsWord.of_head? {cs : List Char} {c : Char} (starts : cs.head? = some c)
    (hc : c ∈ reserved) : EndsWord cs := by
  intro d hd
  rw [starts] at hd
  cases hd
  exact hc

/-- A scanner: what is taken off a text, and the rest of the text. -/
abbrev Scanner : Type → Type := StateT (List Char) Option

namespace Scanner

variable {α β : Type} {p s t : String} {a : α} {b : β} {rest : List Char}

/-- Takes a piece off if it is there, and tells whether it was. -/
def accept (p : String) : Scanner Bool := fun cs =>
  match p.toList.isPrefixOf? cs with
  | some rest => some (true, rest)
  | none => some (false, cs)

/-- Takes a piece off, which has to be there. -/
def token (p : String) : Scanner Unit := fun cs =>
  (p.toList.isPrefixOf? cs).map fun rest => ((), rest)

/-- Takes the longest word off. -/
def word : Scanner String := fun cs =>
  some (String.ofList (cs.takeWhile (· ∉ reserved)), cs.dropWhile (· ∉ reserved))

/-- Whether nothing is left. -/
def atEnd : Scanner Bool := fun cs => some (cs.isEmpty, cs)

/-- In front of a rest, the scanner takes a text off and gives a value. -/
def Takes (r : Scanner α) (text : String) (a : α) (rest : List Char) : Prop :=
  r.run (text.toList ++ rest) = some (a, rest)

/-- With enough fuel, the scanner takes a text off and gives a value. -/
def Reads (r : Nat → Scanner α) (text : String) (a : α) (rest : List Char) : Prop :=
  ∀ᶠ fuel in Filter.atTop, (r fuel).Takes text a rest

/-- The first call uses up one unit of fuel. -/
theorem Reads.of_succ {r : Nat → Scanner α}
    (h : ∀ᶠ fuel in Filter.atTop, (r (fuel + 1)).Takes s a rest) : Reads r s a rest := by
  rw [Reads, ← Filter.map_add_atTop_eq_nat 1]
  exact h

/-! ### Laws -/

theorem takes_pure : (pure a : Scanner α).Takes "" a rest := rfl

/-- Scanners take texts that stand behind each other. -/
theorem Takes.bind {r : Scanner α} {next : α → Scanner β} (first : r.Takes s a (t.toList ++ rest))
    (second : (next a).Takes t b rest) : (r >>= next).Takes (s ++ t) b rest := by
  have run : r.run ((s ++ t).toList ++ rest) = some (a, t.toList ++ rest) := by
    rw [String.toList_append, List.append_assoc]
    exact first
  rw [Takes, StateT.run_bind, run]
  exact second

/-- Nothing is taken after the first scanner. -/
theorem Takes.bind_empty {r : Scanner α} {next : α → Scanner β} (first : r.Takes s a rest)
    (second : (next a).Takes "" b rest) : (r >>= next).Takes s b rest := by
  rw [← String.append_empty (s := s)]
  exact first.bind second

/-- A scanner accepts the text that it looks for. -/
theorem takes_accept : (accept p).Takes p true rest := by
  have found : p.toList.isPrefixOf? (p.toList ++ rest) = some rest :=
    List.isPrefixOf?_eq_some_iff_append_eq.mpr rfl
  simp [Takes, accept, StateT.run, found]

/-- A scanner takes nothing where the text that it looks for is not there. -/
theorem takes_accept_absent (absent : ¬ p.toList <+: rest) :
    (accept p).Takes "" false rest := by
  have missing : p.toList.isPrefixOf? rest = none := by
    cases h : p.toList.isPrefixOf? rest with
    | none => rfl
    | some tail => exact absurd ⟨tail, List.isPrefixOf?_eq_some_iff_append_eq.mp h⟩ absent
  simp [Takes, accept, StateT.run, missing]

theorem takes_token : (token p).Takes p () rest := by
  have found : p.toList.isPrefixOf? (p.toList ++ rest) = some rest :=
    List.isPrefixOf?_eq_some_iff_append_eq.mpr rfl
  simp [Takes, token, StateT.run, found]

/-- A scanner takes a plain word up to its end. -/
theorem takes_word {w : String} (plain : Plain w) (ends : EndsWord rest) :
    word.Takes w w rest := by
  have inside : ∀ c ∈ w.toList, decide (c ∉ reserved) = true := by
    intro c hc
    exact decide_eq_true (plain.2 c hc)
  have outside : rest.takeWhile (· ∉ reserved) = [] ∧ rest.dropWhile (· ∉ reserved) = rest := by
    cases rest with
    | nil => exact ⟨rfl, rfl⟩
    | cons c cs =>
      have stop := ends c rfl
      simp [stop]
  simp only [Takes, word, StateT.run, List.takeWhile_append_of_pos inside,
    List.dropWhile_append_of_pos inside, outside, List.append_nil, String.ofList_toList]

/-! ### A piece and what is taken after it -/

section Pieces

theorem takes_accept_bind {next : Bool → Scanner β} (second : (next true).Takes t b rest) :
    (accept p >>= next).Takes (p ++ t) b rest :=
  takes_accept.bind second

theorem takes_skip_bind {next : Bool → Scanner β} (absent : ¬ p.toList <+: t.toList ++ rest)
    (second : (next false).Takes t b rest) : (accept p >>= next).Takes t b rest := by
  rw [← String.empty_append (s := t)]
  exact (takes_accept_absent absent).bind second

/-- A mark is there exactly if it was printed. -/
theorem takes_mark_bind {next : Bool → Scanner β} (isThere : Bool)
    (absent : ¬ p.toList <+: t.toList ++ rest) (second : (next isThere).Takes t b rest) :
    (accept p >>= next).Takes (markText p isThere ++ t) b rest := by
  cases isThere with
  | true => exact takes_accept_bind second
  | false =>
    rw [markText, if_neg (by simp), String.empty_append]
    exact takes_skip_bind absent second

theorem takes_token_bind {next : Unit → Scanner β} (second : (next ()).Takes t b rest) :
    (token p >>= next).Takes (p ++ t) b rest :=
  takes_token.bind second

theorem takes_word_bind {w : String} {next : String → Scanner β} (plain : Plain w)
    (ends : EndsWord (t.toList ++ rest)) (second : (next w).Takes t b rest) :
    (word >>= next).Takes (w ++ t) b rest :=
  (takes_word plain ends).bind second

theorem takes_atEnd_bind {next : Bool → Scanner β} {isEmpty : Bool}
    (left : (t.toList ++ rest).isEmpty = isEmpty) (second : (next isEmpty).Takes t b rest) :
    (atEnd >>= next).Takes t b rest := by
  rw [← String.empty_append (s := t)]
  refine Takes.bind ?_ second
  rw [← left]
  rfl

end Pieces

/-! ### What a text does not start with -/

section Prefixes

variable {cs : List Char} {c : Char}

theorem not_prefix_of_head? (starts : p.toList.head? = some c) (other : cs.head? ≠ some c) :
    ¬ p.toList <+: cs := by
  rintro ⟨tail, rfl⟩
  apply other
  rw [List.head?_append, starts, Option.some_or]

/-- No piece that starts with a reserved character stands in front of a word. -/
theorem not_prefix_of_plain {w : String} (starts : p.toList.head? = some c) (hc : c ∈ reserved)
    (plain : Plain w) : ¬ p.toList <+: w.toList ++ cs := by
  refine not_prefix_of_head? starts ?_
  obtain ⟨notEmpty, inside⟩ := plain
  cases h : w.toList with
  | nil => exact absurd h notEmpty
  | cons d ds =>
    rw [List.cons_append, List.head?_cons]
    intro same
    cases same
    exact inside c (h ▸ List.mem_cons_self) hc

/-- A piece with a reserved character in it does not start with a word unless the character
after the word is in the piece. -/
theorem not_prefix_of_word {p w : List Char} {d : Char} (inside : c ∈ p) (hc : c ∈ reserved)
    (word : ∀ x ∈ w, x ∉ reserved) (after : cs.head? = some d) (other : d ∉ p) :
    ¬ p <+: w ++ cs := by
  induction p generalizing w with
  | nil => cases inside
  | cons x p ih =>
    cases w with
    | nil =>
      rintro ⟨tail, rfl⟩
      cases after
      exact other List.mem_cons_self
    | cons y w =>
      rw [List.cons_append, List.cons_prefix_cons]
      rintro ⟨rfl, inRest⟩
      have notHere : c ≠ x := by
        rintro rfl
        exact word c List.mem_cons_self hc
      have later := (List.mem_cons.mp inside).resolve_left notHere
      exact ih later (fun z hz => word z (List.mem_cons_of_mem _ hz))
        (fun h => other (List.mem_cons_of_mem _ h)) inRest

end Prefixes

end Scanner

/-! ## Canonical and clear trees

Trees of different shapes can have the same text.  A built-in type, a literal and a name
without arguments are written alike, and the segments of an entity name are run
together.  The canonical form of a tree forgets these differences: its leaves are
literals, and its names are single identifiers.  It keeps the text of the tree
(`Ty.text_canonical`).

A tree is *clear* if its words are plain, no word has a meaning of its own for a reader,
and no parenthesis is missing: a union has two elements at least and none of them is a
union, and nothing that binds less tightly stands in front of `[]` or `&`.
-/

/-! ### Canonical trees -/

mutual

/-- The type with the same text whose leaves are literals and whose names are identifiers. -/
def Ty.canonical : Ty String → Ty String
  | .primitive name => .literal name
  | .literal text => .literal text
  | .optional element => .optional element.canonical
  | .array element isReadonly => .array element.canonical isReadonly
  | .object mixins members =>
    .object (Ty.canonicalList mixins) (Member.canonicalList members)
  | .decorated element => .decorated element.canonical
  | .union elements => .union (Ty.canonicalList elements)
  | .reference name [] => .literal name.text
  | .reference name (argument :: arguments) =>
    .reference (.identifier name.text) (Ty.canonicalList (argument :: arguments))
  | .paren element => .paren element.canonical

/-- The canonical forms of types. -/
def Ty.canonicalList : List (Ty String) → List (Ty String)
  | [] => []
  | t :: ts => t.canonical :: Ty.canonicalList ts

/-- The member with its types in canonical form. -/
def Member.canonical : Member String → Member String
  | .prop name isOptional isReadonly type => .prop name isOptional isReadonly type.canonical
  | .indexer keyName keyType valueType isReadonly =>
    .indexer keyName keyType.canonical valueType.canonical isReadonly

/-- The canonical forms of members. -/
def Member.canonicalList : List (Member String) → List (Member String)
  | [] => []
  | m :: ms => m.canonical :: Member.canonicalList ms

end

/-- The statement with its type in canonical form. -/
def Statement.canonical : Statement String → Statement String
  | .useStrict => .useStrict
  | .typeAlias name hasExport type => .typeAlias name hasExport type.canonical

/-- The program with its types in canonical form. -/
def Program.canonical (p : Program String) : Program String :=
  ⟨p.statements.map Statement.canonical⟩

/-! ### Clear trees -/

/-- The words that are read as more than a name. -/
def keywords : List String := ["undefined", "ReactNull", "Readonly", "ReadonlyArray"]

/-- A plain text that is read as a name. -/
def ClearWord (s : String) : Prop := Plain s ∧ s ∉ keywords

instance (s : String) : Decidable (ClearWord s) := inferInstanceAs (Decidable (_ ∧ _))

/-- The type can stand in front of `[]` and of `&` as it is. -/
def Ty.IsOperand : Ty String → Prop
  | .union _ => False
  | .object (_ :: _) _ => False
  | _ => True

mutual

/-- The text of the type can be read in one way. -/
def Ty.Clear : Ty String → Prop
  | .primitive name => ClearWord name
  | .literal text => ClearWord text
  | .optional element => element.Clear
  | .array element isReadonly => element.Clear ∧ (isReadonly = false → element.IsOperand)
  | .object mixins members =>
    Ty.ClearList mixins ∧ (∀ t ∈ mixins, t.IsOperand) ∧ Member.ClearList members
  | .decorated element => element.Clear
  | .union elements =>
    Ty.ClearList elements ∧ 2 ≤ elements.length ∧ ∀ t ∈ elements, t.unionElements? = none
  | .reference name arguments => ClearWord name.text ∧ Ty.ClearList arguments
  | .paren element => element.Clear

/-- All of the types are clear. -/
def Ty.ClearList : List (Ty String) → Prop
  | [] => True
  | t :: ts => t.Clear ∧ Ty.ClearList ts

/-- The text of the member can be read in one way. -/
def Member.Clear : Member String → Prop
  | .prop name _ _ type => Plain name ∧ type.Clear
  | .indexer keyName keyType valueType _ => Plain keyName ∧ keyType.Clear ∧ valueType.Clear

/-- All of the members are clear. -/
def Member.ClearList : List (Member String) → Prop
  | [] => True
  | m :: ms => m.Clear ∧ Member.ClearList ms

end

/-- The text of the statement can be read in one way. -/
def Statement.Clear : Statement String → Prop
  | .useStrict => True
  | .typeAlias name _ type => Plain name ∧ type.Clear

/-- The text of every statement can be read in one way. -/
def Program.Clear (p : Program String) : Prop := ∀ s ∈ p.statements, s.Clear

/-! ### The text of a canonical tree -/

section Texts

variable (config : PrintConfig)

/-- The leaf form of a type is a union exactly if the type is one. -/
theorem Ty.unionElements?_canonical (t : Ty String) :
    t.canonical.unionElements? = t.unionElements?.map Ty.canonicalList := by
  cases t with
  | reference name arguments => cases arguments <;> rfl
  | _ => rfl

/-- A body that is no union stands behind a blank. -/
theorem Ty.bodyText_of_not_union {t : Ty String} (notUnion : t.unionElements? = none)
    (level : Nat) : t.bodyText config level = " " ++ t.text config level := by
  cases t with
  | union elements => cases notUnion
  | _ => rfl

theorem Ty.bodyText_canonical_of_inline {t : Ty String} {level : Nat}
    (notUnion : t.unionElements? = none)
    (inline : t.canonical.text config level = t.text config level) :
    t.canonical.bodyText config level = t.bodyText config level := by
  have still : t.canonical.unionElements? = none := by
    rw [Ty.unionElements?_canonical, notUnion, Option.map_none]
  rw [Ty.bodyText_of_not_union config still, Ty.bodyText_of_not_union config notUnion, inline]

mutual

/-- The canonical form of a type has the text of the type. -/
theorem Ty.text_canonical : ∀ (level : Nat) (t : Ty String),
    t.canonical.text config level = t.text config level
  | _, .primitive _ => rfl
  | _, .literal _ => rfl
  | level, .optional element => by
    rw [Ty.canonical, Ty.text, Ty.text, Ty.text_canonical level element]
  | level, .array element true => by
    rw [Ty.canonical, Ty.text, Ty.text, Ty.text_canonical level element]
  | level, .array element false => by
    rw [Ty.canonical, Ty.text, Ty.text, Ty.text_canonical level element]
  | level, .object mixins members => by
    rw [Ty.canonical, Ty.text, Ty.text, Ty.mixinText_canonicalList level mixins,
      Member.bodyText_canonicalList (level + 1) members]
  | level, .decorated element => by
    rw [Ty.canonical, Ty.text, Ty.text, Ty.text_canonical level element]
  | level, .union elements => by
    rw [Ty.canonical, Ty.text, Ty.text, Ty.listText_canonicalList level " | " elements]
  | _, .reference _ [] => rfl
  | level, .reference name (argument :: arguments) => by
    have list := Ty.listText_canonicalList level ", " (argument :: arguments)
    rw [Ty.canonicalList] at list
    rw [Ty.canonical, Ty.canonicalList, Ty.text, Ty.text, EntityName.text, list]
  | level, .paren element => by
    rw [Ty.canonical, Ty.text, Ty.text, Ty.text_canonical level element]

theorem Ty.listText_canonicalList : ∀ (level : Nat) (between : String) (ts : List (Ty String)),
    Ty.listText config level between (Ty.canonicalList ts) = Ty.listText config level between ts
  | _, _, [] => rfl
  | level, _, [t] => Ty.text_canonical level t
  | level, between, t :: u :: ts => by
    have rest := Ty.listText_canonicalList level between (u :: ts)
    rw [Ty.canonicalList] at rest
    rw [Ty.canonicalList, Ty.canonicalList, Ty.listText, Ty.listText, rest,
      Ty.text_canonical level t]

theorem Ty.mixinText_canonicalList : ∀ (level : Nat) (ts : List (Ty String)),
    Ty.mixinText config level (Ty.canonicalList ts) = Ty.mixinText config level ts
  | _, [] => rfl
  | level, t :: ts => by
    rw [Ty.canonicalList, Ty.mixinText, Ty.mixinText, Ty.text_canonical level t,
      Ty.mixinText_canonicalList level ts]

theorem Ty.stackText_canonicalList : ∀ (level : Nat) (ts : List (Ty String)),
    Ty.stackText config level (Ty.canonicalList ts) = Ty.stackText config level ts
  | _, [] => rfl
  | level, t :: ts => by
    rw [Ty.canonicalList, Ty.stackText, Ty.stackText, Ty.text_canonical (level + 1) t,
      Ty.stackText_canonicalList level ts]

/-- A member is printed like its leaf form. -/
theorem Member.text_canonical : ∀ (level : Nat) (m : Member String),
    m.canonical.text config level = m.text config level
  | level, .prop name isOptional isReadonly type => by
    have inline := Ty.text_canonical level type
    have body : type.canonical.bodyText config level = type.bodyText config level := by
      cases type with
      | union elements => exact Ty.stackText_canonicalList (level + 1) elements
      | _ => exact Ty.bodyText_canonical_of_inline config rfl inline
    rw [Member.canonical, Member.text_prop, Member.text_prop, body]
  | level, .indexer keyName keyType valueType isReadonly => by
    rw [Member.canonical, Member.text, Member.text, Ty.text_canonical level keyType,
      Ty.text_canonical level valueType]

theorem Member.bodyText_canonicalList : ∀ (level : Nat) (ms : List (Member String)),
    Member.bodyText config level (Member.canonicalList ms) = Member.bodyText config level ms
  | _, [] => rfl
  | level, m :: ms => by
    rw [Member.canonicalList, Member.bodyText, Member.bodyText, Member.text_canonical level m,
      Member.bodyText_canonicalList level ms]

end

theorem Ty.bodyText_canonical (level : Nat) (t : Ty String) :
    t.canonical.bodyText config level = t.bodyText config level := by
  have inline := Ty.text_canonical config level t
  cases t with
  | union elements => exact Ty.stackText_canonicalList config (level + 1) elements
  | _ => exact Ty.bodyText_canonical_of_inline config rfl inline

theorem Statement.text_canonical (forceExport : Bool) (s : Statement String) :
    s.canonical.text config forceExport = s.text config forceExport := by
  cases s with
  | useStrict => rfl
  | typeAlias name hasExport type =>
    rw [Statement.canonical, Statement.text, Statement.text, Ty.bodyText_canonical]

/-- The canonical form of a program has the text of the program. -/
theorem Program.listText_canonical (forceExport : Bool) (p : Program String) :
    Statement.listText config forceExport p.canonical.statements =
      Statement.listText config forceExport p.statements := by
  obtain ⟨statements⟩ := p
  induction statements with
  | nil => rfl
  | cons s ss ih =>
    change Statement.listText config forceExport (s.canonical :: ss.map Statement.canonical) = _
    rw [Statement.listText, Statement.listText, Statement.text_canonical]
    exact congrArg (_ ++ ·) ih

end Texts

end FlowDecl
