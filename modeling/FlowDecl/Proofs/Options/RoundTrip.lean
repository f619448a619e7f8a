import FlowDecl.Options.Writer
import Mathlib.Data.List.Basic

/-!
# Options written and read back

Strings are read back from their texts, and so are records of options.
-/

namespace FlowDecl.Json

/-! ## Strings written and read

A string that is written is read back, whatever its characters are and whatever follows it
(`string_reads`).  A character is written as itself or as an escape, and an escape is read as the
character it was written for (`quotedChar_cases`).  Only control characters are written as units
of four digits, so no pairs of units come up.

What a reader makes of a text is a value and a rest.  `Reads` leaves out the fact that the rest
is shorter.
-/

/-! ### Readers -/

/-- A reader found a value and left a rest. -/
def Reads {bound : Nat} {α : Type} (read : Read bound α) (value : α) (rest : List Char) : Prop :=
  ∃ shorter, read = .ok ⟨value, rest, shorter⟩

/-- A change of a piece leaves the rest and may change the value. -/
theorem Reads.map {bound wider : Nat} {α β : Type} {read : Read bound α} {value : α}
    {value' : β} {rest : List Char} (reads : Reads read value rest)
    {f : Piece bound α → Piece wider β}
    (same : ∀ shorter,
      (f ⟨value, rest, shorter⟩).value = value' ∧ (f ⟨value, rest, shorter⟩).rest = rest) :
    Reads (read.map f) value' rest := by
  obtain ⟨shorter, rfl⟩ := reads
  obtain ⟨found, left⟩ := same shorter
  rw [Except.map]
  generalize f ⟨value, rest, shorter⟩ = piece at found left ⊢
  obtain ⟨_, _, shorter'⟩ := piece
  cases found
  cases left
  exact ⟨shorter', rfl⟩

/-! ### Escapes -/

/-- The four digits that spell a control character are its number. -/
theorem hexUnit?_control : ∀ n < 32,
    hexUnit? '0' '0' (hexDigit (n / 16)) (hexDigit n) = some n := by decide

/-- The unit of a control character is no half of a pair. -/
theorem single_of_control : ∀ n < 32, isTrailing n = false ∧ isLeading n = false := by decide

theorem hexUnit_reads {a b c d : Char} {n : Nat} (unit : hexUnit? a b c d = some n)
    (rest : List Char) : Reads (hexUnit (a :: b :: c :: d :: rest)) n rest := by
  rw [hexUnit, unit]
  exact ⟨_, rfl⟩

/-- A control character is read back from its number. -/
theorem unicodeEscape_reads {n : Nat} (control : n < 32) (rest : List Char) :
    Reads (unicodeEscape ('0' :: '0' :: hexDigit (n / 16) :: hexDigit n :: rest)) (.ofNat n)
      rest := by
  obtain ⟨notTrailing, notLeading⟩ := single_of_control n control
  obtain ⟨shorter, unit⟩ := hexUnit_reads (hexUnit?_control n control) rest
  rw [unicodeEscape, unit]
  dsimp only
  rw [notTrailing, notLeading]
  exact ⟨_, rfl⟩

theorem escape_reads {letter c : Char} (short : shortEscape? letter = some c)
    (other : letter ≠ 'u') (rest : List Char) : Reads (escape (letter :: rest)) c rest := by
  rw [escape, if_neg other, short]
  exact ⟨_, rfl⟩

/-- The characters that are escaped by a letter, each with its letter. -/
def letterEscapes : List (Char × Char) :=
  [('"', '"'), ('\\', '\\'), ('\x08', 'b'), ('\x0c', 'f'), ('\n', 'n'), ('\r', 'r'), ('\t', 't')]

/-- The characters that are written by a letter are read by it. -/
theorem of_mem_letterEscapes : ∀ e ∈ letterEscapes,
    quotedChar e.1 = ['\\', e.2] ∧ shortEscape? e.2 = some e.1 ∧ e.2 ≠ 'u' := by decide

/-- A character that is not written by a letter is written by its number or as it is. -/
theorem quotedChar_of_not_letter {c : Char} (other : c ∉ letterEscapes.map Prod.fst) :
    quotedChar c =
      if c < ' ' then ['\\', 'u', '0', '0', hexDigit (c.toNat / 16), hexDigit c.toNat]
      else [c] := by
  simp only [letterEscapes, List.map_cons, List.map_nil, List.mem_cons, List.not_mem_nil,
    not_or] at other
  obtain ⟨quote, backslash, back, feed, line, return_, tab, -⟩ := other
  rw [quotedChar, if_neg quote, if_neg backslash, if_neg back, if_neg feed, if_neg line,
    if_neg return_, if_neg tab]

/-- A character is written as itself or as an escape that is read as the character. -/
theorem quotedChar_cases (c : Char) :
    quotedChar c = [c] ∧ c ≠ '"' ∧ c ≠ '\\' ∧ isControl c = false ∨
      ∃ letters, quotedChar c = '\\' :: letters ∧
        ∀ rest, Reads (escape (letters ++ rest)) c rest := by
  by_cases letter : c ∈ letterEscapes.map Prod.fst
  · obtain ⟨e, member, rfl⟩ := List.mem_map.mp letter
    obtain ⟨written, short, other⟩ := of_mem_letterEscapes e member
    exact .inr ⟨[e.2], written, escape_reads short other⟩
  · rw [quotedChar_of_not_letter letter]
    split
    next control =>
      refine .inr ⟨_, rfl, fun rest => ?_⟩
      have unit := unicodeEscape_reads (n := c.toNat) control rest
      rw [Char.ofNat_toNat] at unit
      exact unit.map fun _ => ⟨rfl, rfl⟩
    next printable =>
      refine .inl ⟨rfl, ?_, ?_, decide_eq_false printable⟩
      · rintro rfl
        exact letter (by decide)
      · rintro rfl
        exact letter (by decide)

/-! ### Strings -/

/-- The text of a character is read as the character. -/
theorem charsFrom_quotedChar {bound : Nat} (taken : List Char) (c : Char) {rest : List Char}
    (le : (quotedChar c ++ rest).length ≤ bound) :
    ∃ le', charsFrom bound taken (quotedChar c ++ rest) le =
      charsFrom bound (c :: taken) rest le' := by
  revert le
  obtain ⟨written, quote, backslash, printable⟩ | ⟨letters, written, reads⟩ := quotedChar_cases c
  · rw [written, List.singleton_append]
    intro le
    have plain : ¬isControl c = true := ne_true_of_eq_false printable
    rw [charsFrom, if_neg quote, if_neg backslash, if_neg plain]
    exact ⟨_, rfl⟩
  · obtain ⟨shorter, escaped⟩ := reads rest
    rw [written, List.cons_append]
    intro le
    rw [charsFrom, if_neg (by decide), if_pos rfl, escaped]
    exact ⟨_, rfl⟩

/-- The characters of a string are read back one by one, up to the closing quote. -/
theorem charsFrom_reads {bound : Nat} (cs : List Char) {taken rest : List Char}
    (le : (cs.flatMap quotedChar ++ '"' :: rest).length ≤ bound) :
    Reads (charsFrom bound taken (cs.flatMap quotedChar ++ '"' :: rest) le) (taken.reverse ++ cs)
      rest := by
  induction cs generalizing taken with
  | nil =>
    change Reads (charsFrom bound taken ('"' :: rest) le) (taken.reverse ++ []) rest
    rw [List.append_nil, charsFrom, if_pos rfl]
    exact ⟨_, rfl⟩
  | cons c cs ih =>
    have text : (c :: cs).flatMap quotedChar ++ '"' :: rest =
        quotedChar c ++ (cs.flatMap quotedChar ++ '"' :: rest) := by
      rw [List.flatMap_cons, List.append_assoc]
    revert le
    rw [text]
    intro le
    obtain ⟨le', next⟩ := charsFrom_quotedChar taken c le
    rw [next]
    have read := @ih (c :: taken) le'
    rwa [List.reverse_cons, List.append_assoc] at read

/-- A string that is written is read back. -/
theorem string_reads (s : String) (rest : List Char) :
    Reads (string (s.toList.flatMap quotedChar ++ '"' :: rest)) s rest := by
  have chars := @charsFrom_reads _ s.toList [] rest (Nat.le_refl _)
  exact chars.map fun _ => ⟨String.ofList_toList, rfl⟩

end FlowDecl.Json

namespace FlowDecl

/-! ## Options written and read

Options that are written are read back, and so are print configurations
(`options_parse_back`).  So no two options have the same text, and an option that is not set is
told apart from one that is.

The reader and the writer of options share no list of fields.  `Record.Fills` says how the written
fields fill the record, each by the reader of its own key, and `Record.Shape.parse_compact` that
the text of the fields is then read as the filled record.  It remains to look at the readers and
writers of single values (`ReadsBack`).
-/

open Json

/-! ### Single values -/

/-- A reader finds what a writer writes, whatever follows. -/
def ReadsBack {α : Type} (read : (s : List Char) → Read s.length α) (write : α → Json) : Prop :=
  ∀ (a : α) (rest : List Char), Reads (read (chars (write a) ++ rest)) a rest

/-- Truth values are read back. -/
theorem boolean_readsBack : ReadsBack Record.boolean .bool := by
  intro b rest
  cases b with
  | true => exact ⟨_, rfl⟩
  | false => exact ⟨_, rfl⟩

theorem text_readsBack : ReadsBack Record.text .str := by
  intro s rest
  have written : chars (.str s) ++ rest = '"' :: (s.toList.flatMap quotedChar ++ '"' :: rest) := by
    rw [chars, quoted, List.cons_append, List.cons_append, List.append_assoc, List.singleton_append]
  rw [written]
  exact (string_reads s rest).map fun _ => ⟨rfl, rfl⟩

/-- A value that may be null is read back if no other one is written like null. -/
theorem ReadsBack.nullable {α : Type} {read : (s : List Char) → Read s.length α} {write : α → Json}
    (back : ReadsBack read write)
    (proper : ∀ a, ∃ c more, chars (write a) = c :: more ∧ isBlank c = false ∧ c ≠ 'n') :
    ReadsBack (Record.nullable read) (orNull write) := by
  intro a rest
  cases a with
  | none => exact ⟨_, rfl⟩
  | some a =>
    have inner : Reads ((read (chars (write a) ++ rest)).map (Piece.map some)) (some a) rest :=
      (back a rest).map fun _ => ⟨rfl, rfl⟩
    obtain ⟨c, more, begins, ink, other⟩ := proper a
    have front : skipBlanks (chars (write a) ++ rest) = c :: (more ++ rest) := by
      rw [begins, List.cons_append, skipBlanks, ink]
      rfl
    rw [orNull, Record.nullable]
    split
    next here =>
      cases here.symm.trans front
      rwa [if_neg other]
    next => exact inner

theorem nullable_boolean_readsBack :
    ReadsBack (Record.nullable Record.boolean) (orNull .bool) := by
  refine boolean_readsBack.nullable fun b => ?_
  cases b with
  | true => exact ⟨_, _, rfl, by decide, by decide⟩
  | false => exact ⟨_, _, rfl, by decide, by decide⟩

theorem nullable_text_readsBack : ReadsBack (Record.nullable Record.text) (orNull .str) :=
  text_readsBack.nullable fun _ => ⟨_, _, rfl, by decide, by decide⟩

/-! ### Records -/

namespace Record

variable {σ : Type}

/-- Fields fill a record that some keys are given for. -/
inductive Fills (shape : Shape σ) : List String → σ → List (String × Json) → σ → Prop where
  | nil {given : List String} {record : σ} : Fills shape given record [] record
  | cons {given : List String} {record record' filled : σ} {key : String} {v : Json}
    {fields : List (String × Json)} {field : Field σ} :
    shape.field? key = some field → key ∉ given →
    (∀ rest, Reads (field.read record (chars v ++ rest)) record' rest) →
    Fills shape (key :: given) record' fields filled →
    Fills shape given record ((key, v) :: fields) filled

/-- A written value fills its field. -/
theorem Fills.put {shape : Shape σ} {given : List String} {record filled : σ} {key : String}
    {fields : List (String × Json)} {α : Type} {read : (s : List Char) → Read s.length α}
    {write : α → Json} {f : σ → α → σ}
    (known : shape.field? key = some ⟨key, fun record s => (read s).map (Piece.map (f record))⟩)
    (first : key ∉ given) (back : ReadsBack read write) (a : α)
    (fills : Fills shape (key :: given) (f record a) fields filled) :
    Fills shape given record ((key, write a) :: fields) filled :=
  .cons known first (fun rest => (back a rest).map fun _ => ⟨rfl, rfl⟩) fills

namespace Shape

variable {shape : Shape σ}

/-- The text of a field is read into the record, and the key counts as given. -/
theorem readEntry_reads {given : List String} {record record' : σ} {key : String} {v : Json}
    {field : Field σ} (known : shape.field? key = some field) (first : key ∉ given)
    (reads : ∀ rest, Reads (field.read record (chars v ++ rest)) record' rest)
    (rest : List Char) :
    Reads (shape.readEntry given record
        (key.toList.flatMap quotedChar ++ '"' :: ':' :: (chars v ++ rest)))
      (key :: given, record') rest := by
  obtain ⟨shorter, named⟩ := string_reads key (':' :: (chars v ++ rest))
  have separated : Reads (colon (':' :: (chars v ++ rest))) () (chars v ++ rest) := ⟨_, rfl⟩
  obtain ⟨_, separated⟩ := separated
  rw [readEntry, named]
  dsimp only
  rw [known]
  dsimp only
  rw [if_neg first, separated]
  exact (reads rest).map fun _ => ⟨rfl, rfl⟩

/-- The text of fields, of which there is at least one, after the quote at its front. -/
def entriesText (key : String) (v : Json) : List (String × Json) → List Char
  | [] => key.toList.flatMap quotedChar ++ '"' :: ':' :: chars v
  | (next, w) :: fields =>
    key.toList.flatMap quotedChar ++
      '"' :: ':' :: (chars v ++ ',' :: '"' :: entriesText next w fields)

theorem fieldChars_cons (key : String) (v : Json) (fields : List (String × Json)) :
    fieldChars ((key, v) :: fields) = '"' :: entriesText key v fields := by
  induction fields generalizing key v with
  | nil => simp [fieldChars, quoted, entriesText]
  | cons f fields ih =>
    obtain ⟨next, w⟩ := f
    simp [fieldChars, quoted, entriesText, ih next w]

/-- The texts of fields that fill a record are read into it one after the other. -/
theorem readEntries_reads {given : List String} {record filled : σ} {key : String} {v : Json}
    {fields : List (String × Json)} (fills : Fills shape given record ((key, v) :: fields) filled)
    {bound : Nat} (rest : List Char)
    (lt : (entriesText key v fields ++ '\x7d' :: rest).length < bound) :
    Reads (shape.readEntries bound given record (entriesText key v fields ++ '\x7d' :: rest) lt)
      filled rest := by
  induction fields generalizing given record key v with
  | nil =>
    obtain _ | ⟨known, first, reads, fills⟩ := fills
    cases fills
    have text : entriesText key v [] ++ '\x7d' :: rest =
        key.toList.flatMap quotedChar ++ '"' :: ':' :: (chars v ++ '\x7d' :: rest) :=
      List.append_assoc _ _ _
    obtain ⟨_, entry⟩ := readEntry_reads known first reads ('\x7d' :: rest)
    revert lt
    rw [text]
    intro lt
    rw [readEntries, entry]
    exact ⟨_, rfl⟩
  | cons f fields ih =>
    obtain ⟨next, w⟩ := f
    obtain _ | ⟨known, first, reads, fills⟩ := fills
    have text : entriesText key v ((next, w) :: fields) ++ '\x7d' :: rest =
        key.toList.flatMap quotedChar ++ '"' :: ':' ::
          (chars v ++ ',' :: '"' :: (entriesText next w fields ++ '\x7d' :: rest)) := by
      simp [entriesText]
    obtain ⟨_, entry⟩ := readEntry_reads known first reads
      (',' :: '"' :: (entriesText next w fields ++ '\x7d' :: rest))
    revert lt
    rw [text]
    intro lt
    rw [readEntries, entry]
    exact ih fills _

/-- The text of fields that fill a record is read as the record. -/
theorem parse_compact {filled : σ} {key : String} {v : Json} {fields : List (String × Json)}
    (fills : Fills shape [] shape.initial ((key, v) :: fields) filled) :
    shape.parse (compact (.obj ((key, v) :: fields))) = .ok filled := by
  have text : chars (.obj ((key, v) :: fields)) =
      '\x7b' :: '"' :: (entriesText key v fields ++ ['\x7d']) := by
    rw [chars, fieldChars_cons, List.cons_append, List.cons_append]
  have reads : Reads (shape.readRecord ('\x7b' :: '"' :: (entriesText key v fields ++ ['\x7d'])))
      filled [] := readEntries_reads fills [] _
  obtain ⟨_, read⟩ := reads
  rw [parse, compact, String.toList_ofList, text, read]
  rfl

end Shape

end Record

/-! ### Options -/

/-- The fields of written options fill them again. -/
theorem Options.fills (o : Options) : Record.Fills shape [] .empty
    [("useReactNull", orNull .bool o.useReactNull), ("forceExport", orNull .bool o.forceExport),
      ("outDir", orNull .str o.outDir), ("outExtension", orNull .str o.outExtension)] o := by
  refine .put (f := fun o b => { o with useReactNull := b }) rfl (by decide)
    nullable_boolean_readsBack _ ?_
  refine .put (f := fun o b => { o with forceExport := b }) rfl (by decide)
    nullable_boolean_readsBack _ ?_
  refine .put (f := fun o t => { o with outDir := t }) rfl (by decide) nullable_text_readsBack _ ?_
  refine .put (f := fun o t => { o with outExtension := t }) rfl (by decide)
    nullable_text_readsBack _ ?_
  exact .nil

theorem PrintConfig.fills (c : PrintConfig) :
    Record.Fills shape [] {} [("useReactNull", .bool c.useReactNull)] c :=
  .put (f := fun c b => { c with useReactNull := b }) rfl (by decide) boolean_readsBack _ .nil

theorem Options.parse_serialize (o : Options) : parse o.serialize = .ok o :=
  Record.Shape.parse_compact o.fills

theorem PrintConfig.parse_serialize (c : PrintConfig) : parse c.serialize = .ok c :=
  Record.Shape.parse_compact c.fills

/-- Options and print configurations are read back from their texts, so different ones have
different texts. -/
theorem options_parse_back :
    (∀ o : Options, Options.parse o.serialize = .ok o) ∧
      (∀ c : PrintConfig, PrintConfig.parse c.serialize = .ok c) ∧
      Function.Injective Options.serialize ∧ Function.Injective PrintConfig.serialize := by
  refine ⟨Options.parse_serialize, PrintConfig.parse_serialize, ?_, ?_⟩
  · intro o o' same
    have read := Options.parse_serialize o
    rw [same, Options.parse_serialize] at read
    exact (Except.ok.inj read).symm
  · intro c c' same
    have read := PrintConfig.parse_serialize c
    rw [same, PrintConfig.parse_serialize] at read
    exact (Except.ok.inj read).symm

example : Options.serialize { forceExport := some true, outDir := some "a\"\x01" } =
    "\x7b\"useReactNull\":null,\"forceExport\":true,\"outDir\":\"a\\\"\\u0001\"," ++
      "\"outExtension\":null\x7d" := by
  decide +kernel

end FlowDecl
