import FlowDecl.Json.Basic
import FlowDecl.Text

/-!
# Lexemes of JSON texts

The words, numbers and strings of a JSON text, and the places and causes for which a text is
refused.
-/

namespace FlowDecl.Json

/-! ## Errors of a JSON text

A text is refused for a cause and at a place.  While a text is read, the place
is the number of bytes that are not taken yet.  `Fault.within` gives it from the
rest of the text and the number of further bytes that count as taken, and never
passes the end.  `locate` turns a number of taken bytes into a line, counted
from one, and a column, the number of bytes of that line among them.

The causes of the typed readers are here as well: a value of another type, a key
given twice and a list of the wrong length.
-/

/-- Why a text is refused. -/
inductive Cause where
  | endInValue
  | endInString
  | endInList
  | endInObject
  | expectedValue
  | expectedWord
  | expectedColon
  | expectedListSeparator
  | expectedObjectSeparator
  | trailingComma
  | trailingCharacters
  | keyNotString
  | invalidNumber
  | numberOutOfRange
  | controlCharacter
  | invalidEscape
  | unpairedEscape
  | unfinishedPair
  | tooDeep
  | wrongType (found expected : String)
  | duplicateField (name : String)
  | wrongLength (length : Nat) (expected : String)
deriving DecidableEq, Repr, Inhabited

/-- The wording of a cause. -/
def Cause.message : Cause → String
  | .endInValue => "EOF while parsing a value"
  | .endInString => "EOF while parsing a string"
  | .endInList => "EOF while parsing a list"
  | .endInObject => "EOF while parsing an object"
  | .expectedValue => "expected value"
  | .expectedWord => "expected ident"
  | .expectedColon => "expected `:`"
  | .expectedListSeparator => "expected `,` or `]`"
  | .expectedObjectSeparator => "expected `,` or `\x7d`"
  | .trailingComma => "trailing comma"
  | .trailingCharacters => "trailing characters"
  | .keyNotString => "key must be a string"
  | .invalidNumber => "invalid number"
  | .numberOutOfRange => "number out of range"
  | .controlCharacter => "control character (\\u0000-\\u001F) found while parsing a string"
  | .invalidEscape => "invalid escape"
  | .unpairedEscape => "lone leading surrogate in hex escape"
  | .unfinishedPair => "unexpected end of hex escape"
  | .tooDeep => "recursion limit exceeded"
  | .wrongType found expected => "invalid type: " ++ found ++ ", expected " ++ expected
  | .duplicateField name => "duplicate field `" ++ name ++ "`"
  | .wrongLength length expected =>
    "invalid length " ++ toString length ++ ", expected " ++ expected

/-! ### Places -/

/-- A cause, with the number of bytes of the text that are not taken. -/
structure Fault where
  /-- Why the text is refused. -/
  cause : Cause
  /-- The bytes that are not taken. -/
  untaken : Nat
deriving DecidableEq, Repr, Inhabited

/-- The fault found once `taken` bytes of the rest count as taken, or all of them
if there are fewer. -/
def Fault.within (taken : Nat) (cause : Cause) (rest : List Char) : Fault :=
  ⟨cause, Text.byteCount rest - taken⟩

/-- The fault found at the front of the rest. -/
def Fault.before (cause : Cause) (rest : List Char) : Fault := .within 0 cause rest

/-- The fault whose cause is the next byte of the rest. -/
def Fault.onNext (cause : Cause) (rest : List Char) : Fault := .within 1 cause rest

/-- The line and column reached by taking a number of bytes, from a given line and
column on. -/
def locate (line column : Nat) : List Char → Nat → Nat × Nat
  | [], _ => (line, column)
  | c :: rest, taken =>
    if taken < c.utf8Size then (line, column + taken)
    else if c = '\n' then locate (line + 1) 0 rest (taken - 1)
    else locate line (column + c.utf8Size) rest (taken - c.utf8Size)

/-- A refusal: its cause, and the line and column of its place. -/
structure Refusal where
  /-- Why the text is refused. -/
  cause : Cause
  /-- The line, from one. -/
  line : Nat
  /-- The bytes of the line up to the place. -/
  column : Nat
deriving DecidableEq, Repr, Inhabited

/-- The refusal of a text for a fault. -/
def Fault.refusal (text : List Char) (fault : Fault) : Refusal :=
  let (line, column) := locate 1 0 text (Text.byteCount text - fault.untaken)
  ⟨fault.cause, line, column⟩

/-- The wording of a refusal. -/
def Refusal.message (r : Refusal) : String :=
  r.cause.message ++ " at line " ++ toString r.line ++ " column " ++ toString r.column

/-! ### Tests -/

example : Fault.refusal ['a', '\n', 'b'] (.before .expectedValue []) =
    ⟨.expectedValue, 2, 1⟩ := by decide
example : Fault.refusal ['a', '\n', 'b'] (.before .expectedValue ['b']) =
    ⟨.expectedValue, 2, 0⟩ := by decide
example : Fault.refusal ['é'] (.onNext .expectedValue ['é']) = ⟨.expectedValue, 1, 1⟩ := by decide

/-! ## Words, numerals and strings

The smallest parts of a JSON text, read off the front of a list of characters.
A reader returns a `Piece`: the value and the rest of the text, with the fact
that the rest is shorter than a bound.  Loops over a text end by that fact.

Places are counted in bytes, and some faults lie inside a character.  A word and
an escape look at one byte after the other, and `\u` takes the four bytes that
follow it before it looks at them.
-/

/-- A value read off a text, and the rest of the text, which is shorter than a
bound. -/
structure Piece (bound : Nat) (α : Type) where
  /-- What was read. -/
  value : α
  /-- The rest of the text. -/
  rest : List Char
  /-- The rest is shorter than the bound. -/
  shorter : rest.length < bound

/-- Reading a piece, or refusing the text. -/
abbrev Read (bound : Nat) (α : Type) : Type := Except Fault (Piece bound α)

/-- The same piece under a greater bound. -/
def Piece.widen {m n : Nat} {α : Type} (le : m ≤ n) (p : Piece m α) : Piece n α :=
  ⟨p.value, p.rest, Nat.lt_of_lt_of_le p.shorter le⟩

/-- A piece with its value changed. -/
def Piece.map {n : Nat} {α β : Type} (f : α → β) (p : Piece n α) : Piece n β :=
  ⟨f p.value, p.rest, p.shorter⟩

/-! ### Shorter texts -/

theorem length_le_succ (s : List Char) : s.length ≤ s.length + 1 := Nat.le_succ _

theorem length_lt_cons (c : Char) (s : List Char) : s.length < (c :: s).length :=
  Nat.lt_succ_self _

theorem shorter_trans {a b c : List Char} (h : a.length < b.length) (h' : b.length < c.length) :
    a.length < c.length :=
  Nat.lt_trans h h'

theorem no_longer_trans {a b c : List Char} (h : a.length < b.length)
    (h' : b.length < c.length) : a.length ≤ c.length :=
  Nat.le_of_lt (Nat.lt_trans h h')

/-- A text with a character in front is still shorter than one that is longer by two. -/
theorem cons_shorter {a b c : List Char} (d : Char) (h : a.length < b.length)
    (h' : b.length < c.length) : (d :: a).length < c.length :=
  Nat.lt_of_le_of_lt h h'

/-- What a piece leaves is at least one character shorter than its bound. -/
theorem Piece.length_rest_le {α : Type} {s : List Char} (p : Piece (s.length + 1) α) :
    p.rest.length ≤ s.length :=
  Nat.le_of_lt_succ p.shorter

/-! ### Blanks -/

/-- The four blank characters of the format. -/
def isBlank (c : Char) : Bool := c == ' ' || c == '\t' || c == '\n' || c == '\r'

/-- The text after its leading blanks. -/
def skipBlanks : List Char → List Char
  | [] => []
  | c :: rest => if isBlank c then skipBlanks rest else c :: rest

theorem length_skipBlanks (s : List Char) : (skipBlanks s).length ≤ s.length := by
  induction s with
  | nil => exact Nat.le_refl _
  | cons c rest ih =>
    simp only [skipBlanks]
    split
    · simp only [List.length_cons]
      omega
    · exact Nat.le_refl _

/-- What follows the first character after the blanks is shorter than the text. -/
theorem length_of_skipBlanks {s rest : List Char} {c : Char} (h : skipBlanks s = c :: rest) :
    rest.length < s.length := by
  have := length_skipBlanks s
  rw [h] at this
  exact this

/-- The colon after a key. -/
def colon (s : List Char) : Read s.length Unit :=
  match h : skipBlanks s with
  | [] => .error (.onNext .endInObject [])
  | c :: rest =>
    if c = ':' then .ok ⟨(), rest, length_of_skipBlanks h⟩
    else .error (.onNext .expectedColon (c :: rest))

/-! ### Words -/

/-- The rest of a text after the letters of a word.  The first byte that differs
is taken. -/
def word : List Char → List Char → Except Fault (List Char)
  | [], s => .ok s
  | _ :: _, [] => .error (.before .endInValue [])
  | letter :: letters, c :: s =>
    if letter = c then word letters s else .error (.onNext .expectedWord (c :: s))

theorem length_word {letters s rest : List Char} (h : word letters s = .ok rest) :
    rest.length ≤ s.length := by
  fun_induction word letters s with
  | case1 s => cases h; exact Nat.le_refl _
  | case2 => cases h
  | case3 letters c s ih =>
    have := ih h
    simp only [List.length_cons]
    omega
  | case4 => cases h

/-- A value spelled by a word whose first letter is taken. -/
def wordValue {α : Type} (letters : List Char) (value : α) (s : List Char) :
    Read (s.length + 1) α :=
  match h : word letters s with
  | .error e => .error e
  | .ok rest => .ok ⟨value, rest, Nat.lt_succ_of_le (length_word h)⟩

/-! ### Numerals -/

/-- The digits at the front of a text, after those of an accumulator in reverse
order. -/
def digitsFrom (taken : List Char) : List Char → List Char × List Char
  | [] => (taken.reverse, [])
  | c :: rest =>
    if c.isDigit then digitsFrom (c :: taken) rest else (taken.reverse, c :: rest)

/-- The digits at the front of a text, and the rest. -/
def digits (s : List Char) : List Char × List Char := digitsFrom [] s

theorem length_digitsFrom (taken s : List Char) : (digitsFrom taken s).2.length ≤ s.length := by
  induction s generalizing taken with
  | nil => exact Nat.le_refl _
  | cons c rest ih =>
    simp only [digitsFrom]
    split
    · have := ih (c :: taken)
      simp only [List.length_cons]
      omega
    · exact Nat.le_refl _

theorem length_digits (s : List Char) : (digits s).2.length ≤ s.length := length_digitsFrom [] s

/-- The number that digits spell. -/
def digitsValue (ds : List Char) : Nat :=
  ds.foldl (fun n c => 10 * n + (c.toNat - '0'.toNat)) 0

/-- The parts of a numeral as they are written. -/
structure Numeral where
  /-- Whether a minus sign stands before it. -/
  negative : Bool
  /-- The digits before the point. -/
  whole : List Char
  /-- The digits after the point, none if there is no point. -/
  fraction : List Char
  /-- The sign and digits of the exponent. -/
  exponent : Option (Bool × List Char)
deriving DecidableEq, Repr

/-- The digits before the point.  A zero is followed by no digit.  `atEnd` is the
cause where the text ends too early. -/
def wholePart (atEnd : Cause) : List Char → Except Fault (List Char × List Char)
  | [] => .error (.before atEnd [])
  | c :: rest =>
    if c = '0' then
      match rest with
      | d :: more =>
        if d.isDigit then .error (.onNext .invalidNumber (d :: more)) else .ok ([c], d :: more)
      | [] => .ok ([c], [])
    else if c.isDigit then .ok (digits (c :: rest))
    else .error (.onNext .invalidNumber (c :: rest))

/-- The digits of a fraction whose point stands at the front, none if no point
stands there. -/
def fractionPart (atEnd : Cause) : List Char → Except Fault (List Char × List Char)
  | '.' :: rest =>
    match digits rest with
    | ([], []) => .error (.onNext atEnd [])
    | ([], c :: more) => .error (.onNext .invalidNumber (c :: more))
    | (ds, more) => .ok (ds, more)
  | s => .ok ([], s)

/-- The sign of an exponent. -/
def exponentSign : List Char → Bool × List Char
  | '-' :: rest => (true, rest)
  | '+' :: rest => (false, rest)
  | s => (false, s)

/-- The sign and digits of an exponent whose letter stands at the front, nothing
if no letter stands there. -/
def exponentPart (atEnd : Cause) :
    List Char → Except Fault (Option (Bool × List Char) × List Char)
  | [] => .ok (none, [])
  | c :: rest =>
    if c = 'e' ∨ c = 'E' then
      match exponentSign rest with
      | (_, []) => .error (.before atEnd [])
      | (negative, d :: more) =>
        if d.isDigit then
          let run := digits (d :: more)
          .ok (some (negative, run.1), run.2)
        else .error (.onNext .invalidNumber (d :: more))
    else .ok (none, c :: rest)

/-- A numeral without its sign. -/
def unsignedNumeral (atEnd : Cause) (negative : Bool) (s : List Char) :
    Except Fault (Numeral × List Char) := do
  let (whole, s₁) ← wholePart atEnd s
  let (fraction, s₂) ← fractionPart atEnd s₁
  let (exponent, s₃) ← exponentPart atEnd s₂
  return (⟨negative, whole, fraction, exponent⟩, s₃)

/-- A whole part has at least one digit. -/
theorem length_wholePart {atEnd : Cause} {s ds rest : List Char}
    (h : wholePart atEnd s = .ok (ds, rest)) : rest.length < s.length := by
  unfold wholePart at h
  split at h
  · cases h
  · next c tail =>
    split at h
    · split at h
      · split at h
        · cases h
        · cases h; exact Nat.lt_succ_self _
      · cases h; exact Nat.lt_succ_self _
    · split at h
      · next isDigit =>
        have := length_digitsFrom [c] tail
        simp only [digits, digitsFrom, isDigit, if_true, Except.ok.injEq] at h
        rw [h] at this
        exact Nat.lt_succ_of_le this
      · cases h

theorem length_fractionPart {atEnd : Cause} {s ds rest : List Char}
    (h : fractionPart atEnd s = .ok (ds, rest)) : rest.length ≤ s.length := by
  unfold fractionPart at h
  split at h
  · next tail =>
    have := length_digits tail
    split at h
    · cases h
    · cases h
    · next eq =>
      cases h
      simp only [eq] at this
      simp only [List.length_cons]
      omega
  · cases h; exact Nat.le_refl _

theorem length_exponentSign (s : List Char) : (exponentSign s).2.length ≤ s.length := by
  unfold exponentSign
  split <;> simp

theorem length_exponentPart {atEnd : Cause} {s rest : List Char}
    {e : Option (Bool × List Char)} (h : exponentPart atEnd s = .ok (e, rest)) :
    rest.length ≤ s.length := by
  unfold exponentPart at h
  split at h
  · cases h; exact Nat.le_refl _
  · next c tail =>
    have signed := length_exponentSign tail
    split at h
    · split at h
      · cases h
      · next eq =>
        rw [eq] at signed
        split at h
        · next d more _ =>
          have := length_digits (d :: more)
          cases h
          simp only [List.length_cons] at *
          omega
        · cases h
    · cases h; exact Nat.le_refl _

theorem length_unsignedNumeral {atEnd : Cause} {negative : Bool} {s rest : List Char}
    {n : Numeral} (h : unsignedNumeral atEnd negative s = .ok (n, rest)) :
    rest.length < s.length := by
  simp only [unsignedNumeral, bind, Except.bind] at h
  split at h
  · cases h
  · next w wEq =>
    split at h
    · cases h
    · next f fEq =>
      split at h
      · cases h
      · next e eEq =>
        cases h
        have := length_wholePart wEq
        have := length_fractionPart fEq
        have := length_exponentPart eEq
        omega

/-- A numeral, whose first character is a digit or a minus sign. -/
def numeral (atEnd : Cause) : List Char → Except Fault (Numeral × List Char)
  | '-' :: rest => unsignedNumeral atEnd true rest
  | s => unsignedNumeral atEnd false s

/-- A numeral has at least one character, so reading numerals ends. -/
theorem length_numeral {atEnd : Cause} {s rest : List Char} {n : Numeral}
    (h : numeral atEnd s = .ok (n, rest)) : rest.length < s.length := by
  unfold numeral at h
  split at h
  · exact Nat.lt_succ_of_lt (length_unsignedNumeral h)
  · exact length_unsignedNumeral h

/-! ### The number of a numeral -/

/-- The greatest exponent whose digits are read to their end. -/
def maxExponentDigits : Nat := 2147483647

/-- The digits of an exponent that follow the one with which it passes its limit,
if it does. -/
def digitsPastLimit (value : Nat) : List Char → Option (List Char)
  | [] => none
  | c :: rest =>
    let next := 10 * value + (c.toNat - '0'.toNat)
    if maxExponentDigits < next then some rest else digitsPastLimit next rest

/-- An integer that fits a 64-bit word.  A negative zero is no integer. -/
def wordInteger? (negative : Bool) (magnitude : Nat) : Option Int :=
  if negative then
    if 0 < magnitude ∧ magnitude ≤ Nat.pow 2 63 then some (-magnitude) else none
  else if magnitude < Nat.pow 2 64 then some magnitude else none

/-- The floating-point number of decimal digits at a scale, or the fault that it
is out of range. -/
def floatNumber (negative : Bool) (magnitude : Nat) (scale : Int) (rest : List Char) :
    Except Fault Number :=
  match Binary64.ofDecimal? negative magnitude scale with
  | some x => .ok (.float x)
  | none => .error (.before .numberOutOfRange rest)

/-- The number a numeral stands for.  Where a positive exponent passes its limit
and the digits are not all zero, the number is out of range at that digit. -/
def Numeral.number (n : Numeral) (rest : List Char) : Except Fault Number :=
  let magnitude := digitsValue (n.whole ++ n.fraction)
  let scale : Int := -n.fraction.length
  match n.exponent with
  | none =>
    match n.fraction, wordInteger? n.negative magnitude with
    | [], some value => .ok (.int value)
    | _, _ => floatNumber n.negative magnitude scale rest
  | some (false, ds) =>
    match digitsPastLimit 0 ds with
    | some after =>
      if magnitude = 0 then .ok (.float (.zero n.negative))
      else .error (.before .numberOutOfRange (after ++ rest))
    | none => floatNumber n.negative magnitude (scale + digitsValue ds) rest
  | some (true, ds) =>
    match digitsPastLimit 0 ds with
    | some _ => .ok (.float (.zero n.negative))
    | none => floatNumber n.negative magnitude (scale - digitsValue ds) rest

/-- A number whose first character is a digit or a minus sign. -/
def number (s : List Char) : Read s.length Number :=
  match h : numeral .endInValue s with
  | .error e => .error e
  | .ok (n, rest) =>
    match n.number rest with
    | .error e => .error e
    | .ok value => .ok ⟨value, rest, length_numeral h⟩

/-! ### Strings -/

/-- The value of a hexadecimal digit. -/
def hexValue? (c : Char) : Option Nat :=
  if '0' ≤ c ∧ c ≤ '9' then some (c.toNat - '0'.toNat)
  else if 'a' ≤ c ∧ c ≤ 'f' then some (c.toNat - 'a'.toNat + 10)
  else if 'A' ≤ c ∧ c ≤ 'F' then some (c.toNat - 'A'.toNat + 10)
  else none

/-- The number that four hexadecimal digits spell. -/
def hexUnit? (a b c d : Char) : Option Nat :=
  match hexValue? a, hexValue? b, hexValue? c, hexValue? d with
  | some w, some x, some y, some z => some (((16 * w + x) * 16 + y) * 16 + z)
  | _, _, _, _ => none

/-- The unit at the front of a text.  Four bytes are taken before they are looked
at. -/
def hexUnit (s : List Char) : Read s.length Nat :=
  match s with
  | a :: b :: c :: d :: rest =>
    match hexUnit? a b c d with
    | some unit => .ok ⟨unit, rest, by simp only [List.length_cons]; omega⟩
    | none => .error (.within 4 .invalidEscape (a :: b :: c :: d :: rest))
  | s =>
    if Text.byteCount s < 4 then .error (.within 4 .endInString s)
    else .error (.within 4 .invalidEscape s)

/-- Whether a unit is the first of a pair. -/
def isLeading (unit : Nat) : Bool := 0xD800 ≤ unit && unit ≤ 0xDBFF

/-- Whether a unit is the second of a pair. -/
def isTrailing (unit : Nat) : Bool := 0xDC00 ≤ unit && unit ≤ 0xDFFF

/-- The character of a pair of units. -/
def pairChar (leading trailing : Nat) : Char :=
  .ofNat (0x10000 + (leading - 0xD800) * 0x400 + (trailing - 0xDC00))

/-- The character of an escape after its `\u`.  A unit that is the first of a pair
needs the second one as another escape. -/
def unicodeEscape (s : List Char) : Read s.length Char :=
  match hexUnit s with
  | .error e => .error e
  | .ok ⟨leading, rest, shorter⟩ =>
    if isTrailing leading then .error (.before .unpairedEscape rest)
    else if isLeading leading then
      match rest, shorter with
      | [], _ => .error (.before .endInString [])
      | '\\' :: [], _ => .error (.before .endInString [])
      | '\\' :: 'u' :: more, shorter =>
        match hexUnit more with
        | .error e => .error e
        | .ok ⟨trailing, after, shorterStill⟩ =>
          if isTrailing trailing then
            .ok ⟨pairChar leading trailing, after, by
              simp only [List.length_cons] at shorter
              omega⟩
          else .error (.before .unpairedEscape after)
      | '\\' :: c :: more, _ => .error (.onNext .unfinishedPair (c :: more))
      | c :: more, _ => .error (.onNext .unfinishedPair (c :: more))
    else .ok ⟨.ofNat leading, rest, shorter⟩

/-- The character a one-letter escape stands for. -/
def shortEscape? (c : Char) : Option Char :=
  if c = '"' then some '"'
  else if c = '\\' then some '\\'
  else if c = '/' then some '/'
  else if c = 'b' then some '\x08'
  else if c = 'f' then some '\x0c'
  else if c = 'n' then some '\n'
  else if c = 'r' then some '\r'
  else if c = 't' then some '\t'
  else none

/-- The character of an escape after its backslash. -/
def escape (s : List Char) : Read s.length Char :=
  match s with
  | [] => .error (.before .endInString [])
  | c :: rest =>
    if c = 'u' then (unicodeEscape rest).map (Piece.widen (Nat.le_succ _))
    else
      match shortEscape? c with
      | some value => .ok ⟨value, rest, Nat.lt_succ_self _⟩
      | none => .error (.onNext .invalidEscape (c :: rest))

/-- Whether a character may not stand in a string as it is. -/
def isControl (c : Char) : Bool := c < ' '

/-- The characters of a string up to its closing quote, after those of an
accumulator in reverse order. -/
def charsFrom (bound : Nat) (taken s : List Char) (le : s.length ≤ bound) :
    Read bound (List Char) :=
  match s with
  | [] => .error (.before .endInString [])
  | c :: rest =>
    have fits : rest.length < bound := le
    if c = '"' then .ok ⟨taken.reverse, rest, fits⟩
    else if c = '\\' then
      match escape rest with
      | .error e => .error e
      | .ok p =>
        charsFrom bound (p.value :: taken) p.rest (Nat.le_of_lt (Nat.lt_trans p.shorter fits))
    else if isControl c then .error (.onNext .controlCharacter (c :: rest))
    else charsFrom bound (c :: taken) rest (Nat.le_of_lt fits)
termination_by s.length
decreasing_by
  · have := p.shorter
    simp only [List.length_cons]
    omega
  · simp

/-- A string whose opening quote is taken. -/
def string (s : List Char) : Read (s.length + 1) String :=
  (charsFrom s.length [] s (Nat.le_refl _)).map fun p =>
    (p.map String.ofList).widen (Nat.le_succ _)

end FlowDecl.Json
