import FlowDecl.Json.Lexeme

/-!
# Reading JSON texts

A text is read into a value, or checked for its form and skipped.
-/

namespace FlowDecl.Json

/-! ## Reading JSON values

`Json.parse` reads a text that holds one value between blanks.  At most
`maxDepth` lists and objects are open at a time.  The first fault from the left
refuses the text.

A comma is followed by another item.  A closing bracket in its place is told
apart from other characters.
-/

/-- The number of lists and objects that may be open at a time. -/
def maxDepth : Nat := 127

/-- A key whose opening quote is taken, and the colon after it. -/
def key (s : List Char) : Read s.length String :=
  match string s with
  | .error e => .error e
  | .ok k =>
    (colon k.rest).map fun p => (p.map fun _ => k.value).widen (Nat.le_of_lt_succ k.shorter)

mutual

/-- A value after blanks.  `depth` more lists and objects may be opened. -/
def value (depth : Nat) (s : List Char) : Read s.length Json :=
  match h : skipBlanks s with
  | [] => .error (.onNext .endInValue [])
  | c :: rest =>
    have lt : rest.length < s.length := length_of_skipBlanks h
    if c = 'n' then (wordValue ['u', 'l', 'l'] .null rest).map (Piece.widen lt)
    else if c = 't' then (wordValue ['r', 'u', 'e'] (.bool true) rest).map (Piece.widen lt)
    else if c = 'f' then
      (wordValue ['a', 'l', 's', 'e'] (.bool false) rest).map (Piece.widen lt)
    else if c = '"' then (string rest).map fun p => (p.map .str).widen lt
    else if c = '-' ∨ c.isDigit then
      (number (c :: rest)).map fun p => (p.map .num).widen lt
    else if c = '[' then
      match depth with
      | 0 => .error (.onNext .tooDeep (c :: rest))
      | depth + 1 =>
        match h' : skipBlanks rest with
        | [] => .error (.onNext .endInList [])
        | d :: more =>
          have lt' : more.length < rest.length := length_of_skipBlanks h'
          if d = ']' then .ok ⟨.arr [], more, Nat.lt_trans lt' lt⟩
          else items depth s.length [] (d :: more) (Nat.lt_of_le_of_lt lt' lt)
    else if c = '\x7b' then
      match depth with
      | 0 => .error (.onNext .tooDeep (c :: rest))
      | depth + 1 =>
        match h' : skipBlanks rest with
        | [] => .error (.onNext .endInObject [])
        | d :: more =>
          have lt' : more.length < rest.length := length_of_skipBlanks h'
          if d = '\x7d' then .ok ⟨.obj [], more, Nat.lt_trans lt' lt⟩
          else if d = '"' then fields depth s.length [] more (Nat.lt_trans lt' lt)
          else .error (.onNext .keyNotString (d :: more))
    else .error (.onNext .expectedValue (c :: rest))
termination_by 2 * s.length
decreasing_by
  · simp only [List.length_cons]
    omega
  · omega

/-- The items of a list from its first one on, after those of an accumulator in
reverse order. -/
def items (depth bound : Nat) (taken : List Json) (s : List Char) (lt : s.length < bound) :
    Read bound Json :=
  match value depth s with
  | .error e => .error e
  | .ok p =>
    match h : skipBlanks p.rest with
    | [] => .error (.onNext .endInList [])
    | c :: rest =>
      have lt' : rest.length < s.length := Nat.lt_trans (length_of_skipBlanks h) p.shorter
      if c = ']' then .ok ⟨.arr (p.value :: taken).reverse, rest, Nat.lt_trans lt' lt⟩
      else if c = ',' then
        match h' : skipBlanks rest with
        | [] => .error (.onNext .endInValue [])
        | d :: more =>
          have lt'' : more.length < rest.length := length_of_skipBlanks h'
          if d = ']' then .error (.onNext .trailingComma (d :: more))
          else
            items depth bound (p.value :: taken) (d :: more)
              (Nat.lt_of_le_of_lt lt'' (Nat.lt_trans lt' lt))
      else .error (.onNext .expectedListSeparator (c :: rest))
termination_by 2 * s.length + 1
decreasing_by
  · omega
  · simp only [List.length_cons]
    omega

/-- The fields of an object from its first one on, whose opening quote is taken,
after those already set. -/
def fields (depth bound : Nat) (taken : List (String × Json)) (s : List Char)
    (lt : s.length < bound) : Read bound Json :=
  match key s with
  | .error e => .error e
  | .ok k =>
    match value depth k.rest with
    | .error e => .error e
    | .ok p =>
      match h : skipBlanks p.rest with
      | [] => .error (.onNext .endInObject [])
      | c :: rest =>
        have lt' : rest.length < s.length :=
          Nat.lt_trans (length_of_skipBlanks h) (Nat.lt_trans p.shorter k.shorter)
        if c = '\x7d' then
          .ok ⟨.obj (insertField k.value p.value taken), rest, Nat.lt_trans lt' lt⟩
        else if c = ',' then
          match h' : skipBlanks rest with
          | [] => .error (.onNext .endInValue [])
          | d :: more =>
            have lt'' : more.length < rest.length := length_of_skipBlanks h'
            if d = '"' then
              fields depth bound (insertField k.value p.value taken) more
                (Nat.lt_trans lt'' (Nat.lt_trans lt' lt))
            else if d = '\x7d' then .error (.onNext .trailingComma (d :: more))
            else .error (.onNext .keyNotString (d :: more))
        else .error (.onNext .expectedObjectSeparator (c :: rest))
termination_by 2 * s.length
decreasing_by
  · have := k.shorter
    omega
  · omega

end

/-- The value of a whole text whose reader left a rest, which may hold blanks
alone. -/
def complete {bound : Nat} {α : Type} (text : List Char) (read : Read bound α) :
    Except Refusal α :=
  match read with
  | .error fault => .error (fault.refusal text)
  | .ok p =>
    match skipBlanks p.rest with
    | [] => .ok p.value
    | rest => .error ((Fault.onNext .trailingCharacters rest).refusal text)

/-- The value that a text holds. -/
def parse (text : String) : Except Refusal Json :=
  complete text.toList (value maxDepth text.toList)

end FlowDecl.Json

namespace FlowDecl.Json.Skip

/-! ## Skipping JSON values

A typed reader passes over the values of keys that it does not know.  Such a
value is checked for its form only.  Numbers are not evaluated, pairs of escapes
are not formed and lists and objects nest to any depth, so the open brackets are
kept in a list and no step calls itself.

`Skip.step` takes at least one character.  It awaits either an item or, inside a
bracket, a comma or the closing bracket.
-/

/-- An open bracket. -/
inductive Bracket where
  | list
  | object
deriving DecidableEq, Repr

/-- The character that closes a bracket. -/
def Bracket.close : Bracket → Char
  | .list => ']'
  | .object => '\x7d'

/-- The cause where the text ends inside a bracket. -/
def Bracket.atEnd : Bracket → Cause
  | .list => .endInList
  | .object => .endInObject

/-- The cause where neither a comma nor the closing bracket follows an item. -/
def Bracket.noSeparator : Bracket → Cause
  | .list => .expectedListSeparator
  | .object => .expectedObjectSeparator

/-- What a step awaits. -/
inductive Awaited where
  | item
  | separator
deriving DecidableEq, Repr

/-- An escape after its backslash. -/
def escape (s : List Char) : Read s.length Unit :=
  match s with
  | [] => .error (.before .endInString [])
  | c :: rest =>
    if c = 'u' then (hexUnit rest).map fun p => (p.map fun _ => ()).widen (length_le_succ rest)
    else if (shortEscape? c).isSome then .ok ⟨(), rest, length_lt_cons c rest⟩
    else .error (.onNext .invalidEscape (c :: rest))

/-- A string up to its closing quote.  A control character is not taken. -/
def stringFrom (bound : Nat) (s : List Char) (le : s.length ≤ bound) : Read bound Unit :=
  match s with
  | [] => .error (.before .endInString [])
  | c :: rest =>
    have fits : rest.length < bound := le
    if c = '"' then .ok ⟨(), rest, fits⟩
    else if c = '\\' then
      match escape rest with
      | .error e => .error e
      | .ok p => stringFrom bound p.rest (Nat.le_of_lt (Nat.lt_trans p.shorter fits))
    else if isControl c then .error (.before .controlCharacter (c :: rest))
    else stringFrom bound rest (Nat.le_of_lt fits)
termination_by s.length
decreasing_by
  · have := p.shorter
    simp only [List.length_cons]
    omega
  · simp

/-- A string whose opening quote is taken. -/
def string (s : List Char) : Read (s.length + 1) Unit :=
  stringFrom (s.length + 1) s (length_le_succ s)

/-- A key whose opening quote is taken, and the colon after it. -/
def key (s : List Char) : Read s.length Unit :=
  match string s with
  | .error e => .error e
  | .ok k => (colon k.rest).map (Piece.widen (Nat.le_of_lt_succ k.shorter))

/-- A numeral of any size. -/
def numeral (s : List Char) : Read s.length Unit :=
  match h : Json.numeral .invalidNumber s with
  | .error e => .error e
  | .ok (_, rest) => .ok ⟨(), rest, length_numeral h⟩

/-- What is awaited after a step, and the brackets that are then open. -/
abbrev State : Type := Awaited × List Bracket

/-- The first step into an item. -/
def item (opened : List Bracket) (s : List Char) : Read s.length State :=
  match h : skipBlanks s with
  | [] => .error (.onNext .endInValue [])
  | c :: rest =>
    have lt : rest.length < s.length := length_of_skipBlanks h
    let done : State := (.separator, opened)
    if c = 'n' then (wordValue ['u', 'l', 'l'] done rest).map (Piece.widen lt)
    else if c = 't' then (wordValue ['r', 'u', 'e'] done rest).map (Piece.widen lt)
    else if c = 'f' then (wordValue ['a', 'l', 's', 'e'] done rest).map (Piece.widen lt)
    else if c = '"' then (string rest).map fun p => (p.map fun _ => done).widen lt
    else if c = '-' ∨ c.isDigit then
      (numeral (c :: rest)).map fun p => (p.map fun _ => done).widen lt
    else if c = '[' then
      match h' : skipBlanks rest with
      | [] => .error (.onNext .endInList [])
      | d :: more =>
        have lt' : more.length < rest.length := length_of_skipBlanks h'
        if d = ']' then .ok ⟨done, more, shorter_trans lt' lt⟩
        else .ok ⟨(.item, .list :: opened), d :: more, cons_shorter d lt' lt⟩
    else if c = '\x7b' then
      match h' : skipBlanks rest with
      | [] => .error (.onNext .endInObject [])
      | d :: more =>
        have lt' : more.length < rest.length := length_of_skipBlanks h'
        if d = '\x7d' then .ok ⟨done, more, shorter_trans lt' lt⟩
        else if d = '"' then
          (key more).map fun p =>
            (p.map fun _ => (.item, .object :: opened)).widen (no_longer_trans lt' lt)
        else .error (.onNext .keyNotString (d :: more))
    else .error (.onNext .expectedValue (c :: rest))

/-- The step from one item to the next, or out of the innermost bracket. -/
def separator (bracket : Bracket) (outer : List Bracket) (s : List Char) :
    Read s.length State :=
  match h : skipBlanks s with
  | [] => .error (.onNext bracket.atEnd [])
  | c :: rest =>
    have lt : rest.length < s.length := length_of_skipBlanks h
    if c = bracket.close then .ok ⟨(.separator, outer), rest, lt⟩
    else if c = ',' then
      match bracket with
      | .list => .ok ⟨(.item, .list :: outer), rest, lt⟩
      | .object =>
        match h' : skipBlanks rest with
        | [] => .error (.onNext .endInObject [])
        | d :: more =>
          have lt' : more.length < rest.length := length_of_skipBlanks h'
          if d = '"' then
            (key more).map fun p =>
              (p.map fun _ => (.item, .object :: outer)).widen (no_longer_trans lt' lt)
          else .error (.onNext .keyNotString (d :: more))
    else .error (.onNext bracket.noSeparator (c :: rest))

/-- The steps from a state on, up to the end of the outermost item. -/
def steps (bound : Nat) (state : State) (s : List Char) (lt : s.length < bound) :
    Read bound Unit :=
  match state with
  | (.separator, []) => .ok ⟨(), s, lt⟩
  | (.separator, bracket :: outer) =>
    match separator bracket outer s with
    | .error e => .error e
    | .ok p => steps bound p.value p.rest (Nat.lt_trans p.shorter lt)
  | (.item, opened) =>
    match item opened s with
    | .error e => .error e
    | .ok p => steps bound p.value p.rest (Nat.lt_trans p.shorter lt)
termination_by s.length
decreasing_by
  · exact p.shorter
  · exact p.shorter

/-- A value of any kind after blanks. -/
def value (s : List Char) : Read s.length Unit :=
  match item [] s with
  | .error e => .error e
  | .ok p => steps s.length p.value p.rest p.shorter

end FlowDecl.Json.Skip
