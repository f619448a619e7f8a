import FlowDecl.Json.Reader

/-!
# Reading records

A record has a fixed list of fields, each with a key and a type.  Its text is an
object or a list.  An object may give the fields in any order and leave some out.
Each is given at most once, and keys that are not of the record are passed over.
A list gives the values of the fields in their order.

Reading fills the record from left to right.  A value of the wrong type is
refused where it ends, a list or an object where it begins.
-/

namespace FlowDecl.Record

open FlowDecl.Json

/-! ## Values of a type -/

/-- What a number is called where it is not wanted. -/
def numberFound : Number → String
  | .int value => "integer `" ++ toString value ++ "`"
  | .float value => "floating point `" ++ value.text ++ "`"

/-- The fault that a scalar is of the wrong type, once it is read. -/
def scalarFault {bound : Nat} {α : Type} (expected : String) (found : α → String) :
    Read bound α → Fault
  | .error fault => fault
  | .ok p => .before (.wrongType (found p.value) expected) p.rest

/-- The fault that the value at the front of a text is of the wrong type. -/
def wrongType (expected : String) : List Char → Fault
  | [] => .onNext .expectedValue []
  | c :: rest =>
    if c = 'n' then scalarFault expected (fun _ => "null") (wordValue ['u', 'l', 'l'] () rest)
    else if c = 't' then
      scalarFault expected (fun _ => "boolean `true`") (wordValue ['r', 'u', 'e'] () rest)
    else if c = 'f' then
      scalarFault expected (fun _ => "boolean `false`") (wordValue ['a', 'l', 's', 'e'] () rest)
    else if c = '-' ∨ c.isDigit then scalarFault expected numberFound (number (c :: rest))
    else if c = '"' then
      scalarFault expected (fun s => "string " ++ Text.quoted s) (string rest)
    else if c = '[' then .before (.wrongType "sequence" expected) (c :: rest)
    else if c = '\x7b' then .before (.wrongType "map" expected) (c :: rest)
    else .onNext .expectedValue (c :: rest)

/-- A truth value. -/
def boolean (s : List Char) : Read s.length Bool :=
  match h : skipBlanks s with
  | [] => .error (.onNext .endInValue [])
  | c :: rest =>
    if c = 't' then
      (wordValue ['r', 'u', 'e'] true rest).map (Piece.widen (length_of_skipBlanks h))
    else if c = 'f' then
      (wordValue ['a', 'l', 's', 'e'] false rest).map (Piece.widen (length_of_skipBlanks h))
    else .error (wrongType "a boolean" (c :: rest))

/-- A string. -/
def text (s : List Char) : Read s.length String :=
  match h : skipBlanks s with
  | [] => .error (.onNext .endInValue [])
  | c :: rest =>
    if c = '"' then (string rest).map (Piece.widen (length_of_skipBlanks h))
    else .error (wrongType "a string" (c :: rest))

/-- A value that may be null. -/
def nullable {α : Type} (read : (s : List Char) → Read s.length α) (s : List Char) :
    Read s.length (Option α) :=
  match h : skipBlanks s with
  | c :: rest =>
    if c = 'n' then
      (wordValue ['u', 'l', 'l'] none rest).map (Piece.widen (length_of_skipBlanks h))
    else (read s).map (Piece.map some)
  | [] => (read s).map (Piece.map some)

/-! ## Shapes of records -/

/-- A field of a record of type `σ`: its key, and how its value is read into the
record. -/
structure Field (σ : Type) where
  /-- The key. -/
  key : String
  /-- Reads a value and puts it into the record. -/
  read : σ → (s : List Char) → Read s.length σ

/-- The shape of a record of type `σ`. -/
structure Shape (σ : Type) where
  /-- The name of the record in messages. -/
  name : String
  /-- The record before anything is read. -/
  initial : σ
  /-- The fields in order. -/
  fields : List (Field σ)
  /-- Whether a list may leave out fields at its end. -/
  mayBeShort : Bool

namespace Shape

variable {σ : Type}

/-- The field of a key. -/
def field? (shape : Shape σ) (key : String) : Option (Field σ) :=
  shape.fields.find? fun f => f.key == key

/-- What a list of the wrong length should have been. -/
def expectedLength (shape : Shape σ) : String :=
  shape.name ++ " with " ++ toString shape.fields.length ++ " elements"

/-- The fault that a key is given twice.  It is found after the blanks that follow
the key, and after a closing brace if one stands there. -/
def duplicate (key : String) (rest : List Char) : Fault :=
  match skipBlanks rest with
  | '\x7d' :: more => .before (.duplicateField key) more
  | rest => .before (.duplicateField key) rest

/-- The value of a key, put into the record, and the keys given so far. -/
def readEntry (shape : Shape σ) (given : List String) (record : σ) (s : List Char) :
    Read s.length (List String × σ) :=
  match string s with
  | .error e => .error e
  | .ok k =>
    have le := k.length_rest_le
    match shape.field? k.value with
    | none =>
      match colon k.rest with
      | .error e => .error e
      | .ok p =>
        (Skip.value p.rest).map fun q =>
          (q.map fun _ => (given, record)).widen (Nat.le_trans (Nat.le_of_lt p.shorter) le)
    | some field =>
      if k.value ∈ given then .error (duplicate k.value k.rest)
      else
        match colon k.rest with
        | .error e => .error e
        | .ok p =>
          (field.read record p.rest).map fun q =>
            (q.map fun record => (k.value :: given, record)).widen
              (Nat.le_trans (Nat.le_of_lt p.shorter) le)

/-- The entries of an object from its first one on, whose opening quote is taken. -/
def readEntries (shape : Shape σ) (bound : Nat) (given : List String) (record : σ)
    (s : List Char) (lt : s.length < bound) : Read bound σ :=
  match shape.readEntry given record s with
  | .error e => .error e
  | .ok p =>
    match h : skipBlanks p.rest with
    | [] => .error (.onNext .endInObject [])
    | c :: rest =>
      have lt' : rest.length < s.length := Nat.lt_trans (length_of_skipBlanks h) p.shorter
      if c = '\x7d' then .ok ⟨p.value.2, rest, Nat.lt_trans lt' lt⟩
      else if c = ',' then
        match h' : skipBlanks rest with
        | [] => .error (.onNext .endInValue [])
        | d :: more =>
          have lt'' : more.length < s.length := Nat.lt_trans (length_of_skipBlanks h') lt'
          if d = '"' then
            shape.readEntries bound p.value.1 p.value.2 more (Nat.lt_trans lt'' lt)
          else if d = '\x7d' then .error (.onNext .trailingComma (d :: more))
          else .error (.onNext .keyNotString (d :: more))
      else .error (.onNext .expectedObjectSeparator (c :: rest))
termination_by s.length
decreasing_by exact lt''

/-- The end of a list all of whose values are read. -/
def readListEnd (s : List Char) : Read s.length Unit :=
  match h : skipBlanks s with
  | [] => .error (.onNext .endInList [])
  | c :: rest =>
    if c = ']' then .ok ⟨(), rest, length_of_skipBlanks h⟩
    else if c = ',' then
      match skipBlanks rest with
      | ']' :: more => .error (.onNext .trailingComma (']' :: more))
      | rest => .error (.onNext .trailingCharacters rest)
    else .error (.onNext .trailingCharacters (c :: rest))

/-- The list ends before some fields. -/
def readShort (shape : Shape σ) {bound : Nat} (count : Nat) (record : σ) (rest : List Char)
    (lt : rest.length < bound) : Read bound σ :=
  if shape.mayBeShort then .ok ⟨record, rest, lt⟩
  else .error (.before (.wrongLength count shape.expectedLength) rest)

/-- The values of the remaining fields of a list, `count` of which are read. -/
def readValues (shape : Shape σ) (bound count : Nat) (record : σ) :
    List (Field σ) → (s : List Char) → s.length < bound → Read bound σ
  | [], s, lt => (readListEnd s).map fun p => (p.map fun _ => record).widen (Nat.le_of_lt lt)
  | field :: fields, s, lt =>
    match h : skipBlanks s with
    | [] => .error (.onNext .endInList [])
    | c :: rest =>
      have fits : rest.length < bound := Nat.lt_trans (length_of_skipBlanks h) lt
      if c = ']' then shape.readShort count record rest fits
      else if count = 0 then
        match field.read record (c :: rest) with
        | .error e => .error e
        | .ok p =>
          shape.readValues bound 1 p.value fields p.rest
            (Nat.lt_of_lt_of_le p.shorter fits)
      else if c = ',' then
        match h' : skipBlanks rest with
        | [] => .error (.onNext .endInValue [])
        | d :: more =>
          if d = ']' then .error (.onNext .trailingComma (d :: more))
          else
            match field.read record (d :: more) with
            | .error e => .error e
            | .ok p =>
              shape.readValues bound (count + 1) p.value fields p.rest
                (Nat.lt_trans (Nat.lt_of_lt_of_le p.shorter (length_of_skipBlanks h')) fits)
      else .error (.onNext .expectedListSeparator (c :: rest))

/-- A record. -/
def readRecord (shape : Shape σ) (s : List Char) : Read s.length σ :=
  match h : skipBlanks s with
  | [] => .error (.onNext .endInValue [])
  | c :: rest =>
    have lt : rest.length < s.length := length_of_skipBlanks h
    if c = '[' then shape.readValues s.length 0 shape.initial shape.fields rest lt
    else if c = '\x7b' then
      match h' : skipBlanks rest with
      | [] => .error (.onNext .endInObject [])
      | d :: more =>
        have lt' : more.length < s.length := Nat.lt_trans (length_of_skipBlanks h') lt
        if d = '\x7d' then .ok ⟨shape.initial, more, lt'⟩
        else if d = '"' then shape.readEntries s.length [] shape.initial more lt'
        else .error (.onNext .keyNotString (d :: more))
    else .error (wrongType shape.name (c :: rest))

/-- The record that a text holds. -/
def parse (shape : Shape σ) (text : String) : Except Refusal σ :=
  complete text.toList (shape.readRecord text.toList)

end Shape

end FlowDecl.Record
