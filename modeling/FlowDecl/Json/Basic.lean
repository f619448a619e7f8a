import FlowDecl.Decimal

/-!
# JSON values and their texts

The values that documents are made of, and the compact text of a value.
-/

namespace FlowDecl

/-! ## JSON values

A value is null, a truth value, a number, a string, a list or an object.  A
number that is written as an integer and fits a 64-bit word stays an integer,
and every other number is a binary floating-point number.

An object is a list of keyed values.  `Json.insertField` keeps such a list
sorted by key and free of repetitions, the value set last staying, and the
reader builds its objects that way.  Keys are ordered by their characters, which
is also the order of their UTF-8 bytes.

Looking a key up gives a part of the object.  `Json.child?` and `Part.items?`
return that fact with the part, so a function that walks a document downwards
ends.
-/

/-- A number of a JSON text. -/
inductive Number where
  /-- An integer that fits a 64-bit word, signed or not. -/
  | int (value : Int)
  /-- Any other number. -/
  | float (value : Binary64)
deriving DecidableEq, Repr, Inhabited

/-- A JSON value. -/
inductive Json where
  | null
  | bool (value : Bool)
  | num (value : Number)
  | str (value : String)
  | arr (items : List Json)
  | obj (fields : List (String × Json))
deriving Repr, Inhabited

namespace Json

/-! ### Objects -/

/-- The fields with a key set to a value.  Sorted fields stay sorted. -/
def insertField (key : String) (value : Json) : List (String × Json) → List (String × Json)
  | [] => [(key, value)]
  | (k, v) :: rest =>
    if key < k then (key, value) :: (k, v) :: rest
    else if key = k then (key, value) :: rest
    else (k, v) :: insertField key value rest

/-- The value of a key in a list of fields. -/
def lookup (key : String) : List (String × Json) → Option Json
  | [] => none
  | (k, v) :: rest => if k = key then some v else lookup key rest

/-- The value of a key, if the value is an object that has it. -/
def field? (key : String) : Json → Option Json
  | .obj fields => lookup key fields
  | _ => none

/-- The string a value is, if it is one. -/
def string? : Json → Option String
  | .str s => some s
  | _ => none

/-! ### Parts of a value -/

/-- A value is smaller than the object that holds it. -/
theorem sizeOf_lookup {key : String} {fields : List (String × Json)} {v : Json}
    (found : lookup key fields = some v) : sizeOf v < sizeOf fields := by
  induction fields with
  | nil => simp [lookup] at found
  | cons pair rest ih =>
    obtain ⟨k, w⟩ := pair
    simp only [lookup] at found
    split at found
    · simp only [Option.some.injEq] at found
      subst found
      simp only [List.cons.sizeOf_spec, Prod.mk.sizeOf_spec]
      omega
    · have := ih found
      simp only [List.cons.sizeOf_spec]
      omega

/-- A field is smaller than the value that it is a field of. -/
theorem sizeOf_field? {key : String} {v w : Json} (found : v.field? key = some w) :
    sizeOf w < sizeOf v := by
  cases v with
  | obj fields =>
    have := sizeOf_lookup found
    simp only [obj.sizeOf_spec]
    omega
  | _ => simp [field?] at found

/-- A part of a value, which is smaller than the value. -/
abbrev Part (whole : Json) : Type := { v : Json // sizeOf v < sizeOf whole }

/-- A part is smaller than the whole, so a walk from parts to parts ends. -/
theorem Part.sizeOf_val {whole : Json} (p : Part whole) : sizeOf p.val < sizeOf whole :=
  p.property

/-- The value of a key, as a part of the object. -/
def child? (v : Json) (key : String) : Option (Part v) :=
  match found : v.field? key with
  | some w => some ⟨w, sizeOf_field? found⟩
  | none => none

/-- The items of a part that is a list, as parts of the whole. -/
def Part.items? {whole : Json} : Part whole → Option (List (Part whole))
  | ⟨.arr vs, smaller⟩ =>
    some (vs.attach.map fun v => ⟨v.1, by
      have := List.sizeOf_lt_of_mem v.2
      simp only [arr.sizeOf_spec] at smaller
      omega⟩)
  | _ => none

theorem map_child? (v : Json) (key : String) :
    (v.child? key).map Subtype.val = v.field? key := by
  unfold child?
  split <;> simp_all

theorem map_items? {whole : Json} (p : Part whole) :
    p.items?.map (List.map Subtype.val) =
      match p.val with
      | .arr vs => some vs
      | _ => none := by
  obtain ⟨v, smaller⟩ := p
  cases v <;> simp [Part.items?]

end Json

/-! ### Tests -/

example : Json.lookup "b" (Json.insertField "b" .null (Json.insertField "a" (.bool true) [])) =
    some .null := by rfl

/-! ## Writing JSON values

The compact text of a value has no blanks.  A string escapes the quote, the
backslash and the control characters, five of these by a letter and the others
by four hexadecimal digits, and every other character stands for itself.
-/

/-- The text of a number. -/
def Number.text : Number → String
  | .int value => toString value
  | .float value => value.text

namespace Json

/-- A hexadecimal digit. -/
def hexDigit (n : Nat) : Char := Nat.digitChar (n % 16)

/-- The characters a string writes for one of its own. -/
def quotedChar (c : Char) : List Char :=
  if c = '"' then ['\\', '"']
  else if c = '\\' then ['\\', '\\']
  else if c = '\x08' then ['\\', 'b']
  else if c = '\x0c' then ['\\', 'f']
  else if c = '\n' then ['\\', 'n']
  else if c = '\r' then ['\\', 'r']
  else if c = '\t' then ['\\', 't']
  else if c < ' ' then ['\\', 'u', '0', '0', hexDigit (c.toNat / 16), hexDigit c.toNat]
  else [c]

/-- The text of a string value. -/
def quoted (s : String) : List Char := '"' :: s.toList.flatMap quotedChar ++ ['"']

mutual

/-- The compact text of a value. -/
def chars : Json → List Char
  | .null => ['n', 'u', 'l', 'l']
  | .bool true => ['t', 'r', 'u', 'e']
  | .bool false => ['f', 'a', 'l', 's', 'e']
  | .num n => n.text.toList
  | .str s => quoted s
  | .arr vs => '[' :: itemChars vs ++ [']']
  | .obj fs => '\x7b' :: fieldChars fs ++ ['\x7d']

/-- The items of a list with commas between them. -/
def itemChars : List Json → List Char
  | [] => []
  | [v] => chars v
  | v :: w :: vs => chars v ++ ',' :: itemChars (w :: vs)

/-- The fields of an object with commas between them. -/
def fieldChars : List (String × Json) → List Char
  | [] => []
  | [(k, v)] => quoted k ++ ':' :: chars v
  | (k, v) :: f :: fs => quoted k ++ ':' :: chars v ++ ',' :: fieldChars (f :: fs)

end

/-- The compact text of a value. -/
def compact (v : Json) : String := String.ofList (chars v)

end Json

/-! ### Tests -/

example : Json.chars (.obj [("a", .arr [.null, .bool true])]) =
    ['\x7b', '"', 'a', '"', ':', '[', 'n', 'u', 'l', 'l', ',', 't', 'r', 'u', 'e', ']',
      '\x7d'] := by
  decide +kernel

end FlowDecl
