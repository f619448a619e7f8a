/-!
# Decimals

Numbers of the 64-bit binary format, read from decimals and written as decimals.
-/

namespace FlowDecl

/-! ## Binary floating-point numbers

A finite number of the 64-bit binary format is a sign, a significand below
`2 ^ 53` and a power of two.  Everything here is exact arithmetic on natural
numbers, so a rounded value can be reasoned about and not only run.

`Binary64.ofDecimal?` reads a decimal `digits * 10 ^ scale`.  It scales the
decimal so that its integer part has 53 bits, or fewer where the exponent has
reached its least value, and rounds the quotient to the nearest integer, a half
to the even one.  A decimal that rounds beyond the largest finite number has no
value.  The two ends are decided before any power of ten is formed, so a scale
of any size is read in little time.
-/

/-- A finite number of the 64-bit binary format, `± significand * 2 ^ exponent`. -/
structure Binary64 where
  /-- The sign.  A zero has one too. -/
  negative : Bool
  /-- The significand, below `2 ^ 53`. -/
  significand : Nat
  /-- The exponent of two, from `-1074` to `971`. -/
  exponent : Int
deriving DecidableEq, Repr, Inhabited

namespace Binary64

/-- The least exponent of two. -/
def minExponent : Int := -1074

/-- The greatest exponent of two. -/
def maxExponent : Int := 971

/-- The zero of a sign. -/
def zero (negative : Bool) : Binary64 := ⟨negative, 0, minExponent⟩

/-! ### Rounding -/

/-- The quotient of two numbers rounded to the nearest integer, a half to the
even one. -/
def roundQuotient (num den : Nat) : Nat :=
  let quotient := num / den
  let twice := 2 * (num % den)
  if den < twice ∨ (twice = den ∧ quotient % 2 = 1) then quotient + 1 else quotient

/-- The exponent of two at which `num / den` has an integer part of 53 bits, and
never less than the least exponent. -/
def scaleOf (num den : Nat) : Int :=
  let high : Int := (Nat.log2 num : Int) - Nat.log2 den
  let reached : Bool :=
    if 0 ≤ high then decide (den * Nat.pow 2 high.toNat ≤ num)
    else decide (den ≤ num * Nat.pow 2 (-high).toNat)
  let top := if reached then high else high - 1
  max (top - 52) minExponent

/-- The number nearest to the positive quotient `num / den`, if one is finite. -/
def ofQuotient? (negative : Bool) (num den : Nat) : Option Binary64 :=
  let scale := scaleOf num den
  let rounded :=
    if 0 ≤ scale then roundQuotient num (den * Nat.pow 2 scale.toNat)
    else roundQuotient (num * Nat.pow 2 (-scale).toNat) den
  let (significand, exponent) :=
    if rounded = Nat.pow 2 53 then (Nat.pow 2 52, scale + 1) else (rounded, scale)
  if maxExponent < exponent then none else some ⟨negative, significand, exponent⟩

/-- The number nearest to `± digits * 10 ^ scale`, if one is finite.  A scale of
400 is beyond every number, and a scale so low that the digits cannot make up
for it leaves a zero. -/
def ofDecimal? (negative : Bool) (digits : Nat) (scale : Int) : Option Binary64 :=
  if digits = 0 then some (zero negative)
  else if 400 ≤ scale then none
  else if scale < -(400 + (Nat.log2 digits : Int)) then some (zero negative)
  else if 0 ≤ scale then ofQuotient? negative (digits * Nat.pow 10 scale.toNat) 1
  else ofQuotient? negative digits (Nat.pow 10 (-scale).toNat)

end Binary64

/-! ### Tests -/

example : Binary64.ofDecimal? false 1 0 = some ⟨false, 2 ^ 52, -52⟩ := by decide
example : Binary64.ofDecimal? true 0 7 = some (Binary64.zero true) := by decide
example : Binary64.ofDecimal? false 1 400 = none := by decide

/-! ## The shortest decimal of a number

Of the decimals that read back as a given number, the text of the number uses
one with the fewest digits, and of those the nearest.

The reals that round to `significand * 2 ^ exponent` form an interval around it,
which reaches half way to each neighbour and contains its ends when the
significand is even.  In quarters of the last binary place the ends lie at
`4 * significand + 2` and `4 * significand - 2`.  The lower one is at
`4 * significand - 1` where the number is a power of two, since the numbers
below it are twice as dense.  For one, two, up to seventeen digits
`Binary64.shortest` tests the two decimals of that length next to the number.
If any decimal of a length lies in the interval, one of these two does.

`Decimal.text` lays the digits out: positional notation for magnitudes from
`1e-5` to below `1e16`, always with a fraction, and otherwise one digit before
the point and a signed exponent.
-/

/-- A positive decimal `digits * 10 ^ scale`. -/
structure Decimal where
  /-- The digits as one number. -/
  digits : Nat
  /-- The power of ten. -/
  scale : Int
deriving DecidableEq, Repr, Inhabited

namespace Binary64

/-- Whether `a * 10 ^ p * 2 ^ q` is at most `b`, or below it where `strict`. -/
def scaledBelow (strict : Bool) (a : Nat) (p q : Int) (b : Nat) : Bool :=
  let left := a * Nat.pow 10 p.toNat * Nat.pow 2 q.toNat
  let right := b * Nat.pow 10 (-p).toNat * Nat.pow 2 (-q).toNat
  if strict then decide (left < right) else decide (left ≤ right)

/-- Whether `a * 10 ^ p * 2 ^ q` is at least `b`, or above it where `strict`. -/
def scaledAbove (strict : Bool) (a : Nat) (p q : Int) (b : Nat) : Bool :=
  !scaledBelow (!strict) a p q b

/-- The lower end of the interval that rounds to `x`, in quarters of its last
place. -/
def lowerQuarters (x : Binary64) : Nat :=
  if x.significand = Nat.pow 2 52 ∧ minExponent < x.exponent then 4 * x.significand - 1
  else 4 * x.significand - 2

/-- The upper end of that interval. -/
def upperQuarters (x : Binary64) : Nat := 4 * x.significand + 2

/-- Whether the decimal `digits * 10 ^ scale` rounds to the magnitude of `x`. -/
def readsBack (x : Binary64) (d : Decimal) : Bool :=
  let strict := x.significand % 2 = 1
  let quarter := x.exponent - 2
  scaledAbove strict d.digits d.scale (-quarter) x.lowerQuarters &&
    scaledBelow strict d.digits d.scale (-quarter) x.upperQuarters

/-- The integer part of `significand * 2 ^ exponent / 10 ^ scale`. -/
def quotientByTen (x : Binary64) (scale : Int) : Nat :=
  x.significand * Nat.pow 2 x.exponent.toNat * Nat.pow 10 (-scale).toNat /
    (Nat.pow 2 (-x.exponent).toNat * Nat.pow 10 scale.toNat)

/-- The power of ten of the leading digit of a number that is not zero. -/
def leadingScale (x : Binary64) : Int :=
  ((Nat.toDigits 10 (x.quotientByTen (-400))).length : Int) - 401

/-- Whether the lower of two neighbours on a grid is the nearer to `x`, an even
one where they are equally near. -/
def lowerIsNearer (x : Binary64) (lower : Decimal) : Bool :=
  let quarter := x.exponent - 2
  let middle := 2 * lower.digits + 1
  let value := 8 * x.significand
  scaledAbove true middle lower.scale (-quarter) value ||
    (scaledAbove false middle lower.scale (-quarter) value && lower.digits % 2 = 0)

/-- The decimal of at most `count` digits that reads back as `x`, the nearer of
two. -/
def decimalOfLength? (x : Binary64) (count : Nat) : Option Decimal :=
  let scale := x.leadingScale - count + 1
  let lower : Decimal := ⟨x.quotientByTen scale, scale⟩
  let upper : Decimal := ⟨lower.digits + 1, scale⟩
  match x.readsBack lower, x.readsBack upper with
  | true, true => some (if x.lowerIsNearer lower then lower else upper)
  | true, false => some lower
  | false, true => some upper
  | false, false => none

/-- The shortest decimal that reads back as a number that is not zero.  Seventeen
digits always suffice. -/
def shortest (x : Binary64) : Decimal :=
  ((List.range 17).findSome? fun i => x.decimalOfLength? (i + 1)).getD ⟨0, 0⟩

end Binary64

/-! ### Layout -/

namespace Decimal

/-- The least place of the point, counted from the front of the digits, at which
a number is written without an exponent. -/
def firstPositional : Int := -4

/-- The greatest such place. -/
def lastPositional : Int := 16

/-- The digits without the zeros at their end, which move into the scale. -/
def significantDigits (d : Decimal) : List Char :=
  ((Nat.toDigits 10 d.digits).reverse.dropWhile (· == '0')).reverse

/-- The place of the point, counted from the front of the digits. -/
def pointPlace (d : Decimal) : Int := (Nat.toDigits 10 d.digits).length + d.scale

/-- A number of zeros. -/
def zeros (n : Nat) : List Char := List.replicate n '0'

/-- The text of a signed exponent. -/
def exponentText (e : Int) : List Char :=
  (if e < 0 then '-' else '+') :: Nat.toDigits 10 e.natAbs

/-- The text of a positive decimal. -/
def text (d : Decimal) : List Char :=
  let digits := d.significantDigits
  let place := d.pointPlace
  if firstPositional ≤ place ∧ place ≤ lastPositional then
    if place ≤ 0 then '0' :: '.' :: zeros (-place).toNat ++ digits
    else if digits.length ≤ place.toNat then
      digits ++ zeros (place.toNat - digits.length) ++ ['.', '0']
    else digits.take place.toNat ++ '.' :: digits.drop place.toNat
  else
    match digits with
    | [] => []
    | [first] => first :: 'e' :: exponentText (place - 1)
    | first :: more => first :: '.' :: more ++ 'e' :: exponentText (place - 1)

end Decimal

/-- The text of a number: its shortest decimal after its sign. -/
def Binary64.text (x : Binary64) : String :=
  let magnitude := if x.significand = 0 then ['0', '.', '0'] else x.shortest.text
  String.ofList (if x.negative then '-' :: magnitude else magnitude)

end FlowDecl
