import SmallLisp.Number.Basic
/-!
# Decimal text of numbers

Reading and writing finite numbers in decimal.

A decimal is `digits * 10 ^ scale`. Reading takes the closest double (`Number.nearestMagnitude`).
Writing looks for **the fewest digits that read back**: for one digit, two digits and so on it tries
the two neighbours of the number on that decimal grid, and the first grid with a neighbour that
reads back wins. If both do, the closer one is taken, and of two equally close ones the larger.
Should no grid of up to seventeen digits have one, the exact decimal expansion of the double is
used, so what is written always reads back.

How the digits are laid out is a `NumberFormat`: `surface` is the text of the language itself,
`inspection` the one used by inspected tokens and values.
-/

namespace SmallLisp

/-- The number `digits * 10 ^ scale`. -/
structure Decimal where
  digits : Nat
  scale : Int

namespace Decimal

def ratio (d : Decimal) : Nat × Nat :=
  if 0 ≤ d.scale then (d.digits * pow10 d.scale.toNat, 1) else (d.digits, pow10 (-d.scale).toNat)

def magnitude (d : Decimal) : Nat :=
  Number.nearestMagnitude d.ratio.1 d.ratio.2

/-! ### Reading -/

def ofDigits (cs : List Char) : Nat :=
  cs.foldl (fun value c => 10 * value + (c.toNat - '0'.toNat)) 0

/-- Reads digits with at most one point among or after them. -/
def read? (cs : List Char) : Option Decimal :=
  let whole := cs.takeWhile Char.isDigit
  match cs.dropWhile Char.isDigit with
  | [] => some ⟨ofDigits whole, 0⟩
  | '.' :: places =>
    if places.all Char.isDigit then some ⟨ofDigits (whole ++ places), -places.length⟩ else none
  | _ => none

/-! ### The fewest digits that read back -/

def digitCount (n : Nat) : Nat :=
  (Nat.toDigits 10 n).length

/-- The `p` with `10 ^ (p - 1) ≤ x < 10 ^ p`, for the number `x` of that many units. -/
def pointPlace (units : Nat) : Int :=
  if pow2 1074 ≤ units then digitCount (units / pow2 1074)
  else 1 - (digitCount (pow2 1074 / units) : Int)

/-- The number of that many units as a quotient, counted in steps of `10 ^ scale`. -/
def onGrid (units : Nat) (scale : Int) : Nat × Nat :=
  if 0 ≤ scale then (units, pow2 1074 * pow10 scale.toNat)
  else (units * pow10 (-scale).toNat, pow2 1074)

/-- The two neighbours of a quotient on the grid of a scale, the closer one first. -/
def neighbours (quotient : Nat × Nat) (scale : Int) : List Decimal :=
  let (a, b) := quotient
  let below : Decimal := ⟨a / b, scale⟩
  let above : Decimal := ⟨a / b + 1, scale⟩
  if 2 * (a % b) < b then [below, above] else [above, below]

/-- The neighbour of a double that is written with `count` digits, if one reads back. -/
def neighbour? (magnitude count : Nat) : Option Decimal :=
  let units := Number.units magnitude
  let scale := pointPlace units - count
  (neighbours (onGrid units scale) scale).find? (·.magnitude == magnitude)

/-- The exact value of a double: halving a decimal takes one more digit, a five. -/
def exact (magnitude : Nat) : Decimal :=
  ⟨Number.units magnitude * Nat.pow 5 1074, -1074⟩

def shortest (magnitude : Nat) : Decimal :=
  if magnitude = 0 then ⟨0, 0⟩
  else ((List.range 17).findSome? fun i => neighbour? magnitude (i + 1)).getD (exact magnitude)

/-! ### Laying out digits -/

def dropZeros (cs : List Char) : List Char :=
  (cs.reverse.dropWhile (· == '0')).reverse

/-- The digits of a natural number, filled up with zeros in front to at least `width`. -/
def padded (width n : Nat) : List Char :=
  let cs := Nat.toDigits 10 n
  List.replicate (width - cs.length) '0' ++ cs

def positional (d : Decimal) : List Char × List Char :=
  let (a, b) := d.ratio
  (Nat.toDigits 10 (a / b), dropZeros ((padded (-d.scale).toNat (a % b)).take (-d.scale).toNat))

/-- The place of the leading digit: `0` for units, `-1` for tenths. -/
def leadingPlace (d : Decimal) : Int :=
  d.scale + digitCount d.digits - 1

end Decimal

structure NumberFormat where
  /-- From which place of the leading digit on a number is written with an exponent. -/
  large : Option Int
  /-- Below which place of the leading digit a number is written with an exponent. -/
  small : Option Int
  /-- Whether a whole number written without an exponent ends in `.0`. -/
  keepPoint : Bool

namespace NumberFormat

/-- Whether a number whose leading digit has this place is written without an exponent. -/
def isPositional (format : NumberFormat) (place : Int) : Bool :=
  format.large.all (place < ·) && format.small.all (· ≤ place)

def layOut (format : NumberFormat) (d : Decimal) : List Char :=
  if format.isPositional d.leadingPlace then
    match d.positional with
    | (whole, []) => if format.keepPoint then whole ++ ['.', '0'] else whole
    | (whole, places) => whole ++ '.' :: places
  else
    let ending := 'e' :: (toString d.leadingPlace).toList
    match Decimal.dropZeros (Nat.toDigits 10 d.digits) with
    | lead :: [] => lead :: ending
    | lead :: places => lead :: '.' :: places ++ ending
    | [] => ending

def write (format : NumberFormat) (n : Number) : String :=
  if n.isNaN then "NaN"
  else
    let sign := if n.isNegative then ['-'] else []
    if n.isInfinite then String.ofList (sign ++ ['i', 'n', 'f'])
    else String.ofList (sign ++ format.layOut (Decimal.shortest n.magnitude))

/-- Numbers in the language's own text never have an exponent. -/
def surface : NumberFormat := ⟨none, none, false⟩

/-- Inspected numbers show a point, and an exponent from `1e16` on and below `1e-4`. -/
def inspection : NumberFormat := ⟨some 16, some (-4), true⟩

end NumberFormat

namespace Number

/-- The closest double to `digits`, of the given sign, if it is finite. -/
def ofDecimal? (negative : Bool) (d : Decimal) : Option Number :=
  let n := ofMagnitude negative d.magnitude
  if n.isFinite then some n else none

/-- The text of a number in the language: whole numbers below `10 ^ 15` are written as integers, so
minus zero shows as `0`; all others by the fewest digits that read back. -/
def display (n : Number) : String :=
  if n.isIntegral && n.wholePart < pow10 15 then
    let whole := Nat.toDigits 10 n.wholePart
    String.ofList (if n.isNegative && !n.isZero then '-' :: whole else whole)
  else NumberFormat.surface.write n

def inspect (n : Number) : String :=
  NumberFormat.inspection.write n

end Number

end SmallLisp
