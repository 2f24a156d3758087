/-!
# Numbers

A number of the language is an IEEE 754 double, held as its bit pattern. Apart from the sign, the
pattern is a natural number, the *magnitude*, and larger magnitudes are larger numbers: first the
finite ones, then infinity, then the patterns that are not a number at all.

Every finite number is a whole multiple of `2 ^ -1074`. Counting it in that unit (`units`) turns
questions about doubles into questions about `Nat`: a number is integral when `2 ^ 1074` divides its
units, and the remainder of a division is the remainder of the units. The way back is
`nearestMagnitude`, which rounds a quotient of natural numbers to the closest double, a tie going to
the even significand.

The order of the language is the order of the signed magnitudes (`key`), so that its laws are those
of `Int`.
-/

namespace SmallLisp

/-- The scales of binary numbers: `2` to the power of `n`. -/
def pow2 (n : Nat) : Nat := Nat.pow 2 n

/-- The scales of decimal numbers: `10` to the power of `n`. -/
def pow10 (n : Nat) : Nat := Nat.pow 10 n

/-- An IEEE 754 double, by its bit pattern. -/
structure Number where
  bits : UInt64
deriving DecidableEq

namespace Number

/-! ### Taking a bit pattern apart -/

def isNegative (n : Number) : Bool :=
  pow2 63 ≤ n.bits.toNat

/-- The bit pattern without its sign. -/
def magnitude (n : Number) : Nat :=
  n.bits.toNat % pow2 63

def ofMagnitude (negative : Bool) (magnitude : Nat) : Number :=
  ⟨UInt64.ofNat (if negative then pow2 63 + magnitude else magnitude)⟩

/-- The magnitude of infinity: every smaller magnitude is finite. -/
def infinityMagnitude : Nat := 0x7ff0000000000000

def isFinite (n : Number) : Bool :=
  n.magnitude < infinityMagnitude

def isInfinite (n : Number) : Bool :=
  n.magnitude == infinityMagnitude

def isNaN (n : Number) : Bool :=
  infinityMagnitude < n.magnitude

def isZero (n : Number) : Bool :=
  n.magnitude == 0

/-- The NaN that an invalid operation gives. Its sign bit is set, so it sorts before every number. -/
def invalid : Number :=
  ofMagnitude true 0x7ff8000000000000

/-- The exponent of a finite magnitude: how often `2 ^ -1074` is doubled to give its last place. -/
def exponent (magnitude : Nat) : Nat :=
  magnitude / pow2 52 - 1

/-- The significand of a finite magnitude: how many of its last places it is. -/
def significand (magnitude : Nat) : Nat :=
  magnitude - exponent magnitude * pow2 52

/-- A finite magnitude counted in units of `2 ^ -1074`. -/
def units (magnitude : Nat) : Nat :=
  significand magnitude * pow2 (exponent magnitude)

/-! ### Rounding -/

/-- The natural number closest to `a / b`; of two equally close ones the even one. -/
def roundDiv (a b : Nat) : Nat :=
  let quotient := a / b
  let rest := a % b
  if 2 * rest < b ∨ (2 * rest = b ∧ quotient % 2 = 0) then quotient else quotient + 1

/-- The magnitude of the double closest to `a / b` units. Past the largest double it is infinity. -/
def magnitudeOfUnits (a b : Nat) : Nat :=
  let e := (a / b).log2 - 52
  min (e * pow2 52 + roundDiv a (b * pow2 e)) infinityMagnitude

/-- The magnitude of the double closest to `a / b`. -/
def nearestMagnitude (a b : Nat) : Nat :=
  magnitudeOfUnits (a * pow2 1074) b

def ofNat (n : Nat) : Number :=
  ofMagnitude false (nearestMagnitude n 1)

instance (n : Nat) : OfNat Number n := ⟨ofNat n⟩

/-! ### Whole numbers -/

def isIntegral (n : Number) : Bool :=
  n.isFinite && units n.magnitude % pow2 1074 == 0

def wholePart (n : Number) : Nat :=
  units n.magnitude / pow2 1074

/-- The natural number that a number is, if it is one. Minus zero is zero. -/
def toNat? (n : Number) : Option Nat :=
  if n.isIntegral && (!n.isNegative || n.isZero) then some n.wholePart else none

/-! ### Order and equality -/

/-- The signed magnitude: numbers other than NaNs are ordered by it. Both zeros have key `0`. -/
def key (n : Number) : Int :=
  if n.isNegative then -(n.magnitude : Int) else n.magnitude

/-- Place in the total order of all bit patterns, in which `-0` comes before `0`, a NaN with the
sign bit set before everything and any other NaN after everything. -/
def rank (n : Number) : Int :=
  if n.isNegative then -1 - (n.magnitude : Int) else n.magnitude

/-- Equality of the language: all NaNs are equal, and so are both zeros. -/
def equal (a b : Number) : Bool :=
  if a.isNaN || b.isNaN then a.isNaN && b.isNaN else a.key == b.key

/-- `a < b`; never if one of them is a NaN. -/
def lt (a b : Number) : Bool :=
  !a.isNaN && !b.isNaN && a.key < b.key

/-- `a ≤ b`; never if one of them is a NaN. -/
def le (a b : Number) : Bool :=
  !a.isNaN && !b.isNaN && a.key ≤ b.key

/-! ### Arithmetic -/

def toFloat (n : Number) : Float :=
  Float.ofBits n.bits

/-- Carries out an operation on doubles. A NaN operand is handed on, the first one if both are. -/
def combine (op : Float → Float → Float) (a b : Number) : Number :=
  if a.isNaN then a
  else if b.isNaN then b
  else
    let result := op a.toFloat b.toFloat
    if result.isNaN then invalid else ⟨result.toBits⟩

instance : Add Number := ⟨combine (· + ·)⟩
instance : Sub Number := ⟨combine (· - ·)⟩
instance : Mul Number := ⟨combine (· * ·)⟩
instance : Div Number := ⟨combine (· / ·)⟩

/-- The number with its sign bit flipped, also for zeros and NaNs. -/
instance : Neg Number := ⟨fun n => ofMagnitude (!n.isNegative) n.magnitude⟩

/-- What is left of `a` after taking `b` away as often as it goes in. It has the sign of `a`, and it
is exact: the units of the result are the remainder of the units. -/
def remainder (a b : Number) : Number :=
  if a.isNaN then a
  else if b.isNaN then b
  else if a.isInfinite || b.isZero then invalid
  else if b.isInfinite then a
  else ofMagnitude a.isNegative (magnitudeOfUnits (units a.magnitude % units b.magnitude) 1)

instance : Mod Number := ⟨remainder⟩

end Number

end SmallLisp
