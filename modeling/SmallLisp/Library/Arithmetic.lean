import SmallLisp.Library.Arguments
import SmallLisp.Value.Equality
/-!
# Arithmetic and comparison

Sums and products take any number of arguments, a difference or quotient at least one: with a single
argument they negate or invert it. Dividing by a zero of either sign is a fault, a zero that only
comes up as an intermediate result is not. Comparisons hold when they hold between all neighbours.
-/

namespace SmallLisp.Library

def add (args : List Value) : Except Fault Value := do
  let ns ← numbers args
  return .number (ns.foldl (· + ·) 0)

def multiply (args : List Value) : Except Fault Value := do
  let ns ← numbers args
  return .number (ns.foldl (· * ·) 1)

/-- The first argument less all others, or the only one negated. -/
def subtract (args : List Value) : Except Fault Value := do
  atLeast 1 args
  match ← numbers args with
  | [n] => return .number (-n)
  | n :: ns => return .number (ns.foldl (· - ·) n)
  | [] => return .number 0

def quotient (a b : Number) : Except Fault Number :=
  if b.isZero then .error .divisionByZero else .ok (a / b)

/-- The first argument divided by all others, or the only one inverted. That all are numbers is
checked before any division. -/
def divide (args : List Value) : Except Fault Value := do
  match ← numbers args with
  | [] => throw (.tooFewArgs 1 0)
  | [n] => return .number (← quotient 1 n)
  | n :: ns => return .number (← ns.foldlM quotient n)

/-- The remainder of a division, with the sign of the dividend. -/
def remainder (args : List Value) : Except Fault Value := do
  let (a, b) ← two args
  let a ← convert a.asNumber
  let b ← convert b.asNumber
  if b.isZero then throw .moduloByZero
  return .number (a % b)

def equal (args : List Value) : Except Fault Value :=
  .ok (.boolean (Value.chained Value.equal args))

/-- Whether a relation holds between neighbouring arguments, which have to be numbers. -/
def compare (holds : Number → Number → Bool) (args : List Value) : Except Fault Value := do
  let ns ← numbers args
  return .boolean (Value.chained holds ns)

end SmallLisp.Library
