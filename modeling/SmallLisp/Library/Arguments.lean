import SmallLisp.Fault
/-!
# Arguments of natives

Natives check how many arguments they get before they look at any of them, and convert arguments
from left to right.
-/

namespace SmallLisp.Library

def one : List Value → Except Fault Value
  | [a] => .ok a
  | args => .error (.wrongArgCount 1 args.length)

def two : List Value → Except Fault (Value × Value)
  | [a, b] => .ok (a, b)
  | args => .error (.wrongArgCount 2 args.length)

def three : List Value → Except Fault (Value × Value × Value)
  | [a, b, c] => .ok (a, b, c)
  | args => .error (.wrongArgCount 3 args.length)

def atLeast (required : Nat) (args : List Value) : Except Fault Unit :=
  if args.length < required then .error (.tooFewArgs required args.length) else .ok ()

/-- A conversion whose failure is a fault. -/
def convert {α : Type} (result : Except TypeError α) : Except Fault α :=
  result.mapError .wrongType

/-- All arguments as numbers; the first one that is none is the fault. -/
def numbers (args : List Value) : Except Fault (List Number) :=
  args.mapM fun arg => convert arg.asNumber

end SmallLisp.Library
