import SmallLisp.Datum
import SmallLisp.SpecialForm
import SmallLisp.Value.Conversion
/-!
# Faults

Why an evaluation ends without a value. Programs cannot catch a fault: the first one ends the run.
Leaving on purpose (`exit`) is one too, and so is going past the limit of nested evaluations, the
only fault that is *fatal*.
-/

namespace SmallLisp

inductive RegistryError where
  /-- No namespace of that name is registered. -/
  | notFound (name : String)
  /-- A program declares a namespace whose name does not start with a capital. -/
  | lowercase (name : String)
deriving DecidableEq

def RegistryError.message : RegistryError → String
  | notFound name => "Namespace " ++ name ++ " not found"
  | lowercase name => "Namespace " ++ name ++ " must start with uppercase"

/-- Why a native refuses arguments of the right kinds. -/
inductive LibraryError where
  /-- The place of an item that a list does not have. -/
  | indexOutOfRange
  /-- Keys and values of a hash that do not pair up. -/
  | unpairedEntries
  /-- An exit status that is no whole number from `0` to `255`. -/
  | invalidStatus
deriving DecidableEq

def LibraryError.message : LibraryError → String
  | indexOutOfRange => "index out of range"
  | unpairedEntries => "Hash requires an even number of key-value elements"
  | invalidStatus => "Expected unsigned 8 bit integer!"

/-- Why an evaluation ends without a value. -/
inductive Fault where
  | undefinedSymbol (name : String)
  /-- A call whose head, of the given text, evaluates to no function. -/
  | notAFunction (head : String)
  | wrongArgCount (required passed : Nat)
  | tooFewArgs (required passed : Nat)
  | illFormed (form : SpecialForm)
  | expectedSymbol (found : String)
  /-- A parameter after the one that collects the remaining arguments. -/
  | restNotLast
  | wrongType (e : TypeError)
  | divisionByZero
  | moduloByZero
  | library (e : LibraryError)
  | registry (e : RegistryError)
  | moduleNotFound (path : String)
  | moduleUnreadable (path reason : String)
  | moduleSyntax (path : String) (e : SyntaxError)
  /-- More nested evaluations than the limit allows. -/
  | recursionLimit (limit : Nat)
  /-- The program asked to leave with this status. -/
  | exit (status : UInt8)
deriving DecidableEq

namespace Fault

def message : Fault → String
  | undefinedSymbol name => "Undefined symbol: " ++ name
  | notAFunction head => head ++ " is not a function"
  | wrongArgCount required passed =>
    "Wrong number of arguments! Required " ++ toString required ++ ", got " ++ toString passed
  | tooFewArgs required passed =>
    "Too few arguments! Required at least " ++ toString required ++ ", got " ++ toString passed
  | illFormed form => "Ill-formed " ++ form.name ++ " expression"
  | expectedSymbol found => "Expected a symbol, got " ++ found
  | restNotLast => "Rest parameter must be the last parameter"
  | wrongType e => e.message
  | divisionByZero => "division by zero error"
  | moduloByZero => "modulo by zero error"
  | library e => e.message
  | registry e => e.message
  | moduleNotFound path => "Module not found: " ++ path
  | moduleUnreadable path reason => "Failed to read module " ++ path ++ ": " ++ reason
  | moduleSyntax path e => "Syntax error in module " ++ path ++ ": " ++ e.message
  | recursionLimit limit => "Maximum recursion depth of " ++ toString limit ++ " exceeded"
  | exit status => "Exit signal with code: " ++ toString status.toNat

/-- Faults that a host must not treat as an ordinary failure of the program. -/
def isFatal : Fault → Bool
  | recursionLimit _ => true
  | _ => false

end Fault

end SmallLisp
