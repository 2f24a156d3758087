import SmallLisp.Interpreter
/-!
# Arguments of the command line

```
[flags]                       run the standard input
[flags] run FILE [flags]      run a file
[flags] parse FILE [flags]    print the forms of a file
[flags] lex FILE [flags]      print the tokens of a file
```

The flags are `--max-depth N` and `-v`, or `--verbose`, which may be repeated. Flags and the file may
come in any order; after `--` nothing is a flag. A flag after the command takes the place of the
same flag before it.
-/

namespace SmallLisp.Console

inductive Command where
  /-- Run the standard input. -/
  | stdin
  | run (file : String)
  | parse (file : String)
  | lex (file : String)
deriving DecidableEq

structure Arguments where
  command : Command
  maxDepth : Nat
  /-- How often more log output was asked for. -/
  verbosity : Nat
deriving DecidableEq

/-- The flags on one side of the command. -/
structure Flags where
  maxDepth : Option Nat := none
  verbosity : Nat := 0

inductive Remainder where
  | nothing
  | operand (arg : String) (args : List String)
  /-- Everything after the arguments' own end of flags. -/
  | plain (args : List String)

/-- A depth: digits, possibly after a plus sign, for a number that fits in 64 bits. -/
def readDepth? (arg : String) : Option Nat :=
  let digits :=
    match arg.toList with
    | '+' :: digits => digits
    | digits => digits
  if digits ≠ [] ∧ digits.all Char.isDigit ∧ Decimal.ofDigits digits < pow2 64 then
    some (Decimal.ofDigits digits)
  else none

/-- Sets the depth, which may be done only once. -/
def Flags.setDepth? (flags : Flags) (arg : String) : Option Flags :=
  match flags.maxDepth, readDepth? arg with
  | none, some depth => some { flags with maxDepth := some depth }
  | _, _ => none

def Flags.raise (flags : Flags) (times : Nat) : Flags :=
  { flags with verbosity := flags.verbosity + times }

def depthSign : List Char := "--max-depth=".toList

/-- Reads flags up to the next argument that is none. -/
def readFlags (flags : Flags) : List String → Option (Flags × Remainder)
  | [] => some (flags, .nothing)
  | "--" :: args => some (flags, .plain args)
  | "--verbose" :: args => readFlags (flags.raise 1) args
  | "--max-depth" :: value :: args =>
    match flags.setDepth? value with
    | some flags => readFlags flags args
    | none => none
  | arg :: args =>
    if depthSign.isPrefixOf arg.toList then
      match flags.setDepth? (String.ofList (arg.toList.drop depthSign.length)) with
      | some flags => readFlags flags args
      | none => none
    else
      match arg.toList with
      | '-' :: c :: cs =>
        if (c :: cs).all (· == 'v') then readFlags (flags.raise (cs.length + 1)) args else none
      | _ => some (flags, .operand arg args)

def readFile (args : List String) : Option (Flags × String) :=
  match readFlags {} args with
  | some (flags, .operand file args) =>
    match readFlags flags args with
    | some (flags, .nothing) => some (flags, file)
    | some (flags, .plain []) => some (flags, file)
    | _ => none
  | some (flags, .plain [file]) => some (flags, file)
  | _ => none

def commandOf? : String → Option (String → Command)
  | "run" => some .run
  | "parse" => some .parse
  | "lex" => some .lex
  | _ => none

def readArguments (args : List String) : Option Arguments :=
  let finish (outer inner : Flags) (command : Command) : Arguments :=
    { command
      maxDepth := (inner.maxDepth.orElse fun _ => outer.maxDepth).getD 10000
      verbosity := if inner.verbosity = 0 then outer.verbosity else inner.verbosity }
  match readFlags {} args with
  | some (flags, .nothing) => some (finish flags {} .stdin)
  | some (flags, .plain []) => some (finish flags {} .stdin)
  | some (outer, .operand name args) =>
    match commandOf? name, readFile args with
    | some command, some (inner, file) =>
      if file = "" then none else some (finish outer inner (command file))
    | _, _ => none
  | _ => none

end SmallLisp.Console
