import SmallLisp.Library.Arguments
import SmallLisp.Text.Blank
import SmallLisp.Text.Search
import SmallLisp.Value.Printer
/-!
# Strings
-/

namespace SmallLisp.Library

def joinTexts (between : String) (args : List Value) : String :=
  between.intercalate (args.map Value.text)

/-- The pieces of a string between the occurrences of another one. There is nothing to split in
`null`, whatever the other argument is. -/
def stringSplit (args : List Value) : Except Fault Value := do
  match ← two args with
  | (.null, _) => return .list []
  | (v, pattern) =>
    let s ← convert v.asString
    let pattern ← convert pattern.asString
    return .list ((Text.split s pattern).map .string)

def stringTrim (args : List Value) : Except Fault Value := do
  return .string (Text.trim (← convert (← one args).asString))

def stringReplace (args : List Value) : Except Fault Value := do
  let (v, pattern, replacement) ← three args
  let s ← convert v.asString
  let pattern ← convert pattern.asString
  let replacement ← convert replacement.asString
  return .string (Text.replaceFirst s pattern replacement)

end SmallLisp.Library
