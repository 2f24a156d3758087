import SmallLisp.Library.Arguments
import SmallLisp.Value.Printer
/-!
# Hashes

A hash maps the key texts of values (`Value.hashKey`) to values, in the order in which the keys were
first set. All ways to build one go through `Table.set`.
-/

namespace SmallLisp.Library

/-- Alternating keys and values as entries, if every key has a value. -/
def entries? : List Value → Option (List (String × Value))
  | [] => some []
  | [_] => none
  | key :: v :: rest => (entries? rest).map fun entries => (key.hashKey, v) :: entries

/-- The hash of alternating keys and values. -/
def hashOfItems (items : List Value) : Except Fault Value :=
  match entries? items with
  | some entries => .ok (.hash (Table.ofPairs entries))
  | none => .error (.library .unpairedEntries)

def makeHash (args : List Value) : Except Fault Value := do
  hashOfItems (← convert (← one args).asList)

def hashGet (args : List Value) : Except Fault Value := do
  let (v, key) ← two args
  let entries ← convert v.asHash
  return (entries.get? key.hashKey).getD .null

def hashSet (args : List Value) : Except Fault Value := do
  let (v, key, new) ← three args
  let entries ← convert v.asHash
  return .hash (entries.set key.hashKey new)

/-- A key as a value: a keyword if it starts with a colon, else a string. -/
def ofHashKey (key : String) : Value :=
  if Value.hasColon key then .keyword key else .string key

def hashKeys (args : List Value) : Except Fault Value := do
  let entries ← convert (← one args).asHash
  return .list (entries.keys.map ofHashKey)

end SmallLisp.Library
