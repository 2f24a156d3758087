import SmallLisp.Library.Arguments
/-!
# Lists

Natives on lists that call no other function. None of them changes a list: the result is a new one.
-/

namespace SmallLisp.Library

def listHead (args : List Value) : Except Fault Value := do
  let items ← convert (← one args).asList
  return items.headD .null

def listTail (args : List Value) : Except Fault Value := do
  let items ← convert (← one args).asList
  return .list items.tail

def listCount (args : List Value) : Except Fault Value := do
  let items ← convert (← one args).asList
  return .number (.ofNat items.length)

def listAt (args : List Value) : Except Fault Value := do
  let (v, place) ← two args
  let items ← convert v.asList
  let place ← convert place.asNumber
  match place.toNat?.bind (items[·]?) with
  | some item => return item
  | none => throw (.library .indexOutOfRange)

def listConcat (args : List Value) : Except Fault Value := do
  let parts ← args.mapM fun arg => convert arg.asList
  return .list parts.flatten

/-- The items of the first argument and then the other arguments. -/
def listPush (args : List Value) : Except Fault Value := do
  atLeast 2 args
  match args with
  | v :: new => return .list ((← convert v.asList) ++ new)
  | [] => throw (.tooFewArgs 2 0)

def listSum (args : List Value) : Except Fault Value := do
  let items ← convert (← one args).asList
  let ns ← numbers items
  return .number (ns.foldl (· + ·) 0)

def sortNumbers (items : List Value) : Except Fault Value := do
  let ns ← numbers items
  return .list ((ns.mergeSort fun a b => a.rank ≤ b.rank).map .number)

end SmallLisp.Library
