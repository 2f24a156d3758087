import SmallLisp.Library.Arithmetic
import SmallLisp.Library.Hashes
import SmallLisp.Library.Lists
import SmallLisp.Library.Strings
/-!
# What primitives compute
-/

namespace SmallLisp

namespace Library

/-- Asks to leave with a status, `0` if none is given. -/
def leave : List Value → Fault
  | [] => .exit 0
  | [.number n] =>
    match n.toNat? with
    | some status => if status < 256 then .exit (.ofNat status) else .library .invalidStatus
    | none => .library .invalidStatus
  | [_] => .library .invalidStatus
  | args => .wrongArgCount 0 args.length

end Library

open Library in
def Primitive.compute (op : Primitive) (args : List Value) : Except Fault Value :=
  match op with
  | add => Library.add args
  | subtract => Library.subtract args
  | multiply => Library.multiply args
  | divide => Library.divide args
  | remainder => Library.remainder args
  | equal => Library.equal args
  | less => Library.compare Number.lt args
  | greater => Library.compare (fun a b => b.lt a) args
  | lessEqual => Library.compare Number.le args
  | greaterEqual => Library.compare (fun a b => b.le a) args
  | negate => return .boolean (← one args).isFalse
  | list => return .list args
  | makeHash => Library.makeHash args
  | hashGet => Library.hashGet args
  | exit => throw (leave args)
  | isNull => return .boolean ((← one args).kind = .null)
  | typeOf => return .string (← one args).kind.name
  | isError => return .boolean ((← one args).kind = .error)
  | makeError => return .error (joinTexts " " args)
  | listCreate => return .list args
  | listHead => Library.listHead args
  | listTail => Library.listTail args
  | listCount => Library.listCount args
  | listAt => Library.listAt args
  | listConcat => Library.listConcat args
  | listPush => Library.listPush args
  | listSum => Library.listSum args
  | hashCreate => Library.hashOfItems args
  | hashLookup => Library.hashGet args
  | hashSet => Library.hashSet args
  | hashKeys => Library.hashKeys args
  | stringSplit => Library.stringSplit args
  | stringTrim => Library.stringTrim args
  | stringJoin => return .string (joinTexts "" args)
  | stringReplace => Library.stringReplace args

end SmallLisp
