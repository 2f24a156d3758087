/-!
# Natives

The functions that come with the language. Most of them, the *primitives*, only compute a value from
their arguments. The others print, evaluate, or call a function that they are given.

The list is closed. A host could put functions of its own into a scope, and these might do anything to
the machine; what is said here of natives, and of evaluation as a whole, is said of the ones listed.
-/

namespace SmallLisp

/-- A native that only computes a value from its arguments, or fails. -/
inductive Primitive where
  | add
  | subtract
  | multiply
  | divide
  | remainder
  | equal
  | less
  | greater
  | lessEqual
  | greaterEqual
  | negate
  | list
  | makeHash
  | hashGet
  | exit
  | isNull
  | typeOf
  | isError
  | makeError
  | listCreate
  | listHead
  | listTail
  | listCount
  | listAt
  | listConcat
  | listPush
  | listSum
  | hashCreate
  | hashLookup
  | hashSet
  | hashKeys
  | stringSplit
  | stringTrim
  | stringJoin
  | stringReplace
deriving DecidableEq

inductive Native where
  | primitive (op : Primitive)
  | print
  | inspect
  | eval
  | listMap
  | listReduce
  | listSort
deriving DecidableEq

def Primitive.name : Primitive → String
  | add => "+"
  | subtract => "-"
  | multiply => "*"
  | divide => "/"
  | remainder => "%"
  | equal => "="
  | less => "<"
  | greater => ">"
  | lessEqual => "<="
  | greaterEqual => ">="
  | negate => "not"
  | list => "list"
  | makeHash => "make-hash"
  | hashGet => "hash-get"
  | exit => "exit"
  | isNull => "null?"
  | typeOf => "type?"
  | isError => "error?"
  | makeError => "error"
  | listCreate => "create"
  | listHead => "head"
  | listTail => "tail"
  | listCount => "count"
  | listAt => "at"
  | listConcat => "concat"
  | listPush => "push"
  | listSum => "sum"
  | hashCreate => "create"
  | hashLookup => "get"
  | hashSet => "set"
  | hashKeys => "keys"
  | stringSplit => "split"
  | stringTrim => "trim"
  | stringJoin => "join"
  | stringReplace => "replace"

/-- The name a native is registered under, without its namespace. -/
def Native.name : Native → String
  | primitive op => op.name
  | print => "print"
  | inspect => "inspect"
  | eval => "eval"
  | listMap => "map"
  | listReduce => "reduce"
  | listSort => "sort"

/-- The natives of the root scope, in the order in which they are defined. -/
def Native.globals : List Native :=
  [.primitive .add, .primitive .subtract, .primitive .multiply, .primitive .divide,
   .primitive .remainder, .primitive .equal, .primitive .less, .primitive .greater,
   .primitive .lessEqual, .primitive .greaterEqual, .primitive .negate, .primitive .list,
   .primitive .makeHash, .primitive .hashGet, .print, .inspect, .eval, .primitive .exit]

/-- The natives of each library namespace, in the order in which they are defined. -/
def Native.libraries : List (String × List Native) :=
  [("Core",
     [.primitive .isNull, .primitive .typeOf, .primitive .isError, .primitive .makeError]),
   ("List",
     [.primitive .listCreate, .primitive .listHead, .primitive .listTail, .primitive .listCount,
      .primitive .listAt, .primitive .listConcat, .primitive .listPush, .listMap, .listReduce,
      .primitive .listSum, .listSort]),
   ("Hash",
     [.primitive .hashCreate, .primitive .hashLookup, .primitive .hashSet, .primitive .hashKeys]),
   ("String",
     [.primitive .stringSplit, .primitive .stringTrim, .primitive .stringJoin,
      .primitive .stringReplace])]

end SmallLisp
