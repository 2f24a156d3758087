import SmallLisp.Value.Basic
/-!
# Values as something more specific

Each conversion gives what a value of one kind holds, or says that the value is of another kind.
-/

namespace SmallLisp

/-- A value of one kind where one of another kind is needed. -/
structure TypeError where
  expected : Kind
  found : Kind
deriving DecidableEq

def Kind.title : Kind → String
  | number => "Number"
  | string => "String"
  | boolean => "Bool"
  | symbol => "Symbol"
  | keyword => "Keyword"
  | null => "Null"
  | error => "Error"
  | list => "List"
  | hash => "Hash"
  | function => "Function"

def TypeError.message (e : TypeError) : String :=
  "Not a " ++ e.expected.title ++ "! Got " ++ e.found.name

namespace Value

def asNumber : Value → Except TypeError Number
  | number n => .ok n
  | v => .error ⟨.number, v.kind⟩

def asString : Value → Except TypeError String
  | string s => .ok s
  | v => .error ⟨.string, v.kind⟩

def asBoolean : Value → Except TypeError Bool
  | boolean b => .ok b
  | v => .error ⟨.boolean, v.kind⟩

def asList : Value → Except TypeError (List Value)
  | list items => .ok items
  | v => .error ⟨.list, v.kind⟩

def asHash : Value → Except TypeError (Table Value)
  | hash entries => .ok entries
  | v => .error ⟨.hash, v.kind⟩

def asFunction : Value → Except TypeError (Function Value)
  | function f => .ok f
  | v => .error ⟨.function, v.kind⟩

end Value

end SmallLisp
