import SmallLisp.Native
import SmallLisp.Number.Decimal
import SmallLisp.Table
import SmallLisp.Text.Quoted
/-!
# Values

One type for everything a program computes with, and for the program itself: a parsed form is a
value made of lists, symbols, keywords, numbers and strings.

Lists and hashes are immutable. A closure carries its parameters, its body and the scope it was made
in, named by its place in the store of scopes; its `identity` tells it apart from every other
closure made by the same interpreter, even one made of the same text.
-/

namespace SmallLisp

/-- A scope, by its place in the store of scopes. -/
abbrev ScopeId := Nat

/-- A function made by a program, whose body is made of `α`s. -/
structure Closure (α : Type) where
  identity : Nat
  /-- The name it was defined under, if it was defined with one. -/
  name : Option String
  params : List String
  /-- The name that collects the arguments after those of `params`. -/
  rest : Option String
  body : List α
  /-- The scope it was made in. -/
  scope : ScopeId

inductive Function (α : Type) where
  | native (f : Native)
  | closure (f : Closure α)

/-- A value of the language. Keywords are held with their colon. -/
inductive Value where
  | number (n : Number)
  | string (s : String)
  | boolean (b : Bool)
  | symbol (s : String)
  | keyword (s : String)
  | null
  /-- A failure carried around as data. -/
  | error (message : String)
  | list (items : List Value)
  | hash (entries : List (String × Value))
  | function (f : Function Value)

instance : Inhabited Value := ⟨.null⟩

inductive Kind where
  | number
  | string
  | boolean
  | symbol
  | keyword
  | null
  | error
  | list
  | hash
  | function
deriving DecidableEq

def Kind.name : Kind → String
  | number => "number"
  | string => "string"
  | boolean => "boolean"
  | symbol => "symbol"
  | keyword => "keyword"
  | null => "null"
  | error => "error"
  | list => "list"
  | hash => "hash"
  | function => "function"

/-- The name of a function; closures need not have one. -/
def Function.name? {α : Type} : Function α → Option String
  | native f => some f.name
  | closure f => f.name

namespace Value

def kind : Value → Kind
  | number _ => .number
  | string _ => .string
  | boolean _ => .boolean
  | symbol _ => .symbol
  | keyword _ => .keyword
  | null => .null
  | error _ => .error
  | list _ => .list
  | hash _ => .hash
  | function _ => .function

def hasColon (s : String) : Bool :=
  s.toList.head? == some ':'

/-- The keyword of a name, which gets a colon unless it starts with one. -/
def ofKeyword (s : String) : Value :=
  keyword (if hasColon s then s else ":" ++ s)

def quote (v : Value) : Value :=
  list [symbol "quote", v]

/-- Everything but `false` and `null` counts as true. -/
def isTruthy : Value → Bool
  | boolean false => false
  | null => false
  | _ => true

def isFalse : Value → Bool
  | boolean false => true
  | _ => false

/-! ### How deep lists are nested -/

mutual

/-- How deep lists stand inside lists: `0` for a value that is no list, `1` for a list without
lists in it. -/
def nesting : Value → Nat
  | list items => nestingAll items + 1
  | _ => 0

def nestingAll : List Value → Nat
  | [] => 0
  | v :: vs => max v.nesting (nestingAll vs)

end

/-- No value is nested deeper than the deepest of the list it is in. -/
theorem nesting_le_nestingAll {v : Value} {items : List Value} (h : v ∈ items) :
    v.nesting ≤ nestingAll items := by
  induction items with
  | nil => cases h
  | cons w ws ih =>
    rw [nestingAll]
    cases h with
    | head => exact Nat.le_max_left _ _
    | tail _ h => exact Nat.le_trans (ih h) (Nat.le_max_right _ _)

/-- **An item is nested less deep than its list**, which is what bounds natives that call natives. -/
theorem nesting_lt_of_mem {v : Value} {items : List Value} (h : v ∈ items) :
    v.nesting < (list items).nesting := by
  have := nesting_le_nestingAll h
  rw [nesting]
  omega

end Value

end SmallLisp
