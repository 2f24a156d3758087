import SmallLisp.Value.Basic
/-!
# Equality of values

Equality is by content: lists item by item, hashes as maps, so that the order of their entries does
not matter. Numbers are equal as numbers, with all NaNs equal. Only functions are compared by what
they are: a native equals itself alone, even if another one goes by the same name in its own library,
and closures are told apart by their identities.
-/

namespace SmallLisp

def Function.same {α : Type} : Function α → Function α → Bool
  | native f, native g => f = g
  | closure f, closure g => f.identity == g.identity
  | _, _ => false

namespace Value

mutual

def equal : Value → Value → Bool
  | number a, number b => a.equal b
  | string a, string b => a == b
  | boolean a, boolean b => a == b
  | symbol a, symbol b => a == b
  | keyword a, keyword b => a == b
  | null, null => true
  | error a, error b => a == b
  | list as, list bs => equalItems as bs
  | hash as, hash bs => as.length == bs.length && equalEntries as bs
  | function f, function g => f.same g
  | _, _ => false

def equalItems : List Value → List Value → Bool
  | [], [] => true
  | a :: as, b :: bs => a.equal b && equalItems as bs
  | _, _ => false

/-- Whether every entry of a hash has an equal one in the other. -/
def equalEntries : List (String × Value) → List (String × Value) → Bool
  | [], _ => true
  | (key, a) :: as, bs =>
    (match Table.get? bs key with
      | some b => a.equal b
      | none => false) && equalEntries as bs

end

/-- Whether a relation holds between neighbours all along a list. -/
def chained {α : Type} (holds : α → α → Bool) : List α → Bool
  | a :: b :: rest => holds a b && chained holds (b :: rest)
  | _ => true

end Value

end SmallLisp
