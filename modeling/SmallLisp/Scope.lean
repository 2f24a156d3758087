import SmallLisp.Value.Basic
/-!
# Scopes

A scope is a table of variables with an optional parent. Scopes live in a store that only grows;
a scope is named by its place in it. Setting a variable writes to the scope itself, never to an
ancestor, and reading one falls back to the ancestors.

A parent is always in the store before its children, so a chain of parents goes to smaller and
smaller places and ends. `lookup` follows a parent only if it is at a smaller place, which for
scopes made by `alloc` it always is.
-/

namespace SmallLisp

/-- Variables and, unless it is a root, the scope around. -/
structure Scope where
  vars : Table Value
  parent : Option ScopeId

/-- All scopes ever made, in the order in which they were made. -/
abbrev Scopes := Array Scope

namespace Scopes

def alloc (scopes : Scopes) (scope : Scope) : ScopeId × Scopes :=
  (scopes.size, scopes.push scope)

def set (scopes : Scopes) (id : ScopeId) (name : String) (v : Value) : Scopes :=
  scopes.modify id fun scope => { scope with vars := scope.vars.set name v }

def local? (scopes : Scopes) (id : ScopeId) (name : String) : Option Value :=
  match scopes[id]? with
  | some scope => scope.vars.get? name
  | none => none

/-- The value of a variable in a scope or the nearest ancestor that has it. -/
def lookup (scopes : Scopes) (id : ScopeId) (name : String) : Option Value :=
  match scopes[id]? with
  | none => none
  | some scope =>
    match scope.vars.get? name with
    | some v => some v
    | none =>
      match scope.parent with
      | some parent => if parent < id then lookup scopes parent name else none
      | none => none
termination_by id

/-- Making a scope leaves those that are there as they are. -/
theorem getElem?_alloc (scopes : Scopes) (scope : Scope) {id : ScopeId} (h : id < scopes.size) :
    (scopes.alloc scope).2[id]? = scopes[id]? := by
  simp [alloc, Array.getElem?_push_lt, h]

/-- Setting a variable of one scope leaves all others as they are. -/
theorem getElem?_set_of_ne (scopes : Scopes) {id other : ScopeId} (name : String) (v : Value)
    (h : id ≠ other) : (Scopes.set scopes id name v)[other]? = scopes[other]? := by
  simp [Scopes.set, Array.getElem?_modify, h]

end Scopes

/-- A scope as inspected values show it: the names of its variables. -/
def Scope.inspect (scope : Scope) : String :=
  "Env \x7b vars: [" ++ ", ".intercalate (scope.vars.keys.map Text.inspected) ++
    "], has_parent: " ++ (if scope.parent.isSome then "true" else "false") ++ " \x7d"

end SmallLisp
