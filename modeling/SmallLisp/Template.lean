import SmallLisp.Call
/-!
# Quasiquoted templates

A template is a datum with holes. The list `(unquote e)` is a hole for the value of `e`; inside a
list, the list `(unquote-splicing e)` is a hole for all items of the list that `e` evaluates to.
Everything else stands for itself. Filling in a template goes through it from left to right.

A list inside a template counts as one more nested evaluation.
-/

namespace SmallLisp

namespace Template

/-- The form in a hole of the given kind, if the datum is one. -/
def hole? (mark : Datum.Mark) : Value → Option Value
  | .list [.symbol head, form] => if head = mark.name then some form else none
  | _ => none

end Template

namespace Context

open Template

/-- What an item of a template's list becomes: one value, or all items of a spliced list. -/
def fillItem (ctx : Context) (scope : ScopeId) (item : Value) : Eval (List Value) :=
  match hole? .splice item with
  | some form => do
    let v ← ctx.evaluate form scope
    Eval.ofConversion v.asList
  | none =>
    match item with
    | .list _ => do return [← ctx.fill item scope]
    | item => return [item]

def fillTemplate (ctx : Context) (template : Value) (scope : ScopeId) : Eval Value :=
  match hole? .unquote template with
  | some form => ctx.evaluate form scope
  | none =>
    match template with
    | .list items => do
      let parts ← items.mapM (ctx.fillItem scope)
      return .list parts.flatten
    | template => return template

end Context

end SmallLisp
