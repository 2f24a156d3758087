import SmallLisp.Library.Primitives
import SmallLisp.Machine
import SmallLisp.Sorting
/-!
# Calling functions

How a function is called with arguments that are already evaluated. Calls are written over a
`Context`, which says how a form is evaluated *one level further in*; the evaluator supplies it.
That way a call is defined without knowing the evaluator, and facts about calls hold for every
context that has the facts for single evaluations.

Calls are not counted as nested evaluations. What bounds natives that call back is something else:
**every callback takes two arguments**, and

* mapping and sorting hand an item of their list to the callback as its first argument, and an item
  is nested less deep than its list;
* reducing takes three arguments, so it is never a callback itself.

So `applyPair`, the call with two arguments, recurses on the nesting of the first one, and `apply`
is not recursive at all.
-/

namespace SmallLisp

/-- What the evaluation of a form may call on. -/
structure Context where
  /-- How many evaluations this one is nested in, itself included. -/
  depth : Nat
  /-- Evaluates a form one level further in. -/
  evaluate : Value → ScopeId → Eval Value
  /-- Fills in a template one level further in. -/
  fill : Value → ScopeId → Eval Value

/-! ### Steps of evaluations -/

/-- Goes on with a value, or ends with a fault. -/
def Eval.ofExcept {α : Type} : Except Fault α → Eval α
  | .ok a => pure a
  | .error e => throw e

/-- Goes on with what a value holds, or ends with a type error. -/
def Eval.ofConversion {α : Type} : Except TypeError α → Eval α
  | .ok a => pure a
  | .error e => throw (.wrongType e)

namespace Machine

def newScope (vars : Table Value) (parent : ScopeId) : Eval ScopeId :=
  modifyGet (alloc ⟨vars, some parent⟩)

end Machine

/-! ### Closures -/

namespace Closure

/-- The variables that a call sets: a parameter without an argument is `null`, of two parameters of
one name the later one counts, and the rest parameter is the list of the remaining arguments. -/
def bind (f : Closure Value) (args : List Value) : Table Value :=
  let vars := Table.ofPairs (f.params.zipIdx.map fun (name, i) => (name, args.getD i .null))
  match f.rest with
  | some name => vars.set name (.list (args.drop f.params.length))
  | none => vars

end Closure

namespace Context

/-- Evaluates forms in order. The value is that of the last one, or `null`. -/
def sequence (ctx : Context) (forms : List Value) (scope : ScopeId) : Eval Value :=
  forms.foldlM (fun _ form => ctx.evaluate form scope) .null

/-- Calls a closure: its body is evaluated in a new scope inside the one it was made in. -/
def callClosure (ctx : Context) (f : Closure Value) (args : List Value) : Eval Value := do
  let scope ← Machine.newScope (f.bind args) f.scope
  ctx.sequence f.body scope

/-! ### Natives -/

/-- Calls a native that does not call back. The natives that do are only given too many or too few
arguments here, or a list to sort as numbers. -/
def callNative (ctx : Context) (f : Native) (args : List Value) : Eval Value :=
  match f with
  | .primitive op => Eval.ofExcept (op.compute args)
  | .print => do
    modify (Machine.print (Library.joinTexts " " args))
    return args.getLastD .null
  | .inspect => do
    let v ← Eval.ofExcept (Library.one args)
    modify (Machine.print v.display)
    return v
  | .eval => do
    let v ← Eval.ofExcept (Library.one args)
    ctx.evaluate v (← get).registry.root
  | .listMap => throw (.wrongArgCount 2 args.length)
  | .listReduce => throw (.wrongArgCount 3 args.length)
  | .listSort =>
    match args with
    | [v] => do
      let items ← Eval.ofConversion v.asList
      Eval.ofExcept (Library.sortNumbers items)
    | _ => throw (.wrongArgCount 1 args.length)

def callPlain (ctx : Context) (f : Function Value) (args : List Value) : Eval Value :=
  match f with
  | .native f => ctx.callNative f args
  | .closure f => ctx.callClosure f args

def reportCall (ctx : Context) (f : Function Value) : Eval Unit :=
  modify (Machine.report (.applying (f.name?.getD "<anonymous>") ctx.depth))

/-- Calls a function with two arguments. Mapping hands on each item with its place, and sorting two
items at a time, which may stay in their order if the result is at most zero. -/
def applyPair (ctx : Context) (f : Function Value) (a b : Value) : Eval Value := do
  ctx.reportCall f
  match f with
  | .native .listMap =>
    let g ← Eval.ofConversion b.asFunction
    match _h : a with
    | .list items =>
      let results ← items.attach.zipIdx.mapM fun (item, place) =>
        applyPair ctx g item.val (.number (.ofNat place))
      return .list results
    | a => throw (.wrongType ⟨.list, a.kind⟩)
  | .native .listSort =>
    let g ← Eval.ofConversion b.asFunction
    match _h : a with
    | .list items =>
      let inOrder (x y : { item // item ∈ items }) : Eval Bool := do
        let order ← applyPair ctx g x.val y.val
        return (← Eval.ofConversion order.asNumber).le 0
      let sorted ← mergeSortM inOrder items.attach
      return .list (sorted.map (·.val))
    | a => throw (.wrongType ⟨.list, a.kind⟩)
  | f => ctx.callPlain f [a, b]
termination_by a.nesting
decreasing_by
  · exact _h ▸ Value.nesting_lt_of_mem item.property
  · exact _h ▸ Value.nesting_lt_of_mem x.property

/-- Calls a function. Reducing hands on what it has so far with each item. -/
def apply (ctx : Context) (f : Function Value) (args : List Value) : Eval Value :=
  match f, args with
  | .native .listReduce, [v, g, start] => do
    ctx.reportCall f
    let g ← Eval.ofConversion g.asFunction
    let items ← Eval.ofConversion v.asList
    items.foldlM (fun sofar item => ctx.applyPair g sofar item) start
  | f, [a, b] => ctx.applyPair f a b
  | f, args => do
    ctx.reportCall f
    ctx.callPlain f args

end Context

end SmallLisp
