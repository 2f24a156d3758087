import SmallLisp.Template
/-!
# Evaluation

How forms are evaluated in a scope:

* a symbol has the value that the machine resolves it to;
* the empty list and everything that is neither a list nor a symbol is its own value;
* a list whose head spells a special form is evaluated as that form says;
* any other list is a call: the head is evaluated, then the arguments from left to right.

`Context.step` is one such evaluation, over a context that evaluates what is nested in it. `evaluate`
ties the knot: it takes the number of nested evaluations that are still allowed, hands one less to
everything nested, and ends with a fault at zero. So it is recursive on that number alone, and an
evaluation ends for every program.
-/

namespace SmallLisp

namespace Context

/-! ### Parts of special forms -/

def symbolName : Value → Except Fault String
  | .symbol s => .ok s
  | v => .error (.expectedSymbol v.display)

/-- The sign in front of a parameter that collects the remaining arguments. -/
def restSign : List Char := ['.', '.', '.']

/-- The name after the rest sign, if a parameter has one. -/
def restName? (param : String) : Option String :=
  if restSign.isPrefixOf param.toList then some (String.ofList (param.toList.drop 3)) else none

/-- The parameters and the rest parameter that a list of symbols spells. -/
def parameters : List Value → Except Fault (List String × Option String)
  | [] => .ok ([], none)
  | param :: params => do
    let name ← symbolName param
    match restName? name, params with
    | some rest, [] => return ([], some rest)
    | some _, next :: _ => do
      let _ ← symbolName next
      throw .restNotLast
    | none, params => do
      let (names, rest) ← parameters params
      return (name :: names, rest)

def makeClosure (name : Option String) (params : Value) (body : List Value) (scope : ScopeId) :
    Eval Value := do
  let items ← Eval.ofConversion params.asList
  let (names, rest) ← Eval.ofExcept (parameters items)
  modifyGet fun m =>
    (.function (.closure ⟨m.closures, name, names, rest, body, scope⟩),
      { m with closures := m.closures + 1 })

/-- Sets a variable of a scope; the result is the value. -/
def assign (scope : ScopeId) (name : String) (v : Value) : Eval Value := do
  modify (Machine.set scope name v)
  return v

/-- Evaluates the bindings of a `let` in the scope around it. -/
def bindings (ctx : Context) (scope : ScopeId) (pairs : List Value) : Eval (Table Value) :=
  pairs.foldlM (fun vars pair => do
    match ← Eval.ofConversion pair.asList with
    | [target, form] =>
      let name ← Eval.ofExcept (symbolName target)
      let v ← ctx.evaluate form scope
      return vars.set name v
    | _ => throw (.illFormed .letIn)) []

/-- Evaluates forms up to the first value that `stops` holds of. The value is the last one
evaluated, or `start` if there is no form. -/
def evaluateUntil (ctx : Context) (stops : Value → Bool) (scope : ScopeId) (start : Value) :
    List Value → Eval Value
  | [] => return start
  | form :: forms => do
    let v ← ctx.evaluate form scope
    if stops v then return v else ctx.evaluateUntil stops scope v forms

def require (ctx : Context) (path : String) (scope : ScopeId) : Eval Value := do
  match (← read).read path with
  | .error .notFound => throw (.moduleNotFound path)
  | .error (.unreadable reason) => throw (.moduleUnreadable path reason)
  | .ok source =>
    modify (Machine.report (.moduleLoaded path source.utf8ByteSize))
    match Datum.parseForms source with
    | .error e => throw (.moduleSyntax path e)
    | .ok forms => ctx.sequence forms scope

/-- The scope of a namespace, which is registered if it is not. -/
def enterNamespace (name : String) : Eval ScopeId := do
  if !Path.isValid name then throw (.registry (.lowercase name))
  match (← get).registry.get? name with
  | some id => return id
  | none => modifyGet (Machine.create name)

/-! ### Special forms -/

def special (ctx : Context) (form : SpecialForm) (args : List Value) (scope : ScopeId) :
    Eval Value :=
  match form, args with
  | .quote, [v] => return v
  | .quasiquote, [template] => ctx.fillTemplate template scope
  | .conditional, [test, yes] => do
    let _ ← ctx.evaluate test scope
    ctx.evaluate yes scope
  | .conditional, [test, yes, no] => do
    let v ← ctx.evaluate test scope
    ctx.evaluate (if v.isTruthy then yes else no) scope
  | .define, [target, form] => do
    let name ← Eval.ofExcept (symbolName target)
    let v ← ctx.evaluate form scope
    assign scope name v
  | .defineFunction, target :: params :: form :: forms => do
    let name ← Eval.ofExcept (symbolName target)
    let f ← makeClosure (some name) params (form :: forms) scope
    assign scope name f
  | .lambda, params :: form :: forms => makeClosure none params (form :: forms) scope
  | .sequence, forms => ctx.sequence forms scope
  | .letIn, pairs :: form :: forms => do
    let pairs ← Eval.ofConversion pairs.asList
    let vars ← ctx.bindings scope pairs
    let inner ← Machine.newScope vars scope
    ctx.sequence (form :: forms) inner
  | .and, forms => ctx.evaluateUntil Value.isFalse scope (.boolean true) forms
  | .or, forms => ctx.evaluateUntil (!·.isFalse) scope (.boolean false) forms
  | .require, [path] => do
    let path ← ctx.evaluate path scope
    ctx.require (← Eval.ofConversion path.asString) scope
  | .inNamespace, name :: forms => do
    let name ← Eval.ofExcept (symbolName name)
    ctx.sequence forms (← enterNamespace name)
  | form, _ => throw (.illFormed form)

def specialForm? : Value → Option SpecialForm
  | .symbol s => SpecialForm.ofName? s
  | _ => none

def call (ctx : Context) (head : Value) (args : List Value) (scope : ScopeId) : Eval Value := do
  match ← ctx.evaluate head scope with
  | .function f =>
    let args ← args.mapM fun arg => ctx.evaluate arg scope
    ctx.apply f args
  | _ => throw (.notAFunction head.display)

def step (ctx : Context) (v : Value) (scope : ScopeId) : Eval Value :=
  match v with
  | .symbol s => do Eval.ofExcept ((← get).resolve s scope)
  | .list (head :: args) =>
    match specialForm? head with
    | some form => ctx.special form args scope
    | none => ctx.call head args scope
  | v => return v

end Context

/-! ### The evaluator -/

def limitReached {α : Type} : Eval α := do
  throw (.recursionLimit (← read).limit)

mutual

/-- Evaluates a form in a scope, with so many nested evaluations left. -/
def evaluate : Nat → Value → ScopeId → Eval Value
  | 0, _, _ => limitReached
  | left + 1, v, scope => do
    let depth := (← read).limit - left
    Context.step ⟨depth, evaluate left, fillNested left⟩ v scope

/-- Fills in a template inside another one, with so many nested evaluations left. -/
def fillNested : Nat → Value → ScopeId → Eval Value
  | 0, _, _ => limitReached
  | left + 1, template, scope => do
    let depth := (← read).limit - left
    Context.fillTemplate ⟨depth, evaluate left, fillNested left⟩ template scope

end

/-- The context of whatever is not nested in an evaluation. -/
def Context.outermost (host : Host) : Context :=
  ⟨0, SmallLisp.evaluate host.limit, fillNested host.limit⟩

end SmallLisp
