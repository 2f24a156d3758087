import SmallLisp.Evaluator
/-!
# Interpreters

An interpreter is a machine together with its options and the reader of its modules. Every operation
gives its result and the interpreter after it; an operation that fails leaves behind whatever it did
before it failed.

A program text is read as a whole before any of it is evaluated, so a syntax error anywhere in it
means that nothing was done.
-/

namespace SmallLisp

structure Options where
  /-- How many evaluations may be nested. -/
  maxDepth : Nat := 10000
  /-- Whether the natives are installed. -/
  prelude : Bool := true

structure Interpreter where
  options : Options
  read : String → Except ReadFailure String
  machine : Machine

/-- Why a program text has no value. -/
inductive Failure where
  /-- The text is no program. -/
  | malformed (e : SyntaxError)
  /-- The program ended with a fault. -/
  | fault (e : Fault)
  /-- The bytes are no text. -/
  | notText
deriving DecidableEq

def Failure.message : Failure → String
  | malformed e => e.message
  | fault e => e.message
  | notText => "stream did not contain valid UTF-8"

def Failure.isFatal : Failure → Bool
  | fault e => e.isFatal
  | _ => false

namespace Machine

def nativeVars (natives : List Native) : List (String × Value) :=
  natives.map fun f => (f.name, .function (.native f))

def globalVars : List (String × Value) :=
  nativeVars Native.globals ++
    [("true", .boolean true), ("false", .boolean false), ("null", .null)]

/-- Sets variables of a registered scope, one after the other. -/
def setAll (name : String) (vars : List (String × Value)) (m : Machine) : Machine :=
  (m.extend name fun table => ((), table.setAll vars)).2

/-- Sets the root scope's variables and registers the library namespaces anew. -/
def install (m : Machine) : Machine :=
  Native.libraries.foldl
    (fun m (name, natives) => (m.create name).2.setAll name (nativeVars natives))
    (m.setAll Path.global globalVars)

def start (options : Options) : Machine :=
  if options.prelude then initial.install else initial

/-- The machine after an interpreter was reset: with a new root scope. -/
def restart (options : Options) (m : Machine) : Machine :=
  let m := (m.reset Path.global).2
  (if options.prelude then m.install else m).report .interpreterReset

end Machine

namespace Interpreter

def new (options : Options) (read : String → Except ReadFailure String) : Interpreter :=
  ⟨options, read, .start options⟩

def host (ip : Interpreter) : Host :=
  ⟨ip.options.maxDepth, ip.read⟩

def root (ip : Interpreter) : ScopeId :=
  ip.machine.registry.root

/-- Carries out an evaluation that is not nested in another one. -/
def perform {α : Type} (ip : Interpreter) (action : Context → Eval α) :
    Except Fault α × Interpreter :=
  match action (.outermost ip.host) ip.host ip.machine with
  | .ok a m => (.ok a, { ip with machine := m })
  | .error e m => (.error e, { ip with machine := m })

def evaluate (ip : Interpreter) (v : Value) (scope : ScopeId) : Except Fault Value × Interpreter :=
  ip.perform fun ctx => ctx.evaluate v scope

def apply (ip : Interpreter) (f : Function Value) (args : List Value) :
    Except Fault Value × Interpreter :=
  ip.perform fun ctx => ctx.apply f args

def require (ip : Interpreter) (path : String) (scope : ScopeId) :
    Except Fault Value × Interpreter :=
  ip.perform fun ctx => ctx.require path scope

def evalIn (ip : Interpreter) (source : String) (scope : ScopeId) :
    Except Failure Value × Interpreter :=
  match Datum.parseForms source with
  | .error e => (.error (.malformed e), ip)
  | .ok forms =>
    let (result, ip) := ip.perform fun ctx => ctx.sequence forms scope
    (result.mapError .fault, ip)

def eval (ip : Interpreter) (source : String) : Except Failure Value × Interpreter :=
  ip.evalIn source ip.root

def run (ip : Interpreter) (bytes : ByteArray) : Except Failure Value × Interpreter :=
  match String.fromUTF8? bytes with
  | some source => ip.eval source
  | none => (.error .notText, ip)

def get (ip : Interpreter) (name : String) : Except Fault Value :=
  ip.machine.resolve name ip.root

/-- Gives the interpreter a new root scope. Closures and namespaces made before keep the old one. -/
def reset (ip : Interpreter) : Interpreter :=
  { ip with machine := ip.machine.restart ip.options }

/-- The lines printed and the events reported so far, and the interpreter without them. -/
def drain (ip : Interpreter) : Array String × Array Event × Interpreter :=
  (ip.machine.output, ip.machine.events,
    { ip with machine := { ip.machine with output := #[], events := #[] } })

/-! ### Inspection -/

def inspectScope (ip : Interpreter) (id : ScopeId) : String :=
  match ip.machine.scopes[id]? with
  | some scope => "RefCell \x7b value: " ++ scope.inspect ++ " \x7d"
  | none => ""

/-- The registered scopes and the options, with the reader of modules as it shows itself. Nothing is
going on while an interpreter is inspected, so its depth is that of the outermost context. -/
def inspect (ip : Interpreter) (reader : String) : String :=
  let depth := toString (Context.outermost ip.host).depth
  let maxDepth := "max_depth: " ++ toString ip.options.maxDepth
  let named := ip.machine.registry.named.map fun (name, id) =>
    Text.inspected name ++ ": " ++ ip.inspectScope id
  "Interpreter \x7b evaluator: Evaluator \x7b namespaces: NamespaceManager \x7b root: " ++
    ip.inspectScope ip.root ++ ", namespaces: \x7b" ++ ", ".intercalate named ++
    "\x7d \x7d, loader: " ++ reader ++ ", depth: " ++ depth ++ ", " ++ maxDepth ++
    ", .. \x7d, opts: Options \x7b " ++ maxDepth ++ ", prelude: " ++
    (if ip.options.prelude then "true" else "false") ++ " \x7d \x7d"

end Interpreter

end SmallLisp
