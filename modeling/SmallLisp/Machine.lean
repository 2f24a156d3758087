import SmallLisp.Event
import SmallLisp.Fault
import SmallLisp.Scope
import SmallLisp.Value.Printer
/-!
# The state of an interpreter

A machine holds everything that evaluation changes: the scopes, the registry of namespaces, the
number of closures made, what was printed and what was reported. An evaluation (`Eval`) reads a
`Host`, changes a machine and ends with a value or a fault; **a fault does not undo any change**.

The registry maps names to scopes. The root scope is always registered, under `Path.global`, and is
not an entry of the table. A namespace `A/B` is a child of the scope registered for `A` at the time
it is made, or of the root if there is none.
-/

namespace SmallLisp

inductive ReadFailure where
  | notFound
  | unreadable (reason : String)
deriving DecidableEq

/-- What an evaluation may rely on but not change. -/
structure Host where
  /-- How many evaluations may be nested. -/
  limit : Nat
  /-- The text of a module. -/
  read : String → Except ReadFailure String

structure Registry where
  root : ScopeId
  named : Table ScopeId

/-- Everything that evaluation changes. -/
structure Machine where
  scopes : Scopes
  registry : Registry
  /-- How many closures were made. -/
  closures : Nat
  /-- The lines printed so far. -/
  output : Array String
  /-- The events reported so far. -/
  events : Array Event

abbrev Eval := ReaderT Host (EStateM Fault Machine)

namespace Registry

def get? (registry : Registry) (name : String) : Option ScopeId :=
  if name = Path.global then some registry.root else registry.named.get? name

def has (registry : Registry) (name : String) : Bool :=
  name = Path.global || registry.named.has name

def names (registry : Registry) : List String :=
  Path.global :: registry.named.keys

/-- The scope around a namespace of this name. -/
def parentFor (registry : Registry) (name : String) : ScopeId :=
  match (Path.split name).1 with
  | some front => (registry.get? front).getD registry.root
  | none => registry.root

end Registry

namespace Machine

def initial : Machine where
  scopes := #[⟨[], none⟩]
  registry := ⟨0, []⟩
  closures := 0
  output := #[]
  events := #[]

def report (event : Event) (m : Machine) : Machine :=
  { m with events := m.events.push event }

def print (line : String) (m : Machine) : Machine :=
  { m with output := m.output.push line }

def alloc (scope : Scope) (m : Machine) : ScopeId × Machine :=
  let (id, scopes) := Scopes.alloc m.scopes scope
  (id, { m with scopes := scopes })

def set (id : ScopeId) (name : String) (v : Value) (m : Machine) : Machine :=
  { m with scopes := Scopes.set m.scopes id name v }

/-- Registers a new, empty scope under a name, in place of any other. -/
def create (name : String) (m : Machine) : ScopeId × Machine :=
  if name = Path.global then
    let (id, m) := m.alloc ⟨[], none⟩
    (id, { m with registry := { m.registry with root := id } }.report .rootReplaced)
  else
    let (id, m) := m.alloc ⟨[], some (m.registry.parentFor name)⟩
    let named := m.registry.named.set name id
    (id, { m with registry := { m.registry with named := named } }.report (.namespaceCreated name))

def vars (id : ScopeId) (m : Machine) : Table Value :=
  match m.scopes[id]? with
  | some scope => scope.vars
  | none => []

/-- Changes the variables of a registered scope in place. The change may look at them first, and has a
result of its own. It cannot touch the parent. -/
def extend {α : Type} (name : String) (change : Table Value → α × Table Value) (m : Machine) :
    Except RegistryError α × Machine :=
  match m.registry.get? name with
  | none => (.error (.notFound name), m)
  | some id =>
    let (result, vars) := change (m.vars id)
    let scopes := m.scopes.modify id fun scope => { scope with vars }
    (.ok result, { m with scopes }.report (.namespaceExtended name))

/-- Registers a new, empty scope under a name that is registered. Whoever holds the old scope keeps
it. -/
def reset (name : String) (m : Machine) : Except RegistryError ScopeId × Machine :=
  if m.registry.has name then
    let (id, m) := (m.report (.namespaceReset name)).create name
    (.ok id, m)
  else (.error (.notFound name), m)

/-- Takes a name out of the registry. The root stays. -/
def delete (name : String) (m : Machine) : Option ScopeId × Machine :=
  if name = Path.global then (none, m)
  else
    match m.registry.named.get? name with
    | none => (none, m)
    | some id =>
      let named := m.registry.named.erase name
      (some id,
        { m with registry := { m.registry with named := named } }.report (.namespaceDeleted name))

/-- The value of a symbol in a scope. A symbol with a slash names a variable of a namespace and does
not depend on the scope; only the symbol that is a single slash is an ordinary one. -/
def resolve (m : Machine) (symbol : String) (scope : ScopeId) : Except Fault Value :=
  let find (id : ScopeId) (name : String) : Except Fault Value :=
    match Scopes.lookup m.scopes id name with
    | some v => .ok v
    | none => .error (.undefinedSymbol name)
  match Path.split symbol with
  | (some front, name) =>
    if symbol = "/" then find scope symbol
    else
      match m.registry.get? front with
      | some id => find id name
      | none => .error (.registry (.notFound front))
  | (none, _) => find scope symbol

/-! ### What extending does -/

section

variable {α : Type} (name : String) (change : Table Value → α × Table Value) (m : Machine)

theorem registry_extend : (m.extend name change).2.registry = m.registry := by
  unfold extend
  split <;> rfl

/-- A change of variables makes no scope. -/
theorem size_extend : (m.extend name change).2.scopes.size = m.scopes.size := by
  unfold extend
  split
  · rfl
  · exact Array.size_modify

/-- The scope of that name is changed, and no other one. -/
theorem getElem?_extend {name : String} {id : ScopeId} (h : m.registry.get? name = some id)
    (other : ScopeId) :
    (m.extend name change).2.scopes[other]? =
      if id = other then
        m.scopes[other]?.map fun scope => { scope with vars := (change scope.vars).2 }
      else m.scopes[other]? := by
  simp only [extend, h, report, Array.getElem?_modify]
  split
  · next hid =>
    subst hid
    cases hscope : m.scopes[id]? with
    | none => rfl
    | some scope => simp [vars, hscope]
  · rfl

end

end Machine

end SmallLisp
