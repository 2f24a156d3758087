import SmallLisp.Proofs.Session
/-!
# Where evaluation writes

Evaluating a form in a scope writes to that scope, to the root, to scopes of namespaces and to scopes
that it makes; calling a function does not even write to the scope it was made in. Every other scope
keeps its variables and its parent.

In particular the scope of a `let` or of a closure's call is out of reach once it is left: nothing
evaluates in it any more, and it is never that of a namespace. A scope may be left in the middle of a
request. What goes on until the request ends is an *activity*: parts of the evaluations around it, one
after the other, in the scopes that these take place in.
-/

namespace SmallLisp

open Machine Context Interpreter

/-- A part of an evaluation: a nested evaluation or call, or a single change of the machine. -/
inductive Piece where
  | evaluate (depth : Nat) (v : Value) (scope : ScopeId)
  | apply (depth : Nat) (f : Function Value) (args : List Value)
  | set (scope : ScopeId) (name : String) (v : Value)
  | newScope (vars : Table Value) (parent : ScopeId)
  | enterNamespace (name : String)
  | newClosure
  | print (line : String)
  | report (event : Event)

/-- The scope that a part of an evaluation takes place in, or writes to. -/
def Piece.scope? : Piece → Option ScopeId
  | evaluate _ _ scope | set scope _ _ => some scope
  | _ => none

namespace Machine

def goOn (host : Host) (m : Machine) : Piece → Machine
  | .evaluate depth v scope => ((within host.limit depth).evaluate v scope).after host m
  | .apply depth f args => ((within host.limit depth).apply f args).after host m
  | .set scope name v => m.set scope name v
  | .newScope vars parent => (m.alloc ⟨vars, some parent⟩).2
  | .enterNamespace name => (Context.enterNamespace name).after host m
  | .newClosure => { m with closures := m.closures + 1 }
  | .print line => m.print line
  | .report event => m.report event

/-- From one machine to another by parts of evaluations, all in scopes that are allowed. -/
def Activity (host : Host) (allowed : ScopeId → Prop) : Machine → Machine → Prop :=
  Relation.ReflTransGen fun m m' =>
    ∃ piece : Piece, (∀ scope, piece.scope? = some scope → allowed scope) ∧ m.goOn host piece = m'

/-- A piece extends the machine, with the scope it is about as the target. -/
theorem extends_goOn (host : Host) (m : Machine) (piece : Piece) :
    Extends piece.scope? m (m.goOn host piece) := by
  cases piece with
  | evaluate depth v scope => exact (extension_admits_within host depth).evaluate v scope m
  | apply depth f args => exact (extension_admits_within host depth).apply f args m
  | set scope name v => exact .set scope name v m
  | newScope vars parent => exact .alloc _ m
  | enterNamespace name =>
    have h := (extension host).enterNamespace name (fun id => (extension host).pure id) m
    rw [bind_pure] at h
    exact h
  | newClosure => exact .of_eq rfl rfl (List.prefix_refl _)
  | print line => exact .print line m
  | report event => exact .report event m

/-- Soundness holds all along an activity, by induction on its pieces. -/
theorem Activity.sound {host : Host} {allowed : ScopeId → Prop} {m m' : Machine}
    (h : Activity host allowed m m') (hm : m.Sound) : m'.Sound := by
  induction h with
  | refl => exact hm
  | tail _ hstep ih =>
    obtain ⟨piece, -, rfl⟩ := hstep
    exact (Evolves.of_extends (extends_goOn host _ piece)).sound ih

end Machine

/-! ### Scopes that were left -/

/-- Whether a scope is there and belongs to no namespace. -/
structure Machine.Left (m : Machine) (id : ScopeId) (scope : Scope) : Prop where
  found : m.scopes[id]? = some scope
  unregistered : ¬ m.registry.Registers id

namespace Machine.Left

variable {m m' : Machine} {id : ScopeId} {scope : Scope}

theorem lt_size (h : m.Left id scope) : id < m.scopes.size :=
  (Array.getElem?_eq_some_iff.mp h.found).1

/-- A scope that was left stays left through any change that does not write there. -/
theorem evolves {target : Option ScopeId} (h : m.Left id scope) (hevolves : Evolves target m m')
    (htarget : target ≠ some id) : m'.Left id scope where
  found := by rw [hevolves.unwritten h.lt_size htarget h.unregistered, h.found]
  unregistered := hevolves.not_registers h.lt_size h.unregistered

/-- A session that evaluates only in the root and in namespaces never writes to a scope that was
left. -/
theorem session {ip ip' : Interpreter} (h : ip.machine.Left id scope)
    (hsession : Session InNamespaces ip ip') : ip'.machine.Left id scope :=
  h.evolves hsession.evolves nofun

end Machine.Left

end SmallLisp
