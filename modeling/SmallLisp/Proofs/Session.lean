import Mathlib.Logic.Relation
import SmallLisp.Proofs.Extension
/-!
# Sessions

A host drives an interpreter by requests, one after the other. `Interpreter.handle` is the
interpreter after one request; a *session* is any number of requests, each of which a policy allows
at the time it is made. A state is *reachable* if some session without restrictions leads to it from
a new interpreter.

Requests do more than evaluations: they may replace the root and drop or replace namespaces. What is
left of `Machine.Extends` is `Machine.Evolves`, and every request evolves the machine
(`evolves_handle`), whether it succeeds or fails. Two things follow for sessions: the scopes of
namespaces are always there (`Reachable.sound`), and **a scope that belongs to no namespace changes
only if a request evaluates in it** (`Session.evolves`).
-/

namespace SmallLisp

inductive Request where
  | eval (source : String)
  | run (bytes : ByteArray)
  | evalIn (source : String) (scope : ScopeId)
  | evaluate (v : Value) (scope : ScopeId)
  | apply (f : Function Value) (args : List Value)
  | require (path : String) (scope : ScopeId)
  | reset
  | createNamespace (name : String)
  /-- To change the variables of a namespace, in a way that may depend on them. -/
  | extendNamespace (name : String) (change : Table Value → Table Value)
  | resetNamespace (name : String)
  | deleteNamespace (name : String)

/-- The scope that a request asks to evaluate in. -/
def Request.scope? : Request → Option ScopeId
  | evalIn _ scope | evaluate _ scope | require _ scope => some scope
  | _ => none

/-- Whether a request evaluates something. The others change the registry. -/
def Request.isEvaluation : Request → Bool
  | eval _ | run _ | evalIn _ _ | evaluate _ _ | apply _ _ | require _ _ => true
  | reset | createNamespace _ | extendNamespace _ _ | resetNamespace _ | deleteNamespace _ => false

namespace Interpreter

def handle (ip : Interpreter) : Request → Interpreter
  | .eval source => (ip.eval source).2
  | .run bytes => (ip.run bytes).2
  | .evalIn source scope => (ip.evalIn source scope).2
  | .evaluate v scope => (ip.evaluate v scope).2
  | .apply f args => (ip.apply f args).2
  | .require path scope => (ip.require path scope).2
  | .reset => ip.reset
  | .createNamespace name => { ip with machine := (ip.machine.create name).2 }
  | .extendNamespace name change =>
    { ip with machine := (ip.machine.extend name fun vars => ((), change vars)).2 }
  | .resetNamespace name => { ip with machine := (ip.machine.reset name).2 }
  | .deleteNamespace name => { ip with machine := (ip.machine.delete name).2 }

/-- From one interpreter to another by requests that are allowed. -/
def Session (allowed : Interpreter → Request → Prop) : Interpreter → Interpreter → Prop :=
  Relation.ReflTransGen fun ip ip' => ∃ request, allowed ip request ∧ ip.handle request = ip'

/-- The states that any use of an interpreter may lead to. -/
def Reachable (ip : Interpreter) : Prop :=
  ∃ options read, Session (fun _ _ => True) (new options read) ip

/-- The policy to evaluate only in the root and in namespaces. -/
def InNamespaces (ip : Interpreter) (request : Request) : Prop :=
  ∀ scope, request.scope? = some scope → ip.machine.registry.Registers scope

end Interpreter

namespace Machine

/-- What a request that may write to the target does to a machine. -/
structure Evolves (target : Option ScopeId) (m m' : Machine) : Prop where
  size : m.scopes.size ≤ m'.scopes.size
  /-- Only new scopes become those of a namespace. -/
  registers : ∀ {id : ScopeId}, m'.registry.Registers id →
    m.registry.Registers id ∨ (m.scopes.size ≤ id ∧ id < m'.scopes.size)
  unwritten : ∀ {id : ScopeId}, id < m.scopes.size → target ≠ some id →
    ¬ m.registry.Registers id → m'.scopes[id]? = m.scopes[id]?

/-- The scopes of namespaces are in the store. -/
def Sound (m : Machine) : Prop :=
  ∀ id, m.registry.Registers id → id < m.scopes.size

namespace Evolves

variable {target : Option ScopeId} {m m' m'' : Machine}

theorem sound (h : Evolves target m m') (hm : m.Sound) : m'.Sound := by
  intro id hid
  rcases h.registers hid with hold | ⟨-, hnew⟩
  · exact Nat.lt_of_lt_of_le (hm id hold) h.size
  · exact hnew

/-- An old scope without a name never gets one, since names are given to new scopes. -/
theorem not_registers (h : Evolves target m m') {id : ScopeId} (hid : id < m.scopes.size)
    (hnot : ¬ m.registry.Registers id) : ¬ m'.registry.Registers id := by
  intro hregistered
  rcases h.registers hregistered with hold | ⟨hnew, -⟩
  · exact hnot hold
  · exact absurd hid (Nat.not_lt.mpr hnew)

theorem refl (m : Machine) : Evolves target m m :=
  ⟨Nat.le_refl _, fun h => .inl h, fun _ _ _ => rfl⟩

/-- Requests one after the other, each with its own new scopes. -/
theorem trans (h : Evolves target m m') (h' : Evolves target m' m'') : Evolves target m m'' where
  size := Nat.le_trans h.size h'.size
  registers := by
    intro id hid
    rcases h'.registers hid with hid | ⟨hle, hlt⟩
    · rcases h.registers hid with hold | ⟨hle, hlt⟩
      · exact .inl hold
      · exact .inr ⟨hle, Nat.lt_of_lt_of_le hlt h'.size⟩
    · exact .inr ⟨Nat.le_trans h.size hle, hlt⟩
  unwritten := by
    intro id hid htarget hnot
    rw [h'.unwritten (Nat.lt_of_lt_of_le hid h.size) htarget (h.not_registers hid hnot),
      h.unwritten hid htarget hnot]

/-- Writing to the scope of a namespace needs no target. -/
theorem of_registers {id : ScopeId} (h : Evolves (some id) m m')
    (hid : m.registry.Registers id) : Evolves none m m' where
  size := h.size
  registers := h.registers
  unwritten := by
    intro other hother _ hnot
    apply h.unwritten hother ?_ hnot
    rintro ⟨rfl⟩
    exact hnot hid

theorem of_extends (h : Extends target m m') : Evolves target m m' :=
  ⟨h.size, h.registers, h.unwritten⟩

/-! ### Changes of the registry -/

/-- A scope that is made for a name is new, and no other one becomes that of a namespace. -/
theorem create (name : String) (m : Machine) : Evolves target m (m.create name).2 := by
  have halloc : ∀ scope, Evolves target m (m.alloc scope).2 := fun scope =>
    of_extends (.alloc scope m)
  unfold Machine.create
  split
  -- either the root is replaced, or the namespace is entered or replaced
  · refine ⟨(halloc _).size, ?_, (halloc _).unwritten⟩
    intro id hid
    rcases hid with hroot | hnamed
    · right
      cases hroot
      simp [Machine.report, Machine.alloc, Scopes.alloc]
    · exact .inl (.inr hnamed)
  · refine ⟨(halloc _).size, ?_, (halloc _).unwritten⟩
    intro id hid
    rcases hid with hroot | ⟨name', hname'⟩
    · exact .inl (.inl hroot)
    · rcases Table.mem_of_mem_set hname' with hold | hnew
      · exact .inl (.inr ⟨name', hold⟩)
      · right
        cases hnew
        simp [Machine.report, Machine.alloc, Scopes.alloc]

/-- A host's change to a namespace writes in a registered scope, where every request may write. -/
theorem extend {α : Type} (name : String) (change : Table Value → α × Table Value) (m : Machine) :
    Evolves none m (m.extend name change).2 where
  size := Nat.le_of_eq (size_extend name change m).symm
  registers := by
    rw [registry_extend]
    exact .inl
  unwritten := by
    intro other _ _ hnot
    cases hget : m.registry.get? name with
    | none => simp only [Machine.extend, hget]
    | some id =>
      have hne : id ≠ other := by
        rintro rfl
        exact hnot (Registry.registers_of_get? hget)
      rw [getElem?_extend change m hget, if_neg hne]

/-- A reset registers a new scope and leaves the old one as it is. -/
theorem reset (name : String) (m : Machine) : Evolves none m (m.reset name).2 := by
  unfold Machine.reset
  split
  · have hreport : Evolves none m (m.report (.namespaceReset name)) := of_extends (.report _ m)
    exact hreport.trans (create name _)
  · exact .refl m

theorem delete (name : String) (m : Machine) : Evolves none m (m.delete name).2 := by
  unfold Machine.delete
  split
  · exact .refl m
  · split
    · exact .refl m
    · refine ⟨Nat.le_refl _, ?_, fun _ _ _ => rfl⟩
      intro id hid
      left
      rcases hid with hroot | ⟨name', hname'⟩
      · exact .inl hroot
      · exact .inr ⟨name', Table.mem_of_mem_erase hname'⟩

theorem install (m : Machine) : Evolves none m m.install := by
  have hlibraries : ∀ (libraries : List (String × List Native)) (m : Machine),
      Evolves none m (libraries.foldl (fun m library =>
        (m.create library.1).2.setAll library.1 (nativeVars library.2)) m) := by
    intro libraries
    induction libraries with
    | nil => exact .refl
    | cons library libraries ih =>
      intro m
      exact ((create library.1 m).trans (extend library.1 _ _)).trans (ih _)
  exact (extend Path.global _ m).trans (hlibraries _ _)

/-- Starting over keeps every scope and leads some names to new ones. -/
theorem restart (options : Options) (m : Machine) : Evolves none m (m.restart options) := by
  have hreport : ∀ m : Machine, Evolves none m (m.report .interpreterReset) := fun m =>
    of_extends (.report _ m)
  unfold Machine.restart
  dsimp only
  split
  · exact ((reset Path.global m).trans (install _)).trans (hreport _)
  · exact (reset Path.global m).trans (hreport _)

end Evolves

theorem sound_initial : initial.Sound := by
  rintro id (rfl | ⟨name, hname⟩)
  · exact Nat.zero_lt_one
  · cases hname

end Machine

/-! ### Requests -/

namespace Interpreter

open Machine Context

theorem perform_snd {α : Type} (ip : Interpreter) (action : Context → Eval α) :
    (ip.perform action).2 =
      { ip with machine := (action (within ip.host.limit 0)).after ip.host ip.machine } := by
  simp only [perform, Eval.after, outermost_eq_within]
  cases action (within ip.host.limit 0) ip.host ip.machine <;> rfl

/-- What holds of an action holds of the interpreter that performs it. -/
theorem extends_perform {target : Option ScopeId} {α : Type} (ip : Interpreter)
    {action : Context → Eval α}
    (h : (extension ip.host).Holds target fun _ => action (within ip.host.limit 0)) :
    Extends target ip.machine (ip.perform action).2.machine := by
  rw [perform_snd]
  exact h ip.machine

/-- Running a text extends the machine in the scope it is run in, and not at all if it does not
parse. -/
theorem extends_evalIn (ip : Interpreter) (source : String) (scope : ScopeId) :
    Extends (some scope) ip.machine (ip.evalIn source scope).2.machine := by
  unfold evalIn
  cases Datum.parseForms source with
  | error e => exact .refl _
  | ok forms => exact ip.extends_perform ((extension_admits_within ip.host 0).sequence forms scope)

/-- The scope that a request evaluates in. A program text is evaluated in the root. -/
def target? (ip : Interpreter) : Request → Option ScopeId
  | .eval _ | .run _ => some ip.root
  | request => request.scope?

/-- **A request that evaluates extends the machine**, whether it succeeds or fails. -/
theorem extends_handle (ip : Interpreter) {request : Request} (h : request.isEvaluation = true) :
    Extends (ip.target? request) ip.machine (ip.handle request).machine := by
  have hadmits := extension_admits_within ip.host 0
  cases request with
  | eval source => exact ip.extends_evalIn source ip.root
  | run bytes =>
    show Extends (some ip.root) ip.machine (ip.run bytes).2.machine
    unfold run
    split
    · exact ip.extends_evalIn _ ip.root
    · exact .refl _
  | evalIn source scope => exact ip.extends_evalIn source scope
  | evaluate v scope => exact ip.extends_perform (hadmits.evaluate v scope)
  | apply f args => exact ip.extends_perform (hadmits.apply f args)
  | require path scope => exact ip.extends_perform (hadmits.require path scope)
  | reset | createNamespace | extendNamespace | resetNamespace | deleteNamespace => cases h

/-- **A request evolves the machine**, whether it succeeds or fails. -/
theorem evolves_handle (ip : Interpreter) (request : Request) :
    Evolves request.scope? ip.machine (ip.handle request).machine := by
  have hevaluation : ∀ request : Request, request.isEvaluation = true →
      Evolves (ip.target? request) ip.machine (ip.handle request).machine := fun _ h =>
    .of_extends (ip.extends_handle h)
  cases request with
  -- everyone may write to the root
  | eval source => exact (hevaluation (.eval source) rfl).of_registers (.inl rfl)
  | run bytes => exact (hevaluation (.run bytes) rfl).of_registers (.inl rfl)
  | evalIn source scope => exact hevaluation (.evalIn source scope) rfl
  | evaluate v scope => exact hevaluation (.evaluate v scope) rfl
  | apply f args => exact hevaluation (.apply f args) rfl
  | require path scope => exact hevaluation (.require path scope) rfl
  | reset => exact .restart ip.options ip.machine
  | createNamespace name => exact .create name ip.machine
  | extendNamespace name change => exact .extend name _ ip.machine
  | resetNamespace name => exact .reset name ip.machine
  | deleteNamespace name => exact .delete name ip.machine

/-! ### Sessions -/

theorem Session.sound {allowed : Interpreter → Request → Prop} {ip ip' : Interpreter}
    (h : Session allowed ip ip') (hip : ip.machine.Sound) : ip'.machine.Sound := by
  induction h with
  | refl => exact hip
  | tail _ hstep ih =>
    obtain ⟨request, -, rfl⟩ := hstep
    exact (evolves_handle _ request).sound ih

/-- Every interpreter that a host can come to is sound. -/
theorem Reachable.sound {ip : Interpreter} (h : ip.Reachable) : ip.machine.Sound := by
  obtain ⟨options, read, h⟩ := h
  apply Session.sound h
  unfold new start
  dsimp only
  split
  · exact (Evolves.install initial).sound sound_initial
  · exact sound_initial

/-- **What belongs to no namespace stays as it is** in every session that evaluates only in the root
and in namespaces: such a session, as a whole, has no target. -/
theorem Session.evolves {ip ip' : Interpreter} (h : Session InNamespaces ip ip') :
    Evolves none ip.machine ip'.machine := by
  induction h with
  | refl => exact .refl _
  | @tail ip₁ _ _ hstep ih =>
    obtain ⟨request, hallowed, rfl⟩ := hstep
    apply ih.trans
    have hrequest := ip₁.evolves_handle request
    cases hscope : request.scope? with
    | none => rwa [hscope] at hrequest
    | some scope =>
      -- whoever evaluates in the scope of a namespace writes where everyone may
      rw [hscope] at hrequest
      exact hrequest.of_registers (hallowed scope hscope)

end Interpreter

end SmallLisp
