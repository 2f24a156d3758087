import SmallLisp.Proofs.Invariant
/-!
# A closure is known by its identity

Closures are compared by their identities, and an identity is a number. That is enough because
**closures of one identity are one closure**, wherever in an interpreter they are found and whatever it
was asked to do before (`Interpreter.Serves.closure_eq`): identities are given out one after the
other, so the closures that were made can be listed, each at the place that is its identity. The list
grows while evaluation goes on, and every closure in the machine is on it; that is kept track of
(`identification`).

A host may hand in closures too. They have to be ones that it has found in the interpreter or was given
by it.
-/

namespace SmallLisp

/-- Whether a closure is on a list of closures, at the place that is its identity. -/
def Closure.MadeIn (made : List (Closure Value)) (f : Closure Value) : Prop :=
  made[f.identity]? = some f

/-- Making more closures forgets none. -/
theorem Closure.MadeIn.mono {made made' : List (Closure Value)} {f : Closure Value}
    (h : f.MadeIn made) (hmade : made <+: made') : f.MadeIn made' := by
  obtain ⟨more, rfl⟩ := hmade
  have hlt : f.identity < made.length := (List.getElem?_eq_some_iff.mp h).1
  rw [Closure.MadeIn, List.getElem?_append_left hlt]
  exact h

/-! ### Machines -/

/-- Whether a list has all closures that were made, in order, and those of the variables are on it. -/
structure Machine.Lists (m : Machine) (made : List (Closure Value)) : Prop where
  length : made.length = m.closures
  vars : ∀ {id : ScopeId} {scope : Scope}, m.scopes[id]? = some scope →
    scope.vars.WellFormed (·.Regular (·.MadeIn made))

namespace Machine

variable {m m' : Machine} {made made' : List (Closure Value)}

theorem Lists.of_eq (h : m.Lists made) (hscopes : m'.scopes = m.scopes)
    (hclosures : m'.closures = m.closures) : m'.Lists made where
  length := h.length.trans hclosures.symm
  vars := by
    rw [hscopes]
    exact h.vars

theorem Lists.report (h : m.Lists made) (event : Event) : (m.report event).Lists made :=
  h.of_eq rfl rfl

theorem Lists.alloc (h : m.Lists made) {scope : Scope}
    (hscope : scope.vars.WellFormed (·.Regular (·.MadeIn made))) : (m.alloc scope).2.Lists made where
  length := h.length
  vars := by
    intro id scope' hscope'
    have hpush : (m.scopes.push scope)[id]? = some scope' := hscope'
    rw [Array.getElem?_push] at hpush
    split at hpush
    · cases hpush
      exact hscope
    · exact h.vars hpush

theorem Lists.set (h : m.Lists made) (id : ScopeId) (name : String) {v : Value}
    (hv : v.Regular (·.MadeIn made)) : (m.set id name v).Lists made where
  length := h.length
  vars := by
    intro other scope' hscope'
    have hmodify : (m.scopes.modify id fun scope =>
        { scope with vars := scope.vars.set name v })[other]? = some scope' := hscope'
    rw [Array.getElem?_modify] at hmodify
    split at hmodify
    · obtain ⟨scope, hscope, rfl⟩ := Option.map_eq_some_iff.mp hmodify
      exact (h.vars hscope).set name hv
    · exact h.vars hmodify

theorem Lists.create (h : m.Lists made) (name : String) : (m.create name).2.Lists made := by
  unfold Machine.create
  split
  · exact (h.alloc .nil).of_eq rfl rfl
  · exact (h.alloc .nil).of_eq rfl rfl

/-- A closure that is made comes last. -/
theorem Lists.make (h : m.Lists made) {f : Closure Value} (hf : f.identity = m.closures) :
    Lists { m with closures := m.closures + 1 } (made ++ [f]) ∧ f.MadeIn (made ++ [f]) := by
  constructor
  · constructor
    · simp [h.length]
    · intro id scope hscope
      refine (h.vars hscope).imp fun v hv => ?_
      exact hv.imp fun f hf => hf.mono (List.prefix_append _ _)
  · rw [Closure.MadeIn, hf, ← h.length]
    simp

/-- A host that sets well-made values in a namespace makes no closure of its own. -/
theorem Lists.extend {α : Type} (h : m.Lists made) (name : String)
    {change : Table Value → α × Table Value}
    (hchange : Table.Sets (·.Regular (·.MadeIn made)) fun vars => (change vars).2) :
    (m.extend name change).2.Lists made := by
  cases hget : m.registry.get? name with
  | none =>
    simp only [Machine.extend, hget]
    exact h
  | some id =>
    have hclosures : (m.extend name change).2.closures = m.closures := by
      simp only [Machine.extend, hget]
      rfl
    refine ⟨h.length.trans hclosures.symm, ?_⟩
    intro other scope' hscope'
    rw [getElem?_extend change m hget] at hscope'
    split at hscope'
    · obtain ⟨scope, hscope, rfl⟩ := Option.map_eq_some_iff.mp hscope'
      exact hchange.wellFormed (h.vars hscope)
    · exact h.vars hscope'

theorem Lists.setAll (h : m.Lists made) (name : String) {vars : List (String × Value)}
    (hvars : ∀ var ∈ vars, var.2.Regular (·.MadeIn made)) : (m.setAll name vars).Lists made :=
  h.extend name (.setAll hvars)

/-- A reset scope is a new, empty one, so only the registry changes for the closures. -/
theorem Lists.reset (h : m.Lists made) (name : String) : (m.reset name).2.Lists made := by
  unfold Machine.reset
  split
  · exact (h.report _).create name
  · exact h

theorem Lists.delete (h : m.Lists made) (name : String) : (m.delete name).2.Lists made := by
  unfold Machine.delete
  split
  · exact h
  · split
    · exact h
    · exact h.of_eq rfl rfl

theorem regular_nativeVars (natives : List Native) (known : Closure Value → Prop) :
    ∀ var ∈ nativeVars natives, var.2.Regular known := by
  simp [nativeVars]

theorem Lists.install (h : m.Lists made) : m.install.Lists made := by
  have hglobals : ∀ var ∈ globalVars, var.2.Regular (·.MadeIn made) := by
    rw [globalVars, List.forall_mem_append]
    exact ⟨regular_nativeVars _ _, by simp⟩
  have hlibraries : ∀ (libraries : List (String × List Native)) (m : Machine), m.Lists made →
      (libraries.foldl installLibrary m).Lists made := by
    intro libraries
    induction libraries with
    | nil => exact fun _ hm => hm
    | cons library libraries ih =>
      exact fun m hm => ih _ ((hm.create library.1).setAll library.1 (regular_nativeVars _ _))
  rw [install_eq]
  exact hlibraries _ _ (h.setAll Path.global hglobals)

/-- Starting over installs natives only, and the closures made before stay listed. -/
theorem Lists.restart (h : m.Lists made) (options : Options) : (m.restart options).Lists made := by
  have hreset := h.reset Path.global
  unfold Machine.restart
  dsimp only
  split
  · exact hreset.install.report _
  · exact hreset.report _

theorem lists_start (options : Options) : (start options).Lists [] := by
  have hinitial : initial.Lists [] := by
    refine ⟨rfl, ?_⟩
    intro id scope hscope
    obtain ⟨hid, rfl⟩ := Array.getElem?_eq_some_iff.mp hscope
    obtain rfl : id = 0 := Nat.lt_one_iff.mp hid
    exact .nil
  unfold Machine.start
  split
  · exact hinitial.install
  · exact hinitial

end Machine

/-- The closures that were made, as something to keep track of. -/
def identification (host : Host) : Tracking where
  host := host
  Stage := List (Closure Value)
  Leads made made' := made <+: made'
  inOrder made m := m.Lists made
  known made f := f.MadeIn made
  there _ _ := True
  leads_refl := List.prefix_refl
  leads_trans := List.IsPrefix.trans
  known_mono hmade hf := hf.mono hmade
  there_mono _ _ := trivial
  there_scope _ := trivial
  there_get? _ _ := trivial
  vars h hscope := h.vars hscope
  report event h := h.report event
  print _ h := h.of_eq rfl rfl
  set id name _ h hv := h.set id name hv
  alloc h hvars _ := ⟨_, List.prefix_refl _, h.alloc hvars, trivial⟩
  create h _ := ⟨_, List.prefix_refl _, h.create _, trivial⟩
  make _ _ _ _ _ h _ _ _ := ⟨_, List.prefix_append _ _, h.make rfl⟩

/-! ### Closures in values -/

/-- Whether a closure is in a value, however deep inside. -/
inductive Value.Contains (f : Closure Value) : Value → Prop where
  | self : Contains f (.function (.closure f))
  | item {v : Value} {items : List Value} : v ∈ items → Contains f v → Contains f (.list items)
  | entry {pair : String × Value} {entries : List (String × Value)} : pair ∈ entries →
      Contains f pair.2 → Contains f (.hash entries)
  | form {form : Value} {g : Closure Value} : form ∈ g.body → Contains f form →
      Contains f (.function (.closure g))

/-- The closures of a regular value are known. -/
theorem Value.Regular.of_contains {known : Closure Value → Prop} {v : Value} {f : Closure Value}
    (h : v.Regular known) (hf : v.Contains f) : known f := by
  induction hf with
  | self => exact (regular_closure.mp h).1
  | item hv _ ih => exact ih (regular_list.mp h _ hv)
  | entry hpair _ ih => exact ih ((regular_hash.mp h).values _ hpair)
  | form hform _ ih => exact ih ((regular_closure.mp h).2 _ hform)

/-! ### Sessions -/

/-- Whether what a host hands in is regular, given which closures are known. -/
def Request.Hands (known : Closure Value → Prop) : Request → Prop
  | evaluate v _ => v.Regular known
  | apply f args => (Value.function f).Regular known ∧ ∀ v ∈ args, v.Regular known
  | extendNamespace _ change => Table.Sets (·.Regular known) change
  | _ => True

theorem Request.Hands.imp {known known' : Closure Value → Prop} {request : Request}
    (h : request.Hands known) (himp : ∀ f, known f → known' f) : request.Hands known' := by
  cases request with
  | evaluate v scope => exact Value.Regular.imp h himp
  | apply f args => exact ⟨h.1.imp himp, fun v hv => (h.2 v hv).imp himp⟩
  | extendNamespace name change => exact Table.Sets.imp h fun _ hv => hv.imp himp
  | _ => trivial

namespace Interpreter

variable {ip start : Interpreter} {made : List (Closure Value)} {given : List Value}

/-- A program's text holds data only, and data hold no closures. -/
theorem goodJob_textJob? {source : String} {scope : ScopeId} {job : Job}
    (h : textJob? source scope = some job) (host : Host) (made : List (Closure Value)) :
    (identification host).GoodJob made job := by
  unfold textJob? at h
  split at h
  · next forms hparse =>
    cases h
    exact ⟨fun form hform => (Datum.isDatum_of_parseForms hparse form hform).regular, trivial⟩
  · cases h

/-- What a request evaluates or applies are values the host was handed, or data read from a text. -/
theorem goodJob_job? (ip : Interpreter) {request : Request} (hrequest : request.Hands (·.MadeIn made))
    {job : Job} (h : ip.job? request = some job) : (identification ip.host).GoodJob made job := by
  cases request with
  | eval source => exact goodJob_textJob? h _ _
  | run bytes =>
    obtain ⟨source, -, hjob⟩ := Option.bind_eq_some_iff.mp h
    exact goodJob_textJob? hjob _ _
  | evalIn source scope => exact goodJob_textJob? h _ _
  | evaluate v scope =>
    cases h
    exact ⟨hrequest, trivial⟩
  | apply f args =>
    cases h
    exact hrequest
  | require path scope =>
    cases h
    exact trivial
  | reset | createNamespace | extendNamespace | resetNamespace | deleteNamespace => cases h

/-- **A request makes the list longer**, and the closures of its value are on it. -/
theorem lists_handle (ip : Interpreter) (hip : ip.machine.Lists made) {request : Request}
    (hrequest : request.Hands (·.MadeIn made)) :
    ∃ made', made <+: made' ∧ (ip.handle request).machine.Lists made' ∧
      ∀ v, ip.value? request = some v → v.Regular (·.MadeIn made') := by
  by_cases hevaluation : request.isEvaluation = true
  · cases hjob : ip.job? request with
    | none =>
      obtain ⟨hvalue, hhandle⟩ := ip.handle_of_job?_none hevaluation hjob
      rw [hvalue, hhandle]
      exact ⟨made, List.prefix_refl made, hip, nofun⟩
    | some job =>
      exact inOrder_of_carries (identification ip.host) rfl hip (ip.goodJob_job? hrequest hjob)
        (ip.carries_handle hjob)
  · refine ⟨made, List.prefix_refl made, ?_⟩
    cases request with
    | reset => exact ⟨hip.restart ip.options, nofun⟩
    | createNamespace name => exact ⟨hip.create name, nofun⟩
    | extendNamespace name change => exact ⟨hip.extend name hrequest, nofun⟩
    | resetNamespace name => exact ⟨hip.reset name, nofun⟩
    | deleteNamespace name => exact ⟨hip.delete name, nofun⟩
    | eval | run | evalIn | evaluate | apply | require => exact absurd rfl hevaluation

/-- Whether a value is that of a variable, or among those that a host was given. -/
def Holds (ip : Interpreter) (given : List Value) (v : Value) : Prop :=
  v ∈ given ∨ ∃ (id : ScopeId) (scope : Scope) (name : String),
    ip.machine.scopes[id]? = some scope ∧ scope.vars.get? name = some v

/-- The interpreters that requests lead to, together with the values that the host was given, if the host
hands in closures only that it has got from there. -/
inductive Serves (start : Interpreter) : Interpreter → List Value → Prop where
  | start : Serves start start []
  | request {ip : Interpreter} {given : List Value} {request : Request} : Serves start ip given →
      request.Hands (fun f => ∃ v, ip.Holds given v ∧ v.Contains f) →
      Serves start (ip.handle request) ((ip.value? request).toList ++ given)

/-- The value of a request is one more value the host may hand back. -/
theorem Serves.request_of_value {request : Request} {v : Value} (h : Serves start ip given)
    (hrequest : request.Hands fun f => ∃ v, ip.Holds given v ∧ v.Contains f)
    (hv : ip.value? request = some v) : Serves start (ip.handle request) (v :: given) := by
  simpa [hv] using h.request hrequest

/-- Every closure a host can lay its hands on, in a scope or in an answer, was made by the
interpreter. -/
theorem regular_of_holds (hip : ip.machine.Lists made)
    (hgiven : ∀ v ∈ given, v.Regular (·.MadeIn made)) {v : Value} (hv : ip.Holds given v) :
    v.Regular (·.MadeIn made) := by
  rcases hv with hmem | ⟨id, scope, name, hscope, hget⟩
  · exact hgiven v hmem
  · exact (hip.vars hscope).get? hget

/-- All along a served session there is one list of closures by identity, in the order in which they
were made. -/
theorem Serves.exists_lists {options : Options} {read : String → Except ReadFailure String}
    (h : Serves (new options read) ip given) :
    ∃ made, ip.machine.Lists made ∧ ∀ v ∈ given, v.Regular (·.MadeIn made) := by
  induction h with
  | start => exact ⟨[], Machine.lists_start options, by simp⟩
  | @request ip given request _ hrequest ih =>
    obtain ⟨made, hip, hgiven⟩ := ih
    have hhands : request.Hands (·.MadeIn made) := by
      refine hrequest.imp ?_
      rintro f ⟨v, hv, hf⟩
      exact (regular_of_holds hip hgiven hv).of_contains hf
    obtain ⟨made', hmade, hip', hvalue⟩ := ip.lists_handle hip hhands
    refine ⟨made', hip', ?_⟩
    rw [List.forall_mem_append]
    exact ⟨fun v hv => hvalue v (Option.mem_toList.mp hv),
      fun v hv => (hgiven v hv).imp fun _ hf => hf.mono hmade⟩

/-- **Closures of one identity are one closure.** -/
theorem Serves.closure_eq {options : Options} {read : String → Except ReadFailure String}
    (h : Serves (new options read) ip given) {a b : Value} (ha : ip.Holds given a)
    (hb : ip.Holds given b) {f g : Closure Value} (hf : a.Contains f) (hg : b.Contains g)
    (hidentity : f.identity = g.identity) : f = g := by
  obtain ⟨made, hip, hgiven⟩ := h.exists_lists
  have hmade : f.MadeIn made := (regular_of_holds hip hgiven ha).of_contains hf
  have hmade' : g.MadeIn made := (regular_of_holds hip hgiven hb).of_contains hg
  rw [Closure.MadeIn, hidentity] at hmade
  exact Option.some.inj (hmade.symm.trans hmade')

end Interpreter

end SmallLisp
