import SmallLisp.Proofs.Safety
import SmallLisp.Proofs.Session
/-!
# What every session keeps

Whatever is asked of an interpreter, and whether it succeeds or fails, the machine stays well-formed and
all results are well-formed, as long as the values and scopes that are handed in are well-formed and are
there (`Request.WellFormed`). Texts, bytes, names and paths may be anything.

A request may replace the root. The scopes without a parent are those that are the root now or were the
root after some earlier request (`rootsOver`). A request that evaluates carries out one job, outside of
all evaluations (`carries_handle`).
-/

namespace SmallLisp

/-! ### Changes of the registry -/

namespace Machine

variable {roots : ScopeId → Prop} {m : Machine}

theorem registry_report (event : Event) (m : Machine) : (m.report event).registry = m.registry := rfl

theorem WellFormed.report (h : m.WellFormed roots) (event : Event) :
    (m.report event).WellFormed roots :=
  h.of_eq rfl rfl

/-- A change that sets variables to well-formed values. -/
theorem WellFormed.extend {α : Type} (h : m.WellFormed roots) (name : String)
    {change : Table Value → α × Table Value}
    (hchange : Table.Sets (·.WellFormed m.scopes.size) fun vars => (change vars).2) :
    (m.extend name change).2.WellFormed roots := by
  have hregistry := registry_extend name change m
  have hsize := size_extend name change m
  cases hget : m.registry.get? name with
  | none =>
    simp only [Machine.extend, hget]
    exact h
  | some id =>
    have hscopes := getElem?_extend change m hget
    refine ⟨?_, ?_, hsize ▸ hregistry ▸ h.named, hregistry ▸ h.global⟩
    · intro other scope' hscope'
      rw [hscopes] at hscope'
      split at hscope'
      · obtain ⟨scope, hscope, rfl⟩ := Option.map_eq_some_iff.mp hscope'
        obtain ⟨hvars, hparent, hroots⟩ := h.scope hscope
        exact ⟨hsize ▸ hchange.wellFormed hvars, hparent, hroots⟩
      · rw [hsize]
        exact h.scope hscope'
    · obtain ⟨scope, hscope, hparent⟩ := h.root
      rw [hregistry, hscopes, hscope]
      split
      · exact ⟨_, rfl, hparent⟩
      · exact ⟨scope, rfl, hparent⟩

/-- The installer's way of extending a namespace keeps the machine well formed. -/
theorem WellFormed.setAll (h : m.WellFormed roots) (name : String) {vars : List (String × Value)}
    (hvars : ∀ var ∈ vars, var.2.WellFormed m.scopes.size) : (m.setAll name vars).WellFormed roots :=
  h.extend name (.setAll hvars)

/-- A reset scope is empty and hangs where the old one did; only a reset of the root makes a new
root. -/
theorem WellFormed.reset (h : m.WellFormed roots) (name : String)
    (hroot : name = Path.global → roots m.scopes.size) : (m.reset name).2.WellFormed roots := by
  unfold Machine.reset
  split
  · exact (h.report _).create name hroot
  · exact h

/-- Deleting a name takes its entry from the registry and leaves the scope, which closures may still
hold. -/
theorem WellFormed.delete (h : m.WellFormed roots) (name : String) :
    (m.delete name).2.WellFormed roots := by
  unfold Machine.delete
  split
  · exact h
  · split
    · exact h
    · refine ⟨h.scope, h.root, h.named.erase name, ?_⟩
      show Path.global ∉ (m.registry.named.erase name).keys
      rw [Table.keys_erase]
      exact fun hglobal => h.global (List.mem_of_mem_erase hglobal)

theorem wellFormed_nativeVars (natives : List Native) (size : Nat) :
    ∀ var ∈ nativeVars natives, var.2.WellFormed size := by
  simp [nativeVars]

/-! #### Natives -/

theorem root_create_of_ne {name : String} (hname : name ≠ Path.global) (m : Machine) :
    (m.create name).2.registry.root = m.registry.root := by
  simp only [Machine.create, hname, if_false]
  rfl

def installLibrary (m : Machine) (library : String × List Native) : Machine :=
  (m.create library.1).2.setAll library.1 (nativeVars library.2)

theorem install_eq (m : Machine) :
    m.install = Native.libraries.foldl installLibrary (m.setAll Path.global globalVars) := by
  rfl

/-- A library is a namespace of its own and never the root's, so the root stays. -/
theorem WellFormed.installLibraries (h : m.WellFormed roots) {libraries : List (String × List Native)}
    (hnames : ∀ library ∈ libraries, library.1 ≠ Path.global) :
    (libraries.foldl installLibrary m).WellFormed roots := by
  induction libraries generalizing m with
  | nil => exact h
  | cons library libraries ih =>
    obtain ⟨hname, hrest⟩ := List.forall_mem_cons.mp hnames
    have hcreate := h.create library.1 fun heq => absurd heq hname
    exact ih (hcreate.setAll library.1 (wellFormed_nativeVars library.2 _)) hrest

theorem root_installLibraries {libraries : List (String × List Native)}
    (hnames : ∀ library ∈ libraries, library.1 ≠ Path.global) (m : Machine) :
    (libraries.foldl installLibrary m).registry.root = m.registry.root := by
  induction libraries generalizing m with
  | nil => rfl
  | cons library libraries ih =>
    obtain ⟨hname, hrest⟩ := List.forall_mem_cons.mp hnames
    rw [List.foldl_cons, ih hrest, installLibrary, Machine.setAll, registry_extend,
      root_create_of_ne hname]

theorem libraries_ne_global : ∀ library ∈ Native.libraries, library.1 ≠ Path.global := by
  simp [Native.libraries, Path.global]

theorem wellFormed_globalVars (size : Nat) : ∀ var ∈ globalVars, var.2.WellFormed size := by
  intro var hvar
  rcases List.mem_append.mp hvar with hnative | hconstant
  · exact wellFormed_nativeVars Native.globals size var hnative
  · simp only [List.mem_cons, List.not_mem_nil, or_false] at hconstant
    rcases hconstant with rfl | rfl | rfl <;> simp

theorem WellFormed.install (h : m.WellFormed roots) : m.install.WellFormed roots := by
  rw [install_eq]
  exact (h.setAll Path.global (wellFormed_globalVars _)).installLibraries libraries_ne_global

/-- The natives are installed in the root that is there. -/
theorem root_install (m : Machine) : m.install.registry.root = m.registry.root := by
  rw [install_eq, root_installLibraries libraries_ne_global, Machine.setAll, registry_extend]

/-- Starting over makes the next scope the root, and all old scopes stay well formed. -/
theorem WellFormed.restart (h : m.WellFormed roots) (options : Options)
    (hroot : roots m.scopes.size) : (m.restart options).WellFormed roots := by
  have hreset := h.reset Path.global fun _ => hroot
  unfold Machine.restart
  dsimp only
  split
  · exact hreset.install.report _
  · exact hreset.report _

theorem root_restart (options : Options) (m : Machine) :
    (m.restart options).registry.root = m.scopes.size := by
  unfold Machine.restart
  dsimp only
  rw [registry_report]
  split
  · rw [root_install]
    rfl
  · rfl

/-- The machine before anything is installed has one scope, its root. -/
theorem wellFormed_initial : initial.WellFormed (· = 0) where
  scope := by
    intro id scope hscope
    obtain ⟨hid, rfl⟩ := Array.getElem?_eq_some_iff.mp hscope
    have hzero : id = 0 := Nat.lt_one_iff.mp hid
    subst hzero
    exact ⟨.nil, nofun, fun _ => rfl⟩
  root := ⟨⟨[], none⟩, rfl, rfl⟩
  named := .nil
  global := List.not_mem_nil

/-- Every interpreter starts well formed, with or without the libraries. -/
theorem wellFormed_start (options : Options) :
    (start options).WellFormed (· = (start options).registry.root) := by
  unfold Machine.start
  split
  · rw [root_install]
    exact wellFormed_initial.install
  · exact wellFormed_initial

end Machine

/-! ### Jobs and requests -/

open Context

/-- Whether the values of a job are well-formed and its scope is there. -/
def Job.WellFormed (size : Nat) : Job → Prop
  | evaluate v scope | fill v scope | expand v scope => v.WellFormed size ∧ scope < size
  | apply f args => (Value.function f).WellFormed size ∧ ∀ v ∈ args, v.WellFormed size
  | sequence forms scope => (∀ form ∈ forms, form.WellFormed size) ∧ scope < size
  | require _ scope => scope < size

/-- A well-formed job is one that the safety of evaluation speaks about. -/
theorem Job.WellFormed.goodJob {job : Job} {size : Nat} (h : job.WellFormed size) (host : Host)
    (roots : ScopeId → Prop) : (safety host roots).GoodJob size job := by
  cases job with
  | evaluate | fill | expand => exact ⟨Value.wellFormed_iff_regular.mp h.1, h.2⟩
  | apply f args =>
    exact ⟨Value.wellFormed_iff_regular.mp h.1, fun v hv => Value.wellFormed_iff_regular.mp (h.2 v hv)⟩
  | sequence forms scope =>
    exact ⟨fun form hform => Value.wellFormed_iff_regular.mp (h.1 form hform), h.2⟩
  | require path scope => exact h

/-- Whether what a host hands in is well-formed and is there. -/
def Request.WellFormed (size : Nat) : Request → Prop
  | evalIn _ scope | require _ scope => scope < size
  | evaluate v scope => v.WellFormed size ∧ scope < size
  | apply f args => (Value.function f).WellFormed size ∧ ∀ v ∈ args, v.WellFormed size
  | extendNamespace _ change => Table.Sets (·.WellFormed size) change
  | _ => True

namespace Interpreter

/-- To evaluate the forms of a text, if it is a program. -/
def textJob? (source : String) (scope : ScopeId) : Option Job :=
  match Datum.parseForms source with
  | .ok forms => some (.sequence forms scope)
  | .error _ => none

def job? (ip : Interpreter) : Request → Option Job
  | .eval source => textJob? source ip.root
  | .run bytes => (String.fromUTF8? bytes).bind fun source => textJob? source ip.root
  | .evalIn source scope => textJob? source scope
  | .evaluate v scope => some (.evaluate v scope)
  | .apply f args => some (.apply f args)
  | .require path scope => some (.require path scope)
  | _ => none

/-- The value that a request has, if it evaluates something and does not fail. -/
def value? (ip : Interpreter) : Request → Option Value
  | .eval source => (ip.eval source).1.toOption
  | .run bytes => (ip.run bytes).1.toOption
  | .evalIn source scope => (ip.evalIn source scope).1.toOption
  | .evaluate v scope => (ip.evaluate v scope).1.toOption
  | .apply f args => (ip.apply f args).1.toOption
  | .require path scope => (ip.require path scope).1.toOption
  | _ => none

/-- Whether an interpreter gets from here to there, with a value or without one, by a job that is not
nested in any evaluation. -/
def Carries (ip : Interpreter) (job : Job) (value : Option Value) (after : Interpreter) : Prop :=
  match job.run ip.host 0 ip.machine with
  | .ok v m => value = some v ∧ after = { ip with machine := m }
  | .error _ m => value = none ∧ after = { ip with machine := m }

/-- Performing a job changes nothing but the machine. -/
theorem carries_perform (ip : Interpreter) (job : Job) :
    ip.Carries job (ip.perform fun ctx => job.perform ctx).1.toOption
      (ip.perform fun ctx => job.perform ctx).2 := by
  simp only [Carries, Job.run, perform, outermost_eq_within]
  cases job.perform (within ip.host.limit 0) ip.host ip.machine with
  | ok v m => exact ⟨rfl, rfl⟩
  | error e m => exact ⟨rfl, rfl⟩

theorem toOption_mapError {ε ε' α : Type} (f : ε → ε') (result : Except ε α) :
    (result.mapError f).toOption = result.toOption := by
  cases result <;> rfl

theorem carries_evalIn (ip : Interpreter) {source : String} {scope : ScopeId} {job : Job}
    (h : textJob? source scope = some job) :
    ip.Carries job (ip.evalIn source scope).1.toOption (ip.evalIn source scope).2 := by
  unfold textJob? at h
  split at h
  · next forms hparse =>
    cases h
    simp only [evalIn, hparse, toOption_mapError]
    exact ip.carries_perform (.sequence forms scope)
  · cases h

/-- A text that does not parse gives no value and changes nothing. -/
theorem evalIn_of_textJob? (ip : Interpreter) {source : String} {scope : ScopeId}
    (h : textJob? source scope = none) :
    (ip.evalIn source scope).1.toOption = none ∧ (ip.evalIn source scope).2 = ip := by
  unfold textJob? at h
  split at h
  · cases h
  · next e hparse =>
    simp only [evalIn, hparse]
    exact ⟨rfl, trivial⟩

/-- **A request that evaluates is its job**, carried out with nothing else going on. -/
theorem carries_handle (ip : Interpreter) {request : Request} {job : Job}
    (h : ip.job? request = some job) : ip.Carries job (ip.value? request) (ip.handle request) := by
  cases request with
  | eval source => exact ip.carries_evalIn h
  | run bytes =>
    obtain ⟨source, hsource, hjob⟩ := Option.bind_eq_some_iff.mp h
    simp only [value?, handle, run, hsource]
    exact ip.carries_evalIn hjob
  | evalIn source scope => exact ip.carries_evalIn h
  | evaluate v scope =>
    cases h
    exact ip.carries_perform (.evaluate v scope)
  | apply f args =>
    cases h
    exact ip.carries_perform (.apply f args)
  | require path scope =>
    cases h
    exact ip.carries_perform (.require path scope)
  | reset | createNamespace | extendNamespace | resetNamespace | deleteNamespace => cases h

/-- Without a job, there is nothing to evaluate. -/
theorem handle_of_job?_none (ip : Interpreter) {request : Request}
    (hevaluation : request.isEvaluation = true) (h : ip.job? request = none) :
    ip.value? request = none ∧ ip.handle request = ip := by
  cases request with
  | eval source => exact ip.evalIn_of_textJob? h
  | run bytes =>
    simp only [value?, handle, run]
    cases hsource : String.fromUTF8? bytes with
    | none => exact ⟨rfl, rfl⟩
    | some source =>
      have hjob : textJob? source ip.root = none := by simpa [job?, hsource] using h
      exact ip.evalIn_of_textJob? hjob
  | evalIn source scope => exact ip.evalIn_of_textJob? h
  | evaluate | apply | require => cases h
  | reset | createNamespace | extendNamespace | resetNamespace | deleteNamespace => cases hevaluation

/-- The forms of a text are data, so only the scope has to be there. -/
theorem wellFormed_textJob? {source : String} {scope : ScopeId} {job : Job} {size : Nat}
    (h : textJob? source scope = some job) (hscope : scope < size) : job.WellFormed size := by
  unfold textJob? at h
  split at h
  · next forms hparse =>
    cases h
    exact ⟨fun form hform => (Datum.isDatum_of_parseForms hparse form hform).wellFormed, hscope⟩
  · cases h

/-- A request on a well-formed interpreter comes to a well-formed job: what it names is looked up in
well-formed scopes. -/
theorem wellFormed_job? {roots : ScopeId → Prop} (ip : Interpreter)
    (hip : ip.machine.WellFormed roots) {request : Request}
    (hrequest : request.WellFormed ip.machine.scopes.size) {job : Job}
    (h : ip.job? request = some job) : job.WellFormed ip.machine.scopes.size := by
  cases request with
  | eval source => exact wellFormed_textJob? h hip.root_lt
  | run bytes =>
    obtain ⟨source, -, hjob⟩ := Option.bind_eq_some_iff.mp h
    exact wellFormed_textJob? hjob hip.root_lt
  | evalIn source scope => exact wellFormed_textJob? h hrequest
  | evaluate | apply | require =>
    cases h
    exact hrequest
  | reset | createNamespace | extendNamespace | resetNamespace | deleteNamespace => cases h

/-- The scopes that are roots after a request, if these were roots before. -/
def rootsAfter (ip : Interpreter) (roots : ScopeId → Prop) (request : Request) (id : ScopeId) : Prop :=
  roots id ∨ id = (ip.handle request).root

/-- Whatever is kept track of is kept by a job. -/
theorem inOrder_of_carries (t : Tracking) {s : t.Stage} {ip after : Interpreter} (hhost : t.host = ip.host)
    (hip : t.inOrder s ip.machine) {job : Job} (hjob : t.GoodJob s job) {value : Option Value}
    (h : ip.Carries job value after) :
    ∃ s', t.Leads s s' ∧ t.inOrder s' after.machine ∧ ∀ v, value = some v → t.Good s' v := by
  have hend : t.Ends s t.Good (job.run ip.host 0 ip.machine) := by
    rw [← hhost]
    exact Tracking.safe_job 0 hjob ip.machine hip
  unfold Carries at h
  generalize job.run ip.host 0 ip.machine = outcome at h hend
  cases outcome with
  | ok v m =>
    obtain ⟨rfl, rfl⟩ := h
    obtain ⟨s', hs, hm, hv⟩ := hend
    refine ⟨s', hs, hm, ?_⟩
    rintro _ ⟨rfl⟩
    exact hv
  | error e m =>
    obtain ⟨rfl, rfl⟩ := h
    obtain ⟨s', hs, hm⟩ := hend
    exact ⟨s', hs, hm, nofun⟩

/-- A job on a well-formed machine leaves one, with a well-formed value if it gives any. -/
theorem wellFormed_of_carries {roots : ScopeId → Prop} {ip after : Interpreter}
    (hip : ip.machine.WellFormed roots) {job : Job} (hjob : job.WellFormed ip.machine.scopes.size)
    {value : Option Value} (h : ip.Carries job value after) :
    after.machine.WellFormed roots ∧ ∀ v, value = some v → v.WellFormed after.machine.scopes.size := by
  obtain ⟨_, -, ⟨hm, rfl⟩, hvalue⟩ :=
    inOrder_of_carries (safety ip.host roots) rfl ⟨hip, rfl⟩ (hjob.goodJob ip.host roots) h
  exact ⟨hm, fun v hv => Value.wellFormed_iff_regular.mpr (hvalue v hv)⟩

/-- **A request keeps the machine well-formed**, whether it succeeds or fails, and its value is
well-formed. -/
theorem wellFormed_handle {roots : ScopeId → Prop} (ip : Interpreter)
    (hip : ip.machine.WellFormed roots) {request : Request}
    (hrequest : request.WellFormed ip.machine.scopes.size) :
    (ip.handle request).machine.WellFormed (ip.rootsAfter roots request) ∧
      ∀ v, ip.value? request = some v → v.WellFormed (ip.handle request).machine.scopes.size := by
  have hkept : ip.machine.WellFormed (ip.rootsAfter roots request) := hip.imp fun _ hid => .inl hid
  by_cases hevaluation : request.isEvaluation = true
  · cases hjob : ip.job? request with
    | none =>
      obtain ⟨hvalue, hhandle⟩ := ip.handle_of_job?_none hevaluation hjob
      rw [hvalue, hhandle]
      exact ⟨hkept, nofun⟩
    | some job =>
      exact wellFormed_of_carries hkept (ip.wellFormed_job? hip hrequest hjob) (ip.carries_handle hjob)
  · -- what is left changes the registry, and may replace the root
    cases request with
    | reset =>
      exact ⟨hkept.restart ip.options (.inr (Machine.root_restart ip.options ip.machine).symm), nofun⟩
    | createNamespace name =>
      refine ⟨hkept.create name ?_, nofun⟩
      rintro rfl
      exact .inr rfl
    | extendNamespace name change => exact ⟨hkept.extend name hrequest, nofun⟩
    | resetNamespace name =>
      refine ⟨hkept.reset name ?_, nofun⟩
      rintro rfl
      exact .inr rfl
    | deleteNamespace name => exact ⟨hkept.delete name, nofun⟩
    | eval | run | evalIn | evaluate | apply | require => exact absurd rfl hevaluation

/-! ### Sessions -/

def handleAll (ip : Interpreter) (requests : List Request) : Interpreter :=
  requests.foldl handle ip

/-- Whether all that a host hands in with its requests is well-formed and is there at that time. -/
def WellUsed (ip : Interpreter) : List Request → Prop
  | [] => True
  | request :: requests =>
    request.WellFormed ip.machine.scopes.size ∧ (ip.handle request).WellUsed requests

/-- The roots that an interpreter has had by the end of some requests. -/
def rootsOver (ip : Interpreter) (requests : List Request) (id : ScopeId) : Prop :=
  ∃ earlier, earlier <+: requests ∧ (ip.handleAll earlier).root = id

/-- **Every session keeps the machine well formed**, where each reset of the root adds a scope
without a parent. By induction on the requests. -/
theorem wellFormed_handleAll {roots : ScopeId → Prop} {requests : List Request} (ip : Interpreter)
    (hip : ip.machine.WellFormed roots) (h : ip.WellUsed requests) :
    (ip.handleAll requests).machine.WellFormed fun id => roots id ∨ ip.rootsOver requests id := by
  induction requests generalizing ip roots with
  | nil => exact hip.imp fun _ hid => .inl hid
  | cons request requests ih =>
    obtain ⟨hrequest, hrest⟩ := h
    apply (ih (ip.handle request) (ip.wellFormed_handle hip hrequest).1 hrest).imp
    -- a root now was one before, is that of the first request, or is that of a later one
    rintro id ((hid | rfl) | ⟨earlier, hearlier, rfl⟩)
    · exact .inl hid
    · exact .inr ⟨[request], by simp, rfl⟩
    · exact .inr ⟨request :: earlier, by simpa using hearlier, rfl⟩

end Interpreter

end SmallLisp
