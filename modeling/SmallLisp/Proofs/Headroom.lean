import Mathlib
import SmallLisp.Proofs.Session
/-!
# Ways to run a program

The forms of a program text can be evaluated one after the other, as a module, or as the one datum
that the text stands for. **All of these do the same.** A sequence of forms in one datum is itself
evaluated, though, and takes up one more level than its forms do on their own. So what has to be shown
is that levels do not matter as such: **evaluation sees its depth and its limit only as their
difference**, the number of evaluations left. Further in, under a limit that is higher by as much, it
does the same (`deeper_admits_within`).

Two things do show how deep a run is and where its limit lies: the reports of calls, which name the
depth, and the fault at the limit. In runs that are *parallel* these are shifted, and all the rest is
the same.
-/

namespace SmallLisp

open Machine Context

/-! ### Parallel runs -/

/-- The report that is made instead of an event if it happens so many levels further in. -/
def Event.deeper (levels : Nat) : Event → Event
  | .applying function depth => .applying function (depth + levels)
  | event => event

/-- Only the traces carry a depth; the other events look the same at any. -/
theorem Event.deeper_of_level {event : Event} (h : event.level = .debug) (levels : Nat) :
    event.deeper levels = event := by
  cases event with
  | applying function depth => cases h
  | _ => rfl

def Host.raised (host : Host) (levels : Nat) : Host :=
  { host with limit := host.limit + levels }

/-- Two runs next to each other: the second one takes place further in, under a limit that is higher
by as many levels. -/
structure Shift where
  /-- What the first run relies on. -/
  host : Host
  /-- How much further in the second run takes place. -/
  levels : Nat
  /-- What was reported before the first run. -/
  reported : Array Event
  /-- What was reported before the second run. -/
  reported' : Array Event

def Shift.host' (s : Shift) : Host :=
  s.host.raised s.levels

/-- Whether the machines of two runs are the same, apart from reports made before the runs and from
the depth in reports of calls. -/
def Shift.Relates (s : Shift) (m m' : Machine) : Prop :=
  ∃ new : Array Event, m.events = s.reported ++ new ∧
    m' = { m with events := s.reported' ++ new.map (Event.deeper s.levels) }

namespace Shift.Relates

variable {s : Shift} {m m' : Machine}

theorem start (host : Host) (levels : Nat) (m m' : Machine)
    (h : m' = { m with events := m'.events }) :
    Shift.Relates ⟨host, levels, m.events, m'.events⟩ m m' :=
  ⟨#[], by simp, by simpa using h⟩

theorem report (event : Event) (h : s.Relates m m') :
    s.Relates (m.report event) (m'.report (event.deeper s.levels)) := by
  obtain ⟨new, hevents, rfl⟩ := h
  exact ⟨new.push event, by simp [Machine.report, hevents], by simp [Machine.report]⟩

/-- An event without a depth is reported alike on both sides. -/
theorem reportSame {event : Event} (hlevel : event.level = .debug) (h : s.Relates m m') :
    s.Relates (m.report event) (m'.report event) := by
  have hreport := h.report event
  rwa [Event.deeper_of_level hlevel] at hreport

/-- What does not look at the reports keeps machines related. -/
theorem update (change : Machine → Machine)
    (hchange : ∀ m events, change { m with events := events } = { change m with events := events })
    (hevents : ∀ m, (change m).events = m.events) (h : s.Relates m m') :
    s.Relates (change m) (change m') := by
  obtain ⟨new, hnew, rfl⟩ := h
  exact ⟨new, by rw [hevents, hnew], hchange _ _⟩

theorem create (name : String) (h : s.Relates m m') :
    (m'.create name).1 = (m.create name).1 ∧
      s.Relates (m.create name).2 (m'.create name).2 := by
  obtain ⟨new, hevents, rfl⟩ := h
  unfold Machine.create
  split
  · exact ⟨rfl, reportSame rfl ⟨new, hevents, rfl⟩⟩
  · exact ⟨rfl, reportSame rfl ⟨new, hevents, rfl⟩⟩

end Shift.Relates

/-- Whether two runs have the same outcome, with the limits of their hosts standing for each other. -/
inductive Parallel (s : Shift) {α : Type} : Outcome α → Outcome α → Prop where
  | value (a : α) {m m' : Machine} : s.Relates m m' → Parallel s (.ok a m) (.ok a m')
  | fault {e : Fault} {m m' : Machine} :
      e.isFatal = false → s.Relates m m' → Parallel s (.error e m) (.error e m')
  | limit {m m' : Machine} :
      s.Relates m m' →
        Parallel s (.error (.recursionLimit s.host.limit) m)
          (.error (.recursionLimit (s.host.limit + s.levels)) m')

/-- Two runs that go side by side stay so through whatever comes next, as long as that does. -/
theorem Parallel.bind {s : Shift} {α β : Type} {x x' : Eval α} {f f' : α → Eval β}
    {m m' : Machine} (hx : Parallel s (x s.host m) (x' s.host' m'))
    (hf : ∀ a m m', s.Relates m m' → Parallel s (f a s.host m) (f' a s.host' m')) :
    Parallel s ((x >>= f) s.host m) ((x' >>= f') s.host' m') := by
  generalize hrun : x s.host m = result at hx
  generalize hrun' : x' s.host' m' = result' at hx
  cases hx with
  | value a hm =>
    rw [Eval.bind_of_ok hrun, Eval.bind_of_ok hrun']
    exact hf a _ _ hm
  | fault he hm =>
    rw [Eval.bind_of_error hrun, Eval.bind_of_error hrun']
    exact .fault he hm
  | limit hm =>
    rw [Eval.bind_of_error hrun, Eval.bind_of_error hrun']
    exact .limit hm

/-- Running in parallel, as a property of pairs of evaluations. -/
def deeper (s : Shift) : EvalLogic Bool where
  Holds _ _ x := ∀ m m', s.Relates m m' → Parallel s (x false s.host m) (x true s.host' m')
  weaken h := h
  pure a _ _ hm := .value a hm
  throw _ he _ _ hm := .fault he hm
  bind hx hf m m' hm := (hx m m' hm).bind hf
  report _ hlevel _ _ hm := .value () (hm.reportSame hlevel)
  print line _ _ hm := .value () (hm.update (Machine.print line) (fun _ _ => rfl) fun _ => rfl)
  set scope name v _ _ hm :=
    .value () (hm.update (Machine.set scope name v) (fun _ _ => rfl) fun _ => rfl)
  closure _ := by
    rintro m _ ⟨new, hevents, rfl⟩
    exact .value _ ⟨new, hevents, rfl⟩
  resolve symbol scope := by
    rintro m _ ⟨new, hevents, rfl⟩
    show Parallel s (Eval.ofExcept (m.resolve symbol scope) s.host m)
      (Eval.ofExcept (m.resolve symbol scope) s.host' _)
    have hordinary := ordinary_resolve m symbol scope
    cases hresolve : m.resolve symbol scope with
    | ok v => exact .value v ⟨new, hevents, rfl⟩
    | error e =>
      rw [hresolve] at hordinary
      exact .fault hordinary ⟨new, hevents, rfl⟩
  newScope vars parent _ hf := by
    rintro m _ ⟨new, hevents, rfl⟩
    exact hf m.scopes.size _ _ ⟨new, hevents, rfl⟩
  enterNamespace name f hf m m' hm := by
    have henter : Parallel s (enterNamespace name s.host m) (enterNamespace name s.host' m') := by
      have hregistry : m'.registry = m.registry := by
        obtain ⟨new, -, rfl⟩ := hm
        rfl
      obtain ⟨hid, hcreate⟩ := hm.create name
      rw [enterNamespace_eq, enterNamespace_eq, hregistry, hid]
      split
      · split
        · exact .value _ hm
        · exact .value _ hcreate
      · exact .fault rfl hm
    exact henter.bind hf
  enterRoot _ hf := by
    rintro m _ ⟨new, hevents, rfl⟩
    exact hf m.registry.root m _ ⟨new, hevents, rfl⟩
  readModule path _ hf := hf (s.host.read path)

def Shift.context (s : Shift) (depth : Nat) (second : Bool) : Context :=
  if second then within s.host'.limit (depth + s.levels) else within s.host.limit depth

/-- **Where as many evaluations are left, evaluation does the same**: by induction on how many these
are. At the limit both runs end, each with its own limit. -/
theorem deeper_admits_within (s : Shift) (depth : Nat) : (deeper s).Admits (s.context depth) := by
  have hlimit : s.host'.limit = s.host.limit + s.levels := rfl
  induction depth using depth_induction s.host.limit with
  | atLimit depth hle =>
    -- as many levels are left on both sides, here none
    have hle' : s.host'.limit ≤ depth + s.levels := by omega
    refine ⟨fun f m m' hm => .value () (hm.report _), ?_, ?_⟩
    · intro v scope m m' hm
      show Parallel s ((within s.host.limit depth).evaluate v scope s.host m)
        ((within s.host'.limit (depth + s.levels)).evaluate v scope s.host' m')
      rw [evaluate_within_of_le hle, evaluate_within_of_le hle']
      exact .limit hm
    · intro template scope m m' hm
      show Parallel s ((within s.host.limit depth).fill template scope s.host m)
        ((within s.host'.limit (depth + s.levels)).fill template scope s.host' m')
      rw [fill_within_of_le hle, fill_within_of_le hle']
      exact .limit hm
  | below depth hlt hnested =>
    have hlt' : depth + s.levels < s.host'.limit := by omega
    have hsucc : s.context (depth + 1) true =
        within s.host'.limit (depth + s.levels + 1) := by
      simp only [Shift.context, Nat.add_right_comm]
      rfl
    refine ⟨fun f m m' hm => .value () (hm.report _), ?_, ?_⟩
    · intro v scope m m' hm
      have hstep := hnested.step v scope m m' hm
      simp only [hsucc, ← evaluate_within hlt'] at hstep
      show Parallel s ((within s.host.limit depth).evaluate v scope s.host m) _
      rw [evaluate_within hlt]
      exact hstep
    · intro template scope m m' hm
      have hfill := hnested.fillTemplate template scope m m' hm
      simp only [hsucc, ← fill_within hlt'] at hfill
      show Parallel s ((within s.host.limit depth).fill template scope s.host m) _
      rw [fill_within hlt]
      exact hfill

/-! ### Forms, modules and whole programs -/

/-- A module is evaluated like its forms, after a report. -/
theorem require_parallel (host : Host) (depth : Nat) {path source : String} {forms : List Value}
    (hsource : host.read path = .ok source) (hparse : Datum.parseForms source = .ok forms)
    (scope : ScopeId) (m : Machine) :
    Parallel ⟨host, 0, m.events, m.events.push (.moduleLoaded path source.utf8ByteSize)⟩
      ((within host.limit depth).sequence forms scope host m)
      ((within host.limit depth).require path scope host m) := by
  have hload : (within host.limit depth).require path scope host m =
      (within host.limit depth).sequence forms scope host
        (m.report (.moduleLoaded path source.utf8ByteSize)) := by
    rw [require_eq]
    show (within host.limit depth).load path scope (host.read path) host m = _
    simp only [hsource, load, hparse]
    rfl
  rw [hload]
  exact (deeper_admits_within _ depth).sequence forms scope m _ (.start host 0 m _ rfl)

/-- A single form is evaluated like the sequence of it. -/
theorem sequence_singleton (ctx : Context) (form : Value) (scope : ScopeId) :
    ctx.sequence [form] scope = ctx.evaluate form scope :=
  List.foldlM_cons.trans (bind_pure _)

/-- The datum of several forms needs one level more than they do. -/
theorem evaluate_program_parallel (host : Host) (depth : Nat) {forms : List Value}
    (hforms : 2 ≤ forms.length) (scope : ScopeId) (m : Machine) :
    Parallel ⟨host, 1, m.events, m.events⟩
      ((within host.limit depth).sequence forms scope host m)
      ((within (host.limit + 1) depth).evaluate (Datum.program forms) scope (host.raised 1) m) := by
  obtain ⟨first, second, rest, rfl⟩ : ∃ first second rest, forms = first :: second :: rest := by
    match forms, hforms with
    | first :: second :: rest, _ => exact ⟨first, second, rest, rfl⟩
  have hstart := Shift.Relates.start host 1 m m rfl
  by_cases hle : depth ≤ host.limit
  · have hlt : depth < (host.raised 1).limit := Nat.lt_succ_of_le hle
    have hstep := evaluate_within hlt (Datum.program (first :: second :: rest)) scope m
    rw [show host.limit + 1 = (host.raised 1).limit from rfl, hstep]
    exact (deeper_admits_within _ depth).sequence (first :: second :: rest) scope m m hstart
  · -- the datum is not evaluated at all, and neither is the first form on its own
    have hlimit : host.limit ≤ depth := by omega
    have hlimit' : (host.raised 1).limit ≤ depth := Nat.lt_of_not_le hle
    have hfirst : (within host.limit depth).sequence (first :: second :: rest) scope host m =
        .error (.recursionLimit host.limit) m := by
      apply Eval.bind_of_error
      show (within host.limit depth).evaluate first scope host m = _
      rw [evaluate_within_of_le hlimit]
      rfl
    rw [hfirst, show host.limit + 1 = (host.raised 1).limit from rfl,
      evaluate_within_of_le hlimit']
    exact .limit hstart

/-! ### Interpreters -/

/-- The fault that stands for another one if the limit is higher by so many levels. -/
def Fault.raised (limit levels : Nat) (e : Fault) : Fault :=
  if e = .recursionLimit limit then .recursionLimit (limit + levels) else e

namespace Interpreter

def raised (ip : Interpreter) (levels : Nat) : Interpreter :=
  { ip with options := { ip.options with maxDepth := ip.options.maxDepth + levels } }

/-- Runs side by side give an interpreter the same answer and the same machine, up to the depths in
the events and the limit in the error. -/
theorem perform_of_parallel (ip : Interpreter) {s : Shift} (hhost : s.host = ip.host) {α : Type}
    (action action' : Context → Eval α)
    (h : Parallel s (action (within ip.host.limit 0) ip.host ip.machine)
      (action' (within (ip.host.limit + s.levels) 0) (ip.host.raised s.levels) ip.machine)) :
    ((ip.raised s.levels).perform action').1 =
        (ip.perform action).1.mapError (Fault.raised ip.options.maxDepth s.levels) ∧
      s.Relates (ip.perform action).2.machine ((ip.raised s.levels).perform action').2.machine := by
  have hsecond : (ip.raised s.levels).host = ip.host.raised s.levels := rfl
  have hlimit : (ip.host.raised s.levels).limit = ip.host.limit + s.levels := rfl
  have hmaxDepth : ip.options.maxDepth = s.host.limit := by rw [hhost, Interpreter.host]
  have hmachine : (ip.raised s.levels).machine = ip.machine := rfl
  simp only [perform, outermost_eq_within, hsecond, hlimit, hmaxDepth, hmachine]
  generalize action (within ip.host.limit 0) ip.host ip.machine = result at h
  generalize action' (within (ip.host.limit + s.levels) 0) _ ip.machine = result' at h
  cases h with
  | value a hm => exact ⟨rfl, hm⟩
  | @fault e _ _ he hm =>
    refine ⟨?_, hm⟩
    -- a fault that both runs end with is not the lower limit's own
    have hne : e ≠ .recursionLimit s.host.limit := by
      rintro rfl
      cases he
    simp [Except.mapError, Fault.raised, hne]
  | limit hm => exact ⟨by simp [Except.mapError, Fault.raised], hm⟩

theorem mapError_raised_zero {α : Type} (limit : Nat) (result : Except Fault α) :
    result.mapError (Fault.raised limit 0) = result := by
  cases result with
  | ok a => rfl
  | error e =>
    simp only [Except.mapError, Fault.raised]
    split <;> simp_all

end Interpreter

open Interpreter in
/-- **The ways to run a program text agree**: at every depth and in every state, and so for what an
interpreter offers. To evaluate a text in a scope and to require a module with that text has the same
result and leaves the same state behind, but for the report of the module. So does evaluating the
datum of the text if it is a single form. If there are several forms, their datum does under a limit
that is higher by one what the text does, one level further in; and where the text reaches its limit,
the datum reaches the higher one. -/
theorem ways_to_run_agree {source : String} {forms : List Value}
    (hparse : Datum.parseForms source = .ok forms) (hforms : forms ≠ []) (scope : ScopeId) :
    Datum.parseProgram source = .ok (Datum.program forms) ∧
    (∀ (host : Host) (depth : Nat) (m : Machine),
      let run := (within host.limit depth).sequence forms scope host m
      (∀ path, host.read path = .ok source →
        Parallel ⟨host, 0, m.events, m.events.push (.moduleLoaded path source.utf8ByteSize)⟩ run
          ((within host.limit depth).require path scope host m)) ∧
      (forms.length = 1 →
        (within host.limit depth).evaluate (Datum.program forms) scope host m = run) ∧
      (2 ≤ forms.length →
        Parallel ⟨host, 1, m.events, m.events⟩ run
          ((within (host.limit + 1) depth).evaluate (Datum.program forms) scope (host.raised 1) m))) ∧
    (∀ ip : Interpreter, ∃ result after,
      ip.evalIn source scope = (result.mapError .fault, after) ∧
      (∀ path, ip.read path = .ok source →
        let reported := ip.machine.events.push (.moduleLoaded path source.utf8ByteSize)
        (ip.require path scope).1 = result ∧
          Shift.Relates ⟨ip.host, 0, ip.machine.events, reported⟩ after.machine
            (ip.require path scope).2.machine) ∧
      (forms.length = 1 → ip.evaluate (Datum.program forms) scope = (result, after)) ∧
      (2 ≤ forms.length →
        ((ip.raised 1).evaluate (Datum.program forms) scope).1 =
            result.mapError (Fault.raised ip.options.maxDepth 1) ∧
          Shift.Relates ⟨ip.host, 1, ip.machine.events, ip.machine.events⟩ after.machine
            ((ip.raised 1).evaluate (Datum.program forms) scope).2.machine)) := by
  -- the datum of a single form is the form, so it takes up no level of its own
  have hsingle : ∀ ctx : Context, forms.length = 1 →
      ctx.evaluate (Datum.program forms) scope = ctx.sequence forms scope := by
    intro ctx hone
    obtain ⟨form, rfl⟩ := List.length_eq_one_iff.mp hone
    exact (sequence_singleton ctx form scope).symm
  refine ⟨by rw [Datum.parseProgram, hparse]; rfl, ?_, ?_⟩
  · intro host depth m run
    refine ⟨?_, ?_, ?_⟩
    · intro path hsource
      exact require_parallel host depth hsource hparse scope m
    · intro hone
      rw [hsingle _ hone]
    · intro hmany
      exact evaluate_program_parallel host depth hmany scope m
  · intro ip
    refine ⟨(ip.perform fun ctx => ctx.sequence forms scope).1,
      (ip.perform fun ctx => ctx.sequence forms scope).2, ?_, ?_, ?_, ?_⟩
    · simp only [evalIn, hparse]
    · intro path hsource
      have h := ip.perform_of_parallel rfl (·.sequence forms scope) (·.require path scope)
        (require_parallel ip.host 0 hsource hparse scope ip.machine)
      rwa [mapError_raised_zero] at h
    · intro hone
      rw [Interpreter.evaluate, funext fun ctx => hsingle ctx hone]
    · intro hmany
      exact ip.perform_of_parallel rfl (·.sequence forms scope)
        (·.evaluate (Datum.program forms) scope)
        (evaluate_program_parallel ip.host 0 hmany scope ip.machine)

/-- Two forms, the first of which needs two levels, under a limit of one: every way to run them ends
at the limit, and their datum ends at the higher one. -/
theorem ways_to_run_agree_limit :
    let source := "(begin :a) :b"
    let forms : List Value := [.list [.symbol "begin", .keyword ":a"], .keyword ":b"]
    let ip : Interpreter := .new ⟨1, false⟩ fun _ => .ok source
    Datum.parseForms source = .ok forms ∧ 2 ≤ forms.length ∧
    (ip.evalIn source 0).1 = .error (.fault (.recursionLimit 1)) ∧
    (ip.require "m" 0).1 = .error (.recursionLimit 1) ∧
    ((ip.raised 1).evaluate (Datum.program forms) 0).1 = .error (.recursionLimit 2) := by
  intro source forms ip
  have hparse : Datum.parseForms source = .ok forms := by cbv
  obtain ⟨-, -, hinterpreter⟩ := ways_to_run_agree hparse (List.cons_ne_nil _ _) 0
  obtain ⟨result, after, heval, hrequire, -, hdatum⟩ := hinterpreter ip
  have hfault : (ip.evalIn source 0).1 = .error (.fault (.recursionLimit 1)) := by
    simp only [Interpreter.evalIn, hparse]
    rfl
  have hresult : result = .error (.recursionLimit 1) := by
    rw [heval] at hfault
    cases result with
    | ok v => cases hfault
    | error e =>
      cases hfault
      rfl
  refine ⟨hparse, by decide, hfault, ?_, ?_⟩
  · rw [(hrequire "m" rfl).1, hresult]
  · rw [(hdatum (by decide)).1, hresult]
    rfl

end SmallLisp
