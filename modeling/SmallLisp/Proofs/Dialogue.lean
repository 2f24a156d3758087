import Mathlib.Tactic.Choose
import SmallLisp.Proofs.Extension
/-!
# What evaluations ask for

An evaluation is made of others: it evaluates parts of its form, fills in templates inside its
template and calls functions. This file says of every such *job* which others it asks for, and in
which order.

To see what a job asks for, the answers are left open: `Job.body` is one evaluation or call in which
everything that is nested is handed to a function `answers`. It may be anything, and
`Job.run_eq_body` says that if it runs the nested jobs, the body is the job itself. **What a body
does with unknown answers is a dialogue**: it ends with some outcome, or it asks for a job from some
machine and goes on depending on how that one ends (`exists_dialogue`). A dialogue may go on in any way
after a job has failed. The dialogues of evaluations, though, are *orderly*: a job that fails is the
last one that they ask for, and its outcome is theirs.
-/

namespace SmallLisp

open Context

/-! ### Tasks -/

inductive Job where
  | evaluate (v : Value) (scope : ScopeId)
  /-- To fill in a template inside another one. -/
  | fill (template : Value) (scope : ScopeId)
  | apply (f : Function Value) (args : List Value)
  | sequence (forms : List Value) (scope : ScopeId)
  /-- To fill in a template that is not inside another one. -/
  | expand (template : Value) (scope : ScopeId)
  | require (path : String) (scope : ScopeId)

namespace Job

def perform (ctx : Context) : Job → Eval Value
  | evaluate v scope => ctx.evaluate v scope
  | fill template scope => ctx.fill template scope
  | apply f args => ctx.apply f args
  | sequence forms scope => ctx.sequence forms scope
  | expand template scope => ctx.fillTemplate template scope
  | require path scope => ctx.require path scope

/-- How a job ends that is nested in `depth` evaluations. -/
def run (host : Host) (depth : Nat) (job : Job) (m : Machine) : Outcome Value :=
  job.perform (within host.limit depth) host m

/-- Whether a job counts as a nested evaluation. -/
def isCounted : Job → Bool
  | evaluate _ _ | fill _ _ => true
  | _ => false

/-- How many evaluations the parts of a job are nested in. -/
def inside (job : Job) (depth : Nat) : Nat :=
  if job.isCounted then depth + 1 else depth

/-- A context in which nested evaluations are answered. -/
def asking (answers : Job → Eval Value) (depth : Nat) : Context where
  depth := depth
  evaluate v scope := answers (.evaluate v scope)
  fill template scope := answers (.fill template scope)

/-- An evaluation that may not be nested in as many others as the limit says. -/
def guarded (depth : Nat) (x : Eval Value) : Eval Value := do
  if (← read).limit ≤ depth then limitReached else x

/-- A job, with everything nested in it left open. -/
def body (depth : Nat) (job : Job) (answers : Job → Eval Value) : Eval Value :=
  let ctx := asking answers (job.inside depth)
  let call (f : Function Value) (args : List Value) := answers (.apply f args)
  match job with
  | evaluate v scope => guarded depth (ctx.stepWith call v scope)
  | fill template scope => guarded depth (ctx.fillTemplate template scope)
  | apply f args => ctx.callWith call f args
  | sequence forms scope => ctx.sequence forms scope
  | expand template scope => ctx.fillTemplate template scope
  | require path scope => ctx.require path scope

/-- Below the limit the guard lets its body through. -/
theorem guarded_of_lt {host : Host} {depth : Nat} (h : depth < host.limit) (x : Eval Value)
    (m : Machine) : guarded depth x host m = x host m := by
  show (if host.limit ≤ depth then limitReached else x) host m = _
  rw [if_neg (Nat.not_le.mpr h)]

/-- At the limit the guard answers in its body's place. -/
theorem guarded_of_le {host : Host} {depth : Nat} (h : host.limit ≤ depth) (x : Eval Value)
    (m : Machine) : guarded depth x host m = limitReached host m := by
  show (if host.limit ≤ depth then limitReached else x) host m = _
  rw [if_pos h]

/-- **A job is its body**, with the nested jobs carried out. -/
theorem run_eq_body (host : Host) (depth : Nat) (job : Job) (m : Machine) :
    job.run host depth m =
      job.body depth (perform (within host.limit (job.inside depth))) host m := by
  cases job with
  | evaluate v scope =>
    show (within host.limit depth).evaluate v scope host m =
      guarded depth ((within host.limit (depth + 1)).stepWith _ v scope) host m
    -- the guard and the evaluator make the same comparison
    rcases Nat.lt_or_ge depth host.limit with hlt | hle
    · rw [guarded_of_lt hlt, evaluate_within hlt, step_eq_stepWith]
      rfl
    · rw [guarded_of_le hle, evaluate_within_of_le hle]
  | fill template scope =>
    show (within host.limit depth).fill template scope host m =
      guarded depth ((within host.limit (depth + 1)).fillTemplate template scope) host m
    rcases Nat.lt_or_ge depth host.limit with hlt | hle
    · rw [guarded_of_lt hlt, fill_within hlt]
    · rw [guarded_of_le hle, fill_within_of_le hle]
  | apply f args =>
    show (within host.limit depth).apply f args host m = _
    rw [apply_eq_callWith]
    rfl
  | sequence | expand | require => rfl

/-- Whether a job may ask for another one: any evaluation, and any call unless it is a call itself,
which only calls back. -/
def MayAsk : Job → Job → Prop
  | _, evaluate _ _ | _, fill _ _ => True
  | apply _ args, apply _ args' => Callback args' args
  | _, apply _ _ => True
  | _, _ => False

/-- Whether the limit lets a job do nothing: it counts, and is nested in as many evaluations already. -/
def IsRefused (limit depth : Nat) (job : Job) : Prop :=
  job.isCounted = true ∧ limit ≤ depth

/-- A refused job asks nothing, whatever it would be answered. -/
theorem IsRefused.body_eq {host : Host} {depth : Nat} {job : Job} (h : job.IsRefused host.limit depth)
    (answers : Job → Eval Value) (m : Machine) : job.body depth answers host m = limitReached host m := by
  obtain ⟨hcounted, hle⟩ := h
  cases job with
  | evaluate | fill => exact guarded_of_le hle _ m
  | apply | sequence | expand | require => cases hcounted

/-- **Induction on what jobs ask for.** Below the limit an evaluation asks only for jobs that are one
level further in. A call may ask for calls at its own level, but only for callbacks, and these end. -/
theorem asking_induction {motive : Nat → Job → Prop} (limit : Nat)
    (step : ∀ depth job, (¬ job.IsRefused limit depth →
      ∀ job', job.MayAsk job' → motive (job.inside depth) job') → motive depth job)
    (depth : Nat) (job : Job) : motive depth job := by
  -- calls at one level: callbacks are well-founded, and all else they ask for is counted
  have hcall : ∀ depth, (∀ job : Job, job.isCounted = true → motive depth job) →
      ∀ f args, motive depth (.apply f args) := by
    intro depth hcounted f args
    induction args using wellFounded_callback.induction generalizing f with
    | _ args ih =>
      apply step
      intro _ job hask
      cases job with
      | evaluate | fill => exact hcounted _ rfl
      | apply g args' => exact ih args' hask g
      | sequence | expand | require => cases hask
  have hasked : ∀ depth, (∀ job : Job, job.isCounted = true → motive depth job) →
      ∀ job job' : Job, job.MayAsk job' → motive depth job' := by
    intro depth hcounted job job' hask
    cases job' with
    | evaluate | fill => exact hcounted _ rfl
    | apply f args => exact hcall depth hcounted f args
    | sequence | expand | require => cases job <;> cases hask
  -- counted jobs: by the levels that are left, since what they ask for is one level further in
  have hcounted : ∀ (job : Job), job.isCounted = true → motive depth job := by
    induction depth using depth_induction limit with
    | atLimit depth hle =>
      intro job hjob
      exact step depth job fun hallowed => absurd ⟨hjob, hle⟩ hallowed
    | below depth hlt ih =>
      intro job hjob
      apply step
      intro _ job' hask
      rw [inside, if_pos hjob]
      exact hasked (depth + 1) ih job job' hask
  cases hjob : job.isCounted with
  | true => exact hcounted job hjob
  | false =>
    apply step
    intro _ job' hask
    rw [inside, if_neg (by simp [hjob])]
    exact hasked depth hcounted job job' hask

end Job

/-! ### Dialogues -/

/-- What is done when the answers to what is asked for are not known beforehand. -/
inductive Dialogue (α : Type) where
  /-- It is over. -/
  | done (outcome : Outcome α)
  /-- A job is asked for from a machine, and how it goes on depends on how the job ends. -/
  | ask (job : Job) (m : Machine) (next : Outcome Value → Dialogue α)

namespace Dialogue

variable {α β : Type}

def asked (answer : Job → Machine → Outcome Value) : Dialogue α → List (Job × Machine)
  | done _ => []
  | ask job m next => (job, m) :: (next (answer job m)).asked answer

def outcome (answer : Job → Machine → Outcome Value) : Dialogue α → Outcome α
  | done outcome => outcome
  | ask job m next => (next (answer job m)).outcome answer

/-- Whether an evaluation is a dialogue: it has its outcome whatever the answers are. -/
def Describes (d : Dialogue α) (x : (Job → Eval Value) → Eval α) (host : Host) (m : Machine) :
    Prop :=
  ∀ answers, x answers host m = d.outcome fun job => answers job host

/-- Whether a dialogue asks only for jobs that are allowed and ends as soon as one fails, in the same
way. -/
inductive Orderly (allowed : Job → Prop) : Dialogue α → Prop where
  | done (outcome : Outcome α) : Orderly allowed (done outcome)
  | ask {job : Job} (m : Machine) {next : Outcome Value → Dialogue α} :
      allowed job → (∀ v m', Orderly allowed (next (.ok v m'))) →
        (∀ e m', next (.error e m') = done (.error e m')) → Orderly allowed (ask job m next)

/-- The dialogue of a job, with the jobs that it asks for carried out, ends like the job. -/
theorem Describes.outcome_run {host : Host} {depth : Nat} {job : Job} {m : Machine} {d : Dialogue Value}
    (h : d.Describes (job.body depth) host m) :
    d.outcome (Job.run host (job.inside depth)) = job.run host depth m := by
  rw [job.run_eq_body, h]
  rfl

/-- Only the answers to what is asked for matter. -/
theorem outcome_congr {answer answer' : Job → Machine → Outcome Value} (d : Dialogue α)
    (h : ∀ job m, (job, m) ∈ d.asked answer → answer' job m = answer job m) :
    d.outcome answer' = d.outcome answer := by
  induction d with
  | done outcome => rfl
  | ask job m next ih =>
    rw [outcome, outcome, h job m List.mem_cons_self]
    exact ih _ fun job' m' hmem => h job' m' (List.mem_cons_of_mem _ hmem)

def bind (d : Dialogue α) (f : α → Machine → Dialogue β) : Dialogue β :=
  match d with
  | done (.ok a m) => f a m
  | done (.error e m) => done (.error e m)
  | ask job m next => ask job m fun answer => (next answer).bind f

theorem outcome_bind_of_ok {answer : Job → Machine → Outcome Value} {d : Dialogue α} {a : α}
    {m : Machine} (h : d.outcome answer = .ok a m) (f : α → Machine → Dialogue β) :
    (d.bind f).outcome answer = (f a m).outcome answer := by
  induction d with
  | done o =>
    cases h
    rfl
  | ask job m next ih => exact ih _ h

theorem outcome_bind_of_error {answer : Job → Machine → Outcome Value} {d : Dialogue α}
    {e : Fault} {m : Machine} (h : d.outcome answer = .error e m) (f : α → Machine → Dialogue β) :
    (d.bind f).outcome answer = .error e m := by
  induction d with
  | done o =>
    cases h
    rfl
  | ask job m next ih => exact ih _ h

/-- Dialogues in a row ask no more than they may alone, and a fault in the first still ends the
whole. -/
theorem Orderly.bind {allowed : Job → Prop} {d : Dialogue α} {f : α → Machine → Dialogue β}
    (hd : d.Orderly allowed) (hf : ∀ a m, (f a m).Orderly allowed) : (d.bind f).Orderly allowed := by
  induction hd with
  | done o =>
    cases o with
    | ok a m => exact hf a m
    | error e m => exact .done _
  | @ask job m next hallowed _ hfault ih =>
    refine .ask m hallowed ih ?_
    intro e m'
    simp only [hfault, Dialogue.bind]

/-- The dialogue of a sequence is the sequence of the dialogues. -/
theorem Describes.bind {x : (Job → Eval Value) → Eval α} {f : (Job → Eval Value) → α → Eval β}
    {host : Host} {m : Machine} {d : Dialogue α} {g : α → Machine → Dialogue β}
    (hd : d.Describes x host m) (hg : ∀ a m, (g a m).Describes (fun answers => f answers a) host m) :
    (d.bind g).Describes (fun answers => x answers >>= f answers) host m := by
  intro answers
  show (x answers >>= f answers) host m = _
  cases hend : d.outcome fun job => answers job host with
  | ok a m' =>
    rw [Eval.bind_of_ok ((hd answers).trans hend), outcome_bind_of_ok hend]
    exact hg a m' answers
  | error e m' =>
    rw [Eval.bind_of_error ((hd answers).trans hend), outcome_bind_of_error hend]

end Dialogue

/-! ### Evaluations are dialogues -/

/-- Being an orderly dialogue, as a property of evaluations with open answers. -/
def conversing (host : Host) (allowed : Job → Prop) : EvalLogic (Job → Eval Value) where
  Holds _ α x := ∀ m, ∃ d : Dialogue α, d.Orderly allowed ∧ d.Describes x host m
  weaken h := h
  pure a m := ⟨_, .done (.ok a m), fun _ => rfl⟩
  throw e _ m := ⟨_, .done (.error e m), fun _ => rfl⟩
  bind hx hf m := by
    obtain ⟨d, hd, hx⟩ := hx m
    choose g hg hf using hf
    exact ⟨d.bind g, hd.bind hg, hx.bind hf⟩
  report event _ m := ⟨_, .done (.ok () (m.report event)), fun _ => rfl⟩
  print line m := ⟨_, .done (.ok () (m.print line)), fun _ => rfl⟩
  set scope name v m := ⟨_, .done (.ok () (m.set scope name v)), fun _ => rfl⟩
  closure make m :=
    ⟨_, .done (.ok (make m.closures) { m with closures := m.closures + 1 }), fun _ => rfl⟩
  resolve symbol scope m :=
    ⟨_, .done (Eval.ofExcept (m.resolve symbol scope) host m), fun _ => rfl⟩
  newScope vars parent _ hf m := hf m.scopes.size (m.alloc ⟨vars, some parent⟩).2
  enterNamespace name f hf m := by
    choose g hg hf using hf
    have henter : (Dialogue.done (enterNamespace name host m)).Describes
        (fun _ => enterNamespace name) host m := fun _ => rfl
    exact ⟨_, (Dialogue.Orderly.done _).bind hg, henter.bind hf⟩
  enterRoot _ hf m := hf m.registry.root m
  readModule path _ hf m := hf (host.read path) m

section

variable (host : Host) {allowed : Job → Prop}

/-- To ask for one job and end with its outcome. -/
theorem conversing_ask {job : Job} (h : allowed job) {target : Option ScopeId} :
    (conversing host allowed).Holds target fun answers => answers job := by
  intro m
  exact ⟨.ask job m .done, .ask m h (fun _ _ => .done _) fun _ _ => rfl, fun _ => rfl⟩

/-- Asking in place of calling is itself a dialogue of one question, which is what carries the
evaluator's functions over. -/
theorem conversing_admits_asking (hevaluate : ∀ v scope, allowed (.evaluate v scope))
    (hfill : ∀ template scope, allowed (.fill template scope)) (depth : Nat) :
    (conversing host allowed).Admits fun answers => Job.asking answers depth where
  reportCall f m :=
    ⟨_, .done (.ok () (m.report (.applying (f.name?.getD "<anonymous>") depth))), fun _ => rfl⟩
  evaluate v scope := conversing_ask host (hevaluate v scope)
  fill template scope := conversing_ask host (hfill template scope)

theorem conversing_guarded (depth : Nat) {target : Option ScopeId}
    {x : (Job → Eval Value) → Eval Value} (h : (conversing host allowed).Holds target x) :
    (conversing host allowed).Holds target fun answers => Job.guarded depth (x answers) := by
  intro m
  rcases Nat.lt_or_ge depth host.limit with hlt | hle
  · obtain ⟨d, hd, hx⟩ := h m
    refine ⟨d, hd, ?_⟩
    intro answers
    exact (Job.guarded_of_lt hlt _ m).trans (hx answers)
  · refine ⟨.done (limitReached host m), .done _, ?_⟩
    intro answers
    exact Job.guarded_of_le hle _ m

/-- **What a job does with unknown answers is an orderly dialogue.** -/
theorem exists_dialogue (depth : Nat) (job : Job) (m : Machine) :
    ∃ d : Dialogue Value, d.Orderly job.MayAsk ∧ d.Describes (job.body depth) host m := by
  -- whatever a job is, it may ask for evaluations and for templates
  have hadmits : (conversing host job.MayAsk).Admits fun answers =>
      Job.asking answers (job.inside depth) := by
    apply conversing_admits_asking
    · intro v scope
      cases job <;> trivial
    · intro template scope
      cases job <;> trivial
  cases job with
  | evaluate v scope =>
    have hcall : ∀ f args, (conversing host (Job.evaluate v scope).MayAsk).Holds none
        fun answers => answers (.apply f args) := fun f args => conversing_ask host trivial
    exact conversing_guarded host depth (hadmits.stepWith hcall v scope) m
  | fill template scope =>
    exact conversing_guarded host depth (hadmits.fillTemplate template scope) m
  | apply f args =>
    have hcall : ∀ g args', Callback args' args →
        (conversing host (Job.apply f args).MayAsk).Holds none
          fun answers => answers (.apply g args') := fun g args' hargs => conversing_ask host hargs
    exact hadmits.callWith f args hcall m
  | sequence forms scope => exact hadmits.sequence forms scope m
  | expand template scope => exact hadmits.fillTemplate template scope m
  | require path scope => exact hadmits.require path scope m

end

end SmallLisp
