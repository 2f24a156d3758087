import SmallLisp.Proofs.Dialogue
/-!
# The log of a run

What goes on during an evaluation, in the order in which it happens: every evaluation, template and
call that it is made of begins from some machine and ends with some outcome. The log of a job has the
logs of the jobs that it asks for between its own two entries (`Logs`), and these are the jobs of an
orderly dialogue that describes it. In such a dialogue every question matters, because the job would
fail if it were answered by a fault.

**The first fault ends the run** (`first_fault_ends_run`): after an entry that says that something
failed, there are only entries that say that what it was nested in failed with the same fault, leaving
the same machine behind.
-/

namespace SmallLisp

/-- Something that happens during a run: a job begins, or ends. -/
inductive Entry where
  | begun (depth : Nat) (job : Job) (m : Machine)
  | ended (depth : Nat) (job : Job) (outcome : Outcome Value)

/-- Whether something failed, with this fault and leaving this machine behind. -/
def Entry.Failed (e : Fault) (m : Machine) (entry : Entry) : Prop :=
  ∃ depth job, entry = .ended depth job (.error e m)

/-- The logs of jobs that are carried out one after the other, nested in `depth` evaluations. The orderly
dialogue of a job says which jobs it asks for, and their logs are inside that of the job. -/
inductive Logs (host : Host) : Nat → List (Job × Machine) → List Entry → Prop where
  | nil (depth : Nat) : Logs host depth [] []
  | cons {depth : Nat} {job : Job} {m : Machine} {d : Dialogue Value} {jobs : List (Job × Machine)}
      {inner rest : List Entry} (horderly : d.Orderly job.MayAsk)
      (hd : d.Describes (job.body depth) host m)
      (hinner : Logs host (job.inside depth) (d.asked (Job.run host (job.inside depth))) inner)
      (hrest : Logs host depth jobs rest) :
      Logs host depth ((job, m) :: jobs)
        (.begun depth job m :: inner ++ .ended depth job (job.run host depth m) :: rest)

/-- The logs of two lists of jobs, one behind the other, log the jobs of both. -/
theorem Logs.append {host : Host} {depth : Nat} {jobs jobs' : List (Job × Machine)}
    {log log' : List Entry} (h : Logs host depth jobs log) (h' : Logs host depth jobs' log') :
    Logs host depth (jobs ++ jobs') (log ++ log') := by
  induction h with
  | nil depth => exact h'
  | cons horderly hd hinner _ _ ih =>
    have hcons := Logs.cons horderly hd hinner (ih h')
    simpa only [List.cons_append, List.append_assoc] using hcons

/-- Each job a log is about has its own beginning in it. -/
theorem Logs.begun_mem {host : Host} {depth : Nat} {jobs : List (Job × Machine)} {log : List Entry}
    (h : Logs host depth jobs log) {job : Job} {m : Machine} (hmem : (job, m) ∈ jobs) :
    .begun depth job m ∈ log := by
  induction h with
  | nil depth => cases hmem
  | cons _ _ _ _ _ ih =>
    rcases List.mem_cons.mp hmem with heq | hmem
    · cases heq
      exact List.mem_cons_self
    · have hrest := ih hmem
      simp [hrest]

/-- **A log leaves nothing out**: no answers matter but those to the jobs that the log says were begun. -/
theorem Logs.body_eq_run {host : Host} {depth : Nat} {job : Job} {m : Machine} {log : List Entry}
    (h : Logs host depth [(job, m)] log) {answers : Job → Eval Value}
    (hanswers : ∀ job' m', .begun (job.inside depth) job' m' ∈ log →
      answers job' host m' = job'.run host (job.inside depth) m') :
    job.body depth answers host m = job.run host depth m := by
  cases h with
  | cons _ hd hinner _ =>
    rw [hd answers, ← hd.outcome_run]
    apply Dialogue.outcome_congr
    intro job' m' hasked
    have hbegun := hinner.begun_mem hasked
    exact hanswers job' m' (by simp [hbegun])

/-! ### After a fault -/

/-- Whether a log goes on after a fault only by ending what has begun, each time with that fault. -/
structure EndsAtFault (log : List Entry) (outcome : Outcome Value) : Prop where
  outcome : ∀ entry ∈ log, ∀ e m, entry.Failed e m → outcome = .error e m
  after : log.Pairwise fun earlier later => ∀ e m, earlier.Failed e m → later.Failed e m

namespace EndsAtFault

variable {log log' : List Entry} {outcome : Outcome Value}

theorem nil (outcome : Outcome Value) : EndsAtFault [] outcome where
  outcome _ hentry := absurd hentry List.not_mem_nil
  after := .nil

/-- Where there was no fault, anything may follow. -/
theorem append_of_ok {v : Value} {m : Machine} (h : EndsAtFault log (.ok v m))
    (h' : EndsAtFault log' outcome) : EndsAtFault (log ++ log') outcome := by
  have hnone : ∀ entry ∈ log, ∀ e m, ¬ entry.Failed e m := by
    intro entry hentry e m hfailed
    cases h.outcome entry hentry e m hfailed
  constructor
  · intro entry hentry e m hfailed
    rcases List.mem_append.mp hentry with hentry | hentry
    · exact absurd hfailed (hnone entry hentry e m)
    · exact h'.outcome entry hentry e m hfailed
  · refine List.pairwise_append.mpr ⟨h.after, h'.after, ?_⟩
    intro earlier hearlier _ _ e m hfailed
    exact absurd hfailed (hnone earlier hearlier e m)

/-- What is nested in a job fails first. -/
theorem around (h : EndsAtFault log outcome) (depth : Nat) (job : Job) (m : Machine) :
    EndsAtFault (.begun depth job m :: log ++ [.ended depth job outcome]) outcome := by
  have hbegun : ∀ e m', ¬ (Entry.begun depth job m).Failed e m' := by
    rintro e m' ⟨_, _, hentry⟩
    cases hentry
  have hended : ∀ e m', (Entry.ended depth job outcome).Failed e m' → outcome = .error e m' := by
    rintro e m' ⟨_, _, hentry⟩
    cases hentry
    rfl
  -- an inner fault is the outcome, so the end of the job is the same fault again
  have hlog : EndsAtFault (log ++ [.ended depth job outcome]) outcome := by
    constructor
    · intro entry hentry e m' hfailed
      rcases List.mem_append.mp hentry with hentry | hentry
      · exact h.outcome entry hentry e m' hfailed
      · cases List.mem_singleton.mp hentry
        exact hended e m' hfailed
    · refine List.pairwise_append.mpr ⟨h.after, List.pairwise_singleton _ _, ?_⟩
      intro earlier hearlier later hlater e m' hfailed
      cases List.mem_singleton.mp hlater
      exact ⟨depth, job, by rw [h.outcome earlier hearlier e m' hfailed]⟩
  constructor
  · intro entry hentry e m' hfailed
    rcases List.mem_cons.mp hentry with rfl | hentry
    · exact absurd hfailed (hbegun e m')
    · exact hlog.outcome entry hentry e m' hfailed
  · refine List.pairwise_cons.mpr ⟨?_, hlog.after⟩
    intro _ _ e m' hfailed
    exact absurd hfailed (hbegun e m')

end EndsAtFault

/-! ### Every run has a log -/

section

variable (host : Host)

/-- Whether a job has a log that ends at its first fault. -/
def HasLog (depth : Nat) (job : Job) (m : Machine) : Prop :=
  ∃ log, Logs host depth [(job, m)] log ∧ EndsAtFault log (job.run host depth m)

variable {host} {depth : Nat}

/-- The jobs that an orderly dialogue asks for: after the first one that fails there is none. -/
theorem Dialogue.Orderly.hasLog {allowed : Job → Prop} {d : Dialogue Value} (hd : d.Orderly allowed)
    (h : ∀ job, allowed job → ∀ m, HasLog host depth job m) :
    ∃ log, Logs host depth (d.asked (Job.run host depth)) log ∧
      EndsAtFault log (d.outcome (Job.run host depth)) := by
  induction hd with
  | done outcome => exact ⟨[], .nil depth, .nil outcome⟩
  | @ask job m next hallowed _ hfault ih =>
    obtain ⟨log, hlog, hends⟩ := h job hallowed m
    simp only [Dialogue.asked, Dialogue.outcome]
    cases hrun : job.run host depth m with
    | ok v m' =>
      rw [hrun] at hends
      obtain ⟨rest, hrest, hends'⟩ := ih v m'
      exact ⟨log ++ rest, hlog.append hrest, hends.append_of_ok hends'⟩
    | error e m' =>
      rw [hfault]
      exact ⟨log, hlog, hrun ▸ hends⟩

/-- The log of a job around those of the jobs that it asks for. -/
theorem HasLog.of_dialogue {job : Job} {m : Machine} {d : Dialogue Value} (hd : d.Orderly job.MayAsk)
    (hdescribes : d.Describes (job.body depth) host m)
    (h : ∃ log, Logs host (job.inside depth) (d.asked (Job.run host (job.inside depth))) log ∧
      EndsAtFault log (d.outcome (Job.run host (job.inside depth)))) :
    HasLog host depth job m := by
  obtain ⟨inner, hinner, hends⟩ := h
  rw [hdescribes.outcome_run] at hends
  exact ⟨_, .cons hd hdescribes hinner (.nil depth), hends.around depth job m⟩

/-- Every job has a log, by induction on what jobs ask for. -/
theorem hasLog (host : Host) (depth : Nat) (job : Job) (m : Machine) : HasLog host depth job m := by
  induction depth, job using Job.asking_induction host.limit generalizing m with
  | step depth job ih =>
    by_cases hrefused : job.IsRefused host.limit depth
    · -- nothing is asked for
      have hdescribes : (Dialogue.done (limitReached host m)).Describes (job.body depth) host m :=
        fun answers => hrefused.body_eq answers m
      exact .of_dialogue (.done _) hdescribes ⟨[], .nil _, .nil _⟩
    · obtain ⟨d, hd, hdescribes⟩ := exists_dialogue host depth job m
      exact .of_dialogue hd hdescribes (hd.hasLog fun job' hask m' => ih hrefused job' hask m')

end

/-- **The first fault ends the run unchanged**, for whatever is evaluated, at any depth and from any
machine. There is a log of all that the job is made of. If anything in it fails, the job fails with the
same fault and leaves the same machine behind; and after that nothing begins any more, only the jobs
around it end. -/
theorem first_fault_ends_run (host : Host) (depth : Nat) (job : Job) (m : Machine) :
    ∃ log, Logs host depth [(job, m)] log ∧
      (∀ answers : Job → Eval Value,
        (∀ nested m', .begun (job.inside depth) nested m' ∈ log →
          answers nested host m' = nested.run host (job.inside depth) m') →
        job.body depth answers host m = job.run host depth m) ∧
      (∀ before nestedDepth nested e m' after,
        log = before ++ .ended nestedDepth nested (.error e m') :: after →
          job.run host depth m = .error e m' ∧ ∀ entry ∈ after, entry.Failed e m') := by
  obtain ⟨log, hlog, hends⟩ := hasLog host depth job m
  refine ⟨log, hlog, fun _ hanswers => hlog.body_eq_run hanswers, ?_⟩
  rintro before nestedDepth nested e m' after rfl
  have hfailed : (Entry.ended nestedDepth nested (.error e m')).Failed e m' :=
    ⟨nestedDepth, nested, rfl⟩
  refine ⟨hends.outcome _ (by simp) e m' hfailed, ?_⟩
  intro entry hentry
  obtain ⟨-, hafter, -⟩ := List.pairwise_append.mp hends.after
  exact (List.pairwise_cons.mp hafter).1 entry hentry e m' hfailed

end SmallLisp
