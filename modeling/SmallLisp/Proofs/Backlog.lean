import SmallLisp.Proofs.Extension
/-!
# What was printed before

A machine keeps what was printed and reported. Evaluation adds to it but never looks at it: **with a
backlog in front, everything stays the same but for the backlog** (`eval_behind`). So a host may take
away what was printed whenever it likes (`eval_eq_behind`).
-/

namespace SmallLisp

open Machine Context

/-- What was printed and reported before a run. -/
structure Backlog where
  printed : Array String
  reported : Array Event

/-- The machine with a backlog in front of what it printed and reported itself. -/
def Machine.behind (backlog : Backlog) (m : Machine) : Machine :=
  { m with
    output := backlog.printed ++ m.output
    events := backlog.reported ++ m.events }

def Outcome.behind {α : Type} (backlog : Backlog) : Outcome α → Outcome α
  | .ok a m => .ok a (m.behind backlog)
  | .error e m => .error e (m.behind backlog)

theorem behind_report (backlog : Backlog) (event : Event) (m : Machine) :
    (m.behind backlog).report event = (m.report event).behind backlog := by
  simp [Machine.behind, Machine.report]

/-- The registry reads neither the output nor the events, so a backlog does not change what it
makes. -/
theorem behind_create (backlog : Backlog) (name : String) (m : Machine) :
    (m.behind backlog).create name = ((m.create name).1, (m.create name).2.behind backlog) := by
  unfold Machine.create
  split <;> simp [Machine.behind, Machine.report, Machine.alloc]

/-- Whether an evaluation does the same if there was a backlog. -/
def Unaware (host : Host) (backlog : Backlog) {α : Type} (x : Eval α) : Prop :=
  ∀ m, x host (m.behind backlog) = Outcome.behind backlog (x host m)

namespace Unaware

variable {host : Host} {backlog : Backlog} {α β : Type}

/-- Where neither part looks at the backlog, the two in a row do not either. -/
theorem bind {x : Eval α} {f : α → Eval β} (hx : Unaware host backlog x)
    (hf : ∀ a, Unaware host backlog (f a)) : Unaware host backlog (x >>= f) := by
  intro m
  have hx := hx m
  cases hrun : x host m with
  | ok a m' =>
    rw [hrun] at hx
    rw [Eval.bind_of_ok hrun, Eval.bind_of_ok hx, hf a m']
  | error e m' =>
    rw [hrun] at hx
    rw [Eval.bind_of_error hrun, Eval.bind_of_error hx]
    rfl

theorem congr {x y : Eval α} (h : Unaware host backlog y) (heq : ∀ m, x host m = y host m) :
    Unaware host backlog x := by
  intro m
  rw [heq, heq, h m]

theorem report (event : Event) : Unaware host backlog (modify (Machine.report event)) :=
  fun m => congrArg (EStateM.Result.ok _) (behind_report backlog event m)

theorem enterNamespace (name : String) : Unaware host backlog (enterNamespace name) := by
  intro m
  have hregistry : (m.behind backlog).registry = m.registry := rfl
  rw [enterNamespace_eq, enterNamespace_eq, behind_create, hregistry]
  cases Path.isValid name with
  | false => rfl
  | true => cases m.registry.get? name <;> rfl

end Unaware

def unaware (host : Host) (backlog : Backlog) : EvalLogic Unit where
  Holds _ _ x := Unaware host backlog (x ())
  weaken h := h
  pure _ _ := rfl
  throw _ _ _ := rfl
  bind hx hf := hx.bind hf
  report event _ := .report event
  print line m := by
    refine congrArg (EStateM.Result.ok _) ?_
    simp [Machine.behind, Machine.print]
  set _ _ _ _ := rfl
  closure _ _ := rfl
  resolve symbol scope m := by
    show Eval.ofExcept (m.resolve symbol scope) host (m.behind backlog) =
      Outcome.behind backlog (Eval.ofExcept (m.resolve symbol scope) host m)
    cases m.resolve symbol scope <;> rfl
  newScope vars parent _ hf m := hf m.scopes.size (m.alloc ⟨vars, some parent⟩).2
  enterNamespace name _ hf := (Unaware.enterNamespace name).bind hf
  enterRoot _ hf m := hf m.registry.root m
  readModule path _ hf m := hf (host.read path) m

/-- **Evaluation does not see what was printed or reported before**: by induction on the evaluations
left. -/
theorem unaware_admits_within (host : Host) (backlog : Backlog) (depth : Nat) :
    (unaware host backlog).Admits fun _ => within host.limit depth := by
  induction depth using depth_induction host.limit with
  | atLimit depth hle =>
    refine ⟨fun f => .report _, ?_, ?_⟩
    · intro v scope
      rw [evaluate_within_of_le hle]
      exact fun m => rfl
    · intro template scope
      rw [fill_within_of_le hle]
      exact fun m => rfl
  | below depth hlt hnested =>
    refine ⟨fun f => .report _, ?_, ?_⟩
    · intro v scope
      exact .congr (hnested.step v scope) (evaluate_within hlt v scope)
    · intro template scope
      exact .congr (hnested.fillTemplate template scope) (fill_within hlt template scope)

/-! ### Interpreters -/

namespace Interpreter

def behind (backlog : Backlog) (ip : Interpreter) : Interpreter :=
  { ip with machine := ip.machine.behind backlog }

def quiet (ip : Interpreter) : Interpreter :=
  ip.drain.2.2

theorem quiet_behind (backlog : Backlog) (ip : Interpreter) : (ip.behind backlog).quiet = ip.quiet :=
  rfl

/-- An interpreter is its quiet self behind what it has already written. -/
theorem eq_behind (ip : Interpreter) :
    ip = ip.quiet.behind ⟨ip.machine.output, ip.machine.events⟩ := by
  simp [behind, quiet, drain, Machine.behind]

/-- **A program does the same whatever was printed before.** -/
theorem eval_behind (backlog : Backlog) (ip : Interpreter) (source : String) :
    (ip.behind backlog).eval source = ((ip.eval source).1, (ip.eval source).2.behind backlog) := by
  have hhost : (ip.behind backlog).host = ip.host := rfl
  have hroot : (ip.behind backlog).root = ip.root := rfl
  unfold eval evalIn
  cases Datum.parseForms source with
  | error e => rfl
  | ok forms =>
    have hrun : (within ip.host.limit 0).sequence forms ip.root ip.host (ip.machine.behind backlog) =
        Outcome.behind backlog ((within ip.host.limit 0).sequence forms ip.root ip.host ip.machine) :=
      (unaware_admits_within ip.host backlog 0).sequence forms ip.root ip.machine
    have hmachine : (ip.behind backlog).machine = ip.machine.behind backlog := rfl
    simp only [perform, outermost_eq_within, hhost, hroot, hmachine, hrun]
    cases (within ip.host.limit 0).sequence forms ip.root ip.host ip.machine <;> rfl

/-- Running a program in an interpreter with a past is running it in the quiet one and putting the
past in front. -/
theorem eval_eq_behind (ip : Interpreter) (source : String) :
    ip.eval source = ((ip.quiet.eval source).1,
      (ip.quiet.eval source).2.behind ⟨ip.machine.output, ip.machine.events⟩) := by
  have heval := eval_behind ⟨ip.machine.output, ip.machine.events⟩ ip.quiet source
  rwa [← ip.eq_behind] at heval

end Interpreter

end SmallLisp
