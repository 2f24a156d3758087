import SmallLisp.Proofs.Logic
/-!
# Every evaluation ends

Neither the depth of evaluations nor the nesting of lists alone bounds what evaluation does. An
evaluation goes one level deeper at every nested evaluation, and the limit stops that. But a call is
no nested evaluation: natives that call natives go on at the same depth, and only their shrinking
arguments stop them.

To say that this ends, evaluation is written down once more as a plain recursion, the way it is meant
to be read: an evaluation takes a step, a step may end with a call, a call may make other calls and
evaluate bodies. Nothing decreases along the way; instead, the recursion is *cut off* after so many
calls inside one another. What is done at the cut is left open. **An evaluation ends if there is a
number of calls from which on what is done at the cut does not matter any more**, because it is never
reached, and the answer is then always the same one (`evaluation_ends`).
-/

namespace SmallLisp

open Context

/-! ### Plain recursion, cut off -/

/-- After how many calls inside one another to cut a recursion off, and what to do then. -/
structure Cutoff where
  fuel : Nat
  cut : Eval Value

namespace Cutoff

mutual

/-- Evaluates a form in a scope, at a depth of nested evaluations. -/
def evaluateFor (cut : Eval Value) : Nat → Nat → Value → ScopeId → Eval Value
  | 0, _, _, _ => cut
  | fuel + 1, depth, v, scope => do
    if (← read).limit ≤ depth then limitReached
    else
      Context.stepWith ⟨depth + 1, evaluateFor cut fuel (depth + 1), fillFor cut fuel (depth + 1)⟩
        (applyFor cut fuel (depth + 1)) v scope

def fillFor (cut : Eval Value) : Nat → Nat → Value → ScopeId → Eval Value
  | 0, _, _, _ => cut
  | fuel + 1, depth, template, scope => do
    if (← read).limit ≤ depth then limitReached
    else
      Context.fillTemplate
        ⟨depth + 1, evaluateFor cut fuel (depth + 1), fillFor cut fuel (depth + 1)⟩ template scope

def applyFor (cut : Eval Value) : Nat → Nat → Function Value → List Value → Eval Value
  | 0, _, _, _ => cut
  | fuel + 1, depth, f, args =>
    Context.callWith ⟨depth, evaluateFor cut fuel depth, fillFor cut fuel depth⟩
      (applyFor cut fuel depth) f args

end

def context (cutoff : Cutoff) (depth : Nat) : Context :=
  ⟨depth, evaluateFor cutoff.cut cutoff.fuel depth, fillFor cutoff.cut cutoff.fuel depth⟩

def apply (cutoff : Cutoff) (depth : Nat) : Function Value → List Value → Eval Value :=
  applyFor cutoff.cut cutoff.fuel depth

variable {host : Host} {depth : Nat} (cut : Eval Value) (fuel : Nat)

/-- Below the limit, fuel is used up by one level of evaluation. -/
theorem evaluateFor_of_lt (h : depth < host.limit) (v : Value) (scope : ScopeId) (m : Machine) :
    evaluateFor cut (fuel + 1) depth v scope host m =
      (context ⟨fuel, cut⟩ (depth + 1)).stepWith (apply ⟨fuel, cut⟩ (depth + 1)) v scope host m := by
  rw [evaluateFor]
  show (if host.limit ≤ depth then limitReached else _) host m = _
  rw [if_neg (Nat.not_le.mpr h)]
  rfl

/-- With any fuel at all, the fault of the limit comes before the cut-off. -/
theorem evaluateFor_of_le (h : host.limit ≤ depth) (v : Value) (scope : ScopeId) (m : Machine) :
    evaluateFor cut (fuel + 1) depth v scope host m = limitReached host m := by
  rw [evaluateFor]
  show (if host.limit ≤ depth then limitReached else _) host m = _
  rw [if_pos h]

theorem fillFor_of_lt (h : depth < host.limit) (template : Value) (scope : ScopeId) (m : Machine) :
    fillFor cut (fuel + 1) depth template scope host m =
      (context ⟨fuel, cut⟩ (depth + 1)).fillTemplate template scope host m := by
  rw [fillFor]
  show (if host.limit ≤ depth then limitReached else _) host m = _
  rw [if_neg (Nat.not_le.mpr h)]
  rfl

theorem fillFor_of_le (h : host.limit ≤ depth) (template : Value) (scope : ScopeId) (m : Machine) :
    fillFor cut (fuel + 1) depth template scope host m = limitReached host m := by
  rw [fillFor]
  show (if host.limit ≤ depth then limitReached else _) host m = _
  rw [if_pos h]

end Cutoff

/-! ### Evaluations that settle

A family of evaluations has a member for every cutoff, and one that is not cut off. -/

/-- From some number of calls on, a recursion that is cut off does the same as one that is not. -/
def SettlesAt {α : Type} (host : Host) (m : Machine) (x : Option Cutoff → Eval α) : Prop :=
  ∃ enough, ∀ cutoff : Cutoff, enough ≤ cutoff.fuel → x (some cutoff) host m = x none host m

namespace SettlesAt

variable {host : Host} {α β : Type} {m : Machine}

/-- What does not depend on the cut-off is settled at once. -/
theorem of_eq {x : Option Cutoff → Eval α} (h : ∀ cutoff, x (some cutoff) host m = x none host m) :
    SettlesAt host m x :=
  ⟨0, fun cutoff _ => h cutoff⟩

/-- A recursion settles if, after one more call, it goes on as one that settles. -/
theorem succ {x y : Option Cutoff → Eval α} (h : SettlesAt host m x)
    (hnone : y none host m = x none host m)
    (hsome : ∀ fuel cut, y (some ⟨fuel + 1, cut⟩) host m = x (some ⟨fuel, cut⟩) host m) :
    SettlesAt host m y := by
  obtain ⟨enough, h⟩ := h
  refine ⟨enough + 1, ?_⟩
  rintro ⟨fuel, cut⟩ hfuel
  cases fuel with
  | zero => exact absurd hfuel (Nat.not_succ_le_zero enough)
  | succ fuel => rw [hsome, hnone, h ⟨fuel, cut⟩ (Nat.le_of_succ_le_succ hfuel)]

/-- The second part has to settle only where the first one leads to. -/
theorem bind {x : Option Cutoff → Eval α} {f : Option Cutoff → α → Eval β}
    (hx : SettlesAt host m x) (hf : ∀ a m, SettlesAt host m fun i => f i a) :
    SettlesAt host m fun i => x i >>= f i := by
  obtain ⟨enough, hx⟩ := hx
  cases hrun : x none host m with
  | ok a m' =>
    obtain ⟨enough', hf⟩ := hf a m'
    -- `enough'` depends on where the first part leads to, which does not depend on the cutoff
    refine ⟨max enough enough', ?_⟩
    intro cutoff hfuel
    have hrun' := (hx cutoff (Nat.le_trans (Nat.le_max_left _ _) hfuel)).trans hrun
    show (x (some cutoff) >>= f (some cutoff)) host m = (x none >>= f none) host m
    rw [Eval.bind_of_ok hrun, Eval.bind_of_ok hrun']
    exact hf cutoff (Nat.le_trans (Nat.le_max_right _ _) hfuel)
  | error e m' =>
    refine ⟨enough, ?_⟩
    intro cutoff hfuel
    have hrun' := (hx cutoff hfuel).trans hrun
    show (x (some cutoff) >>= f (some cutoff)) host m = (x none >>= f none) host m
    rw [Eval.bind_of_error hrun, Eval.bind_of_error hrun']

end SettlesAt

/-- Settling from every machine, as a property of families of evaluations. -/
def settling (host : Host) : EvalLogic (Option Cutoff) where
  Holds _ _ x := ∀ m, SettlesAt host m x
  weaken h := h
  pure _ _ := .of_eq fun _ => rfl
  throw _ _ _ := .of_eq fun _ => rfl
  bind hx hf m := (hx m).bind hf
  report _ _ _ := .of_eq fun _ => rfl
  print _ _ := .of_eq fun _ => rfl
  set _ _ _ _ := .of_eq fun _ => rfl
  closure _ _ := .of_eq fun _ => rfl
  resolve _ _ _ := .of_eq fun _ => rfl
  newScope vars parent _ hf m := by
    have hnew : SettlesAt host m fun _ => Machine.newScope vars parent := .of_eq fun _ => rfl
    exact hnew.bind hf
  enterNamespace name _ hf m := by
    have henter : SettlesAt host m fun _ => enterNamespace name := .of_eq fun _ => rfl
    exact henter.bind hf
  enterRoot _ hf m := hf m.registry.root m
  readModule path _ hf m := hf (host.read path) m

/-! ### Every evaluation settles -/

def contextWithin (host : Host) (depth : Nat) : Option Cutoff → Context
  | none => within host.limit depth
  | some cutoff => cutoff.context depth

def callWithin (host : Host) (depth : Nat) : Option Cutoff → Function Value → List Value → Eval Value
  | none => (within host.limit depth).apply
  | some cutoff => cutoff.apply depth

/-- **Calls settle where evaluations do**: by well-founded induction on the arguments, since nothing
else keeps natives from calling one another forever. -/
theorem settling_callWithin {host : Host} {depth : Nat}
    (h : (settling host).Admits (contextWithin host depth)) (f : Function Value)
    (args : List Value) : (settling host).Holds none fun i => callWithin host depth i f args := by
  induction args using Context.wellFounded_callback.induction generalizing f with
  | _ args ih =>
    intro m
    apply SettlesAt.succ (h.callWith f args (fun g args' hargs => ih args' hargs g) m)
    · show (within host.limit depth).apply f args host m = _
      rw [apply_eq_callWith]
      rfl
    · intro fuel cut
      show Cutoff.applyFor cut (fuel + 1) depth f args host m = _
      rw [Cutoff.applyFor]
      rfl

/-- **Evaluations settle at every depth**: by induction on the evaluations left. One call more than
what is nested needs is enough, and at the limit a single one is. -/
theorem settling_admits_within (host : Host) (depth : Nat) :
    (settling host).Admits (contextWithin host depth) := by
  induction depth using depth_induction host.limit with
  | atLimit depth hle =>
    have hlimit : ∀ m, SettlesAt host m fun _ => (limitReached : Eval Value) :=
      fun _ => .of_eq fun _ => rfl
    constructor
    · intro _ f m
      exact .of_eq fun _ => rfl
    · intro v scope m
      apply (hlimit m).succ
      · show (within host.limit depth).evaluate v scope host m = _
        rw [evaluate_within_of_le hle]
      · intro fuel cut
        exact Cutoff.evaluateFor_of_le cut fuel hle v scope m
    · intro template scope m
      apply (hlimit m).succ
      · show (within host.limit depth).fill template scope host m = _
        rw [fill_within_of_le hle]
      · intro fuel cut
        exact Cutoff.fillFor_of_le cut fuel hle template scope m
  -- one more unit of fuel settles what is settled one level further in
  | below depth hlt hnested =>
    constructor
    · intro _ f m
      exact .of_eq fun _ => rfl
    · intro v scope m
      apply SettlesAt.succ (hnested.stepWith (settling_callWithin hnested) v scope m)
      · exact evaluate_within hlt v scope m
      · intro fuel cut
        exact Cutoff.evaluateFor_of_lt cut fuel hlt v scope m
    · intro template scope m
      apply SettlesAt.succ (hnested.fillTemplate template scope m)
      · exact fill_within hlt template scope m
      · intro fuel cut
        exact Cutoff.fillFor_of_lt cut fuel hlt template scope m

/-- **Every evaluation and every call ends.** From any machine, at any depth below or at the limit,
a plain recursion that is cut off late enough is not cut off at all: it answers as if there was no
cut, whatever would be done there. -/
theorem evaluation_ends (host : Host) (depth : Nat) (m : Machine) :
    (∀ v scope, ∃ enough, ∀ fuel ≥ enough, ∀ cut,
      Cutoff.evaluateFor cut fuel depth v scope host m =
        (within host.limit depth).evaluate v scope host m) ∧
    (∀ f args, ∃ enough, ∀ fuel ≥ enough, ∀ cut,
      Cutoff.applyFor cut fuel depth f args host m =
        (within host.limit depth).apply f args host m) := by
  have hadmits := settling_admits_within host depth
  constructor
  · intro v scope
    obtain ⟨enough, h⟩ := hadmits.evaluate v scope m
    exact ⟨enough, fun fuel hfuel cut => h ⟨fuel, cut⟩ hfuel⟩
  · intro f args
    obtain ⟨enough, h⟩ := settling_callWithin hadmits f args m
    exact ⟨enough, fun fuel hfuel cut => h ⟨fuel, cut⟩ hfuel⟩

end SmallLisp
