import SmallLisp.Proofs.Extension
/-!
# Raising the limit

The limit of nested evaluations is a safety net: a program that does not run into it cannot tell how
high it is. Two runs of the same program under different limits are compared step by step. As long as
the lower limit is not reached they do exactly the same; once it is, the run under the lower limit
has ended, and the other one may go on, but **what is printed stays printed**.

So the comparison needs two facts of every evaluation: how it relates to the one under the lower
limit, and that it only extends the machine. `raising` is their conjunction as one property of
evaluations.
-/

namespace SmallLisp

open Machine Context

def HitsLimit {α : Type} (result : EStateM.Result Fault Machine α) : Prop :=
  ∃ limit m, result = .error (.recursionLimit limit) m

/-- A sequence that starts by hitting the limit hits it as a whole: nothing behind is run. -/
theorem HitsLimit.bind {α β : Type} {x : Eval α} {host : Host} {m : Machine}
    (h : HitsLimit (x host m)) (f : α → Eval β) : HitsLimit ((x >>= f) host m) := by
  obtain ⟨limit, m', hrun⟩ := h
  exact ⟨limit, m', Eval.bind_of_error hrun f⟩

/-- An evaluation under one host does the same as another one under another host, unless it hits the
limit; if it does, it has printed no more than the other one. -/
structure SameUnlessLimited {α : Type} (host host' : Host) (x x' : Eval α) (m : Machine) : Prop where
  same : ¬ HitsLimit (x host m) → x' host' m = x host m
  output : (x.after host m).output.toList <+: (x'.after host' m).output.toList

namespace SameUnlessLimited

variable {host host' : Host} {α β : Type} {x x' : Eval α} {m : Machine}

theorem of_eq (h : x' host' m = x host m) : SameUnlessLimited host host' x x' m where
  same _ := h
  output := by
    simp only [Eval.after, h]
    exact List.prefix_refl _

theorem congr {y y' : Eval α} (h : SameUnlessLimited host host' x x' m)
    (hy : y host m = x host m) (hy' : y' host' m = x' host' m) :
    SameUnlessLimited host host' y y' m where
  same := by
    rw [hy, hy']
    exact h.same
  output := by
    rw [Eval.after_congr hy, Eval.after_congr hy']
    exact h.output

/-- At the limit nothing is promised but that what is printed stays printed. -/
theorem of_limitReached (hx : x = limitReached)
    (hgrows : m.output.toList <+: (x'.after host' m).output.toList) :
    SameUnlessLimited host host' x x' m where
  same := by
    subst hx
    intro hnot
    exact absurd ⟨host.limit, m, rfl⟩ hnot
  output := by
    subst hx
    exact hgrows

/-- The second parts are compared only where the first ones agree. Where the first part hits the
limit, the second part of the other evaluation only adds to what is printed. -/
theorem bind {f f' : α → Eval β} (hx : SameUnlessLimited host host' x x' m)
    (hf : ∀ a m, SameUnlessLimited host host' (f a) (f' a) m)
    (hgrows : ∀ a m, m.output.toList <+: ((f' a).after host' m).output.toList) :
    SameUnlessLimited host host' (x >>= f) (x' >>= f') m := by
  cases hrun : x host m with
  | ok a m₁ =>
    have hnot : ¬ HitsLimit (x host m) := by
      rintro ⟨limit, m₂, hlimit⟩
      rw [hrun] at hlimit
      cases hlimit
    -- so the second parts start from the same machine
    have hrun' : x' host' m = .ok a m₁ := (hx.same hnot).trans hrun
    have hrest := hf a m₁
    constructor
    · rw [Eval.bind_of_ok hrun, Eval.bind_of_ok hrun']
      exact hrest.same
    · rw [Eval.after_bind_of_ok hrun, Eval.after_bind_of_ok hrun']
      exact hrest.output
  | error e m₁ =>
    have houtput := hx.output
    rw [Eval.after_of_error hrun] at houtput
    constructor
    · rw [Eval.bind_of_error hrun]
      intro hnot
      have hnot' : ¬ HitsLimit (x host m) := by
        rintro ⟨limit, m₂, hlimit⟩
        rw [hrun] at hlimit
        cases hlimit
        exact hnot ⟨limit, _, rfl⟩
      exact Eval.bind_of_error ((hx.same hnot').trans hrun) f'
    · rw [Eval.after_bind_of_error hrun]
      -- this run is over, but the other one may go on
      cases hrun' : x' host' m with
      | ok a m₂ =>
        rw [Eval.after_of_ok hrun'] at houtput
        rw [Eval.after_bind_of_ok hrun']
        exact houtput.trans (hgrows a m₂)
      | error e' m₂ =>
        rw [Eval.after_of_error hrun'] at houtput
        rw [Eval.after_bind_of_error hrun']
        exact houtput

end SameUnlessLimited

/-- Doing the same as under another host unless the limit is hit, as a property of pairs of
evaluations. -/
def raising {host host' : Host} (hread : host'.read = host.read) : EvalLogic Bool where
  Holds target _ x :=
    (∀ m, SameUnlessLimited host host' (x false) (x true) m) ∧
      (extension host').Holds target fun _ => x true
  weaken h := ⟨h.1, (extension host').weaken h.2⟩
  pure a := ⟨fun _ => .of_eq rfl, (extension host').pure a⟩
  throw e he := ⟨fun _ => .of_eq rfl, (extension host').throw e he⟩
  bind := by
    intro target α β x f hx hf
    refine ⟨?_, (extension host').bind hx.2 fun a => (hf a).2⟩
    intro m
    exact (hx.1 m).bind (fun a => (hf a).1) fun a m => ((hf a).2 m).output
  report event h := ⟨fun _ => .of_eq rfl, (extension host').report event h⟩
  print line := ⟨fun _ => .of_eq rfl, (extension host').print line⟩
  set scope name v := ⟨fun _ => .of_eq rfl, (extension host').set scope name v⟩
  closure make := ⟨fun _ => .of_eq rfl, (extension host').closure make⟩
  resolve := by
    intro target symbol scope
    refine ⟨?_, (extension host').resolve symbol scope⟩
    intro m
    apply SameUnlessLimited.of_eq
    show Eval.ofExcept (m.resolve symbol scope) host' m = Eval.ofExcept (m.resolve symbol scope) host m
    cases m.resolve symbol scope <;> rfl
  newScope := by
    intro α vars parent f hf
    refine ⟨?_, (extension host').newScope vars parent fun id => (hf id).2⟩
    intro m
    have hnew : SameUnlessLimited host host' (newScope vars parent) (newScope vars parent) m :=
      .of_eq rfl
    exact hnew.bind (fun id => (hf id).1) fun id m => ((hf id).2 m).output
  enterNamespace := by
    intro α name f hf
    refine ⟨?_, (extension host').enterNamespace name fun id => (hf id).2⟩
    intro m
    have henter : SameUnlessLimited host host' (enterNamespace name) (enterNamespace name) m :=
      .of_eq (by rw [enterNamespace_eq, enterNamespace_eq])
    exact henter.bind (fun id => (hf id).1) fun id m => ((hf id).2 m).output
  enterRoot := by
    intro α f hf
    refine ⟨?_, (extension host').enterRoot _ fun id => (hf id).2⟩
    intro m
    have hroot := (hf m.registry.root).1 m
    exact ⟨hroot.same, hroot.output⟩
  readModule := by
    intro target α path f hf
    refine ⟨?_, (extension host').readModule path _ fun result => (hf result).2⟩
    intro m
    have hmodule := (hf (host.read path)).1 m
    constructor
    · show _ → f true (host'.read path) host' m = _
      rw [hread]
      exact hmodule.same
    · show _ <+: ((f true (host'.read path)).after host' m).output.toList
      rw [hread]
      exact hmodule.output

def raisedWithin (host host' : Host) (depth : Nat) (raised : Bool) : Context :=
  if raised then within host'.limit depth else within host.limit depth

/-- **Nested evaluations do the same unless the limit is hit**: by induction on the evaluations left
under the lower limit. When none is left, that run ends at once. -/
theorem raising_admits_within {host host' : Host} (hread : host'.read = host.read)
    (hlimit : host.limit ≤ host'.limit) (depth : Nat) :
    (raising hread).Admits (raisedWithin host host' depth) := by
  have hextension := extension_admits_within host'
  have hreport : ∀ {target : Option ScopeId} {depth : Nat} (f : Function Value),
      (raising hread).Holds target fun raised => (raisedWithin host host' depth raised).reportCall f := by
    intro target depth f
    have hdepth : ∀ raised, (raisedWithin host host' depth raised).depth = depth := by
      intro raised
      cases raised <;> rfl
    simp only [reportCall, hdepth]
    exact ⟨fun _ => .of_eq rfl, fun m => .report _ m⟩
  induction depth using depth_induction host.limit with
  -- the lower limit is hit, so nothing is claimed of the other run but its output
  | atLimit depth hle =>
    constructor
    · intro _ f
      exact hreport f
    · intro v scope
      refine ⟨?_, (hextension depth).evaluate v scope⟩
      intro m
      exact .of_limitReached (evaluate_within_of_le hle v scope)
        ((hextension depth).evaluate v scope m).output
    · intro template scope
      refine ⟨?_, (hextension depth).fill template scope⟩
      intro m
      exact .of_limitReached (fill_within_of_le hle template scope)
        ((hextension depth).fill template scope m).output
  -- neither limit is hit, so both go one level further in
  | below depth hlt hnested =>
    have hlt' : depth < host'.limit := Nat.lt_of_lt_of_le hlt hlimit
    constructor
    · intro _ f
      exact hreport f
    · intro v scope
      refine ⟨?_, (hextension depth).evaluate v scope⟩
      intro m
      exact ((hnested.step v scope).1 m).congr (evaluate_within hlt v scope m)
        (evaluate_within hlt' v scope m)
    · intro template scope
      refine ⟨?_, (hextension depth).fill template scope⟩
      intro m
      exact ((hnested.fillTemplate template scope).1 m).congr (fill_within hlt template scope m)
        (fill_within hlt' template scope m)

/-- **Raising the limit changes no run that does not hit it.** At any depth and from any machine,
evaluations, calls, sequences and modules do the same under a higher limit, down to every scope,
namespace and printed line; and a run that hits the lower limit has printed a beginning of what is
printed under the higher one. -/
theorem higher_limit_same_unless_hit {limit limit' : Nat} (hlimit : limit ≤ limit')
    (read : String → Except ReadFailure String) (depth : Nat) (m : Machine) :
    let host : Host := ⟨limit, read⟩
    let host' : Host := ⟨limit', read⟩
    let ctx := within limit depth
    let ctx' := within limit' depth
    (∀ v scope, SameUnlessLimited host host' (ctx.evaluate v scope) (ctx'.evaluate v scope) m) ∧
    (∀ f args, SameUnlessLimited host host' (ctx.apply f args) (ctx'.apply f args) m) ∧
    (∀ forms scope,
      SameUnlessLimited host host' (ctx.sequence forms scope) (ctx'.sequence forms scope) m) ∧
    (∀ path scope,
      SameUnlessLimited host host' (ctx.require path scope) (ctx'.require path scope) m) := by
  intro host host' ctx ctx'
  have hread : host'.read = host.read := rfl
  have hadmits := raising_admits_within hread hlimit depth
  refine ⟨?_, ?_, ?_, ?_⟩
  · intro v scope
    exact (hadmits.evaluate v scope).1 m
  · intro f args
    exact (hadmits.apply f args).1 m
  · intro forms scope
    exact (hadmits.sequence forms scope).1 m
  · intro path scope
    exact (hadmits.require path scope).1 m

/-- Two limits, of which the lower one is too low for the program `(begin 1)`. -/
theorem higher_limit_same_unless_hit_sequence :
    let host : Host := ⟨1, fun _ => .error .notFound⟩
    let host' : Host := ⟨2, fun _ => .error .notFound⟩
    let program : Value := .list [.symbol "begin", .number 1]
    1 ≤ 2 ∧ HitsLimit ((within 1 0).evaluate program 0 host .initial) ∧
      SameUnlessLimited host host' ((within 1 0).evaluate program 0)
        ((within 2 0).evaluate program 0) .initial := by
  intro host host' program
  exact ⟨by decide, ⟨1, .initial, rfl⟩,
    (higher_limit_same_unless_hit (by decide) (fun _ => .error .notFound) 0 .initial).1 program 0⟩

end SmallLisp
