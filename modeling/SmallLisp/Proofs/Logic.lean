import SmallLisp.Proofs.Ordinary
import SmallLisp.Proofs.Recursion
/-!
# A logic of evaluations

Facts about all evaluations are proved by going through everything that evaluation is made of. That
is done once, here. An `EvalLogic` is a property of evaluations that holds of each of the few things
an evaluation can do to a machine and is handed on from the parts of an evaluation to the whole; the
rules below then give it for special forms, templates, calls and steps. A theorem about evaluation
only has to say what its property is, check the rules and tie the knot over nested evaluations.

Two things make the rules serve different theorems:

* The property is one of *families* of evaluations over an index type `ι`. With one index it is
  about single runs; with two it compares a run with another one.
* It is relative to a *target*: the scope, if there is one, in which the evaluation takes place and
  to whose variables it may write directly. A new scope, the scope of a namespace and the root may
  become the target of a part of an evaluation without being that of the whole.
-/

namespace SmallLisp

/-! ### Runs -/

/-- How an evaluation ends, with the machine it leaves behind. -/
abbrev Outcome (α : Type) := EStateM.Result Fault Machine α

namespace Eval

/-- The machine after an evaluation, whichever way it ended. -/
def after {α : Type} (x : Eval α) (host : Host) (m : Machine) : Machine :=
  match x host m with
  | .ok _ m | .error _ m => m

variable {α β : Type} {x y : Eval α} {host : Host} {m m' : Machine} {a : α} {e : Fault}

theorem after_congr (h : x host m = y host m) : x.after host m = y.after host m := by
  simp only [after, h]

theorem after_of_ok (h : x host m = .ok a m') : x.after host m = m' := by
  simp only [after, h]

theorem after_of_error (h : x host m = .error e m') : x.after host m = m' := by
  simp only [after, h]

theorem bind_of_ok (h : x host m = .ok a m') (f : α → Eval β) :
    (x >>= f) host m = f a host m' := by
  show EStateM.bind (x host) _ m = _
  simp only [EStateM.bind, h]

theorem bind_of_error (h : x host m = .error e m') (f : α → Eval β) :
    (x >>= f) host m = .error e m' := by
  show EStateM.bind (x host) _ m = _
  simp only [EStateM.bind, h]

theorem bind_congr (h : x host m = y host m) (f : α → Eval β) :
    (x >>= f) host m = (y >>= f) host m := by
  cases hy : y host m with
  | ok a m' => rw [bind_of_ok (h.trans hy), bind_of_ok hy]
  | error e m' => rw [bind_of_error (h.trans hy), bind_of_error hy]

/-- A sequence that gives a value did so in both parts. -/
theorem bind_eq_ok {f : α → Eval β} {b : β} (h : (x >>= f) host m = .ok b m') :
    ∃ a m₁, x host m = .ok a m₁ ∧ f a host m₁ = .ok b m' := by
  cases hrun : x host m with
  | ok a m₁ =>
    rw [bind_of_ok hrun] at h
    exact ⟨a, m₁, rfl, h⟩
  | error e m₁ =>
    rw [bind_of_error hrun] at h
    cases h

theorem after_bind_of_ok (h : x host m = .ok a m') (f : α → Eval β) :
    (x >>= f).after host m = (f a).after host m' := by
  simp only [after, bind_of_ok h]

theorem after_bind_of_error (h : x host m = .error e m') (f : α → Eval β) :
    (x >>= f).after host m = m' :=
  after_of_error (bind_of_error h f)

end Eval

namespace Context

/-- What becomes of the text of a module, or of the failure to read it. -/
def load (ctx : Context) (path : String) (scope : ScopeId) :
    Except ReadFailure String → Eval Value
  | .error .notFound => throw (.moduleNotFound path)
  | .error (.unreadable reason) => throw (.moduleUnreadable path reason)
  | .ok source => do
    modify (Machine.report (.moduleLoaded path source.utf8ByteSize))
    match Datum.parseForms source with
    | .error e => throw (.moduleSyntax path e)
    | .ok forms => ctx.sequence forms scope

/-- Requiring a file is reading it and then loading what was read. -/
theorem require_eq (ctx : Context) (path : String) (scope : ScopeId) :
    ctx.require path scope = (do ctx.load path scope ((← read).read path)) := by
  unfold Context.require load
  rfl

end Context

/-! ### The logic -/

/-- A property of families of evaluations that everything evaluation is made of has or keeps. -/
structure EvalLogic (ι : Type) where
  /-- The property, for evaluations that may write to the target. -/
  Holds : Option ScopeId → {α : Type} → (ι → Eval α) → Prop
  /-- Nothing is lost if there is one more scope to write to. -/
  weaken : ∀ {target : Option ScopeId} {α : Type} {x : ι → Eval α}, Holds none x → Holds target x
  pure : ∀ {target : Option ScopeId} {α : Type} (a : α), Holds target fun _ => Pure.pure a
  /-- The fatal fault is left to the contexts. -/
  throw : ∀ {target : Option ScopeId} {α : Type} (e : Fault), e.isFatal = false →
    Holds target fun _ => (MonadExcept.throw e : Eval α)
  bind : ∀ {target : Option ScopeId} {α β : Type} {x : ι → Eval α} {f : ι → α → Eval β},
    Holds target x → (∀ a, Holds target fun i => f i a) → Holds target fun i => x i >>= f i
  /-- The reports of calls, which are the fine ones, are left to the contexts. -/
  report : ∀ {target : Option ScopeId} (event : Event), event.level = .debug →
    Holds target fun _ => modify (Machine.report event)
  print : ∀ {target : Option ScopeId} (line : String),
    Holds target fun _ => modify (Machine.print line)
  /-- Only variables of the target are set. -/
  set : ∀ (scope : ScopeId) (name : String) (v : Value),
    Holds (some scope) fun _ => modify (Machine.set scope name v)
  /-- A new closure has a new identity. -/
  closure : ∀ {target : Option ScopeId} (make : Nat → Value),
    Holds target fun _ => modifyGet fun m => (make m.closures, { m with closures := m.closures + 1 })
  resolve : ∀ {target : Option ScopeId} (symbol : String) (scope : ScopeId),
    Holds target fun _ => do Eval.ofExcept ((← get).resolve symbol scope)
  /-- What goes on in a new scope. -/
  newScope : ∀ {α : Type} (vars : Table Value) (parent : ScopeId) {f : ι → ScopeId → Eval α},
    (∀ id, Holds (some id) fun i => f i id) → Holds none fun i => Machine.newScope vars parent >>= f i
  /-- What goes on in the scope of a namespace. -/
  enterNamespace : ∀ {α : Type} (name : String) {f : ι → ScopeId → Eval α},
    (∀ id, Holds (some id) fun i => f i id) →
      Holds none fun i => Context.enterNamespace name >>= f i
  /-- What goes on in the root. -/
  enterRoot : ∀ {α : Type} (f : ι → ScopeId → Eval α),
    (∀ id, Holds (some id) fun i => f i id) → Holds none fun i => do f i (← get).registry.root
  /-- What goes on with the text of a module. -/
  readModule : ∀ {target : Option ScopeId} {α : Type} (path : String)
    (f : ι → Except ReadFailure String → Eval α),
    (∀ result, Holds target fun i => f i result) → Holds target fun i => do f i ((← read).read path)

namespace EvalLogic

variable {ι : Type} (L : EvalLogic ι) {target : Option ScopeId} {α β : Type}

/-! ### Steps and loops -/

/-- Library functions reach the evaluator as results that are never fatal, which is all that a logic
has to know of them. -/
theorem ofExcept {result : Except Fault α} (h : Ordinary result) :
    L.Holds target fun _ => Eval.ofExcept result := by
  cases result with
  | ok a => exact L.pure a
  | error e => exact L.throw e h

theorem ofConversion (result : Except TypeError α) :
    L.Holds target fun _ => Eval.ofConversion result := by
  cases result with
  | ok a => exact L.pure a
  | error e => exact L.throw _ rfl

/-- Going on with the items of a value, which is then a list of them. -/
theorem asList (v : Value) {f : ι → List Value → Eval α}
    (hf : ∀ items, v = .list items → L.Holds target fun i => f i items) :
    L.Holds target fun i => Eval.ofConversion v.asList >>= f i := by
  cases v with
  | list items => exact hf items rfl
  | _ => exact L.throw _ rfl

/-- One item after the other, by induction on the list. -/
theorem mapM {f : ι → α → Eval β} (items : List α)
    (hf : ∀ a ∈ items, L.Holds target fun i => f i a) :
    L.Holds target fun i => items.mapM (f i) := by
  induction items with
  | nil => exact L.pure []
  | cons a items ih =>
    simp only [List.mapM_cons]
    apply L.bind (hf a List.mem_cons_self)
    intro b
    apply L.bind (ih fun a ha => hf a (List.mem_cons_of_mem _ ha))
    intro bs
    exact L.pure _

theorem foldlM {f : ι → β → α → Eval β} (items : List α) (start : β)
    (hf : ∀ b, ∀ a ∈ items, L.Holds target fun i => f i b a) :
    L.Holds target fun i => items.foldlM (f i) start := by
  induction items generalizing start with
  | nil => exact L.pure start
  | cons a items ih =>
    simp only [List.foldlM_cons]
    apply L.bind (hf start a List.mem_cons_self)
    intro b
    exact ih b fun b a ha => hf b a (List.mem_cons_of_mem _ ha)

theorem mergeM {inOrder : ι → α → α → Eval Bool}
    (h : ∀ a b, L.Holds target fun i => inOrder i a b) (as bs : List α) :
    L.Holds target fun i => SmallLisp.mergeM (inOrder i) as bs := by
  induction hn : as.length + bs.length using Nat.strongRecOn generalizing as bs with
  | ind n ih =>
    match as, bs with
    | [], bs => simpa only [SmallLisp.mergeM] using L.pure bs
    | a :: as, [] => simpa only [SmallLisp.mergeM] using L.pure (a :: as)
    | a :: as, b :: bs =>
      simp only [SmallLisp.mergeM]
      simp only [List.length_cons] at hn
      apply L.bind (h a b)
      intro inFront
      cases inFront
      · exact L.bind (ih _ (by simp only [List.length_cons]; omega) (a :: as) bs rfl)
          fun _ => L.pure _
      · exact L.bind (ih _ (by simp only [List.length_cons]; omega) as (b :: bs) rfl)
          fun _ => L.pure _

/-- Sorting is a tree of comparisons, so it holds of sorting what holds of each comparison. -/
theorem mergeSortM {inOrder : ι → α → α → Eval Bool}
    (h : ∀ a b, L.Holds target fun i => inOrder i a b) (items : List α) :
    L.Holds target fun i => SmallLisp.mergeSortM (inOrder i) items := by
  induction hn : items.length using Nat.strongRecOn generalizing items with
  | ind n ih =>
    by_cases hshort : items.length ≤ 1
    · have hdef : ∀ i, SmallLisp.mergeSortM (inOrder i) items = Pure.pure items := by
        intro i
        rw [SmallLisp.mergeSortM, if_pos hshort]
      rw [funext hdef]
      exact L.pure items
    · -- the definition has to be unfolded for all indices at once
      have hdef : ∀ i, SmallLisp.mergeSortM (inOrder i) items = (do
          let front ← SmallLisp.mergeSortM (inOrder i) (items.take (items.length / 2))
          let back ← SmallLisp.mergeSortM (inOrder i) (items.drop (items.length / 2))
          SmallLisp.mergeM (inOrder i) front back) := by
        intro i
        rw [SmallLisp.mergeSortM, if_neg hshort]
      rw [funext hdef]
      apply L.bind (ih _ (by simp only [List.length_take]; omega) _ rfl)
      intro front
      apply L.bind (ih _ (by simp only [List.length_drop]; omega) _ rfl)
      intro back
      exact L.mergeM h front back

/-! ### Evaluations over contexts -/

/-- A family of contexts in which nested evaluations have the property, and reports of calls, which
show how deep a context is. -/
structure Admits (ctx : ι → Context) : Prop where
  reportCall : ∀ {target : Option ScopeId} (f : Function Value),
    L.Holds target fun i => (ctx i).reportCall f
  evaluate : ∀ v scope, L.Holds (some scope) fun i => (ctx i).evaluate v scope
  fill : ∀ template scope, L.Holds (some scope) fun i => (ctx i).fill template scope

variable {L} {ctx : ι → Context} (h : L.Admits ctx)
include h

/-- Forms in a row are evaluated in the scope of the row. -/
theorem Admits.sequence (forms : List Value) (scope : ScopeId) :
    L.Holds (some scope) fun i => (ctx i).sequence forms scope := by
  apply L.foldlM
  intro _ form _
  exact h.evaluate form scope

/-- A body runs in a scope made for it, so for the caller nothing old is written to. -/
theorem Admits.sequenceInNewScope (vars : Table Value) (parent : ScopeId) (forms : List Value) :
    L.Holds none fun i => Machine.newScope vars parent >>= (ctx i).sequence forms := by
  apply L.newScope
  intro id
  exact h.sequence forms id

/-- A file is a program of its own, read from its text and run in the scope that requires it. -/
theorem Admits.load (path : String) (scope : ScopeId) (result : Except ReadFailure String) :
    L.Holds (some scope) fun i => (ctx i).load path scope result := by
  rcases result with (_ | reason) | source
  · exact L.throw _ rfl
  · exact L.throw _ rfl
  · apply L.bind (L.report _ rfl)
    intro _
    cases Datum.parseForms source with
    | error e => exact L.throw _ rfl
    | ok forms => exact h.sequence forms scope

theorem Admits.require (path : String) (scope : ScopeId) :
    L.Holds (some scope) fun i => (ctx i).require path scope := by
  simp only [Context.require_eq]
  exact L.readModule path (fun i => (ctx i).load path scope) (h.load path scope)

/-! ### Templates -/

theorem Admits.fillItem (scope : ScopeId) (item : Value) :
    L.Holds (some scope) fun i => (ctx i).fillItem scope item := by
  unfold Context.fillItem
  cases Template.hole? .splice item with
  | some form =>
    apply L.bind (h.evaluate form scope)
    intro v
    exact L.ofConversion _
  | none =>
    cases item with
    | list items =>
      apply L.bind (h.fill _ scope)
      intro v
      exact L.pure [v]
    | _ => exact L.pure _

/-- A template evaluates its holes and fills its lists, one level further in. -/
theorem Admits.fillTemplate (template : Value) (scope : ScopeId) :
    L.Holds (some scope) fun i => (ctx i).fillTemplate template scope := by
  unfold Context.fillTemplate
  cases Template.hole? .unquote template with
  | some form => exact h.evaluate form scope
  | none =>
    cases template with
    | list items =>
      apply L.bind (L.mapM items fun item _ => h.fillItem scope item)
      intro parts
      exact L.pure _
    | _ => exact L.pure _

/-! ### Calls -/

/-- One case for each native, callbacks apart: most compute a result, some print, one evaluates. -/
theorem Admits.callNative (f : Native) (args : List Value) :
    L.Holds none fun i => (ctx i).callNative f args := by
  cases f with
  | primitive op => exact L.ofExcept (ordinary_compute op args)
  | print =>
    apply L.bind (L.print _)
    intro _
    exact L.pure _
  | inspect =>
    apply L.bind (L.ofExcept (Library.ordinary_one args))
    intro v
    apply L.bind (L.print _)
    intro _
    exact L.pure v
  | eval =>
    apply L.bind (L.ofExcept (Library.ordinary_one args))
    intro v
    -- the root is looked up in the machine, so the scope is not known beforehand
    apply L.enterRoot fun i root => (ctx i).evaluate v root
    intro root
    exact h.evaluate v root
  | listMap => exact L.throw _ rfl
  | listReduce => exact L.throw _ rfl
  | listSort =>
    match args with
    | [v] =>
      apply L.bind (L.ofConversion _)
      intro items
      exact L.ofExcept (Library.ordinary_sortNumbers items)
    | [] | _ :: _ :: _ => exact L.throw _ rfl

/-- A native without callbacks, or a closure, which runs its body in a scope of its own. -/
theorem Admits.callPlain (f : Function Value) (args : List Value) :
    L.Holds none fun i => (ctx i).callPlain f args := by
  cases f with
  | native f => exact h.callNative f args
  | closure f => exact h.sequenceInNewScope _ f.scope f.body

/-- One call has the property if the calls that it may make have it. -/
theorem Admits.callWith {call : ι → Function Value → List Value → Eval Value} (f : Function Value)
    (args : List Value)
    (hcall : ∀ g args', Context.Callback args' args → L.Holds none fun i => call i g args') :
    L.Holds none fun i => (ctx i).callWith (call i) f args := by
  unfold Context.callWith
  apply L.bind (h.reportCall f)
  intro _
  split
  · next v g =>
    apply L.bind (L.ofConversion _)
    intro g'
    apply L.asList
    rintro items rfl
    apply L.bind
    · apply L.mapM
      rintro ⟨item, place⟩ hitem
      exact hcall g' _ (.item _ g (List.fst_mem_of_mem_zipIdx hitem))
    · intro results
      exact L.pure _
  · next v g start =>
    apply L.bind (L.ofConversion _)
    intro g'
    apply L.asList
    rintro items rfl
    apply L.foldlM
    intro sofar item _
    exact hcall g' _ (.fold sofar item _ g start)
  · next v g =>
    apply L.bind (L.ofConversion _)
    intro g'
    apply L.asList
    rintro items rfl
    -- the items have to be known as such while they are sorted
    simp only [Context.mergeSortM_eq_attach, bind_map_left]
    apply L.bind
    · apply L.mergeSortM
      intro x y
      apply L.bind (hcall g' _ (.item _ g x.property))
      intro order
      apply L.bind (L.ofConversion _)
      intro n
      exact L.pure _
    · intro sorted
      exact L.pure _
  · exact h.callPlain _ _

/-- A call is announced and then made. -/
theorem Admits.apply (f : Function Value) (args : List Value) :
    L.Holds none fun i => (ctx i).apply f args := by
  induction args using Context.wellFounded_callback.induction generalizing f with
  | _ args ih =>
    simp only [Context.apply_eq_callWith _ f args]
    apply h.callWith
    intro g args' hargs
    exact ih args' hargs g

/-! ### Special forms -/

omit h in
/-- Making a closure reads its parameters and counts one closure more. -/
theorem makeClosure (name : Option String) (params : Value) (body : List Value) (scope : ScopeId) :
    L.Holds target fun _ => Context.makeClosure name params body scope := by
  apply L.bind (L.ofConversion _)
  intro items
  apply L.bind (L.ofExcept (ordinary_parameters items))
  rintro ⟨names, rest⟩
  exact L.closure fun identity => .function (.closure ⟨identity, name, names, rest, body, scope⟩)

omit h in
theorem assign (scope : ScopeId) (name : String) (v : Value) :
    L.Holds (some scope) fun _ => Context.assign scope name v := by
  apply L.bind (L.set scope name v)
  intro _
  exact L.pure v

/-- The pairs of a `let` are evaluated one after the other, outside the scope they are for. -/
theorem Admits.bindings (scope : ScopeId) (pairs : List Value) :
    L.Holds (some scope) fun i => (ctx i).bindings scope pairs := by
  apply L.foldlM
  intro vars pair _
  apply L.bind (L.ofConversion _)
  intro items
  match items with
  | [target, form] =>
    apply L.bind (L.ofExcept (ordinary_symbolName target))
    intro name
    apply L.bind (h.evaluate form scope)
    intro v
    exact L.pure _
  | [] | [_] | _ :: _ :: _ :: _ => exact L.throw _ rfl

/-- The loop of `and` and `or`, by induction on the forms. -/
theorem Admits.evaluateUntil (stops : Value → Bool) (scope : ScopeId) (start : Value)
    (forms : List Value) :
    L.Holds (some scope) fun i => (ctx i).evaluateUntil stops scope start forms := by
  induction forms generalizing start with
  | nil => exact L.pure start
  | cons form forms ih =>
    apply L.bind (h.evaluate form scope)
    intro v
    cases hstops : stops v with
    | true => simpa only [hstops, if_true] using L.pure v
    | false => simpa only [hstops, Bool.false_eq_true, if_false] using ih v

/-- One case for each special form: this is where the constructs of the language are gone through.
-/
theorem Admits.special (form : SpecialForm) (args : List Value) (scope : ScopeId) :
    L.Holds (some scope) fun i => (ctx i).special form args scope := by
  unfold Context.special
  -- the cases are in the order of the definition; each one evaluates its parts from left to right
  split
  · exact L.pure _
  · exact h.fillTemplate _ scope
  · apply L.bind (h.evaluate _ scope)
    intro _
    exact h.evaluate _ scope
  · apply L.bind (h.evaluate _ scope)
    intro v
    exact h.evaluate _ scope
  · apply L.bind (L.ofExcept (ordinary_symbolName _))
    intro name
    apply L.bind (h.evaluate _ scope)
    intro v
    exact assign scope name v
  · apply L.bind (L.ofExcept (ordinary_symbolName _))
    intro name
    apply L.bind (makeClosure _ _ _ scope)
    intro f
    exact assign scope name f
  · exact makeClosure _ _ _ scope
  · exact h.sequence _ scope
  · apply L.bind (L.ofConversion _)
    intro pairs
    apply L.bind (h.bindings scope pairs)
    intro vars
    exact L.weaken (h.sequenceInNewScope vars scope _)
  · exact h.evaluateUntil _ scope _ _
  · exact h.evaluateUntil _ scope _ _
  · apply L.bind (h.evaluate _ scope)
    intro path
    apply L.bind (L.ofConversion _)
    intro path
    exact h.require path scope
  · apply L.bind (L.ofExcept (ordinary_symbolName _))
    intro name
    exact L.weaken (L.enterNamespace name fun id => h.sequence _ id)
  · exact L.throw _ rfl

/-! ### Steps -/

/-- One evaluation has the property if the call that it may end with has it. -/
theorem Admits.stepWith {call : ι → Function Value → List Value → Eval Value}
    (hcall : ∀ f args, L.Holds none fun i => call i f args) (v : Value) (scope : ScopeId) :
    L.Holds (some scope) fun i => (ctx i).stepWith (call i) v scope := by
  unfold Context.stepWith
  split
  · exact L.resolve _ scope
  · next head args =>
    cases Context.specialForm? head with
    | some form => exact h.special form args scope
    | none =>
      apply L.bind (h.evaluate head scope)
      intro v
      cases v with
      | function f =>
        apply L.bind (L.mapM args fun arg _ => h.evaluate arg scope)
        intro args
        exact L.weaken (hcall f args)
      | _ => exact L.throw _ rfl
  · exact L.pure _

/-- A step of evaluation is a lookup, a literal, a special form, or a call with evaluated arguments.
-/
theorem Admits.step (v : Value) (scope : ScopeId) :
    L.Holds (some scope) fun i => (ctx i).step v scope := by
  simp only [Context.step_eq_stepWith]
  exact h.stepWith h.apply v scope

end EvalLogic

end SmallLisp
