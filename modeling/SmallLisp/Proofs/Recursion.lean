import SmallLisp.Evaluator
/-!
# The recursion of evaluation, written out

`Context.apply` and `evaluate` are defined so that they visibly end: the one recurses on the nesting
of a list, the other on the number of evaluations left. This file says what they do without saying
why they end, as plain recursive equations:

* `Context.callWith` is one call, with the calls that it makes in turn left open, and
  `apply_eq_callWith` says that `apply` is the call whose calls are `apply` again;
* `Context.stepWith` is one evaluation with its call left open, and `evaluate_within` says that an
  evaluation at some depth is such a step one level deeper, or the fault that the limit is reached.

What bounds the first recursion is stated apart, as `wellFounded_callback`: **the arguments of the
calls that a call makes are smaller in a well-founded order**, whatever the functions are.
-/

namespace SmallLisp

/-! ### Sorting through a function

Sorting compares items and moves them around, and looks at them in no other way. -/

section Sorting

variable {m : Type → Type} [Monad m] [LawfulMonad m] {α β : Type}

/-- Sorting commutes with a change of the items that the comparison sees through. -/
theorem map_mergeM (f : α → β) (inOrder : β → β → m Bool) (as bs : List α) :
    List.map f <$> mergeM (fun a b => inOrder (f a) (f b)) as bs =
      mergeM inOrder (as.map f) (bs.map f) := by
  fun_induction mergeM (fun a b => inOrder (f a) (f b)) as bs with
  | case1 bs => simp [mergeM]
  | case2 as h =>
    cases as with
    | nil => exact absurd rfl h
    | cons a as => simp [mergeM]
  | case3 a as b bs ihFront ihBack =>
    simp only [List.map_cons, map_bind] at ihFront ihBack ⊢
    rw [mergeM]
    congr 1
    funext inFront
    cases inFront
    · simp [← ihBack]
    · simp [← ihFront]

/-- **Sorting commutes with a function** that the comparison goes through. -/
theorem map_mergeSortM (f : α → β) (inOrder : β → β → m Bool) (items : List α) :
    List.map f <$> mergeSortM (fun a b => inOrder (f a) (f b)) items =
      mergeSortM inOrder (items.map f) := by
  induction h : items.length using Nat.strongRecOn generalizing items with
  | ind n ih =>
    rw [mergeSortM, mergeSortM, List.length_map]
    by_cases hshort : items.length ≤ 1
    · simp [hshort]
    · have hfront := ih _ (by simp only [List.length_take]; omega)
        (items.take (items.length / 2)) rfl
      have hback := ih _ (by simp only [List.length_drop]; omega)
        (items.drop (items.length / 2)) rfl
      rw [if_neg hshort, if_neg hshort]
      simp only [← List.map_take, ← List.map_drop, ← hfront, ← hback, map_bind, bind_map_left,
        map_mergeM]

end Sorting

namespace Context

/-! ### Calls -/

/-- One call, with the calls that it makes in turn left open. -/
def callWith (ctx : Context) (call : Function Value → List Value → Eval Value)
    (f : Function Value) (args : List Value) : Eval Value := do
  ctx.reportCall f
  match f, args with
  | .native .listMap, [v, g] =>
    let g ← Eval.ofConversion g.asFunction
    let items ← Eval.ofConversion v.asList
    let results ← items.zipIdx.mapM fun (item, place) => call g [item, .number (.ofNat place)]
    return .list results
  | .native .listReduce, [v, g, start] =>
    let g ← Eval.ofConversion g.asFunction
    let items ← Eval.ofConversion v.asList
    items.foldlM (fun sofar item => call g [sofar, item]) start
  | .native .listSort, [v, g] =>
    let g ← Eval.ofConversion g.asFunction
    let items ← Eval.ofConversion v.asList
    let inOrder (x y : Value) : Eval Bool := do
      let order ← call g [x, y]
      return (← Eval.ofConversion order.asNumber).le 0
    let sorted ← mergeSortM inOrder items
    return .list sorted
  | f, args => ctx.callPlain f args

theorem mapM_attach_zipIdx (items : List Value) (f : Value → Nat → Eval Value) :
    (items.attach.zipIdx.mapM fun (item, place) => f item.val place) =
      items.zipIdx.mapM fun (item, place) => f item place := by
  have hval : items.attach.zipIdx.map (Prod.map Subtype.val id) = items.zipIdx := by
    rw [← List.zipIdx_map, List.attach_map_subtype_val]
  rw [← hval, List.mapM_map]
  rfl

/-- Sorting compares only items of the list, which is what makes its callbacks smaller than the
call. -/
theorem mergeSortM_eq_attach (items : List Value) (inOrder : Value → Value → Eval Bool) :
    mergeSortM inOrder items =
      List.map Subtype.val <$>
        mergeSortM (fun x y : { item // item ∈ items } => inOrder x.val y.val) items.attach := by
  rw [map_mergeSortM, List.attach_map_subtype_val]

/-- A call with two arguments is the call that natives make back. -/
theorem apply_pair (ctx : Context) (f : Function Value) (a b : Value) :
    ctx.apply f [a, b] = ctx.applyPair f a b := by
  cases f with
  | closure f => rfl
  | native f => cases f <;> rfl

/-- A callback is a call like any other. -/
theorem applyPair_eq_callWith (ctx : Context) (f : Function Value) (a b : Value) :
    ctx.applyPair f a b = ctx.callWith ctx.apply f [a, b] := by
  unfold callWith
  rw [applyPair.eq_def]
  congr 1
  funext _
  cases f with
  | closure f => rfl
  | native f =>
    -- all but two natives call nothing back with two arguments
    cases f <;> try rfl
    case listMap =>
      cases a <;> try rfl
      case list items =>
        simp only [Value.asList, Eval.ofConversion, pure_bind, apply_pair]
        congr 1
        funext g
        rw [mapM_attach_zipIdx items fun item place => ctx.applyPair g item (.number (.ofNat place))]
    case listSort =>
      cases a <;> try rfl
      case list items =>
        simp only [Value.asList, Eval.ofConversion, pure_bind, apply_pair]
        congr 1
        funext g
        rw [mergeSortM_eq_attach, bind_map_left]

/-- **A call calls with the same rules**: the calls that a call makes are calls again. -/
theorem apply_eq_callWith (ctx : Context) (f : Function Value) (args : List Value) :
    ctx.apply f args = ctx.callWith ctx.apply f args := by
  match args with
  | [] | [_] | _ :: _ :: _ :: _ :: _ =>
    cases f with
    | closure f => rfl
    | native f => cases f <;> rfl
  | [a, b] => rw [apply_pair, applyPair_eq_callWith]
  | [v, g, start] =>
    cases f with
    | closure f => rfl
    | native f =>
      cases f <;> try rfl
      case listReduce => simp only [apply, callWith]

theorem apply_primitive (ctx : Context) (op : Primitive) (args : List Value) :
    ctx.apply (.native (.primitive op)) args = (do
      ctx.reportCall (.native (.primitive op))
      Eval.ofExcept (op.compute args)) := by
  rw [apply_eq_callWith]
  rfl

/-- The first arguments are those of a call that a call with the second ones may make: an item of a
list that is mapped or sorted comes first, and reducing takes three arguments and passes on two. -/
inductive Callback : List Value → List Value → Prop where
  | item {items : List Value} {item : Value} (other g : Value) (h : item ∈ items) :
      Callback [item, other] [.list items, g]
  | fold (sofar item v g start : Value) : Callback [sofar, item] [v, g, start]

/-- A call with two arguments cannot lead to callbacks for ever. -/
theorem acc_callback_pair (a b : Value) : Acc Callback [a, b] := by
  induction h : a.nesting using Nat.strongRecOn generalizing a b with
  | ind n ih =>
    constructor
    intro args hargs
    -- what is called back with two arguments gets an item of the first one
    cases hargs with
    | item other g hmem => exact ih _ (h ▸ Value.nesting_lt_of_mem hmem) _ other rfl

/-- **Calls that call back come to an end**: an item is nested less deep than its list, and what is
called back with two arguments never calls with three. -/
theorem wellFounded_callback : WellFounded Callback := by
  constructor
  intro args
  constructor
  intro args' hargs
  cases hargs with
  | item other g hmem => exact acc_callback_pair _ other
  | fold sofar item v g start => exact acc_callback_pair sofar item

/-! ### Evaluations -/

/-- One evaluation, with the call that it may end with left open. -/
def stepWith (ctx : Context) (call : Function Value → List Value → Eval Value) (v : Value)
    (scope : ScopeId) : Eval Value :=
  match v with
  | .symbol s => do Eval.ofExcept ((← get).resolve s scope)
  | .list (head :: args) =>
    match specialForm? head with
    | some form => ctx.special form args scope
    | none => do
      match ← ctx.evaluate head scope with
      | .function f =>
        let args ← args.mapM fun arg => ctx.evaluate arg scope
        call f args
      | _ => throw (.notAFunction head.display)
  | v => return v

/-- The evaluator steps by the call it is defined with. -/
theorem step_eq_stepWith (ctx : Context) (v : Value) (scope : ScopeId) :
    ctx.step v scope = ctx.stepWith ctx.apply v scope := by
  rfl

/-- The context of whatever is nested in `depth` evaluations, of which `limit` are allowed. -/
def within (limit depth : Nat) : Context :=
  ⟨depth, SmallLisp.evaluate (limit - depth), fillNested (limit - depth)⟩

/-- An interpreter evaluates at depth zero. -/
theorem outermost_eq_within (host : Host) : outermost host = within host.limit 0 := by
  rfl

end Context

open Context

theorem left_of_lt {limit depth : Nat} (h : depth < limit) :
    ∃ left, limit - depth = left + 1 ∧ limit - left = depth + 1 ∧ limit - (depth + 1) = left :=
  ⟨limit - depth - 1, by omega, by omega, by omega⟩

/-- **An evaluation is a step one level deeper**, unless the limit is reached. -/
theorem evaluate_within {host : Host} {depth : Nat} (h : depth < host.limit) (v : Value)
    (scope : ScopeId) (m : Machine) :
    (within host.limit depth).evaluate v scope host m =
      (within host.limit (depth + 1)).step v scope host m := by
  obtain ⟨left, hleft, hdepth, hnested⟩ := left_of_lt h
  simp only [within, hleft, hnested, evaluate]
  show Context.step ⟨host.limit - left, _, _⟩ v scope host m = _
  rw [hdepth]

/-- Below the limit a template is filled one level further in. -/
theorem fill_within {host : Host} {depth : Nat} (h : depth < host.limit) (template : Value)
    (scope : ScopeId) (m : Machine) :
    (within host.limit depth).fill template scope host m =
      (within host.limit (depth + 1)).fillTemplate template scope host m := by
  obtain ⟨left, hleft, hdepth, hnested⟩ := left_of_lt h
  simp only [within, hleft, hnested, fillNested]
  show Context.fillTemplate ⟨host.limit - left, _, _⟩ template scope host m = _
  rw [hdepth]

/-- At the limit no evaluation begins. -/
theorem evaluate_within_of_le {host : Host} {depth : Nat} (h : host.limit ≤ depth) (v : Value)
    (scope : ScopeId) : (within host.limit depth).evaluate v scope = limitReached := by
  simp only [within, Nat.sub_eq_zero_of_le h, evaluate]

/-- At the limit no template is filled. -/
theorem fill_within_of_le {host : Host} {depth : Nat} (h : host.limit ≤ depth) (template : Value)
    (scope : ScopeId) : (within host.limit depth).fill template scope = limitReached := by
  simp only [within, Nat.sub_eq_zero_of_le h, fillNested]

/-- Induction on the evaluations left: from the limit down to the outermost evaluation. -/
theorem depth_induction {P : Nat → Prop} (limit : Nat) (atLimit : ∀ depth, limit ≤ depth → P depth)
    (below : ∀ depth, depth < limit → P (depth + 1) → P depth) (depth : Nat) : P depth := by
  induction hleft : limit - depth generalizing depth with
  | zero => exact atLimit depth (by omega)
  | succ left ih => exact below depth (by omega) (ih (depth + 1) (by omega))

end SmallLisp
