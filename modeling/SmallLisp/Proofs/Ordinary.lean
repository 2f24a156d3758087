import SmallLisp.Evaluator
/-!
# Ordinary faults

Only one fault is fatal: that too many evaluations are nested. It is the evaluator that throws it, and
nobody else does. **Whatever is computed without evaluating anything fails with an ordinary fault**, if
it fails: conversions of arguments, the primitives, lists of parameters, and symbols that are looked up.

So a run that ends with the fatal fault has reached the limit that it runs under, and no other one.
-/

namespace SmallLisp

/-- Whether a result is a value or an ordinary fault. -/
def Ordinary {α : Type} : Except Fault α → Prop
  | .ok _ => True
  | .error e => e.isFatal = false

variable {α β : Type}

@[simp] theorem ordinary_ok (a : α) : Ordinary (.ok a) := trivial

@[simp] theorem ordinary_pure (a : α) : Ordinary (pure a) := trivial

@[simp] theorem ordinary_error {e : Fault} :
    Ordinary (.error e : Except Fault α) ↔ e.isFatal = false := Iff.rfl

@[simp] theorem ordinary_throw {e : Fault} :
    Ordinary (throw e : Except Fault α) ↔ e.isFatal = false := Iff.rfl

/-- A sequence fails only where one of its parts does, so two ordinary parts are ordinary together.
-/
@[simp] theorem ordinary_bind {x : Except Fault α} {f : α → Except Fault β} (hx : Ordinary x)
    (hf : ∀ a, Ordinary (f a)) : Ordinary (x >>= f) := by
  cases x with
  | ok a => exact hf a
  | error e => exact hx

@[simp] theorem ordinary_map {x : Except Fault α} (f : α → β) (hx : Ordinary x) :
    Ordinary (f <$> x) := by
  cases x with
  | ok a => exact trivial
  | error e => exact hx

theorem ordinary_mapM {f : α → Except Fault β} (hf : ∀ a, Ordinary (f a)) (items : List α) :
    Ordinary (items.mapM f) := by
  induction items with
  | nil => simp
  | cons a items ih => simp [List.mapM_cons, hf, ih]

theorem ordinary_foldlM {f : β → α → Except Fault β} (hf : ∀ b a, Ordinary (f b a)) (items : List α)
    (start : β) : Ordinary (items.foldlM f start) := by
  induction items generalizing start with
  | nil => simp
  | cons a items ih => simp [hf, ih]

/-! ### Natives -/

namespace Library

@[simp] theorem ordinary_one (args : List Value) : Ordinary (one args) := by
  unfold one
  split <;> simp [Fault.isFatal]

@[simp] theorem ordinary_two (args : List Value) : Ordinary (two args) := by
  unfold two
  split <;> simp [Fault.isFatal]

@[simp] theorem ordinary_three (args : List Value) : Ordinary (three args) := by
  unfold three
  split <;> simp [Fault.isFatal]

@[simp] theorem ordinary_atLeast (required : Nat) (args : List Value) :
    Ordinary (atLeast required args) := by
  unfold atLeast
  split <;> simp [Fault.isFatal]

@[simp] theorem ordinary_convert (result : Except TypeError α) : Ordinary (convert result) := by
  cases result with
  | ok a => exact trivial
  | error e => rfl

@[simp] theorem ordinary_numbers (args : List Value) : Ordinary (numbers args) :=
  ordinary_mapM (fun _ => ordinary_convert _) args

@[simp] theorem ordinary_quotient (a b : Number) : Ordinary (quotient a b) := by
  unfold quotient
  split <;> simp [Fault.isFatal]

@[simp] theorem ordinary_hashOfItems (items : List Value) : Ordinary (hashOfItems items) := by
  unfold hashOfItems
  split <;> simp [Fault.isFatal]

/-- Leaving the program is no fatal fault, whatever status was asked for. -/
@[simp] theorem isFatal_leave (args : List Value) : (leave args).isFatal = false := by
  unfold leave
  split <;> (try split) <;> (try split) <;> rfl

theorem ordinary_sortNumbers (items : List Value) : Ordinary (sortNumbers items) := by
  simp [sortNumbers]

/-! Where a native looks at its arguments in more than one way, its cases are gone through here. -/

theorem ordinary_subtract (args : List Value) : Ordinary (subtract args) := by
  refine ordinary_bind (ordinary_atLeast 1 args) fun _ => ordinary_bind (ordinary_numbers args) ?_
  intro ns
  split <;> simp

theorem ordinary_divide (args : List Value) : Ordinary (divide args) := by
  refine ordinary_bind (ordinary_numbers args) ?_
  intro ns
  split
  · simp [Fault.isFatal]
  · simp
  · exact ordinary_bind (ordinary_foldlM ordinary_quotient _ _) fun _ => ordinary_pure _

theorem ordinary_remainder (args : List Value) : Ordinary (remainder args) := by
  refine ordinary_bind (ordinary_two args) ?_
  rintro ⟨a, b⟩
  refine ordinary_bind (ordinary_convert _) fun a => ordinary_bind (ordinary_convert _) fun b => ?_
  cases b.isZero <;> simp [Fault.isFatal]

theorem ordinary_listAt (args : List Value) : Ordinary (listAt args) := by
  refine ordinary_bind (ordinary_two args) ?_
  rintro ⟨v, place⟩
  refine ordinary_bind (ordinary_convert _) fun items => ordinary_bind (ordinary_convert _) ?_
  intro place
  split <;> simp [Fault.isFatal]

theorem ordinary_listConcat (args : List Value) : Ordinary (listConcat args) :=
  ordinary_bind (ordinary_mapM (fun _ => ordinary_convert _) args) fun _ => ordinary_pure _

theorem ordinary_listPush (args : List Value) : Ordinary (listPush args) := by
  refine ordinary_bind (ordinary_atLeast 2 args) fun _ => ?_
  split <;> simp [Fault.isFatal]

theorem ordinary_listSum (args : List Value) : Ordinary (listSum args) := by
  refine ordinary_bind (ordinary_one args) fun v => ordinary_bind (ordinary_convert _) ?_
  simp

theorem ordinary_stringSplit (args : List Value) : Ordinary (stringSplit args) := by
  refine ordinary_bind (ordinary_two args) ?_
  intro pair
  split <;> simp

theorem ordinary_stringReplace (args : List Value) : Ordinary (stringReplace args) := by
  refine ordinary_bind (ordinary_three args) ?_
  rintro ⟨v, pattern, replacement⟩
  refine ordinary_bind (ordinary_convert _) ?_
  simp

end Library

/-- **No primitive fails fatally.** -/
theorem ordinary_compute (op : Primitive) (args : List Value) : Ordinary (op.compute args) := by
  cases op with
  | subtract => exact Library.ordinary_subtract args
  | divide => exact Library.ordinary_divide args
  | remainder => exact Library.ordinary_remainder args
  | listAt => exact Library.ordinary_listAt args
  | listConcat => exact Library.ordinary_listConcat args
  | listPush => exact Library.ordinary_listPush args
  | listSum => exact Library.ordinary_listSum args
  | stringSplit => exact Library.ordinary_stringSplit args
  | stringReplace => exact Library.ordinary_stringReplace args
  | add | multiply => simp [Primitive.compute, Library.add, Library.multiply]
  | equal | less | greater | lessEqual | greaterEqual =>
    simp [Primitive.compute, Library.equal, Library.compare]
  | makeHash | hashGet | hashCreate | hashLookup | hashSet | hashKeys =>
    simp [Primitive.compute, Library.makeHash, Library.hashGet, Library.hashSet, Library.hashKeys]
  | listHead | listTail | listCount =>
    simp [Primitive.compute, Library.listHead, Library.listTail, Library.listCount]
  | stringTrim => simp [Primitive.compute, Library.stringTrim]
  | exit => simp [Primitive.compute]
  | negate | list | isNull | typeOf | isError | makeError | listCreate | stringJoin =>
    simp [Primitive.compute]

/-! ### Parameters and symbols -/

theorem ordinary_symbolName (v : Value) : Ordinary (Context.symbolName v) := by
  unfold Context.symbolName
  split <;> simp [Fault.isFatal]

/-- One parameter at a time: a rest parameter must be the last, and what stands behind one is still
checked to be a symbol first. -/
theorem parameters_cons (param : Value) (params : List Value) :
    Context.parameters (param :: params) = (do
      let name ← Context.symbolName param
      match Context.restName? name, params with
      | some rest, [] => return ([], some rest)
      | some _, next :: _ => do
        let _ ← Context.symbolName next
        throw .restNotLast
      | none, params => do
        let (names, rest) ← Context.parameters params
        return (name :: names, rest)) := by
  -- the rest of the list is matched together with the name, so the recursion is opened by hand
  delta Context.parameters
  show bind _ _ = bind _ _
  congr 1
  funext name
  cases Context.restName? name <;> cases params <;> rfl

/-- By the same recursion, each of its errors is an ordinary one. -/
theorem ordinary_parameters (params : List Value) : Ordinary (Context.parameters params) := by
  induction params with
  | nil => exact trivial
  | cons param params ih =>
    rw [parameters_cons]
    refine ordinary_bind (ordinary_symbolName param) ?_
    intro name
    split
    · simp
    · exact ordinary_bind (ordinary_symbolName _) fun _ => ordinary_throw.mpr rfl
    · exact ordinary_bind ih fun _ => ordinary_pure _

theorem ordinary_resolve (m : Machine) (symbol : String) (scope : ScopeId) :
    Ordinary (m.resolve symbol scope) := by
  unfold Machine.resolve
  dsimp only
  split <;> (try split) <;> (try split) <;> (try split) <;> simp [Fault.isFatal]

end SmallLisp
