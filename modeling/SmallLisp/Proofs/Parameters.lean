import SmallLisp.Proofs.Holes
import SmallLisp.Proofs.WellFormed
/-!
# Parameters, arguments and `let`

A list of symbols spells parameters if at most the last symbol has the rest sign in front, and nothing
else makes a closure (`makeClosure_eq_ok_iff`). **A call binds exactly the parameters** (`binds_bind`):
the rest parameter to the arguments that are left over, and every other name to the argument at the
last place where it is a parameter, or to `null`.

**A `let` is such a call**: of a closure whose parameters are the names of its bindings, taken as they
are. It sets each name as soon as its form is evaluated, where a call first evaluates all arguments;
but the table it sets them in is out of reach until the body is evaluated (`bindings_eq`).
-/

namespace SmallLisp

open Context

/-! ### How parameters are spelt -/

/-- The symbols that spell parameters and a rest parameter. -/
def spellParameters (params : List String) (rest : Option String) : List String :=
  params ++ (rest.map ("..." ++ ·)).toList

def HasRestSign (name : String) : Prop :=
  "...".toList <+: name.toList

instance : DecidablePred HasRestSign :=
  fun name => inferInstanceAs (Decidable ("...".toList <+: name.toList))

/-- A rest parameter is written with the sign in front of its name. -/
theorem restName?_eq_some_iff {name rest : String} :
    restName? name = some rest ↔ name = "..." ++ rest := by
  unfold restName?
  split
  · rename_i hsign
    obtain ⟨after, hafter⟩ := List.isPrefixOf_iff_prefix.mp hsign
    rw [← hafter, Option.some_inj, ← String.toList_inj, ← String.toList_inj, String.toList_append,
      String.toList_ofList, ← hafter]
    exact List.append_right_inj restSign |>.symm
  · rename_i hsign
    refine ⟨nofun, ?_⟩
    intro hname
    refine absurd (List.isPrefixOf_iff_prefix.mpr ⟨rest.toList, ?_⟩) hsign
    rw [hname, String.toList_append]
    rfl

theorem restName?_eq_none_iff {name : String} : restName? name = none ↔ ¬ HasRestSign name := by
  unfold restName? HasRestSign
  rw [← List.isPrefixOf_iff_prefix]
  split
  · rename_i hsign
    exact ⟨nofun, fun hnot => absurd hsign hnot⟩
  · rename_i hsign
    exact ⟨fun _ => hsign, fun _ => rfl⟩

theorem parameters_of_rest {name rest : String} (h : restName? name = some rest) :
    parameters [.symbol name] = .ok ([], some rest) := by
  simp only [parameters_cons, symbolName, bind, Except.bind, h]
  rfl

/-- A rest parameter with anything behind it is refused. -/
theorem parameters_of_rest_not_last {name rest : String} (h : restName? name = some rest)
    (next : Value) (items : List Value) (spelt : List String × Option String) :
    parameters (.symbol name :: next :: items) ≠ .ok spelt := by
  intro hspelt
  simp only [parameters_cons, symbolName, bind, Except.bind, h] at hspelt
  cases next <;> cases hspelt

theorem parameters_of_name {name : String} (h : restName? name = none) (items : List Value) :
    parameters (.symbol name :: items) =
      (fun spelt => (name :: spelt.1, spelt.2)) <$> parameters items := by
  simp only [parameters_cons, symbolName, bind, Except.bind, h]
  rfl

/-- Plain names and one rest parameter at the end are read back as they were spelt. -/
theorem parameters_spell {params : List String} (h : ∀ name ∈ params, ¬ HasRestSign name)
    (rest : Option String) :
    parameters ((spellParameters params rest).map .symbol) = .ok (params, rest) := by
  induction params with
  | nil =>
    cases rest with
    | none => rfl
    | some rest => exact parameters_of_rest (restName?_eq_some_iff.mpr rfl)
  | cons name params ih =>
    rw [List.forall_mem_cons] at h
    show parameters (.symbol name :: (spellParameters params rest).map .symbol) = _
    rw [parameters_of_name (restName?_eq_none_iff.mpr h.1), ih h.2]
    rfl

/-- Nothing else spells parameters: by induction on the list, which ends at a rest sign. -/
theorem of_parameters_eq_ok {items : List Value} {params : List String} {rest : Option String}
    (h : parameters items = .ok (params, rest)) :
    (∀ name ∈ params, ¬ HasRestSign name) ∧
      items = (spellParameters params rest).map .symbol := by
  induction items generalizing params with
  | nil =>
    cases h
    exact ⟨nofun, rfl⟩
  | cons param items ih =>
    cases param with
    | symbol name =>
      cases hname : restName? name with
      | some after =>
        cases items with
        | nil =>
          rw [parameters_of_rest hname] at h
          cases h
          rw [restName?_eq_some_iff.mp hname]
          exact ⟨nofun, rfl⟩
        | cons next items =>
          -- something follows a rest parameter
          exact absurd h (parameters_of_rest_not_last hname next items (params, rest))
      | none =>
        rw [parameters_of_name hname] at h
        cases hspelt : parameters items with
        | ok spelt =>
          rw [hspelt] at h
          cases h
          obtain ⟨hparams, hitems⟩ := ih hspelt
          refine ⟨List.forall_mem_cons.mpr ⟨restName?_eq_none_iff.mp hname, hparams⟩, ?_⟩
          rw [hitems]
          rfl
        | error e =>
          rw [hspelt] at h
          cases h
    | _ =>
      rw [parameters_cons] at h
      cases h

/-- Names can be spelt as parameters exactly if none but the last has the sign of a rest parameter.
-/
theorem exists_spellParameters_iff {names : List String} :
    (∃ params rest, (∀ name ∈ params, ¬ HasRestSign name) ∧ names = spellParameters params rest) ↔
      ∀ name ∈ names.dropLast, ¬ HasRestSign name := by
  constructor
  · rintro ⟨params, rest, hparams, rfl⟩ name hname
    apply hparams
    cases rest with
    | none => exact List.mem_of_mem_dropLast (List.append_nil params ▸ hname)
    | some rest =>
      rwa [spellParameters, Option.map_some, Option.toList, List.dropLast_concat] at hname
  · intro h
    rcases names.eq_nil_or_concat' with rfl | ⟨params, last, rfl⟩
    · exact ⟨[], none, nofun, rfl⟩
    · rw [List.dropLast_concat] at h
      cases hlast : restName? last with
      | some rest => exact ⟨params, some rest, h, by rw [restName?_eq_some_iff.mp hlast]; rfl⟩
      | none =>
        refine ⟨params ++ [last], none, ?_, (List.append_nil _).symm⟩
        intro name hname
        rcases List.mem_append.mp hname with hname | hname
        · exact h name hname
        · exact List.mem_singleton.mp hname ▸ restName?_eq_none_iff.mp hlast

/-- **What makes a closure**, and what is made: the machine only counts it. -/
theorem makeClosure_eq_ok_iff {name : Option String} {params : Value} {body : List Value}
    {scope : ScopeId} {host : Host} {m m' : Machine} {v : Value} :
    makeClosure name params body scope host m = .ok v m' ↔
      ∃ names rest, (∀ name ∈ names, ¬ HasRestSign name) ∧
        params = .list ((spellParameters names rest).map .symbol) ∧
        v = .function (.closure ⟨m.closures, name, names, rest, body, scope⟩) ∧
        m' = { m with closures := m.closures + 1 } := by
  constructor
  · intro h
    cases params with
    | list items =>
      replace h : (Eval.ofExcept (parameters items) >>= _) host m = .ok v m' := h
      cases hspelt : parameters items with
      | ok spelt =>
        rw [hspelt] at h
        obtain ⟨hnames, hitems⟩ := of_parameters_eq_ok hspelt
        cases h
        exact ⟨spelt.1, spelt.2, hnames, hitems ▸ rfl, rfl, rfl⟩
      | error e =>
        rw [hspelt] at h
        cases h
    | _ => cases h
  · rintro ⟨names, rest, hnames, rfl, rfl, rfl⟩
    show (Eval.ofExcept (parameters ((spellParameters names rest).map .symbol)) >>= _) host m = _
    rw [parameters_spell hnames]
    rfl

/-! ### What a call binds -/

/-- The variables are those of a call of a function with these parameters. -/
structure Binds (params : List String) (rest : Option String) (args : List Value)
    (vars : Table Value) : Prop where
  nodup : vars.keys.Nodup
  /-- Nothing but parameters is bound. -/
  keys : ∀ name, name ∈ vars.keys ↔ name ∈ params ∨ rest = some name
  /-- The rest parameter has the arguments that are left over. -/
  ofRest : ∀ name, rest = some name → vars.get? name = some (.list (args.drop params.length))
  /-- Any other name has the argument at its last place. -/
  ofParam : ∀ (name : String) (i : Nat), rest ≠ some name → params[i]? = some name →
    (∀ j, i < j → params[j]? ≠ some name) → vars.get? name = some (args[i]?.getD .null)

/-- Without a rest parameter, each name is bound to the argument at its last place in the list. -/
theorem binds_ofPairs (params : List String) (args : List Value) :
    Binds params none args
      (Table.ofPairs (params.zipIdx.map fun (name, i) => (name, args.getD i .null))) where
  nodup :=
    have hwf : Table.WellFormed (fun _ => True) _ := .ofPairs fun _ _ => trivial
    hwf.nodup
  keys name := by
    rw [Table.keys_ofPairs, List.mem_eraseDups, List.map_map]
    show name ∈ params.zipIdx.map Prod.fst ↔ _
    simp [List.zipIdx_map_fst]
  ofRest := nofun
  ofParam name i _ hplace hlast := by
    apply Table.get?_ofPairs_of_last (i := i)
    · simp [hplace]
    · intro j hj
      have hother := hlast j hj
      simpa using hother

/-- The rest parameter is bound after the others, and so wins over one of the same name. -/
theorem Binds.withRest {params : List String} {args : List Value} {vars : Table Value}
    (h : Binds params none args vars) (rest : String) :
    Binds params (some rest) args (vars.set rest (.list (args.drop params.length))) where
  nodup :=
    have hwf : Table.WellFormed (fun _ => True) vars := ⟨h.nodup, fun _ _ => trivial⟩
    (hwf.set rest trivial).nodup
  keys name := by
    rw [Table.keys_set]
    have hkeys := h.keys
    grind
  ofRest name heq := by
    cases heq
    exact Table.get?_set_self _ _ _
  ofParam name i hne hplace hlast := by
    rw [Table.get?_set_of_ne _ _ fun heq => hne (congrArg some heq)]
    exact h.ofParam name i nofun hplace hlast

/-- **A call binds exactly the parameters.** -/
theorem binds_bind (f : Closure Value) (args : List Value) :
    Binds f.params f.rest args (f.bind args) := by
  obtain ⟨identity, name, params, rest, body, scope⟩ := f
  cases rest with
  | none => exact binds_ofPairs params args
  | some rest => exact (binds_ofPairs params args).withRest rest

/-! ### `let` -/

def letForm (pairs : List (String × Value)) (body : List Value) : Value :=
  .list (.symbol "let" :: .list (pairs.map fun (name, form) => .list [.symbol name, form]) :: body)

/-- The bindings of a `let` are evaluated in order, and nothing sees the table that they go to. -/
theorem bindings_eq (ctx : Context) (scope : ScopeId) (pairs : List (String × Value)) :
    ctx.bindings scope (pairs.map fun (name, form) => .list [.symbol name, form]) = (do
      let values ← (pairs.map (·.2)).mapM fun form => ctx.evaluate form scope
      return Table.ofPairs ((pairs.map (·.1)).zip values)) := by
  unfold bindings Table.ofPairs
  generalize ([] : Table Value) = vars
  induction pairs generalizing vars with
  | nil => rfl
  | cons pair pairs ih =>
    simp only [List.map_cons, List.foldlM_cons, List.mapM_cons, bind_assoc, pure_bind]
    show (ctx.evaluate pair.2 scope >>= fun v => pure (Table.set vars pair.1 v)) >>= _ = _
    rw [bind_assoc]
    congr 1
    funext v
    rw [pure_bind, ih]
    rfl

/-- With an argument for each parameter, they are bound in pairs. -/
theorem bind_of_length_eq {f : Closure Value} (hrest : f.rest = none) {args : List Value}
    (h : args.length = f.params.length) : f.bind args = Table.ofPairs (f.params.zip args) := by
  have hpairs : f.params.zipIdx.map (fun (name, i) => (name, args.getD i .null)) =
      f.params.zip args := by
    apply List.ext_getElem
    · simp [h]
    · intro i hi hzip
      have hargs : i < args.length := by simpa [h] using hi
      simp [hargs]
  simp only [Closure.bind, hrest, hpairs]

/-- **A `let` is a call** of a closure with the names of its bindings as parameters. -/
theorem step_letForm (ctx : Context) (scope : ScopeId) (pairs : List (String × Value)) (form : Value)
    (forms : List Value) (identity : Nat) (name : Option String) :
    ctx.step (letForm pairs (form :: forms)) scope = (do
      let values ← (pairs.map (·.2)).mapM fun form => ctx.evaluate form scope
      ctx.callClosure ⟨identity, name, pairs.map (·.1), none, form :: forms, scope⟩ values) := by
  have hstep : ctx.step (letForm pairs (form :: forms)) scope = (do
      let vars ← ctx.bindings scope (pairs.map fun (name, form) => .list [.symbol name, form])
      let inner ← Machine.newScope vars scope
      ctx.sequence (form :: forms) inner) := rfl
  rw [hstep, bindings_eq, bind_assoc]
  funext host m
  cases hvalues : (pairs.map (·.2)).mapM (fun form => ctx.evaluate form scope) host m with
  | ok values m₁ =>
    rw [Eval.bind_of_ok hvalues, Eval.bind_of_ok hvalues, pure_bind, callClosure,
      bind_of_length_eq rfl]
    rw [Eval.length_of_mapM hvalues]
    simp
  | error e m₁ => rw [Eval.bind_of_error hvalues, Eval.bind_of_error hvalues]

/-- **Closures bind exactly their parameters, and `let` is a call of a closure.** A value makes a closure
if and only if it is a list of symbols of which none but possibly the last has the rest sign. A call of
the closure, once it is reported, evaluates the body in a new scope inside the one the closure was made
in, whose variables are exactly those of `Binds`. And a `let`, wherever it is evaluated, does what
evaluating the forms of its bindings in order and then calling such a closure does, unless the limit is
reached. -/
theorem closures_bind_exactly_their_parameters :
    (∀ (name : Option String) (params : Value) (body : List Value) (scope : ScopeId) (host : Host)
        (m : Machine),
      (∃ v m', makeClosure name params body scope host m = .ok v m') ↔
        ∃ names : List String, params = .list (names.map .symbol) ∧
          ∀ name ∈ names.dropLast, ¬ HasRestSign name) ∧
    (∀ (name : Option String) (params : Value) (body : List Value) (scope : ScopeId) (host : Host)
        (m m' : Machine) (v : Value), makeClosure name params body scope host m = .ok v m' →
      ∃ f : Closure Value, v = .function (.closure f) ∧ m' = { m with closures := m.closures + 1 } ∧
        params = .list ((spellParameters f.params f.rest).map .symbol) ∧
        (∀ name ∈ f.params, ¬ HasRestSign name) ∧
        ∀ (ctx : Context) (args : List Value),
          ctx.apply (.closure f) args = (do
            modify (Machine.report (.applying (name.getD "<anonymous>") ctx.depth))
            ctx.callClosure f args) ∧
          ∃ vars, Binds f.params f.rest args vars ∧
            ∀ (host : Host) (m : Machine),
              let (inner, m₁) := m.alloc ⟨vars, some scope⟩
              ctx.callClosure f args host m = ctx.sequence body inner host m₁) ∧
    (∀ (pairs : List (String × Value)) (form : Value) (forms : List Value) (scope : ScopeId)
        (identity : Nat) (name : Option String),
      let asCall (ctx : Context) : Eval Value := do
        let values ← (pairs.map (·.2)).mapM fun form => ctx.evaluate form scope
        ctx.callClosure ⟨identity, name, pairs.map (·.1), none, form :: forms, scope⟩ values
      (∀ ctx : Context, ctx.step (letForm pairs (form :: forms)) scope = asCall ctx) ∧
      ∀ (host : Host) (depth : Nat) (m : Machine),
        (within host.limit depth).evaluate (letForm pairs (form :: forms)) scope host m =
          if depth < host.limit then asCall (within host.limit (depth + 1)) host m
          else .error (.recursionLimit host.limit) m) := by
  refine ⟨?_, ?_, ?_⟩
  · intro name params body scope host m
    constructor
    · intro hmade
      obtain ⟨v, m', h⟩ := hmade
      obtain ⟨names, rest, hnames, hparams, -, -⟩ := makeClosure_eq_ok_iff.mp h
      exact ⟨_, hparams, exists_spellParameters_iff.mp ⟨names, rest, hnames, rfl⟩⟩
    · intro hspelt
      obtain ⟨symbols, hparams, hsymbols⟩ := hspelt
      obtain ⟨names, rest, hnames, rfl⟩ := exists_spellParameters_iff.mpr hsymbols
      exact ⟨_, _, makeClosure_eq_ok_iff.mpr ⟨names, rest, hnames, hparams, rfl, rfl⟩⟩
  · intro name params body scope host m m' v h
    obtain ⟨names, rest, hnames, hparams, hv, hm'⟩ := makeClosure_eq_ok_iff.mp h
    refine ⟨_, hv, hm', hparams, hnames, ?_⟩
    intro ctx args
    exact ⟨apply_eq_callWith ctx _ args, _, binds_bind _ args, fun _ _ => rfl⟩
  · -- below the limit an evaluation is a step, and the step of a `let` is the call of its closure
    intro pairs form forms scope identity name asCall
    have hstep : ∀ ctx : Context, ctx.step (letForm pairs (form :: forms)) scope = asCall ctx :=
      fun ctx => step_letForm ctx scope pairs form forms identity name
    refine ⟨hstep, ?_⟩
    intro host depth m
    split
    · rename_i hlt
      rw [evaluate_within hlt, hstep]
    · rename_i hge
      rw [evaluate_within_of_le (Nat.le_of_not_lt hge)]
      rfl

/-- A name that is a parameter twice, one that is also the rest parameter, and too few arguments. -/
theorem closures_bind_exactly_their_parameters_overlap :
    let host : Host := ⟨4, fun _ => .error .notFound⟩
    let params : Value := .list (["x", "y", "x", "...y"].map .symbol)
    let f : Closure Value := ⟨0, none, ["x", "y", "x"], some "y", [.symbol "y"], 0⟩
    let args : List Value := [.string "a", .string "b"]
    let m : Machine := { Machine.initial with closures := 1 }
    makeClosure none params [.symbol "y"] 0 host Machine.initial = .ok (.function (.closure f)) m ∧
    ∃ vars : Table Value, vars.get? "x" = some .null ∧ vars.get? "y" = some (.list []) ∧
      (within 4 1).callClosure f args host m =
        (within 4 1).sequence [.symbol "y"] 1 host (m.alloc ⟨vars, some 0⟩).2 := by
  intro host params f args m
  have hmake : makeClosure none params [.symbol "y"] 0 host Machine.initial =
      .ok (.function (.closure f)) m :=
    makeClosure_eq_ok_iff.mpr ⟨["x", "y", "x"], some "y", by decide, rfl, rfl, rfl⟩
  obtain ⟨-, hcalls, -⟩ := closures_bind_exactly_their_parameters
  obtain ⟨f', hf', -, -, -, hcall⟩ := hcalls _ _ _ _ _ _ _ _ hmake
  cases hf'
  obtain ⟨-, vars, hvars, hrun⟩ := hcall (within 4 1) args
  refine ⟨hmake, vars, ?_, hvars.ofRest "y" rfl, hrun host m⟩
  apply hvars.ofParam "x" 2 (by decide) rfl
  intro j hj
  have hbeyond : ["x", "y", "x"][j]? = none := List.getElem?_eq_none hj
  rw [hbeyond]
  nofun

end SmallLisp
