import SmallLisp.Proofs.Frame
/-!
# Names stay

Evaluation gives names but takes none away. The root stays the root; namespaces that are registered
stay registered, under the same scopes, and those that are added come behind them and have valid
names; scopes keep their parents and their names, in order. `Machine.Keeps` says all of that, and it
is what is left of `Machine.Extends` when nothing is said about values.

**A symbol that has a value keeps having one** (`Keeps.resolve`), if perhaps another one: the scopes
that are searched for it are the same ones in the same order, and none of them has lost a name.
-/

namespace SmallLisp

open Machine Context Interpreter

namespace Machine

/-- Nothing that has a name in the first machine has lost it in the second one. -/
structure Keeps (m m' : Machine) : Prop where
  root : m'.registry.root = m.registry.root
  names : ∃ added, m'.registry.names = m.registry.names ++ added ∧
    ∀ name ∈ added, Path.isValid name = true
  registered : ∀ name ∈ m.registry.names, m'.registry.get? name = m.registry.get? name
  scopes : ∀ (id : ScopeId) (scope : Scope), m.scopes[id]? = some scope →
    ∃ scope', m'.scopes[id]? = some scope' ∧ scope'.parent = scope.parent ∧
      scope.vars.keys <+: scope'.vars.keys

theorem Extends.keeps {target : Option ScopeId} {m m' : Machine} (h : Extends target m m') :
    Keeps m m' := by
  obtain ⟨added, hnamed, hadded⟩ := h.named
  refine ⟨h.root, ⟨added.keys, ?_, ?_⟩, ?_, fun _ _ => h.kept⟩
  · simp [Registry.names, Table.keys, hnamed]
  · intro name hname
    obtain ⟨entry, hentry, rfl⟩ := List.mem_map.mp hname
    exact (hadded entry hentry).1
  · intro name hname
    unfold Registry.get?
    split
    · rw [h.root]
    · next hglobal =>
      -- the root is the only name that is not in the table
      have hold : name ∈ m.registry.named.keys := List.mem_of_ne_of_mem hglobal hname
      rw [hnamed, Table.get?_append_of_mem hold]

/-- The value of a variable as it is seen from a scope. -/
def find (m : Machine) (id : ScopeId) (name : String) : Except Fault Value :=
  match Scopes.lookup m.scopes id name with
  | some v => .ok v
  | none => .error (.undefinedSymbol name)

namespace Keeps

variable {m m' m'' : Machine}

theorem refl (m : Machine) : Keeps m m := by
  have h : Extends none m m := .refl m
  exact h.keeps

theorem trans (h : Keeps m m') (h' : Keeps m' m'') : Keeps m m'' where
  root := h'.root.trans h.root
  names := by
    obtain ⟨added, hnames, hadded⟩ := h.names
    obtain ⟨added', hnames', hadded'⟩ := h'.names
    refine ⟨added ++ added', by rw [hnames', hnames, List.append_assoc], ?_⟩
    intro name hname
    rcases List.mem_append.mp hname with hname | hname
    · exact hadded name hname
    · exact hadded' name hname
  registered := by
    intro name hname
    obtain ⟨added, hnames, -⟩ := h.names
    have hname' : name ∈ m'.registry.names := hnames ▸ List.mem_append_left added hname
    rw [h'.registered name hname', h.registered name hname]
  scopes := by
    intro id scope hscope
    obtain ⟨scope', hscope', hparent, hkeys⟩ := h.scopes id scope hscope
    obtain ⟨scope'', hscope'', hparent', hkeys'⟩ := h'.scopes id scope' hscope'
    exact ⟨scope'', hscope'', hparent'.trans hparent, hkeys.trans hkeys'⟩

/-! ### Symbols -/

/-- A variable that is found stays found: in the scope where it was, or in one that comes before. -/
theorem lookup_isSome (h : Keeps m m') {id : ScopeId} {name : String}
    (hfound : (Scopes.lookup m.scopes id name).isSome) :
    (Scopes.lookup m'.scopes id name).isSome := by
  fun_induction Scopes.lookup m.scopes id name with
  | case1 id hscope => cases hfound
  | case2 id scope hscope v hv =>
    obtain ⟨scope', hscope', -, hkeys⟩ := h.scopes id scope hscope
    have hmem : name ∈ scope.vars.keys := (Table.get?_isSome_iff _ _).mp (by rw [hv]; rfl)
    obtain ⟨w, hw⟩ := Option.isSome_iff_exists.mp
      ((Table.get?_isSome_iff scope'.vars name).mpr (hkeys.subset hmem))
    rw [Scopes.lookup, hscope']
    simp [hw]
  | case3 id scope hscope hv parent hparent hlt ih =>
    obtain ⟨scope', hscope', hparent', -⟩ := h.scopes id scope hscope
    rw [Scopes.lookup, hscope']
    cases hw : scope'.vars.get? name with
    | some w => simp [hw]
    | none => simpa [hw, hparent', hparent, hlt] using ih hfound
  | case4 => cases hfound
  | case5 => cases hfound

/-- A registered name keeps its scope. -/
theorem get?_of_eq_some (h : Keeps m m') {name : String} {id : ScopeId}
    (hget : m.registry.get? name = some id) : m'.registry.get? name = some id := by
  have hname : name ∈ m.registry.names := by
    unfold Registry.get? at hget
    split at hget
    · next hglobal => exact hglobal ▸ List.mem_cons_self
    · apply List.mem_cons_of_mem
      exact (Table.get?_isSome_iff _ _).mp (by rw [hget]; rfl)
  rw [h.registered name hname, hget]

/-- What is found in a scope stays findable, if perhaps with another value. -/
theorem find (h : Keeps m m') {id : ScopeId} {name : String} {v : Value}
    (hv : m.find id name = .ok v) : ∃ w, m'.find id name = .ok w := by
  unfold Machine.find at hv ⊢
  split at hv
  · next hlookup =>
    obtain ⟨w, hw⟩ := Option.isSome_iff_exists.mp (h.lookup_isSome (by rw [hlookup]; rfl))
    exact ⟨w, by rw [hw]⟩
  · cases hv

/-- **A symbol that has a value keeps having one**, wherever it is looked up. -/
theorem resolve (h : Keeps m m') {symbol : String} {scope : ScopeId} {v : Value}
    (hv : m.resolve symbol scope = .ok v) : ∃ w, m'.resolve symbol scope = .ok w := by
  unfold Machine.resolve at hv ⊢
  dsimp only at hv ⊢
  split at hv
  · split at hv
    · next hslash =>
      rw [if_pos hslash]
      exact h.find hv
    · next front name hsplit hslash =>
      rw [if_neg hslash]
      split at hv
      · next id hget =>
        rw [h.get?_of_eq_some hget]
        exact h.find hv
      · cases hv
  · exact h.find hv

end Keeps

/-! ### Evaluations -/

/-- No evaluation takes a name away, also when it fails half way. -/
theorem keeps_evaluate (host : Host) (depth : Nat) (v : Value) (scope : ScopeId) (m : Machine) :
    Keeps m (((within host.limit depth).evaluate v scope).after host m) :=
  ((extension_admits_within host depth).evaluate v scope m).keeps

theorem Activity.keeps {host : Host} {allowed : ScopeId → Prop} {m m' : Machine}
    (h : Activity host allowed m m') : Keeps m m' := by
  induction h with
  | refl => exact .refl m
  | tail _ hstep ih =>
    obtain ⟨piece, -, rfl⟩ := hstep
    exact ih.trans (extends_goOn host _ piece).keeps

end Machine

/-- The policy to evaluate, and to leave the registry to the programs. -/
def Interpreter.OnlyEvaluates (_ : Interpreter) (request : Request) : Prop :=
  request.isEvaluation = true

/-- Only requests to the registry can take names away, so a session of evaluations keeps all. -/
theorem Interpreter.Session.keeps {ip ip' : Interpreter} (h : Session OnlyEvaluates ip ip') :
    Keeps ip.machine ip'.machine := by
  induction h with
  | refl => exact .refl _
  | tail _ hstep ih =>
    obtain ⟨request, hrequest, rfl⟩ := hstep
    exact ih.trans (extends_handle _ hrequest).keeps

/-- **Evaluation takes no name away**, whether it succeeds or fails: the root stays, and namespaces
and scopes keep their names in order, with valid names behind those of the namespaces. So a symbol
that has a value in a scope still has one after any number of evaluations: parts of a larger one, or
requests of a session. -/
theorem evaluation_takes_no_name_away :
    (∀ (host : Host) (depth : Nat) (m : Machine) (v : Value) (scope : ScopeId),
      Keeps m (((within host.limit depth).evaluate v scope).after host m)) ∧
    (∀ (host : Host) (m m' : Machine) (symbol : String) (scope : ScopeId) (v : Value),
      Activity host (fun _ => True) m m' → m.resolve symbol scope = .ok v →
        ∃ w, m'.resolve symbol scope = .ok w) ∧
    (∀ (ip ip' : Interpreter) (symbol : String) (scope : ScopeId) (v : Value),
      Session OnlyEvaluates ip ip' → ip.machine.resolve symbol scope = .ok v →
        ∃ w, ip'.machine.resolve symbol scope = .ok w) := by
  refine ⟨?_, ?_, ?_⟩
  · intro host depth m v scope
    exact keeps_evaluate host depth v scope m
  · intro host m m' symbol scope v hactivity hv
    exact hactivity.keeps.resolve hv
  · intro ip ip' symbol scope v hsession hv
    exact hsession.keeps.resolve hv

/-- A variable of the root, before and after a form that registers a namespace and fails in it. -/
theorem evaluation_takes_no_name_away_namespace :
    let host : Host := ⟨100, fun _ => .error .notFound⟩
    let m := initial.set 0 "x" .null
    let form : Value := .list [.symbol "namespace", .symbol "A", .symbol "y"]
    let ip : Interpreter := ⟨⟨100, false⟩, host.read, m⟩
    (m.resolve "x" 0 = .ok .null ∧
      ((within host.limit 3).evaluate form 0).after host m = m.goOn host (.evaluate 3 form 0)) ∧
    Keeps m (((within host.limit 3).evaluate form 0).after host m) ∧
    (∃ w, (m.goOn host (.evaluate 3 form 0)).resolve "x" 0 = .ok w) ∧
    (∃ w, (ip.handle (.eval "(namespace A y)")).machine.resolve "x" 0 = .ok w) := by
  intro host m form ip
  have hx : m.resolve "x" 0 = .ok .null := by cbv
  have hactivity : Activity host (fun _ => True) m (m.goOn host (.evaluate 3 form 0)) :=
    .single ⟨.evaluate 3 form 0, fun _ _ => trivial, rfl⟩
  have hsession : Session OnlyEvaluates ip (ip.handle (.eval "(namespace A y)")) :=
    .single ⟨.eval "(namespace A y)", rfl, rfl⟩
  obtain ⟨hkeeps, hpieces, hrequests⟩ := evaluation_takes_no_name_away
  refine ⟨⟨hx, rfl⟩, hkeeps host 3 m form 0, ?_, ?_⟩
  · exact hpieces host m _ "x" 0 .null hactivity hx
  · exact hrequests ip _ "x" 0 .null hsession hx

end SmallLisp
