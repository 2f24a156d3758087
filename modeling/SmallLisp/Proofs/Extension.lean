import SmallLisp.Interpreter
import SmallLisp.Proofs.Logic
/-!
# What evaluation may do to a machine

`Machine.Extends target m m'` says everything at once: from `m` to `m'`, the root stays what it is,
namespaces are only added, and only with new scopes and valid names; scopes are only added, and those
that are there keep their parents and their names; **only the target, the root and the scopes of
namespaces are written to**; and printed lines stay printed.

Each single thing that an evaluation does is such an extension, and extensions compose, so every
evaluation is one (`extension_admits_within`), whether it ends with a value or a fault. A
part of an evaluation may have another target than the whole as long as that is a scope which the
whole may write to anyway or which was not there before (`Extends.trans`).
-/

namespace SmallLisp

/-- Whether a scope is the root or that of a namespace. -/
def Registry.Registers (registry : Registry) (id : ScopeId) : Prop :=
  id = registry.root ∨ ∃ name, (name, id) ∈ registry.named

/-- What a name leads to is registered, also under the root's own name. -/
theorem Registry.registers_of_get? {registry : Registry} {name : String} {id : ScopeId}
    (h : registry.get? name = some id) : registry.Registers id := by
  unfold get? at h
  split at h
  · cases h
    exact .inl rfl
  · exact .inr ⟨name, Table.mem_of_get?_eq_some h⟩

/-- What an evaluation that may write to the target does to a machine. -/
structure Machine.Extends (target : Option ScopeId) (m m' : Machine) : Prop where
  root : m'.registry.root = m.registry.root
  /-- Namespaces are added at the end, with valid names and new scopes. -/
  named : ∃ added : Table ScopeId, m'.registry.named = m.registry.named ++ added ∧
    ∀ entry ∈ added, Path.isValid entry.1 = true ∧
      m.scopes.size ≤ entry.2 ∧ entry.2 < m'.scopes.size
  size : m.scopes.size ≤ m'.scopes.size
  /-- Scopes keep their parents, and their names in order. -/
  kept : ∀ {id : ScopeId} {scope : Scope}, m.scopes[id]? = some scope →
    ∃ scope', m'.scopes[id]? = some scope' ∧ scope'.parent = scope.parent ∧
      scope.vars.keys <+: scope'.vars.keys
  /-- Most scopes do not change at all. -/
  unwritten : ∀ {id : ScopeId}, id < m.scopes.size → target ≠ some id →
    ¬ m.registry.Registers id → m'.scopes[id]? = m.scopes[id]?
  output : m.output.toList <+: m'.output.toList

namespace Machine

theorem create_fst (name : String) (m : Machine) : (m.create name).1 = m.scopes.size := by
  unfold Machine.create
  split <;> rfl

namespace Extends

variable {target target' : Option ScopeId} {m m' m'' : Machine}

/-! ### Extensions compose -/

/-- A change that leaves the scopes and the registry alone. -/
theorem of_eq (hscopes : m'.scopes = m.scopes) (hregistry : m'.registry = m.registry)
    (houtput : m.output.toList <+: m'.output.toList) : Extends target m m' where
  root := by rw [hregistry]
  named := ⟨[], by rw [hregistry, List.append_nil], by simp⟩
  size := Nat.le_of_eq (by rw [hscopes])
  kept := by
    intro id scope h
    exact ⟨scope, by rw [hscopes, h], rfl, List.prefix_refl _⟩
  unwritten := by
    intro id _ _ _
    rw [hscopes]
  output := houtput

theorem refl (m : Machine) : Extends target m m :=
  of_eq rfl rfl (List.prefix_refl _)

/-- Extending while writing nowhere is extending while writing in some scope. -/
theorem weaken (h : Extends none m m') : Extends target m m' where
  root := h.root
  named := h.named
  size := h.size
  kept := h.kept
  unwritten := by
    intro id hid _ hunregistered
    exact h.unwritten hid nofun hunregistered
  output := h.output

/-- Only new scopes become those of a namespace. -/
theorem registers (h : Extends target m m') {id : ScopeId} (hid : m'.registry.Registers id) :
    m.registry.Registers id ∨ (m.scopes.size ≤ id ∧ id < m'.scopes.size) := by
  obtain ⟨added, hnamed, hadded⟩ := h.named
  rcases hid with hroot | ⟨name, hname⟩
  · exact .inl (.inl (hroot.trans h.root))
  · rw [hnamed] at hname
    rcases List.mem_append.mp hname with hold | hnew
    · exact .inl (.inr ⟨name, hold⟩)
    · exact .inr (hadded _ hnew).2

/-- A part with another target composes if the whole may write there as well, or if the scope is
new. -/
theorem trans (h : Extends target m m') (h' : Extends target' m' m'')
    (htarget : ∀ id, target' = some id →
      target = some id ∨ m.registry.Registers id ∨ m.scopes.size ≤ id) :
    Extends target m m'' where
  root := by rw [h'.root, h.root]
  named := by
    obtain ⟨added, hnamed, hadded⟩ := h.named
    obtain ⟨added', hnamed', hadded'⟩ := h'.named
    refine ⟨added ++ added', by rw [hnamed', hnamed, List.append_assoc], ?_⟩
    intro entry hentry
    rcases List.mem_append.mp hentry with hentry | hentry
    · obtain ⟨hvalid, hle, hlt⟩ := hadded entry hentry
      exact ⟨hvalid, hle, Nat.lt_of_lt_of_le hlt h'.size⟩
    · obtain ⟨hvalid, hle, hlt⟩ := hadded' entry hentry
      exact ⟨hvalid, Nat.le_trans h.size hle, hlt⟩
  size := Nat.le_trans h.size h'.size
  kept := by
    intro id scope hscope
    obtain ⟨scope', hscope', hparent, hkeys⟩ := h.kept hscope
    obtain ⟨scope'', hscope'', hparent', hkeys'⟩ := h'.kept hscope'
    exact ⟨scope'', hscope'', hparent'.trans hparent, hkeys.trans hkeys'⟩
  unwritten := by
    intro id hid hnot hunregistered
    -- the second target is one that the whole may write to, or it was not there before
    have hnot' : target' ≠ some id := by
      intro heq
      rcases htarget id heq with htarget | hregistered | hnew
      · exact hnot htarget
      · exact hunregistered hregistered
      · exact absurd hid (Nat.not_lt.mpr hnew)
    -- only new scopes were registered in between
    have hunregistered' : ¬ m'.registry.Registers id := by
      intro hregistered
      rcases h.registers hregistered with hregistered | ⟨hnew, -⟩
      · exact hunregistered hregistered
      · exact absurd hid (Nat.not_lt.mpr hnew)
    rw [h'.unwritten (Nat.lt_of_lt_of_le hid h.size) hnot' hunregistered',
      h.unwritten hid hnot hunregistered]
  output := h.output.trans h'.output

/-! ### Single changes -/

theorem report (event : Event) (m : Machine) : Extends target m (m.report event) :=
  of_eq rfl rfl (List.prefix_refl _)

theorem print (line : String) (m : Machine) : Extends target m (m.print line) := by
  refine of_eq rfl rfl ?_
  simp [Machine.print]

/-- Writing a variable extends the machine with that scope as its target. -/
theorem set (id : ScopeId) (name : String) (v : Value) (m : Machine) :
    Extends (some id) m (m.set id name v) where
  root := rfl
  named := ⟨[], (List.append_nil _).symm, by simp⟩
  size := by simp [Machine.set, Scopes.set]
  kept := by
    intro other scope hscope
    by_cases hid : id = other
    · subst hid
      refine ⟨{ scope with vars := scope.vars.set name v }, ?_, rfl, ?_⟩
      · simp [Machine.set, Scopes.set, Array.getElem?_modify, hscope]
      · simp only [Table.keys_set]
        split
        · exact List.prefix_refl _
        · exact List.prefix_append _ _
    · refine ⟨scope, ?_, rfl, List.prefix_refl _⟩
      rw [← hscope]
      exact Scopes.getElem?_set_of_ne _ _ _ hid
  unwritten := by
    intro other _ hother _
    exact Scopes.getElem?_set_of_ne _ _ _ fun hid => hother (congrArg some hid)
  output := List.prefix_refl _

/-- A new scope stands behind the old ones and moves none of them. -/
theorem alloc (scope : Scope) (m : Machine) : Extends target m (m.alloc scope).2 where
  root := rfl
  named := ⟨[], (List.append_nil _).symm, by simp⟩
  size := by simp [Machine.alloc, Scopes.alloc]
  kept := by
    intro id scope' hscope'
    obtain ⟨hid, -⟩ := Array.getElem?_eq_some_iff.mp hscope'
    exact ⟨scope', (Scopes.getElem?_alloc _ _ hid).trans hscope', rfl, List.prefix_refl _⟩
  unwritten := by
    intro id hid _ _
    exact Scopes.getElem?_alloc _ _ hid
  output := List.prefix_refl _

/-- A namespace that is not there is created with a new scope. -/
theorem create {name : String} {m : Machine} (hvalid : Path.isValid name = true)
    (hnew : m.registry.get? name = none) : Extends target m (m.create name).2 := by
  obtain ⟨hglobal, hnamed⟩ : name ≠ Path.global ∧ m.registry.named.get? name = none := by
    unfold Registry.get? at hnew
    split at hnew
    · cases hnew
    · next hglobal => exact ⟨hglobal, hnew⟩
  have halloc : Extends target m _ := alloc ⟨[], some (m.registry.parentFor name)⟩ m
  simp only [Machine.create, hglobal, if_false]
  exact {
    root := rfl
    named := by
      refine ⟨[(name, m.scopes.size)], Table.set_of_get?_eq_none _ hnamed, ?_⟩
      simp [hvalid, Machine.report, Machine.alloc, Scopes.alloc]
    size := halloc.size
    kept := halloc.kept
    unwritten := halloc.unwritten
    output := halloc.output }

end Extends

end Machine

/-! ### Every evaluation is an extension -/

open Machine Context

/-- Entering a namespace refuses its name, finds its scope or makes one. The host plays no part. -/
theorem enterNamespace_eq (name : String) (host : Host) (m : Machine) :
    enterNamespace name host m =
      if Path.isValid name then
        match m.registry.get? name with
        | some id => .ok id m
        | none => .ok (m.create name).1 (m.create name).2
      else .error (.registry (.lowercase name)) m := by
  unfold enterNamespace
  cases Path.isValid name with
  | false => rfl
  | true =>
    show (match m.registry.get? name with
      | some id => pure id
      | none => modifyGet (Machine.create name) : Eval ScopeId) host m = _
    cases m.registry.get? name <;> rfl

/-- Being an extension, as a property of evaluations. -/
def extension (host : Host) : EvalLogic Unit where
  Holds target _ x := ∀ m, Extends target m ((x ()).after host m)
  weaken h m := (h m).weaken
  pure _ m := .refl m
  throw _ _ m := .refl m
  bind := by
    intro target α β x f hx hf m
    have hx := hx m
    show Extends target m ((x () >>= f ()).after host m)
    cases hrun : x () host m with
    | ok a m' =>
      rw [Eval.after_of_ok hrun] at hx
      rw [Eval.after_bind_of_ok hrun]
      exact hx.trans (hf a m') fun id h => .inl h
    | error e m' =>
      rw [Eval.after_of_error hrun] at hx
      rw [Eval.after_bind_of_error hrun]
      exact hx
  report event _ m := .report event m
  print line m := .print line m
  set scope name v m := .set scope name v m
  closure _ _ := .of_eq rfl rfl (List.prefix_refl _)
  resolve symbol scope m := by
    show Extends _ m ((Eval.ofExcept (m.resolve symbol scope)).after host m)
    cases m.resolve symbol scope <;> exact .refl m
  newScope := by
    intro α vars parent f hf m
    have halloc : Extends none m (m.alloc ⟨vars, some parent⟩).2 := .alloc _ m
    apply halloc.trans (hf m.scopes.size _)
    intro id hid
    cases hid
    exact .inr (.inr (Nat.le_refl _))
  enterNamespace := by
    intro α name f hf m
    show Extends none m ((enterNamespace name >>= f ()).after host m)
    have hrun := enterNamespace_eq name host m
    split at hrun
    · next hvalid =>
      split at hrun
      · next id hget =>
        -- a scope that is registered may be written to anyway
        rw [Eval.after_bind_of_ok hrun]
        apply (Extends.refl m).trans (hf id m)
        rintro _ ⟨⟩
        exact .inr (.inl (Registry.registers_of_get? hget))
      · next hget =>
        -- one that is registered now was not there before
        rw [Eval.after_bind_of_ok hrun]
        apply (Extends.create hvalid hget).trans (hf _ _)
        rintro _ ⟨⟩
        exact .inr (.inr (Nat.le_of_eq (create_fst name m).symm))
    · rw [Eval.after_bind_of_error hrun]
      exact .refl m
  enterRoot := by
    intro α f hf m
    apply (Extends.refl m).trans (hf m.registry.root m)
    intro id hid
    cases hid
    exact .inr (.inl (.inl rfl))
  readModule path f hf m := hf (host.read path) m

/-- **Evaluation only extends the machine**: by induction on the evaluations left, since what is
nested in an evaluation has one less. -/
theorem extension_admits_within (host : Host) (depth : Nat) :
    (extension host).Admits fun _ => within host.limit depth := by
  induction depth using depth_induction host.limit with
  | atLimit depth hle =>
    constructor
    · intro _ f m
      exact .report _ m
    · intro v scope m
      rw [evaluate_within_of_le hle]
      exact .refl m
    · intro template scope m
      rw [fill_within_of_le hle]
      exact .refl m
  | below depth hlt hnested =>
    constructor
    · intro _ f m
      exact .report _ m
    · intro v scope m
      exact Eval.after_congr (evaluate_within hlt v scope m) ▸ hnested.step v scope m
    · intro template scope m
      exact Eval.after_congr (fill_within hlt template scope m) ▸ hnested.fillTemplate template scope m

end SmallLisp
