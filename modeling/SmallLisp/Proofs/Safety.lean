import SmallLisp.Proofs.Tracking
/-!
# Evaluation is safe

A machine is well-formed if its variables are, if parents are older than their children, so that every
chain of parents ends (`Machine.WellFormed.exists_chain`), and if its registry names scopes that are
there. Only certain scopes may be without a parent, the *roots*; the root at the time is one.

**Evaluation keeps a machine well-formed**, whether it ends with a value or a fault, and its value is
well-formed where it ends: that is one of the things that can be kept track of (`safety`). While it goes
on there come to be more scopes, so what was well-formed before stays so.
-/

namespace SmallLisp

/-! ### Machines -/

/-- Whether a scope is well-formed at its place, where there are so many scopes. -/
structure Scope.WellFormed (roots : ScopeId → Prop) (size : Nat) (id : ScopeId) (scope : Scope) :
    Prop where
  vars : scope.vars.WellFormed (·.WellFormed size)
  /-- A parent is older than its children. -/
  parent : ∀ parent, scope.parent = some parent → parent < id
  parentless : scope.parent = none → roots id

structure Machine.WellFormed (roots : ScopeId → Prop) (m : Machine) : Prop where
  scope : ∀ {id : ScopeId} {scope : Scope}, m.scopes[id]? = some scope →
    scope.WellFormed roots m.scopes.size id
  root : ∃ scope, m.scopes[m.registry.root]? = some scope ∧ scope.parent = none
  named : m.registry.named.WellFormed (· < m.scopes.size)
  /-- The name of the root is not given to another scope. -/
  global : Path.global ∉ m.registry.named.keys

/-- A well-formed scope stays so when scopes and roots are added. -/
theorem Scope.WellFormed.mono {roots roots' : ScopeId → Prop} {size size' : Nat} {id : ScopeId}
    {scope : Scope} (h : scope.WellFormed roots size id) (hroots : ∀ id, roots id → roots' id)
    (hsize : size ≤ size') : scope.WellFormed roots' size' id where
  vars := h.vars.imp fun _ hv => hv.mono hsize
  parent := h.parent
  parentless hparent := hroots id (h.parentless hparent)

namespace Machine

variable {roots roots' : ScopeId → Prop} {m m' : Machine}

theorem WellFormed.root_lt (h : m.WellFormed roots) : m.registry.root < m.scopes.size := by
  obtain ⟨scope, hscope, -⟩ := h.root
  exact (Array.getElem?_eq_some_iff.mp hscope).1

/-- Names lead to scopes that are there. -/
theorem WellFormed.get?_lt (h : m.WellFormed roots) {name : String} {id : ScopeId}
    (hid : m.registry.get? name = some id) : id < m.scopes.size := by
  unfold Registry.get? at hid
  split at hid
  · cases hid
    exact h.root_lt
  · exact h.named.get? hid

/-- So a new namespace is hung below a scope that is there. -/
theorem WellFormed.parentFor_lt (h : m.WellFormed roots) (name : String) :
    m.registry.parentFor name < m.scopes.size := by
  unfold Registry.parentFor
  split
  · next front _ =>
    cases hfront : m.registry.get? front with
    | none => exact h.root_lt
    | some id => exact h.get?_lt hfront
  · exact h.root_lt

/-- A change that leaves the scopes and the registry alone. -/
theorem WellFormed.of_eq (h : m.WellFormed roots) (hscopes : m'.scopes = m.scopes)
    (hregistry : m'.registry = m.registry) : m'.WellFormed roots where
  scope := by
    rw [hscopes]
    exact h.scope
  root := by
    rw [hscopes, hregistry]
    exact h.root
  named := by
    rw [hscopes, hregistry]
    exact h.named
  global := by
    rw [hregistry]
    exact h.global

theorem WellFormed.imp (h : m.WellFormed roots) (hroots : ∀ id, roots id → roots' id) :
    m.WellFormed roots' where
  scope hscope := (h.scope hscope).mono hroots (Nat.le_refl _)
  root := h.root
  named := h.named
  global := h.global

theorem size_alloc (scope : Scope) (m : Machine) :
    (m.alloc scope).2.scopes.size = m.scopes.size + 1 := by
  simp [Machine.alloc, Scopes.alloc]

/-- A new scope is well formed among those that are there, and theirs do not change. -/
theorem WellFormed.alloc (h : m.WellFormed roots) {scope : Scope}
    (hscope : scope.WellFormed roots m.scopes.size m.scopes.size) :
    (m.alloc scope).2.WellFormed roots where
  scope := by
    intro id scope' hscope'
    rw [size_alloc]
    have hpush : (m.scopes.push scope)[id]? = some scope' := hscope'
    rw [Array.getElem?_push] at hpush
    split at hpush
    · next hid =>
      cases hpush
      rw [hid]
      exact hscope.mono (fun _ h => h) (Nat.le_succ _)
    · exact (h.scope hpush).mono (fun _ h => h) (Nat.le_succ _)
  root := by
    obtain ⟨scope', hscope', hparent⟩ := h.root
    exact ⟨scope', (Scopes.getElem?_alloc _ _ h.root_lt).trans hscope', hparent⟩
  named := by
    rw [size_alloc]
    exact h.named.imp fun _ hid => Nat.lt_succ_of_lt hid
  global := h.global

theorem size_set (id : ScopeId) (name : String) (v : Value) (m : Machine) :
    (m.set id name v).scopes.size = m.scopes.size := by
  simp [Machine.set, Scopes.set]

/-- Only the values matter: setting a variable moves no scope. -/
theorem WellFormed.set (h : m.WellFormed roots) (id : ScopeId) (name : String) {v : Value}
    (hv : v.WellFormed m.scopes.size) : (m.set id name v).WellFormed roots where
  scope := by
    intro other scope' hscope'
    rw [size_set]
    have hmodify : (m.scopes.modify id fun scope =>
        { scope with vars := scope.vars.set name v })[other]? = some scope' := hscope'
    rw [Array.getElem?_modify] at hmodify
    split at hmodify
    · obtain ⟨scope, hscope, rfl⟩ := Option.map_eq_some_iff.mp hmodify
      have hwell := h.scope hscope
      exact ⟨hwell.vars.set name hv, hwell.parent, hwell.parentless⟩
    · exact h.scope hmodify
  root := by
    obtain ⟨scope, hscope, hparent⟩ := h.root
    obtain ⟨scope', hscope', hparent', -⟩ := (Extends.set id name v m).kept hscope
    exact ⟨scope', hscope', hparent'.trans hparent⟩
  named := by
    rw [size_set]
    exact h.named
  global := h.global

theorem size_create (name : String) (m : Machine) :
    (m.create name).2.scopes.size = m.scopes.size + 1 := by
  unfold Machine.create
  split <;> simp [Machine.report, Machine.alloc, Scopes.alloc]

/-- The scope of a name is made anew. If it is that of the root, there is another root. -/
theorem WellFormed.create (h : m.WellFormed roots) (name : String)
    (hroot : name = Path.global → roots m.scopes.size) : (m.create name).2.WellFormed roots := by
  unfold Machine.create
  split
  · next hname =>
    -- a new root: it has no parent, and has to be counted among the roots
    have hscope : Scope.WellFormed roots m.scopes.size m.scopes.size ⟨[], none⟩ :=
      ⟨.nil, by simp, fun _ => hroot hname⟩
    have halloc := h.alloc hscope
    refine ⟨halloc.scope, ⟨⟨[], none⟩, ?_, rfl⟩, halloc.named, halloc.global⟩
    simp [Machine.report, Machine.alloc, Scopes.alloc]
  · next hname =>
    have hscope : Scope.WellFormed roots m.scopes.size m.scopes.size
        ⟨[], some (m.registry.parentFor name)⟩ :=
      ⟨.nil, fun _ heq => Option.some.inj heq ▸ h.parentFor_lt name, by simp⟩
    have halloc := h.alloc hscope
    refine ⟨halloc.scope, halloc.root, halloc.named.set name ?_, ?_⟩
    · simp [Machine.alloc, Scopes.alloc]
    · show Path.global ∉ (m.registry.named.set name m.scopes.size).keys
      rw [Table.keys_set]
      split
      · exact h.global
      · simpa using ⟨h.global, Ne.symm hname⟩

end Machine

/-! ### Safe evaluations -/

/-- Being well-formed, as something to keep track of. A stage is how many scopes there are; which of them
may be without a parent stays the same. -/
def safety (host : Host) (roots : ScopeId → Prop) : Tracking where
  host := host
  Stage := Nat
  Leads size size' := size ≤ size'
  inOrder size m := m.WellFormed roots ∧ m.scopes.size = size
  known size f := f.body ≠ [] ∧ f.scope < size
  there size id := id < size
  leads_refl := Nat.le_refl
  leads_trans := Nat.le_trans
  known_mono hsize hf := ⟨hf.1, Nat.lt_of_lt_of_le hf.2 hsize⟩
  there_mono hsize hid := Nat.lt_of_lt_of_le hid hsize
  there_scope hf := hf.2
  there_get? := by
    rintro _ m name id ⟨hm, rfl⟩ hid
    exact hm.get?_lt hid
  vars := by
    rintro _ m id scope ⟨hm, rfl⟩ hscope
    exact (hm.scope hscope).vars.imp fun _ => Value.wellFormed_iff_regular.mp
  report event h := ⟨h.1.of_eq rfl rfl, h.2⟩
  print line h := ⟨h.1.of_eq rfl rfl, h.2⟩
  set := by
    rintro _ m id name v ⟨hm, rfl⟩ hv
    exact ⟨hm.set id name (Value.wellFormed_iff_regular.mpr hv), Machine.size_set id name v m⟩
  alloc := by
    rintro _ m vars parent ⟨hm, rfl⟩ hvars hparent
    have hscope : Scope.WellFormed roots m.scopes.size m.scopes.size ⟨vars, some parent⟩ :=
      ⟨hvars.imp fun _ => Value.wellFormed_iff_regular.mpr,
        fun _ heq => Option.some.inj heq ▸ hparent, by simp⟩
    refine ⟨_, ?_, ⟨hm.alloc hscope, rfl⟩, ?_⟩ <;> rw [Machine.size_alloc]
    · exact Nat.le_succ _
    · exact Nat.lt_succ_self _
  create := by
    rintro _ m name ⟨hm, rfl⟩ hname
    refine ⟨_, ?_, ⟨hm.create name fun heq => absurd heq hname, rfl⟩, ?_⟩ <;> rw [Machine.size_create]
    · exact Nat.le_succ _
    · exact Nat.lt_succ_self _
  make := by
    rintro size m name params rest body scope hm hbody - hscope
    exact ⟨size, Nat.le_refl size, ⟨hm.1.of_eq rfl rfl, hm.2⟩, hbody, hscope⟩

end SmallLisp
