import SmallLisp.Proofs.Visibility
/-!
# What a reset does

A reset makes a new root and installs the natives again: in the new root, and in new scopes that it
registers under the names of the libraries. Whatever a program has done to the old ones, the new ones
are those of a new interpreter (`Machine.equips_install`), because they are set up from nothing in the
same way.

**Nothing that was there is changed** (`Machine.getElem?_restart`). A closure that was made before keeps
its scope and all scopes around it, so names that its calls do not bind are found where they were
found before, even in the old root.
-/

namespace SmallLisp

def Options.libraries (options : Options) : List (String × List Native) :=
  if options.prelude then Native.libraries else []

namespace Machine

variable {m m' : Machine} {name : String} {id : ScopeId} {v : Value}

/-! ### Installing a library -/

/-- Setting variables by name changes the scope of that name, and no other one. -/
theorem getElem?_setAll (h : m.registry.get? name = some id) (vars : List (String × Value))
    (other : ScopeId) :
    (m.setAll name vars).scopes[other]? =
      if id = other then
        m.scopes[other]?.map fun scope => { scope with vars := scope.vars.setAll vars }
      else m.scopes[other]? :=
  getElem?_extend _ m h other

/-- The scope of a library whose namespace is inside of a root. -/
def libraryScope (root : ScopeId) (natives : List Native) : Scope :=
  ⟨Table.ofPairs (nativeVars natives), some root⟩

/-- A library comes as one new scope below the root that holds its natives. -/
theorem scopes_installLibrary {library : String × List Native} (hname : library.1 ≠ Path.global)
    (hslash : '/' ∉ library.1.toList) (m : Machine) :
    (m.installLibrary library).scopes =
      m.scopes.push (libraryScope m.registry.root library.2) := by
  have hget : (m.create library.1).2.registry.get? library.1 = some m.scopes.size := by
    rw [get?_create, if_pos rfl]
  have hparent : m.registry.parentFor library.1 = m.registry.root := by
    rw [Registry.parentFor, Path.split_of_not_mem hslash]
  apply Array.ext_getElem?
  intro id
  rw [installLibrary, getElem?_setAll hget, scopes_create, if_neg hname, hparent]
  by_cases hid : m.scopes.size = id
  · simp [← hid, libraryScope, Table.ofPairs]
  · simp [hid, Array.getElem?_push, Ne.symm hid]

theorem registry_installLibrary (library : String × List Native) (m : Machine) :
    (m.installLibrary library).registry = (m.create library.1).2.registry :=
  registry_extend _ _ _

/-! ### Installing all of them -/

/-- Whether libraries are registered anew between two machines, in scopes inside of the root, and
nothing else is changed. -/
structure Installs (libraries : List (String × List Native)) (m m' : Machine) : Prop where
  root : m'.registry.root = m.registry.root
  kept : ∀ id < m.scopes.size, m'.scopes[id]? = m.scopes[id]?
  size : m.scopes.size ≤ m'.scopes.size
  made : ∀ library ∈ libraries, ∃ id, m.scopes.size ≤ id ∧
    m'.registry.get? library.1 = some id ∧
    m'.scopes[id]? = some (libraryScope m.registry.root library.2)
  others : ∀ name ∉ libraries.map (·.1), m'.registry.get? name = m.registry.get? name
  names : m'.registry.names =
    m.registry.names ++ (libraries.map (·.1)).filter (· ∉ m.registry.names)

theorem installs_nil (m : Machine) : Installs [] m m :=
  ⟨rfl, fun _ _ => rfl, Nat.le_refl _, by simp, fun _ _ => rfl, by simp⟩

theorem installs_installLibrary {library : String × List Native} (hname : library.1 ≠ Path.global)
    (hslash : '/' ∉ library.1.toList) (m : Machine) :
    Installs [library] m (m.installLibrary library) where
  root := by rw [registry_installLibrary, root_create_of_ne hname]
  kept := by
    intro id hid
    rw [scopes_installLibrary hname hslash, Array.getElem?_push_lt hid, Array.getElem?_eq_getElem hid]
  size := by
    rw [scopes_installLibrary hname hslash, Array.size_push]
    exact Nat.le_succ _
  made := by
    rw [List.forall_mem_singleton]
    refine ⟨m.scopes.size, Nat.le_refl _, ?_, ?_⟩
    · rw [registry_installLibrary, get?_create, if_pos rfl]
    · rw [scopes_installLibrary hname hslash, Array.getElem?_push_size]
  others := by
    intro name hother
    rw [registry_installLibrary, get?_create, if_neg]
    rintro rfl
    exact hother (by simp)
  names := by
    rw [Registry.names, registry_installLibrary, keys_create, Registry.names]
    by_cases hold : library.1 ∈ m.registry.named.keys <;> simp [hname, hold]

/-- Libraries are installed one after the other, and a later one leaves an earlier one alone. -/
theorem Installs.cons {library : String × List Native} {libraries : List (String × List Native)}
    {m'' : Machine} (h : Installs [library] m m') (h' : Installs libraries m' m'')
    (hnew : library.1 ∉ libraries.map (·.1)) : Installs (library :: libraries) m m'' where
  root := h'.root.trans h.root
  kept := by
    intro id hid
    rw [h'.kept id (Nat.lt_of_lt_of_le hid h.size), h.kept id hid]
  size := Nat.le_trans h.size h'.size
  made := by
    rw [List.forall_mem_cons]
    constructor
    · obtain ⟨id, hid, hget, hscope⟩ := h.made library (by simp)
      have hlt : id < m'.scopes.size := (Array.getElem?_eq_some_iff.mp hscope).1
      exact ⟨id, hid, (h'.others _ hnew).trans hget, (h'.kept id hlt).trans hscope⟩
    · intro other hother
      obtain ⟨id, hid, hget, hscope⟩ := h'.made other hother
      exact ⟨id, Nat.le_trans h.size hid, hget, h.root ▸ hscope⟩
  others := by
    intro name hname
    rw [List.map_cons, List.mem_cons, not_or] at hname
    rw [h'.others name hname.2, h.others name (by simpa using hname.1)]
  names := by
    -- the names to add are told apart from the old ones; the first library is none of the rest
    have hrest : (libraries.map (·.1)).filter (· ∉ m'.registry.names) =
        (libraries.map (·.1)).filter (· ∉ m.registry.names) := by
      apply List.filter_congr
      intro name hname
      have hne : name ≠ library.1 := by
        rintro rfl
        exact hnew hname
      simp [h.names, hne]
    rw [h'.names, hrest, h.names, List.append_assoc, ← List.filter_append]
    rfl

/-- Libraries are installed one behind the other, with distinct names, so none replaces another's
scope. -/
theorem installs_installLibraries {libraries : List (String × List Native)}
    (hnames : ∀ library ∈ libraries, library.1 ≠ Path.global ∧ '/' ∉ library.1.toList)
    (hnodup : (libraries.map (·.1)).Nodup) (m : Machine) :
    Installs libraries m (libraries.foldl installLibrary m) := by
  induction libraries generalizing m with
  | nil => exact installs_nil m
  | cons library libraries ih =>
    obtain ⟨⟨hname, hslash⟩, hrest⟩ := List.forall_mem_cons.mp hnames
    obtain ⟨hnew, hnodup⟩ := List.nodup_cons.mp hnodup
    exact (installs_installLibrary hname hslash m).cons (ih hrest hnodup _) hnew

/-! ### Setting up a machine -/

/-- Whether the empty root of a machine is given variables and libraries are registered inside of it,
and nothing else is changed. -/
structure Equips (vars : Table Value) (libraries : List (String × List Native)) (m m' : Machine) :
    Prop where
  root : m'.registry.root = m.registry.root
  rootScope : m'.scopes[m.registry.root]? = some ⟨vars, none⟩
  kept : ∀ id < m.scopes.size, id ≠ m.registry.root → m'.scopes[id]? = m.scopes[id]?
  made : ∀ library ∈ libraries, ∃ id, m.scopes.size ≤ id ∧
    m'.registry.get? library.1 = some id ∧
    m'.scopes[id]? = some (libraryScope m.registry.root library.2)
  others : ∀ name ∉ libraries.map (·.1), m'.registry.get? name = m.registry.get? name
  names : m'.registry.names =
    m.registry.names ++ (libraries.map (·.1)).filter (· ∉ m.registry.names)

theorem equips_refl (h : m.scopes[m.registry.root]? = some ⟨[], none⟩) : Equips [] [] m m :=
  ⟨rfl, h, fun _ _ _ => rfl, by simp, fun _ _ => rfl, by simp⟩

theorem Equips.report {vars : Table Value} {libraries : List (String × List Native)}
    (h : Equips vars libraries m m') (event : Event) : Equips vars libraries m (m'.report event) :=
  ⟨h.root, h.rootScope, h.kept, h.made, h.others, h.names⟩

/-- The whole installation on an empty root: the global variables there, and one scope for each
library. -/
theorem equips_install (h : m.scopes[m.registry.root]? = some ⟨[], none⟩) :
    Equips (Table.ofPairs globalVars) Native.libraries m m.install := by
  have hinstalls : Installs Native.libraries (m.setAll Path.global globalVars) m.install := by
    rw [install_eq]
    exact installs_installLibraries (by decide) (by decide) _
  have hregistry : (m.setAll Path.global globalVars).registry = m.registry := registry_extend _ _ m
  have hsize : (m.setAll Path.global globalVars).scopes.size = m.scopes.size := size_extend _ _ m
  have hget : m.registry.get? Path.global = some m.registry.root := rfl
  have hscopes := getElem?_setAll hget globalVars
  have hlt : m.registry.root < m.scopes.size := (Array.getElem?_eq_some_iff.mp h).1
  obtain ⟨hroot, hkept, -, hmade, hothers, hnames⟩ := hinstalls
  rw [hsize, hregistry] at *
  refine ⟨hroot, ?_, ?_, hmade, hothers, hnames⟩
  · rw [hkept _ hlt, hscopes, if_pos rfl, h]
    rfl
  · intro id hid hne
    rw [hkept id hid, hscopes, if_neg (Ne.symm hne)]

theorem scopes_reset_global (m : Machine) :
    (m.reset Path.global).2.scopes = m.scopes.push ⟨[], none⟩ := rfl

theorem registry_reset_global (m : Machine) :
    (m.reset Path.global).2.registry = { m.registry with root := m.scopes.size } := rfl

/-- **A reset sets up a new root like that of a new interpreter.** -/
theorem exists_equips (options : Options) :
    ∃ vars, Equips vars options.libraries initial (start options) ∧
      ∀ m : Machine, Equips vars options.libraries (m.reset Path.global).2 (m.restart options) := by
  have hroot : ∀ m : Machine, (m.reset Path.global).2.scopes[(m.reset Path.global).2.registry.root]? =
      some ⟨[], none⟩ := fun m => Array.getElem?_push_size
  unfold Options.libraries start restart
  cases options.prelude with
  | true => exact ⟨_, equips_install rfl, fun m => (equips_install (hroot m)).report _⟩
  | false => exact ⟨_, equips_refl rfl, fun m => (equips_refl (hroot m)).report _⟩

/-- **A reset changes no scope that was there.** -/
theorem getElem?_restart (options : Options) (m : Machine) (h : id < m.scopes.size) :
    (m.restart options).scopes[id]? = m.scopes[id]? := by
  obtain ⟨vars, -, hequips⟩ := exists_equips options
  have hlt : id < (m.reset Path.global).2.scopes.size := by
    rw [scopes_reset_global, Array.size_push]
    exact Nat.lt_succ_of_lt h
  rw [(hequips m).kept id hlt (Nat.ne_of_lt h), scopes_reset_global, Array.getElem?_push_lt h,
    Array.getElem?_eq_getElem h]

/-! ### What is found from old scopes -/

/-- Whether a name, looked up from a scope, is found in this holder and with this value. -/
def FoundIn (m : Machine) (name : String) (id holder : ScopeId) (v : Value) : Prop :=
  m.Passes name id holder ∧
    ∃ scope, m.scopes[holder]? = some scope ∧ scope.vars.get? name = some v

section Kept

variable {roots : ScopeId → Prop} {inner parent holder : ScopeId} {vars : Table Value}
  (hkept : ∀ id < m.scopes.size, m'.scopes[id]? = m.scopes[id]?)
include hkept

/-- A lookup walks only old scopes from an old one, and these are as they were. -/
theorem lookup_of_kept (hid : id < m.scopes.size) (name : String) :
    Scopes.lookup m'.scopes id name = Scopes.lookup m.scopes id name := by
  induction id using Nat.strongRecOn with
  | ind id ih =>
    rw [Scopes.lookup, Scopes.lookup, hkept id hid]
    cases m.scopes[id]? with
    | none => rfl
    | some scope =>
      cases hparent : scope.parent with
      | none => simp only [hparent]
      | some parent =>
        by_cases hlt : parent < id
        · simp only [hparent, hlt, if_true, ih parent hlt (Nat.lt_trans hlt hid)]
        · simp only [hparent, hlt, if_false]

theorem foundIn_of_kept (hm : m.WellFormed roots) (hid : id < m.scopes.size) :
    m'.FoundIn name id holder v ↔ m.FoundIn name id holder v := by
  constructor
  · rintro ⟨hpasses, scope, hscope, hv⟩
    induction hpasses with
    | here id => exact ⟨.here id, scope, (hkept id hid).symm.trans hscope, hv⟩
    | @up id parent holder outer houter hnone hparent _ ih =>
      rw [hkept id hid] at houter
      have hlt := (hm.scope houter).parent parent hparent
      obtain ⟨hpasses, hfound⟩ := ih (Nat.lt_trans hlt hid) hscope
      exact ⟨.up houter hnone hparent hpasses, hfound⟩
  · rintro ⟨hpasses, scope, hscope, hv⟩
    induction hpasses with
    | here id => exact ⟨.here id, scope, (hkept id hid).trans hscope, hv⟩
    | @up id parent holder outer houter hnone hparent _ ih =>
      have hlt := (hm.scope houter).parent parent hparent
      obtain ⟨hpasses, hfound⟩ := ih (Nat.lt_trans hlt hid) hscope
      exact ⟨.up ((hkept id hid).trans houter) hnone hparent hpasses, hfound⟩

/-- From a scope inside of an old one, what it does not have itself is found in old scopes. -/
theorem foundIn_inside (hm : m.WellFormed roots) (hparent : parent < m.scopes.size)
    (hinner : m'.scopes[inner]? = some ⟨vars, some parent⟩) (hnone : vars.get? name = none) :
    m'.FoundIn name inner holder v ↔ m.FoundIn name parent holder v := by
  rw [← foundIn_of_kept hkept hm hparent]
  constructor
  · rintro ⟨hpasses, scope, hscope, hv⟩
    cases hpasses with
    | here =>
      rw [hinner] at hscope
      cases hscope
      rw [hnone] at hv
      cases hv
    | up houter _ hup hpasses =>
      rw [hinner] at houter
      cases houter
      cases hup
      exact ⟨hpasses, scope, hscope, hv⟩
  · rintro ⟨hpasses, hfound⟩
    exact ⟨.up hinner hnone rfl hpasses, hfound⟩

/-- From a scope made inside an old one, names not in it are found as from the old one. -/
theorem find_inside (hparent : parent < m.scopes.size) (hlt : parent < inner)
    (hinner : m'.scopes[inner]? = some ⟨vars, some parent⟩) (hnone : vars.get? name = none) :
    m'.find inner name = m.find parent name := by
  rw [find, lookup_of_parent hinner hnone rfl hlt, lookup_of_kept hkept hparent, find]

theorem lt_of_kept (hid : id < m.scopes.size) : id < m'.scopes.size := by
  have hscope := hkept id hid
  rw [Array.getElem?_eq_getElem hid] at hscope
  exact (Array.getElem?_eq_some_iff.mp hscope).1

/-- Making another scope changes none of those that are kept. -/
theorem kept_alloc (scope : Scope) :
    ∀ id < m.scopes.size, (m'.alloc scope).2.scopes[id]? = m.scopes[id]? := by
  intro id hid
  rw [← hkept id hid]
  exact Scopes.getElem?_alloc m'.scopes scope (lt_of_kept hkept hid)

/-- **A name is looked up the same way before and after**, from a new scope inside of an old one. -/
theorem resolve_inside (hparent : parent < m.scopes.size) (hname : Path.IsPlain name)
    (hnone : vars.get? name = none) :
    let enter (m : Machine) : ScopeId × Machine := m.alloc ⟨vars, some parent⟩
    (enter m').2.resolve name (enter m').1 = (enter m).2.resolve name (enter m).1 ∧
      ∀ roots, m.WellFormed roots → ∀ holder v,
        (enter m').2.FoundIn name (enter m').1 holder v ↔
          (enter m).2.FoundIn name (enter m).1 holder v := by
  intro enter
  have hparent' := lt_of_kept hkept hparent
  have hself : ∀ id < m.scopes.size, m.scopes[id]? = m.scopes[id]? := fun _ _ => rfl
  have hinner : ∀ m : Machine, (enter m).2.scopes[(enter m).1]? = some ⟨vars, some parent⟩ :=
    fun m => Array.getElem?_push_size
  constructor
  · rw [resolve_of_isPlain _ hname, resolve_of_isPlain _ hname]
    have hfind' := find_inside (kept_alloc hkept _) hparent hparent' (hinner m') hnone
    have hfind := find_inside (kept_alloc hself _) hparent hparent (hinner m) hnone
    exact hfind'.trans hfind.symm
  · intro roots hm holder v
    rw [foundIn_inside (kept_alloc hkept _) hm hparent (hinner m') hnone,
      foundIn_inside (kept_alloc hself _) hm hparent (hinner m) hnone]

end Kept

end Machine

open Machine in
/-- **A reset restores the library and touches nothing else.** The root is a new scope without a parent,
and with the natives on, the four libraries are registered with new scopes inside of it; all of them have
the variables that they have in a new interpreter. Every other name is registered with the scope that it
was registered with, and the names of libraries that were missing come last. No scope that was there is
changed. So a closure that was made before, called with any arguments, finds the plain names that the
call does not bind where it found them before. Without the natives nothing but the root is replaced. -/
theorem reset_restores_library (ip : Interpreter) :
    let m := ip.machine
    let m' := ip.reset.machine
    let fresh := (Interpreter.new ip.options ip.read).machine
    let libraries := ["Core", "List", "Hash", "String"]
    (m.scopes.size ≤ m'.registry.root ∧
      ∃ vars, m'.scopes[m'.registry.root]? = some ⟨vars, none⟩ ∧
        fresh.scopes[fresh.registry.root]? = some ⟨vars, none⟩) ∧
    (ip.options.prelude = true →
      (∀ name ∈ libraries, ∃ id id' vars,
        m'.registry.get? name = some id ∧ m.scopes.size ≤ id ∧
        m'.scopes[id]? = some ⟨vars, some m'.registry.root⟩ ∧
        fresh.registry.get? name = some id' ∧
        fresh.scopes[id']? = some ⟨vars, some fresh.registry.root⟩) ∧
      (∀ name ∉ Path.global :: libraries, m'.registry.get? name = m.registry.get? name) ∧
      m'.registry.names = m.registry.names ++ libraries.filter (· ∉ m.registry.names)) ∧
    (ip.options.prelude = false →
      m'.scopes = m.scopes.push ⟨[], none⟩ ∧
      m'.registry = { m.registry with root := m.scopes.size }) ∧
    (∀ id < m.scopes.size, m'.scopes[id]? = m.scopes[id]?) ∧
    ∀ (f : Closure Value) (args : List Value), f.scope < m.scopes.size →
      let enter (m : Machine) : ScopeId × Machine := m.alloc ⟨f.bind args, some f.scope⟩
      (∀ (ctx : Context) (host : Host),
        ctx.callClosure f args host m' = ctx.sequence f.body (enter m').1 host (enter m').2) ∧
      ∀ name, Path.IsPlain name → (f.bind args).get? name = none →
        (enter m').2.resolve name (enter m').1 = (enter m).2.resolve name (enter m).1 ∧
        ∀ roots, m.WellFormed roots → ∀ holder v,
          (enter m').2.FoundIn name (enter m').1 holder v ↔
            (enter m).2.FoundIn name (enter m).1 holder v := by
  intro m m' fresh libraries
  -- a new interpreter and a reset one are equipped alike, on different machines
  obtain ⟨vars, hfresh, hequips⟩ := exists_equips ip.options
  replace hfresh : Equips vars ip.options.libraries initial fresh := hfresh
  replace hequips : Equips vars ip.options.libraries (m.reset Path.global).2 m' := hequips m
  have hkept : ∀ id < m.scopes.size, m'.scopes[id]? = m.scopes[id]? :=
    fun id hid => m.getElem?_restart ip.options hid
  have hroot : m'.registry.root = m.scopes.size := hequips.root
  have hlibraries : Native.libraries.map (·.1) = libraries := rfl
  refine ⟨⟨hroot.ge, vars, ?_, ?_⟩, ?_, ?_, hkept, ?_⟩
  · rw [hroot]
    exact hequips.rootScope
  · rw [hfresh.root]
    exact hfresh.rootScope
  · intro hprelude
    rw [Options.libraries, if_pos hprelude] at hfresh hequips
    refine ⟨?_, ?_, hequips.names⟩
    · intro name hname
      rw [← hlibraries] at hname
      obtain ⟨library, hlibrary, rfl⟩ := List.mem_map.mp hname
      obtain ⟨id, hid, hget, hscope⟩ := hequips.made library hlibrary
      obtain ⟨id', -, hget', hscope'⟩ := hfresh.made library hlibrary
      rw [scopes_reset_global, Array.size_push] at hid
      exact ⟨id, id', Table.ofPairs (nativeVars library.2), hget, Nat.le_of_succ_le hid,
        hroot ▸ hscope, hget', hfresh.root ▸ hscope'⟩
    · intro name hname
      rw [List.mem_cons, not_or, ← hlibraries] at hname
      rw [hequips.others name hname.2, registry_reset_global, Registry.get?, if_neg hname.1,
        Registry.get?, if_neg hname.1]
  · intro hprelude
    have hoff : m' = (m.reset Path.global).2.report .interpreterReset := by
      change m.restart ip.options = _
      rw [restart, hprelude]
      rfl
    rw [hoff]
    exact ⟨rfl, rfl⟩
  · -- a call walks from its own scope into old ones only, and none of those has changed
    intro f args hscope
    exact ⟨fun _ _ => rfl, fun name hname hnone => resolve_inside hkept hscope hname hnone⟩

set_option maxRecDepth 4000 in
open Machine in
/-- A library that was deleted is back after a reset and comes last; a namespace that was made inside of
it is kept; and a closure of the old root still finds a variable there that the new root does not have. -/
theorem reset_restores_library_deleted :
    let start : Interpreter := .new ⟨3, true⟩ fun _ => .error .notFound
    let requests : List Request :=
      [.createNamespace "List/Deep", .deleteNamespace "List", .extendNamespace Path.global (·.set "x" .null)]
    let ip := start.handleAll requests
    let m' := ip.reset.machine
    let f : Closure Value := ⟨0, none, [], none, [.symbol "x"], 0⟩
    let called := m'.alloc ⟨f.bind [], some f.scope⟩
    ip.machine.registry.names = [Path.global, "Core", "Hash", "String", "List/Deep"] ∧
      m'.registry.names = [Path.global, "Core", "Hash", "String", "List/Deep", "List"] ∧
      m'.registry.get? "List/Deep" = ip.machine.registry.get? "List/Deep" ∧
      called.2.resolve "x" called.1 = .ok .null ∧
      Scopes.local? m'.scopes m'.registry.root "x" = none := by
  intro start requests ip m' f called
  have hlt : f.scope < ip.machine.scopes.size := by decide +kernel
  obtain ⟨-, hon, -, -, hcalls⟩ := reset_restores_library ip
  obtain ⟨-, hothers, hnames⟩ := hon rfl
  have hsame := ((hcalls f [] hlt).2 "x" (by decide) rfl).1
  -- before the reset
  have hbefore : (ip.machine.alloc ⟨f.bind [], some f.scope⟩).2.find ip.machine.scopes.size "x" =
      .ok .null := by
    have hroot : ip.machine.scopes[f.scope]? =
        some ⟨Table.ofPairs (globalVars ++ [("x", .null)]), none⟩ := rfl
    rw [find_inside (kept_alloc (fun _ _ => rfl) _) hlt hlt Array.getElem?_push_size rfl, find,
      lookup_of_local hroot rfl]
  refine ⟨by decide, ?_, hothers "List/Deep" (by decide), ?_, ?_⟩
  · rw [hnames]
    decide
  · refine hsame.trans ?_
    rw [resolve_of_isPlain _ (by decide)]
    exact hbefore
  · exact Option.isNone_iff_eq_none.mp (by decide +kernel)

end SmallLisp
