import SmallLisp.Proofs.Names
import SmallLisp.Proofs.Registration
/-!
# What can be set and what can be read

Any name can be set in a scope, but not every name can be read. A symbol with a slash is a path and is
looked up in a namespace, under the part after its final slash; so no symbol is ever looked up under a
name with a slash in it, the slash itself excepted. Names without one, and the slash, are *plain*.

A plain name is seen from every scope from which nothing of that name lies on the way (`Passes`), and
**what is set under any other name is never seen** (`resolve_set_of_not_isPlain`). The value of a
variable is that of the nearest scope that has it (`lookup_eq_some_iff`), and paths lead to the variables
of namespaces: `Path.split` and `Path.join` undo each other.
-/

namespace SmallLisp

/-! ### Plain names and paths -/

namespace Path

/-- Whether a name has no slash in it, or is the slash. -/
def IsPlain (name : String) : Prop :=
  '/' ∉ name.toList ∨ name = "/"

instance : DecidablePred IsPlain :=
  fun name => inferInstanceAs (Decidable ('/' ∉ name.toList ∨ name = "/"))

/-- A name behind the final slash is what is split off. -/
theorem split_append (front : String) {last : String} (h : '/' ∉ last.toList) :
    split (front ++ "/" ++ last) = (some front, last) := by
  have hall : ∀ c ∈ last.toList.reverse, (c != '/') = true := by
    intro c hc
    rw [bne_iff_ne]
    rintro rfl
    exact h (List.mem_reverse.mp hc)
  have hback : (front ++ "/" ++ last).toList.reverse =
      last.toList.reverse ++ '/' :: front.toList.reverse := by
    simp
  simp only [split, hback, List.dropWhile_append_of_pos hall, List.takeWhile_append_of_pos hall]
  simp

/-- A path is cut at its last slash, so a joined one comes apart again. -/
theorem split_join {front last : String} (hfront : front ≠ "") (hlast : '/' ∉ last.toList) :
    split (join front last) = (some front, last) := by
  rw [join, if_neg hfront, split_append front hlast]

theorem split_of_not_mem {path : String} (h : '/' ∉ path.toList) : split path = (none, path) := by
  rcases split_cases path with ⟨front, last, -, rfl, -⟩ | ⟨hsplit, -⟩
  · simp at h
  · exact hsplit

theorem join_split {path : String} (h : '/' ∈ path.toList) :
    ∃ front last, split path = (some front, last) ∧ (front ≠ "" → join front last = path) := by
  rcases split_cases path with ⟨front, last, hsplit, hpath, -⟩ | ⟨-, hnone⟩
  · refine ⟨front, last, hsplit, ?_⟩
    intro hfront
    rw [join, if_neg hfront, hpath]
  · exact absurd h hnone

end Path

namespace Machine

variable {m m' : Machine} {name : String} {id : ScopeId} {v : Value}

/-! ### What a symbol is looked up as -/

/-- A plain name stands for itself. -/
theorem resolve_of_isPlain (m : Machine) (h : Path.IsPlain name) (id : ScopeId) :
    m.resolve name id = m.find id name := by
  unfold Machine.resolve
  rcases h with hnone | rfl
  · rw [Path.split_of_not_mem hnone]
    rfl
  · split
    · rw [if_pos rfl]
      rfl
    · rfl

/-- Any other symbol is a path. -/
theorem resolve_of_split (m : Machine) {symbol front last : String}
    (hsplit : Path.split symbol = (some front, last)) (h : symbol ≠ "/") (id : ScopeId) :
    m.resolve symbol id =
      match m.registry.get? front with
      | some home => m.find home last
      | none => .error (.registry (.notFound front)) := by
  unfold Machine.resolve
  rw [hsplit]
  simp only [if_neg h]
  rfl

/-- **Only plain names are ever looked up.** -/
theorem resolve_congr (hregistry : m'.registry = m.registry)
    (h : ∀ id name, Path.IsPlain name → m'.find id name = m.find id name) (symbol : String)
    (id : ScopeId) : m'.resolve symbol id = m.resolve symbol id := by
  rcases Path.split_cases symbol with ⟨front, last, hsplit, -, hlast⟩ | ⟨-, hnone⟩
  · by_cases hslash : symbol = "/"
    · rw [m'.resolve_of_isPlain (.inr hslash), m.resolve_of_isPlain (.inr hslash), h id _ (.inr hslash)]
    · rw [m'.resolve_of_split hsplit hslash, m.resolve_of_split hsplit hslash, hregistry]
      cases m.registry.get? front with
      | none => rfl
      | some home => exact h home last (.inl hlast)
  · rw [m'.resolve_of_isPlain (.inl hnone), m.resolve_of_isPlain (.inl hnone), h id _ (.inl hnone)]

/-! ### What is seen from a scope -/

/-- Whether the way from a scope to its parents comes to another one, with no variable of this name
before that. -/
inductive Passes (m : Machine) (name : String) : ScopeId → ScopeId → Prop where
  | here (id : ScopeId) : Passes m name id id
  | up {id parent last : ScopeId} {scope : Scope} :
      m.scopes[id]? = some scope → scope.vars.get? name = none → scope.parent = some parent →
        Passes m name parent last → Passes m name id last

/-- The value of a variable in the nearest scope that has it. -/
def Sees (m : Machine) (id : ScopeId) (name : String) (v : Value) : Prop :=
  ∃ holder scope, m.Passes name id holder ∧ m.scopes[holder]? = some scope ∧
    scope.vars.get? name = some v

theorem lookup_of_local {scope : Scope} (hscope : m.scopes[id]? = some scope)
    (hv : scope.vars.get? name = some v) : Scopes.lookup m.scopes id name = some v := by
  rw [Scopes.lookup, hscope]
  simp only [hv]

/-- A name that is not in a scope is looked up in the one around it. -/
theorem lookup_of_parent {parent : ScopeId} {scope : Scope} (hscope : m.scopes[id]? = some scope)
    (hnone : scope.vars.get? name = none) (hparent : scope.parent = some parent)
    (hlt : parent < id) : Scopes.lookup m.scopes id name = Scopes.lookup m.scopes parent name := by
  rw [Scopes.lookup, hscope]
  simp only [hnone, hparent, if_pos hlt]

variable {roots : ScopeId → Prop}

/-- **A variable has the value of the nearest scope that has it.** -/
theorem lookup_eq_some_iff (h : m.WellFormed roots) :
    Scopes.lookup m.scopes id name = some v ↔ m.Sees id name v := by
  constructor
  · intro hv
    fun_induction Scopes.lookup m.scopes id name with
    | case1 id hscope => cases hv
    | case2 id scope hscope w hw =>
      cases hv
      exact ⟨id, scope, .here id, hscope, hw⟩
    | case3 id scope hscope hnone parent hparent hlt ih =>
      obtain ⟨holder, outer, hpasses, houter⟩ := ih hv
      exact ⟨holder, outer, .up hscope hnone hparent hpasses, houter⟩
    | case4 => cases hv
    | case5 => cases hv
  · intro hsees
    obtain ⟨holder, scope, hpasses, hscope, hv⟩ := hsees
    induction hpasses with
    | here id => exact lookup_of_local hscope hv
    | up hinner hnone hparent _ ih =>
      rw [lookup_of_parent hinner hnone hparent ((h.scope hinner).parent _ hparent), ih hscope]

/-- Looking a name up and seeing it along the chain of scopes are the same. -/
theorem find_eq_ok_iff (h : m.WellFormed roots) : m.find id name = .ok v ↔ m.Sees id name v := by
  rw [← lookup_eq_some_iff h, Machine.find]
  cases Scopes.lookup m.scopes id name <;> simp

theorem find_of_not_sees (h : m.WellFormed roots) (hnone : ∀ v, ¬ m.Sees id name v) :
    m.find id name = .error (.undefinedSymbol name) := by
  cases hfound : Scopes.lookup m.scopes id name with
  | some v => exact absurd ((lookup_eq_some_iff h).mp hfound) (hnone v)
  | none => rw [Machine.find, hfound]

/-! ### What setting changes -/

/-- Chains of scopes go down, as every parent is older. -/
theorem Passes.le (h : m.WellFormed roots) {last : ScopeId} (hpasses : m.Passes name id last) :
    last ≤ id := by
  induction hpasses with
  | here id => exact Nat.le_refl id
  | up hscope _ hparent _ ih => exact Nat.le_trans ih (Nat.le_of_lt ((h.scope hscope).parent _ hparent))

theorem getElem?_set_self (m : Machine) {scope : Scope} (hscope : m.scopes[id]? = some scope)
    (name : String) (v : Value) :
    (m.set id name v).scopes[id]? = some { scope with vars := scope.vars.set name v } := by
  simp [Machine.set, Scopes.set, Array.getElem?_modify, hscope]

/-- A scope that starts with a variable is one that gets it right after. -/
theorem alloc_set (m : Machine) (vars : Table Value) (parent : Option ScopeId) (name : String)
    (v : Value) :
    (m.alloc ⟨vars.set name v, parent⟩).2 = (m.alloc ⟨vars, parent⟩).2.set m.scopes.size name v := by
  have hscopes : m.scopes.push ⟨vars.set name v, parent⟩ =
      Scopes.set (m.scopes.push ⟨vars, parent⟩) m.scopes.size name v := by
    apply Array.ext_getElem?
    intro id
    simp only [Scopes.set, Array.getElem?_modify, Array.getElem?_push]
    grind
  simp only [Machine.alloc, Machine.set, Scopes.alloc, hscopes]

/-- What is set in a scope is seen from wherever nothing of that name comes before the scope. -/
theorem lookup_set_of_passes (h : m.WellFormed roots) {home : ScopeId} (hhome : home < m.scopes.size)
    (v : Value) (hpasses : m.Passes name id home) :
    Scopes.lookup (m.set home name v).scopes id name = some v := by
  induction hpasses with
  | here home =>
    have hscope := Array.getElem?_eq_getElem hhome
    exact lookup_of_local (m.getElem?_set_self hscope name v) (Table.get?_set_self _ _ _)
  | up hscope hnone hparent hpasses ih =>
    have hlt := (h.scope hscope).parent _ hparent
    have hle := hpasses.le h
    have hscope' := Scopes.getElem?_set_of_ne m.scopes name v (Nat.ne_of_lt (Nat.lt_of_le_of_lt hle hlt))
    rw [hscope] at hscope'
    exact (lookup_of_parent hscope' hnone hparent hlt).trans (ih hhome)

/-- Setting a name changes no parent and no other name, in any scope. -/
theorem exists_scope_set (m : Machine) {scope : Scope} (hscope : m.scopes[id]? = some scope)
    (home : ScopeId) (name : String) (v : Value) :
    ∃ scope', (m.set home name v).scopes[id]? = some scope' ∧ scope'.parent = scope.parent ∧
      ∀ other, name ≠ other → scope'.vars.get? other = scope.vars.get? other := by
  by_cases hid : home = id
  · subst hid
    exact ⟨_, m.getElem?_set_self hscope name v, rfl, fun _ => Table.get?_set_of_ne _ _⟩
  · exact ⟨scope, (Scopes.getElem?_set_of_ne m.scopes name v hid).trans hscope, rfl, fun _ _ => rfl⟩

/-- Setting a name changes nothing for other names. -/
theorem lookup_set_of_ne (m : Machine) (home : ScopeId) (v : Value) {other : String}
    (h : name ≠ other) (id : ScopeId) :
    Scopes.lookup (m.set home name v).scopes id other = Scopes.lookup m.scopes id other := by
  induction id using Nat.strongRecOn with
  | ind id ih =>
    rw [Scopes.lookup, Scopes.lookup]
    cases hscope : m.scopes[id]? with
    | none =>
      have hnone : (m.set home name v).scopes[id]? = none := by
        rw [Array.getElem?_eq_none_iff, size_set]
        exact Array.getElem?_eq_none_iff.mp hscope
      rw [hnone]
    | some scope =>
      obtain ⟨scope', hscope', hparent, hvars⟩ := m.exists_scope_set hscope home name v
      rw [hscope']
      simp only [hparent, hvars other h]
      -- where the variable is not in the scope itself, the same parent is asked
      cases scope.vars.get? other with
      | some w => rfl
      | none =>
        cases scope.parent with
        | none => rfl
        | some parent =>
          by_cases hlt : parent < id
          · simp only [if_pos hlt, ih parent hlt]
          · simp only [if_neg hlt]

/-- Whoever passes on to a scope for a name sees what is set there. -/
theorem resolve_set_of_passes (h : m.WellFormed roots) (hname : Path.IsPlain name) {home : ScopeId}
    (hhome : home < m.scopes.size) (v : Value) (hpasses : m.Passes name id home) :
    (m.set home name v).resolve name id = .ok v := by
  rw [resolve_of_isPlain _ hname, Machine.find, lookup_set_of_passes h hhome v hpasses]

/-- **What is set under a name that is not plain is never seen.** -/
theorem resolve_set_of_not_isPlain (m : Machine) (hname : ¬ Path.IsPlain name) (home : ScopeId)
    (v : Value) (symbol : String) (id : ScopeId) :
    (m.set home name v).resolve symbol id = m.resolve symbol id := by
  apply resolve_congr
  · rfl
  · intro id other hother
    have hne : name ≠ other := fun heq => hname (heq ▸ hother)
    rw [Machine.find, lookup_set_of_ne m home v hne, Machine.find]

/-- **A path leads to a variable of a namespace**, from everywhere. -/
theorem resolve_join (m : Machine) {front last : String} {home : ScopeId}
    (hhome : m.registry.get? front = some home) (hfront : front ≠ "") (hlast : '/' ∉ last.toList)
    (id : ScopeId) : m.resolve (Path.join front last) id = m.find home last := by
  have hsplit := Path.split_join hfront hlast
  have hslash : Path.join front last ≠ "/" := by
    intro heq
    have hsplit' : Path.split "/" = (some "", "") := by decide
    rw [heq, hsplit'] at hsplit
    cases hsplit
    exact hfront rfl
  rw [m.resolve_of_split hsplit hslash, hhome]

end Machine

open Machine in
/-- **What can be set and what can be read back.** In every well-formed machine, so in every one that a
session comes to (`wellFormed_handleAll`), and for every name and value: a plain name that is set in a
scope is read back from the scope, and from every scope from which nothing of that name comes before it;
what is set under any other name changes no symbol, wherever it is looked up. To make a scope with a
variable is to make it without and then to set the variable. From everywhere, a path into a registered
namespace, whose name is not empty, has the value that the variable has in the nearest of the
namespace's scope and its parents, or is not defined; its parts are what it is split into. And every path
with a slash is split, and put together again if the part in front of its final slash is not empty. -/
theorem plain_names_are_read_back {roots : ScopeId → Prop} {m : Machine} (h : m.WellFormed roots) :
    (∀ (home : ScopeId) (name : String) (v : Value), home < m.scopes.size → Path.IsPlain name →
      (m.set home name v).resolve name home = .ok v ∧
      ∀ id, m.Passes name id home → (m.set home name v).resolve name id = .ok v) ∧
    (∀ (home : ScopeId) (name : String) (v : Value), ¬ Path.IsPlain name →
      ∀ symbol id, (m.set home name v).resolve symbol id = m.resolve symbol id) ∧
    (∀ (vars : Table Value) (parent : Option ScopeId) (name : String) (v : Value),
      (m.alloc ⟨vars.set name v, parent⟩).2 = (m.alloc ⟨vars, parent⟩).2.set m.scopes.size name v) ∧
    (∀ (front last : String) (home : ScopeId), m.registry.get? front = some home → front ≠ "" →
      '/' ∉ last.toList →
        Path.split (Path.join front last) = (some front, last) ∧
        ∀ id,
          (∀ v, m.resolve (Path.join front last) id = .ok v ↔ m.Sees home last v) ∧
          ((∀ v, ¬ m.Sees home last v) →
            m.resolve (Path.join front last) id = .error (.undefinedSymbol last))) ∧
    (∀ path : String, '/' ∈ path.toList → ∃ front last, Path.split path = (some front, last) ∧
      (front ≠ "" → Path.join front last = path)) := by
  refine ⟨?_, ?_, ?_, ?_, fun path => Path.join_split⟩
  · intro home name v hhome hname
    refine ⟨resolve_set_of_passes h hname hhome v (.here home), ?_⟩
    intro id hpasses
    exact resolve_set_of_passes h hname hhome v hpasses
  · intro home name v hname
    exact m.resolve_set_of_not_isPlain hname home v
  · intro vars parent name v
    exact m.alloc_set vars parent name v
  · intro front last home hhome hfront hlast
    refine ⟨Path.split_join hfront hlast, ?_⟩
    intro id
    rw [m.resolve_join hhome hfront hlast]
    exact ⟨fun v => find_eq_ok_iff h, find_of_not_sees h⟩

/-- A namespace whose own name ends with a slash, and a name that would be a path into it. -/
theorem plain_names_are_read_back_slashes :
    let start : Interpreter := .new ⟨3, false⟩ fun _ => .error .notFound
    let requests : List Request :=
      [.createNamespace "A/", .extendNamespace "A/" (·.setAll [("x", .keyword ":a")])]
    let m := (start.handleAll requests).machine
    start.WellUsed requests ∧ m.registry.get? "A/" = some 1 ∧ m.Passes "/" 1 0 ∧
      (m.set 0 "/" .null).resolve "/" 1 = .ok .null ∧
      ¬ Path.IsPlain "A//x" ∧ (m.set 0 "A//x" .null).resolve "A//x" 0 = m.resolve "A//x" 0 ∧
      m.Sees 1 "x" (.keyword ":a") ∧ m.resolve (Path.join "A/" "x") 0 = .ok (.keyword ":a") ∧
      ∃ front last, Path.split "A//x" = (some front, last) ∧
        (front ≠ "" → Path.join front last = "A//x") := by
  intro start requests m
  have hused : start.WellUsed requests :=
    ⟨trivial, .setAll (List.forall_mem_singleton.mpr (.keyword (by decide))), trivial⟩
  have hscope : m.scopes[1]? = some ⟨[("x", .keyword ":a")], some 0⟩ := rfl
  have hhome : m.registry.get? "A/" = some 1 := rfl
  have hpasses : m.Passes "/" 1 0 := .up hscope rfl rfl (.here 0)
  have hsees : m.Sees 1 "x" (.keyword ":a") := ⟨1, _, .here 1, hscope, rfl⟩
  have hwell := Interpreter.wellFormed_handleAll start (Machine.wellFormed_start ⟨3, false⟩) hused
  obtain ⟨hset, hhidden, -, hpath, hjoin⟩ := plain_names_are_read_back hwell
  have hroot : 0 < m.scopes.size := hwell.root_lt
  have hslash := (hset 0 "/" .null hroot (by decide)).2 1 hpasses
  have hread := ((hpath "A/" "x" 1 hhome (by decide) (by decide)).2 0).1 (.keyword ":a")
  exact ⟨hused, hhome, hpasses, hslash, by decide, hhidden 0 "A//x" .null (by decide) "A//x" 0, hsees,
    hread.mpr hsees, hjoin "A//x" (by decide)⟩

end SmallLisp
