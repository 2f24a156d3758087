import Mathlib.Data.List.Induction
import SmallLisp.Proofs.Invariant
/-!
# What a registry remembers

A registry is asked to create, extend, reset and delete namespaces. What it holds at any time can be
told from what it was asked and what it answered, without knowing how it keeps it: a name has the scope
that it was last registered with, unless it was deleted since, and the names come in the order in which
they were registered first since they were deleted last. `Machine.Follows` says this and what
the parents of scopes are; **every call keeps it so** (`Follows.invoke`).

A new registry counts as one that was asked to create the root.
-/

namespace SmallLisp

/-! ### Calls and answers -/

inductive RegistryCall where
  | create (name : String)
  /-- To change the variables of a scope. What else the change results in, only the caller knows. -/
  | extend (name : String) (change : Table Value → Table Value)
  | reset (name : String)
  | delete (name : String)

inductive RegistryAnswer where
  /-- A new scope was made. -/
  | made (id : ScopeId)
  | extended
  /-- A scope was taken out, if there was one. -/
  | removed (id : Option ScopeId)
  | refused (e : RegistryError)

structure Exchange where
  call : RegistryCall
  answer : RegistryAnswer

namespace Exchange

/-- The new scope that a name is registered with. -/
def registers? (x : Exchange) (name : String) : Option ScopeId :=
  match x with
  | ⟨.create name', .made id⟩ | ⟨.reset name', .made id⟩ => if name' = name then some id else none
  | _ => none

/-- Whether a name is deleted. The root never is. -/
def Deletes (x : Exchange) (name : String) : Prop :=
  name ≠ Path.global ∧ ∃ answer, x = ⟨.delete name, answer⟩

end Exchange

namespace Machine

def invoke (m : Machine) : RegistryCall → RegistryAnswer × Machine
  | .create name =>
    let (id, m) := m.create name
    (.made id, m)
  | .extend name change =>
    match m.extend name fun vars => ((), change vars) with
    | (.ok (), m) => (.extended, m)
    | (.error e, m) => (.refused e, m)
  | .reset name =>
    match m.reset name with
    | (.ok id, m) => (.made id, m)
    | (.error e, m) => (.refused e, m)
  | .delete name =>
    let (id, m) := m.delete name
    (.removed id, m)

/-- How the root of a new registry came to be. -/
def founding : Exchange :=
  ⟨.create Path.global, .made initial.registry.root⟩

/-- The calls of a new registry with their answers, and the machine after them. -/
def converse (calls : List RegistryCall) : List Exchange × Machine :=
  calls.foldl
    (fun run call => (run.1 ++ [⟨call, (run.2.invoke call).1⟩], (run.2.invoke call).2))
    ([founding], initial)

end Machine

/-! ### What a history tells -/

/-- Whether a name was registered with a scope, and neither registered again nor deleted since. -/
def Registered (history : List Exchange) (name : String) (id : ScopeId) : Prop :=
  ∃ (i : Nat) (x : Exchange), history[i]? = some x ∧ x.registers? name = some id ∧
    ∀ (j : Nat) (y : Exchange), i < j → history[j]? = some y →
      y.registers? name = none ∧ ¬ y.Deletes name

/-- Whether a name was registered at a moment for the first time since it was last deleted. -/
def FirstRegistered (history : List Exchange) (name : String) (i : Nat) : Prop :=
  (∃ x, history[i]? = some x ∧ x.registers? name ≠ none) ∧
  (∀ (j : Nat) (y : Exchange), i < j → history[j]? = some y → ¬ y.Deletes name) ∧
  ∀ (j : Nat) (y : Exchange), j < i → history[j]? = some y → y.registers? name ≠ none →
    ∃ (k : Nat) (z : Exchange), j < k ∧ k < i ∧ history[k]? = some z ∧ z.Deletes name

/-- Whether names come in the order in which they were registered first since they were last deleted. -/
def InOrder (history : List Exchange) (names : List String) : Prop :=
  ∃ moment : String → Nat, (∀ name ∈ names, FirstRegistered history name (moment name)) ∧
    names.Pairwise fun name name' => moment name < moment name'

/-- The scope that stands for a namespace in front of a slash: its own, or the root if it has none. -/
def StandsFor (history : List Exchange) (front : String) (id : ScopeId) : Prop :=
  Registered history front id ∨
    (∀ other, ¬ Registered history front other) ∧ Registered history Path.global id

/-- The scope around one that a name is registered with after this history. The root has none; any other
name has what stands in front of its final slash, or else the root. -/
def IsParentFor (history : List Exchange) (name : String) (parent : Option ScopeId) : Prop :=
  if name = Path.global then parent = none
  else
    ∃ id, parent = some id ∧
      ((∃ front last, name = front ++ "/" ++ last ∧ '/' ∉ last.toList ∧ StandsFor history front id) ∨
        '/' ∉ name.toList ∧ Registered history Path.global id)

/-- What has to be true of a machine after these calls and answers. -/
structure Machine.Follows (history : List Exchange) (m : Machine) : Prop where
  /-- A name has the scope that it was last registered with. -/
  scope : ∀ name id, m.registry.get? name = some id ↔ Registered history name id
  /-- The names are the root's and those that are registered, each of them once and in order. -/
  names : ∃ others, m.registry.names = Path.global :: others ∧ others.Nodup ∧
    (∀ name, name ∈ others ↔ name ≠ Path.global ∧ ∃ id, Registered history name id) ∧
    InOrder history others
  /-- Every scope that was ever registered still has the parent of that moment. -/
  parent : ∀ (i : Nat) x name id, history[i]? = some x → x.registers? name = some id →
    ∃ scope, m.scopes[id]? = some scope ∧ IsParentFor (history.take i) name scope.parent
  /-- No scope is registered twice. -/
  distinct : ∀ (i j : Nat) x y name name' id, history[i]? = some x → history[j]? = some y →
    x.registers? name = some id → y.registers? name' = some id → i = j

/-! ### One more exchange -/

section History

variable {history : List Exchange} {x : Exchange} {name : String} {id : ScopeId}

theorem getElem?_concat_eq_some {i : Nat} {y : Exchange} :
    (history ++ [x])[i]? = some y ↔ history[i]? = some y ∨ (i = history.length ∧ x = y) := by
  grind

theorem lt_of_getElem?_eq_some {i : Nat} {y : Exchange} (h : history[i]? = some y) :
    i < history.length :=
  (List.getElem?_eq_some_iff.mp h).1

/-- The last exchange has the last word. -/
theorem registered_concat :
    Registered (history ++ [x]) name id ↔
      x.registers? name = some id ∨
        (x.registers? name = none ∧ ¬ x.Deletes name) ∧ Registered history name id := by
  constructor
  · rintro ⟨i, y, hy, hregisters, hlater⟩
    rcases getElem?_concat_eq_some.mp hy with hy | ⟨rfl, rfl⟩
    · right
      refine ⟨hlater history.length x (lt_of_getElem?_eq_some hy) (by simp), i, y, hy, hregisters, ?_⟩
      intro j z hj hz
      exact hlater j z hj (getElem?_concat_eq_some.mpr (.inl hz))
    · exact .inl hregisters
  · rintro (hregisters | ⟨hx, i, y, hy, hregisters, hlater⟩)
    · -- nothing comes later than the last exchange
      refine ⟨history.length, x, by simp, hregisters, ?_⟩
      intro j y hj hy
      have hlt := lt_of_getElem?_eq_some hy
      rw [List.length_append, List.length_singleton] at hlt
      omega
    · refine ⟨i, y, getElem?_concat_eq_some.mpr (.inl hy), hregisters, ?_⟩
      intro j z hj hz
      rcases getElem?_concat_eq_some.mp hz with hz | ⟨rfl, rfl⟩
      · exact hlater j z hj hz
      · exact hx

/-- A name that is not registered was deleted after each time that it was registered. -/
theorem deleted_of_not_registered (h : ∀ id, ¬ Registered history name id) {i : Nat} {y : Exchange}
    (hy : history[i]? = some y) (hregisters : y.registers? name ≠ none) :
    ∃ (k : Nat) (z : Exchange), i < k ∧ history[k]? = some z ∧ z.Deletes name := by
  induction history using List.reverseRecOn with
  | nil => cases hy
  | append_singleton history x ih =>
    simp only [registered_concat, not_or, not_and] at h
    have hx : x.registers? name = none := Option.eq_none_iff_forall_ne_some.mpr fun id => (h id).1
    rcases getElem?_concat_eq_some.mp hy with hy | ⟨rfl, rfl⟩
    · by_cases hdeletes : x.Deletes name
      · exact ⟨history.length, x, lt_of_getElem?_eq_some hy, by simp, hdeletes⟩
      · obtain ⟨k, z, hk, hz, hdeletes⟩ := ih (fun id => (h id).2 ⟨hx, hdeletes⟩) hy
        exact ⟨k, z, hk, getElem?_concat_eq_some.mpr (.inl hz), hdeletes⟩
    · exact absurd hx hregisters

/-- A name stays where it is unless it is deleted. -/
theorem FirstRegistered.concat {i : Nat} (h : FirstRegistered history name i)
    (hx : ¬ x.Deletes name) : FirstRegistered (history ++ [x]) name i := by
  obtain ⟨⟨y, hy, hregisters⟩, hlater, hearlier⟩ := h
  refine ⟨⟨y, getElem?_concat_eq_some.mpr (.inl hy), hregisters⟩, ?_, ?_⟩
  · intro j z hj hz
    rcases getElem?_concat_eq_some.mp hz with hz | ⟨-, rfl⟩
    · exact hlater j z hj hz
    · exact hx
  · intro j z hj hz hregisters
    rcases getElem?_concat_eq_some.mp hz with hz | ⟨rfl, -⟩
    · obtain ⟨k, w, hjk, hki, hw, hdeletes⟩ := hearlier j z hj hz hregisters
      exact ⟨k, w, hjk, hki, getElem?_concat_eq_some.mpr (.inl hw), hdeletes⟩
    · exact absurd (lt_of_getElem?_eq_some hy) (Nat.not_lt_of_gt hj)

/-- A name that is not registered comes in at the end. -/
theorem firstRegistered_concat (h : ∀ id, ¬ Registered history name id)
    (hx : x.registers? name ≠ none) : FirstRegistered (history ++ [x]) name history.length := by
  refine ⟨⟨x, by simp, hx⟩, ?_, ?_⟩
  · intro j y hj hy
    have hlt := lt_of_getElem?_eq_some hy
    rw [List.length_append, List.length_singleton] at hlt
    omega
  · intro j y hj hy hregisters
    rcases getElem?_concat_eq_some.mp hy with hy | ⟨rfl, -⟩
    · obtain ⟨k, z, hk, hz, hdeletes⟩ := deleted_of_not_registered h hy hregisters
      exact ⟨k, z, hk, lt_of_getElem?_eq_some hz, getElem?_concat_eq_some.mpr (.inl hz), hdeletes⟩
    · exact absurd hj (Nat.lt_irrefl _)

/-- An exchange that deletes none of the names leaves them in order. -/
theorem InOrder.concat {names : List String} (h : InOrder history names)
    (hx : ∀ name ∈ names, ¬ x.Deletes name) : InOrder (history ++ [x]) names := by
  obtain ⟨moment, hmoment, hordered⟩ := h
  exact ⟨moment, fun name hname => (hmoment name hname).concat (hx name hname), hordered⟩

/-- Deleting names keeps the others in their order. -/
theorem InOrder.sublist {names names' : List String} (h : InOrder history names')
    (hsublist : names.Sublist names') : InOrder history names := by
  obtain ⟨moment, hmoment, hordered⟩ := h
  exact ⟨moment, fun name hname => hmoment name (hsublist.subset hname), hordered.sublist hsublist⟩

/-- A new name comes behind those that are there. -/
theorem InOrder.append {names : List String} (h : InOrder history names) (hname : name ∉ names)
    (hnew : ∀ id, ¬ Registered history name id) (hregisters : x.registers? name ≠ none)
    (hkeeps : ∀ other, ¬ x.Deletes other) : InOrder (history ++ [x]) (names ++ [name]) := by
  obtain ⟨moment, hmoment, hordered⟩ := h
  have hold : ∀ other ∈ names, other ≠ name := by
    rintro other hother rfl
    exact hname hother
  -- the new name gets the latest moment, and the others keep theirs
  have hsame : ∀ other ∈ names, Function.update moment name history.length other = moment other :=
    fun other hother => Function.update_of_ne (hold other hother) _ _
  have hlast := Function.update_self name history.length moment
  refine ⟨Function.update moment name history.length, ?_, ?_⟩
  · intro other hother
    rcases List.mem_append.mp hother with hother | hother
    · rw [hsame other hother]
      exact (hmoment other hother).concat (hkeeps other)
    · rw [List.mem_singleton.mp hother, hlast]
      exact firstRegistered_concat hnew hregisters
  · refine List.pairwise_append.mpr ⟨?_, List.pairwise_singleton _ _, ?_⟩
    · refine hordered.imp_of_mem ?_
      intro other other' hother hother' hlt
      simpa only [hsame other hother, hsame other' hother'] using hlt
    · intro other hother other' hother'
      obtain ⟨⟨y, hy, -⟩, -⟩ := hmoment other hother
      rw [List.mem_singleton.mp hother', hsame other hother, hlast]
      exact lt_of_getElem?_eq_some hy

/-- No name stands twice, since the moments go up strictly. -/
theorem InOrder.nodup {names : List String} (h : InOrder history names) : names.Nodup := by
  obtain ⟨moment, -, hordered⟩ := h
  refine hordered.imp ?_
  rintro name _ hlt rfl
  exact Nat.lt_irrefl _ hlt

end History

/-! ### What calls do to the registry -/

/-- A path is split at its final slash, if it has one. -/
theorem Path.split_cases (path : String) :
    (∃ front last, split path = (some front, last) ∧ path = front ++ "/" ++ last ∧
      '/' ∉ last.toList) ∨
    (split path = (none, path) ∧ '/' ∉ path.toList) := by
  have hjoin : path.toList.reverse.takeWhile (· != '/') ++ path.toList.reverse.dropWhile (· != '/') =
      path.toList.reverse :=
    List.takeWhile_append_dropWhile
  -- the path is walked from its end, so the run without slashes is its last part
  have hlast : '/' ∉ path.toList.reverse.takeWhile (· != '/') := by
    intro hslash
    simpa using List.mem_takeWhile_imp hslash
  cases hdrop : path.toList.reverse.dropWhile (· != '/') with
  | nil =>
    rw [hdrop, List.append_nil] at hjoin
    rw [hjoin, List.mem_reverse] at hlast
    exact .inr ⟨by simp only [split, hdrop], hlast⟩
  | cons c front =>
    have hslash : c = '/' := by
      have hne : path.toList.reverse.dropWhile (· != '/') ≠ [] := by simp [hdrop]
      have hhead := List.head_dropWhile_not (· != '/') hne
      simpa [hdrop] using hhead
    subst hslash
    have hsplit : split path = (some (String.ofList front.reverse),
        String.ofList (path.toList.reverse.takeWhile (· != '/')).reverse) := by
      simp only [split, hdrop]
    refine .inl ⟨_, _, hsplit, ?_, by simpa using hlast⟩
    have hpath := congrArg List.reverse hjoin
    rw [hdrop, List.reverse_reverse] at hpath
    apply String.toList_injective
    refine hpath.symm.trans ?_
    simp
namespace Machine

variable {m m' : Machine} {history : List Exchange} {x : Exchange}

/-- Only the name that was created leads somewhere new. -/
theorem get?_create (name other : String) (m : Machine) :
    (m.create name).2.registry.get? other =
      if name = other then some m.scopes.size else m.registry.get? other := by
  unfold Machine.create
  split
  · next hname =>
    subst hname
    by_cases hother : other = Path.global
    · simp [Registry.get?, Machine.report, Machine.alloc, Scopes.alloc, hother]
    · simp [Registry.get?, Machine.report, Machine.alloc, hother, Ne.symm hother]
  · next hname =>
    by_cases hother : name = other
    · subst hother
      simp [Registry.get?, Machine.report, Machine.alloc, Scopes.alloc, hname]
    · simp [Registry.get?, Machine.report, Machine.alloc, Scopes.alloc, hother,
        Table.get?_set_of_ne]

/-- A new name goes to the end, an old one keeps its place, and the root has no entry. -/
theorem keys_create (name : String) (m : Machine) :
    (m.create name).2.registry.named.keys =
      if name = Path.global ∨ name ∈ m.registry.named.keys then m.registry.named.keys
      else m.registry.named.keys ++ [name] := by
  unfold Machine.create
  split
  · next hname => simp [Machine.report, Machine.alloc, hname]
  · next hname => simp [Machine.report, Machine.alloc, hname, Table.keys_set]

/-- A namespace hangs below the one its path names, or else below the root. -/
theorem scopes_create (name : String) (m : Machine) :
    (m.create name).2.scopes = m.scopes.push
      ⟨[], if name = Path.global then none else some (m.registry.parentFor name)⟩ := by
  unfold Machine.create
  split <;> rfl

theorem invoke_create (name : String) (m : Machine) :
    (m.invoke (.create name)).1 = .made m.scopes.size :=
  congrArg RegistryAnswer.made (create_fst name m)

theorem has_iff (registry : Registry) (name : String) :
    registry.has name = true ↔ ∃ id, registry.get? name = some id := by
  unfold Registry.has Registry.get?
  by_cases hname : name = Path.global
  · simp [hname]
  · simp [hname, Table.has, Option.isSome_iff_exists]

/-- A reset is a creation under a name that must be there. -/
theorem invoke_reset_of_get? {name : String} {id : ScopeId} (h : m.registry.get? name = some id) :
    m.invoke (.reset name) =
      (.made m.scopes.size, ((m.report (.namespaceReset name)).create name).2) := by
  have hhas := (has_iff m.registry name).mpr ⟨id, h⟩
  have hfst := create_fst name (m.report (.namespaceReset name))
  simp only [invoke, reset, hhas, if_true, hfst]
  rfl

theorem invoke_reset_of_get?_eq_none {name : String} (h : m.registry.get? name = none) :
    m.invoke (.reset name) = (.refused (.notFound name), m) := by
  have hhas : ¬ m.registry.has name = true := by simp [has_iff, h]
  simp only [invoke, reset, hhas]
  rfl

theorem invoke_extend_of_get? {name : String} {id : ScopeId} (change : Table Value → Table Value)
    (h : m.registry.get? name = some id) :
    m.invoke (.extend name change) = (.extended, (m.extend name fun vars => ((), change vars)).2) := by
  simp only [invoke, extend, h]

/-- Extending what is not there is refused and changes nothing. -/
theorem invoke_extend_of_get?_eq_none {name : String} (change : Table Value → Table Value)
    (h : m.registry.get? name = none) :
    m.invoke (.extend name change) = (.refused (.notFound name), m) := by
  simp only [invoke, extend, h]

theorem getElem?_create (name : String) {id : ScopeId} {scope : Scope}
    (h : m.scopes[id]? = some scope) : (m.create name).2.scopes[id]? = some scope := by
  have hlt : id < m.scopes.size := (Array.getElem?_eq_some_iff.mp h).1
  rw [scopes_create, Array.getElem?_push_lt hlt, ← h, Array.getElem?_eq_getElem hlt]

/-- The root cannot be deleted. -/
theorem invoke_delete_global (m : Machine) : m.invoke (.delete Path.global) = (.removed none, m) := by
  simp [invoke, delete]

/-- A name that is deleted loses its entry, and nothing else changes. -/
theorem registry_delete {name : String} (h : name ≠ Path.global) (m : Machine) :
    (m.delete name).2.registry = { m.registry with named := m.registry.named.erase name } := by
  unfold Machine.delete
  rw [if_neg h]
  split
  · next hnone => rw [Table.erase_of_get?_eq_none hnone]
  · rfl

theorem scopes_delete (name : String) (m : Machine) : (m.delete name).2.scopes = m.scopes := by
  unfold Machine.delete
  split
  · rfl
  · split <;> rfl

/-- **No call changes a scope, except that extending it changes its variables.** -/
theorem getElem?_invoke (call : RegistryCall) {id : ScopeId} {scope : Scope}
    (hscope : m.scopes[id]? = some scope) :
    (m.invoke call).2.scopes[id]? = some scope ∨
      ∃ name change, call = .extend name change ∧ m.registry.get? name = some id ∧
        (m.invoke call).2.scopes[id]? = some { scope with vars := change scope.vars } := by
  cases call with
  | create name => exact .inl (getElem?_create name hscope)
  | extend name change =>
    cases hget : m.registry.get? name with
    | none =>
      rw [invoke_extend_of_get?_eq_none change hget]
      exact .inl hscope
    | some target =>
      rw [invoke_extend_of_get? change hget, getElem?_extend _ m hget]
      by_cases htarget : target = id
      · subst htarget
        refine .inr ⟨name, change, rfl, hget, ?_⟩
        rw [if_pos rfl, hscope]
        rfl
      · rw [if_neg htarget]
        exact .inl hscope
  | reset name =>
    left
    cases hget : m.registry.get? name with
    | none =>
      rw [invoke_reset_of_get?_eq_none hget]
      exact hscope
    | some old =>
      have hreport : (m.report (.namespaceReset name)).scopes[id]? = some scope := hscope
      rw [invoke_reset_of_get? hget]
      exact getElem?_create name hreport
  | delete name =>
    left
    show (m.delete name).2.scopes[id]? = some scope
    rw [scopes_delete, hscope]

/-- Every scope that was ever registered is still there. -/
theorem Follows.lt_size (h : m.Follows history) {i : Nat} {name : String} {id : ScopeId}
    (hx : history[i]? = some x) (hregisters : x.registers? name = some id) : id < m.scopes.size := by
  obtain ⟨scope, hscope, -⟩ := h.parent i x name id hx hregisters
  exact (Array.getElem?_eq_some_iff.mp hscope).1

/-! ### What calls keep -/

/-- Whether scopes are still there, with their parents. -/
def KeepsParents (m m' : Machine) : Prop :=
  ∀ (id : ScopeId) (scope : Scope), m.scopes[id]? = some scope →
    ∃ scope', m'.scopes[id]? = some scope' ∧ scope'.parent = scope.parent

/-- No call moves a scope to another parent. -/
theorem keepsParents_invoke (m : Machine) (call : RegistryCall) : m.KeepsParents (m.invoke call).2 := by
  intro id scope hscope
  rcases getElem?_invoke call hscope with hsame | ⟨name, vars, -, -, hset⟩
  · exact ⟨scope, hsame, rfl⟩
  · exact ⟨_, hset, rfl⟩

theorem Follows.parent_concat (h : m.Follows history) (hkeeps : m.KeepsParents m')
    (hx : ∀ name id, x.registers? name = some id →
      ∃ scope, m'.scopes[id]? = some scope ∧ IsParentFor history name scope.parent)
    (i : Nat) (y : Exchange) (name : String) (id : ScopeId) (hy : (history ++ [x])[i]? = some y)
    (hregisters : y.registers? name = some id) :
    ∃ scope, m'.scopes[id]? = some scope ∧
      IsParentFor ((history ++ [x]).take i) name scope.parent := by
  rcases getElem?_concat_eq_some.mp hy with hy | ⟨rfl, rfl⟩
  · obtain ⟨scope, hscope, hparent⟩ := h.parent i y name id hy hregisters
    obtain ⟨scope', hscope', hsame⟩ := hkeeps id scope hscope
    rw [List.take_append_of_le_length (Nat.le_of_lt (lt_of_getElem?_eq_some hy))]
    exact ⟨scope', hscope', hsame ▸ hparent⟩
  · rw [List.take_left]
    exact hx name id hregisters

theorem Follows.distinct_concat (h : m.Follows history)
    (hx : ∀ name id, x.registers? name = some id → m.scopes.size ≤ id) (i j : Nat) (y z : Exchange)
    (name name' : String) (id : ScopeId) (hy : (history ++ [x])[i]? = some y)
    (hz : (history ++ [x])[j]? = some z) (hregisters : y.registers? name = some id)
    (hregisters' : z.registers? name' = some id) : i = j := by
  rcases getElem?_concat_eq_some.mp hy with hy | ⟨rfl, rfl⟩ <;>
    rcases getElem?_concat_eq_some.mp hz with hz | ⟨rfl, rfl⟩
  · exact h.distinct i j y z name name' id hy hz hregisters hregisters'
  · exact absurd (h.lt_size hy hregisters) (Nat.not_lt.mpr (hx name' id hregisters'))
  · exact absurd (h.lt_size hz hregisters') (Nat.not_lt.mpr (hx name id hregisters))
  · rfl

/-- The names in the table are those of scopes other than the root. -/
theorem mem_keys_iff {registry : Registry} (hglobal : Path.global ∉ registry.named.keys)
    (hscope : ∀ name id, registry.get? name = some id ↔ Registered history name id) (name : String) :
    name ∈ registry.named.keys ↔ name ≠ Path.global ∧ ∃ id, Registered history name id := by
  simp only [← hscope]
  by_cases hname : name = Path.global
  · simp [hname, hglobal]
  · simp [hname, Registry.get?, ← Table.get?_isSome_iff, Option.isSome_iff_exists]

/-- The scope of a new namespace has the right parent. -/
theorem Follows.isParentFor (h : m.Follows history) (name : String) :
    IsParentFor history name
      (if name = Path.global then none else some (m.registry.parentFor name)) := by
  have hroot : Registered history Path.global m.registry.root :=
    (h.scope _ _).mp (by simp [Registry.get?])
  unfold IsParentFor
  split
  · rfl
  · refine ⟨_, rfl, ?_⟩
    unfold Registry.parentFor
    rcases Path.split_cases name with ⟨front, last, hsplit, hname, hlast⟩ | ⟨hsplit, hname⟩
    · left
      refine ⟨front, last, hname, hlast, ?_⟩
      rw [hsplit]
      cases hfront : m.registry.get? front with
      | none =>
        have hunregistered : ∀ other, ¬ Registered history front other := by
          intro other
          simp [← h.scope, hfront]
        exact .inr ⟨hunregistered, by simpa [hfront] using hroot⟩
      | some id =>
        have hregistered : Registered history front id := (h.scope front id).mp hfront
        exact .inl (by simpa [hfront] using hregistered)
    · right
      rw [hsplit]
      exact ⟨hname, hroot⟩

/-- A call that leaves the registry alone. -/
theorem Follows.kept (h : m.Follows history)
    (hx : ∀ name, x.registers? name = none ∧ ¬ x.Deletes name) (hregistry : m'.registry = m.registry)
    (hkeeps : m.KeepsParents m') : m'.Follows (history ++ [x]) := by
  have hregistered : ∀ name id, Registered (history ++ [x]) name id ↔ Registered history name id := by
    intro name id
    simp [registered_concat, hx name]
  have hnone : ∀ name id, x.registers? name ≠ some id := by
    intro name id
    simp [hx name]
  obtain ⟨others, hnames, hnodup, hmem, horder⟩ := h.names
  refine ⟨?_, ⟨others, ?_, hnodup, ?_, ?_⟩, ?_, ?_⟩
  · simpa only [hregistry, hregistered] using h.scope
  · rw [hregistry, hnames]
  · simpa only [hregistered] using hmem
  · exact horder.concat fun name _ => (hx name).2
  · exact h.parent_concat hkeeps fun name id hid => absurd hid (hnone name id)
  · exact h.distinct_concat fun name id hid => absurd hid (hnone name id)

/-- A call that registers a new scope. -/
theorem Follows.create (h : m.Follows history) {name : String}
    (hx : ∀ other, x.registers? other = if name = other then some m.scopes.size else none)
    (hkeeps : ∀ other, ¬ x.Deletes other) : (m.create name).2.Follows (history ++ [x]) := by
  have hscope : ∀ other id, (m.create name).2.registry.get? other = some id ↔
      Registered (history ++ [x]) other id := by
    intro other id
    rw [get?_create, registered_concat, hx, ← h.scope]
    by_cases hother : name = other <;> simp [hother, hkeeps]
  have hnew : ∀ other id, x.registers? other = some id → name = other ∧ id = m.scopes.size := by
    intro other id hid
    rw [hx] at hid
    split at hid
    · exact ⟨‹_›, (Option.some.inj hid).symm⟩
    · cases hid
  refine ⟨hscope, ?_, ?_, ?_⟩
  · obtain ⟨others, hnames, hnodup, hmem, horder⟩ := h.names
    cases hnames
    have hglobal : Path.global ∉ m.registry.named.keys := fun hglobal => ((hmem _).mp hglobal).1 rfl
    have hkeys := keys_create name m
    split at hkeys
    · -- the name keeps its place
      refine ⟨_, rfl, hkeys ▸ hnodup, mem_keys_iff (hkeys ▸ hglobal) hscope, ?_⟩
      rw [hkeys]
      exact horder.concat fun other _ => hkeeps other
    · next hname =>
      -- the name comes last
      obtain ⟨hroot, hname⟩ := not_or.mp hname
      have hunregistered : ∀ id, ¬ Registered history name id := fun id hid =>
        hname ((hmem name).mpr ⟨hroot, id, hid⟩)
      have horder := horder.append hname hunregistered (by simp [hx]) hkeeps
      rw [← hkeys] at horder
      refine ⟨_, rfl, horder.nodup, mem_keys_iff ?_ hscope, horder⟩
      rw [hkeys]
      simpa using ⟨hglobal, Ne.symm hroot⟩
  · have hparents : m.KeepsParents (m.create name).2 := m.keepsParents_invoke (.create name)
    apply h.parent_concat hparents
    intro other id hid
    obtain ⟨rfl, rfl⟩ := hnew other id hid
    exact ⟨⟨[], if name = Path.global then none else some (m.registry.parentFor name)⟩,
      by rw [scopes_create, Array.getElem?_push_size], h.isParentFor name⟩
  · apply h.distinct_concat
    intro other id hid
    exact Nat.le_of_eq (hnew other id hid).2.symm

/-- A call that takes a name out. -/
theorem Follows.delete (h : m.Follows history) {name : String} (hname : name ≠ Path.global)
    (hx : ∀ other, x.registers? other = none) (hdeletes : ∀ other, x.Deletes other ↔ name = other)
    (hregistry : m'.registry = { m.registry with named := m.registry.named.erase name })
    (hscopes : m'.scopes = m.scopes) : m'.Follows (history ++ [x]) := by
  obtain ⟨others, hnames, hnodup, hmem, horder⟩ := h.names
  cases hnames
  -- the root is registered apart from the other names, so erasing cannot touch it
  have hglobal : Path.global ∉ m.registry.named.keys := fun hglobal => ((hmem _).mp hglobal).1 rfl
  have hnone : ∀ other id, x.registers? other ≠ some id := by
    intro other id
    simp [hx other]
  have hscope : ∀ other id, m'.registry.get? other = some id ↔
      Registered (history ++ [x]) other id := by
    intro other id
    rw [registered_concat, hx, hdeletes, ← h.scope, hregistry]
    by_cases hother : name = other
    · subst hother
      simp [Registry.get?, hname, Table.get?_erase_self hnodup]
    · simp [Registry.get?, hother, Table.get?_erase_of_ne]
  have hkeys : m'.registry.named.keys = m.registry.named.keys.erase name := by
    rw [hregistry, Table.keys_erase]
  refine ⟨hscope, ⟨_, rfl, ?_, mem_keys_iff ?_ hscope, ?_⟩, ?_, ?_⟩
  · rw [hkeys]
    exact hnodup.erase name
  · rw [hkeys]
    exact fun hmem => hglobal (List.mem_of_mem_erase hmem)
  · rw [hkeys]
    refine (horder.sublist List.erase_sublist).concat ?_
    intro other hother
    rw [hdeletes]
    rintro rfl
    exact hnodup.not_mem_erase hother
  · have hkeeps : m.KeepsParents m' := fun _ scope hold => ⟨scope, hscopes ▸ hold, rfl⟩
    exact h.parent_concat hkeeps fun other id hid => absurd hid (hnone other id)
  · exact h.distinct_concat fun other id hid => absurd hid (hnone other id)

/-- **What a history tells stays true of the machine, call by call.** -/
theorem Follows.invoke (h : m.Follows history) (call : RegistryCall) :
    (m.invoke call).2.Follows (history ++ [⟨call, (m.invoke call).1⟩]) := by
  have hkeeps := m.keepsParents_invoke call
  cases call with
  | create name =>
    apply h.create
    · intro other
      rw [invoke_create]
      rfl
    · rintro other ⟨-, answer, ⟨⟩⟩
  -- extending registers nothing and deletes nothing, found or not
  | extend name change =>
    refine h.kept ?_ ?_ hkeeps
    · intro other
      refine ⟨rfl, ?_⟩
      rintro ⟨-, answer, ⟨⟩⟩
    · cases hget : m.registry.get? name with
      | none => rw [invoke_extend_of_get?_eq_none change hget]
      | some id => rw [invoke_extend_of_get? change hget, registry_extend]
  | reset name =>
    cases hget : m.registry.get? name with
    | none =>
      refine h.kept ?_ ?_ hkeeps
      · intro other
        rw [invoke_reset_of_get?_eq_none hget]
        refine ⟨rfl, ?_⟩
        rintro ⟨-, answer, ⟨⟩⟩
      · rw [invoke_reset_of_get?_eq_none hget]
    | some id =>
      -- the report comes first and says nothing about the registry
      have hreport : (m.report (.namespaceReset name)).Follows history :=
        ⟨h.scope, h.names, h.parent, h.distinct⟩
      rw [invoke_reset_of_get? hget]
      apply hreport.create
      · intro other
        rfl
      · rintro other ⟨-, answer, ⟨⟩⟩
  | delete name =>
    -- the root is never deleted, whatever the call says
    by_cases hname : name = Path.global
    · subst hname
      refine h.kept ?_ ?_ hkeeps
      · intro other
        refine ⟨rfl, ?_⟩
        rintro ⟨hother, answer, ⟨⟩⟩
        exact hother rfl
      · rw [invoke_delete_global]
    · refine h.delete hname (fun other => rfl) ?_ (registry_delete hname m) (scopes_delete name m)
      intro other
      constructor
      · rintro ⟨-, answer, ⟨⟩⟩
        rfl
      · rintro rfl
        exact ⟨hname, _, rfl⟩

theorem registers?_founding {name : String} {id : ScopeId} :
    founding.registers? name = some id ↔ name = Path.global ∧ id = 0 := by
  simp [founding, Exchange.registers?, initial, eq_comm]

theorem registered_founding {name : String} {id : ScopeId} :
    Registered [founding] name id ↔ name = Path.global ∧ id = 0 := by
  rw [← registers?_founding, ← List.nil_append [founding], registered_concat]
  simp [Registered]

/-- The history starts with the root. -/
theorem follows_initial : initial.Follows [founding] := by
  refine ⟨?_, ⟨[], rfl, List.nodup_nil, ?_, ⟨fun _ => 0, by simp, List.Pairwise.nil⟩⟩, ?_, ?_⟩
  · intro name id
    rw [registered_founding]
    by_cases hname : name = Path.global <;> simp [Registry.get?, initial, hname, Table.get?, eq_comm]
  · intro name
    simp [registered_founding]
  · intro i x name id hx hid
    obtain ⟨rfl, rfl⟩ : i = 0 ∧ x = founding := by grind
    obtain ⟨rfl, rfl⟩ := registers?_founding.mp hid
    exact ⟨⟨[], none⟩, rfl, by simp [IsParentFor]⟩
  · intro i j x y name name' id hx hy _ _
    grind

/-- **A registry holds what its history tells**, whatever it was asked. -/
theorem follows_converse (calls : List RegistryCall) :
    (converse calls).2.Follows (converse calls).1 := by
  induction calls using List.reverseRecOn with
  | nil => exact follows_initial
  | append_singleton calls call ih =>
    have hstep := ih.invoke call
    simpa only [converse, List.foldl_append, List.foldl_cons, List.foldl_nil] using hstep

end Machine

open Machine in
/-- **The registry is an ordered map from names to scopes**, for every run of calls. A name has the very
scope that its last registration made, unless it was deleted since; the names come in the order in which
they were registered; and a scope has the parent that its name had when it was made, also if that name
has another scope by now. The root is never deleted. To reset or extend what is not registered is
refused and changes nothing. No call changes a scope, except that extending it changes its variables, in
the way it was asked to. -/
theorem registry_is_ordered_map (calls : List RegistryCall) :
    let history := (converse calls).1
    let m := (converse calls).2
    m.Follows history ∧
    m.invoke (.delete Path.global) = (.removed none, m) ∧
    (∀ name, (m.invoke (.create name)).1 = .made m.scopes.size) ∧
    (∀ name id, Registered history name id →
      (m.invoke (.reset name)).1 = .made m.scopes.size ∧
      ∀ change, (m.invoke (.extend name change)).1 = .extended) ∧
    (∀ name, (∀ id, ¬ Registered history name id) →
      m.invoke (.reset name) = (.refused (.notFound name), m) ∧
      ∀ change, m.invoke (.extend name change) = (.refused (.notFound name), m)) ∧
    ∀ call id scope, m.scopes[id]? = some scope →
      (m.invoke call).2.scopes[id]? = some scope ∨
        ∃ name change, call = .extend name change ∧ Registered history name id ∧
          (m.invoke call).2.scopes[id]? = some { scope with vars := change scope.vars } := by
  intro history m
  have hfollows : m.Follows history := follows_converse calls
  refine ⟨hfollows, m.invoke_delete_global, fun name => m.invoke_create name, ?_, ?_, ?_⟩
  · intro name id hregistered
    have hget := (hfollows.scope name id).mpr hregistered
    refine ⟨by rw [invoke_reset_of_get? hget], ?_⟩
    intro change
    rw [invoke_extend_of_get? change hget]
  · intro name hunregistered
    have hget : m.registry.get? name = none := by
      simpa only [← hfollows.scope, ← Option.eq_none_iff_forall_ne_some] using hunregistered
    exact ⟨invoke_reset_of_get?_eq_none hget, fun change => invoke_extend_of_get?_eq_none change hget⟩
  · intro call id scope hscope
    simpa only [hfollows.scope] using getElem?_invoke call hscope

/-- A name that is reset keeps its place, and children that are there keep the old scope; a name that is
deleted and created again comes last. -/
example :
    let m := (Machine.converse [.create "A", .create "A/B", .create "C", .reset "A", .create "A/D",
      .delete "A/B", .create "A/B/E", .create "A/B"]).2
    m.registry.names = ["global", "A", "C", "A/D", "A/B/E", "A/B"] ∧
      m.registry.get? "A" = some 4 ∧
      m.scopes.toList.map (·.parent) =
        [none, some 0, some 1, some 0, some 0, some 4, some 0, some 4] := by
  decide

end SmallLisp
