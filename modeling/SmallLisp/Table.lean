/-!
# Tables

A table maps names to values and remembers the order in which the names came. Setting a name that is
there already keeps its place; a name set again after it was erased comes last.

Tables hold the variables of a scope, the entries of a hash and the registered namespaces. They are
plain lists of pairs, so that a value of the language can hold one.
-/

namespace SmallLisp

/-- Names with values, in the order in which the names were first set. -/
abbrev Table (α : Type) := List (String × α)

namespace Table

variable {α : Type}

def keys (table : Table α) : List String :=
  table.map (·.1)

def get? (table : Table α) (name : String) : Option α :=
  match table with
  | [] => none
  | (key, value) :: rest => if key = name then some value else get? rest name

def has (table : Table α) (name : String) : Bool :=
  (get? table name).isSome

/-- Gives a name a value: in its place if the name is there, at the end if it is new. -/
def set (table : Table α) (name : String) (value : α) : Table α :=
  match table with
  | [] => [(name, value)]
  | (key, old) :: rest =>
    if key = name then (key, value) :: rest else (key, old) :: set rest name value

/-- Takes a name out; the others keep their order. -/
def erase (table : Table α) (name : String) : Table α :=
  match table with
  | [] => []
  | (key, value) :: rest => if key = name then rest else (key, value) :: erase rest name

def setAll (table : Table α) (pairs : List (String × α)) : Table α :=
  pairs.foldl (fun table pair => table.set pair.1 pair.2) table

/-- The table of a list of pairs: each name once, in the order of first occurrence, with the last
value it is given. -/
def ofPairs (pairs : List (String × α)) : Table α :=
  setAll [] pairs

/-! ### What setting does -/

/-- A name that was set has its new value. -/
@[simp] theorem get?_set_self (table : Table α) (name : String) (value : α) :
    get? (table.set name value) name = some value := by
  induction table with
  | nil => simp [set, get?]
  | cons pair rest ih =>
    obtain ⟨key, old⟩ := pair
    by_cases h : key = name <;> simp [set, get?, h, ih]

/-- Setting a name leaves the others alone. -/
theorem get?_set_of_ne (table : Table α) {name other : String} (value : α) (h : name ≠ other) :
    get? (table.set name value) other = get? table other := by
  induction table with
  | nil => simp [set, get?, h]
  | cons pair rest ih =>
    obtain ⟨key, old⟩ := pair
    by_cases hkey : key = name
    · subst hkey
      simp [set, get?, h]
    · simp only [set, hkey, if_false, get?, ih]

/-- **Setting keeps the order**: the names stay as they are, with a new one at the end. -/
theorem keys_set (table : Table α) (name : String) (value : α) :
    keys (table.set name value) =
      if name ∈ keys table then keys table else keys table ++ [name] := by
  induction table with
  | nil => simp [set, keys]
  | cons pair rest ih =>
    obtain ⟨key, old⟩ := pair
    by_cases hkey : key = name
    · subst hkey
      simp [set, keys]
    · simp only [keys] at ih
      simp only [set, hkey, if_false, keys, List.map_cons, ih, List.mem_cons, Ne.symm hkey,
        false_or]
      by_cases hmem : name ∈ List.map (·.1) rest <;> simp [hmem]

/-- A name has a value exactly if it is one of the names. -/
theorem get?_isSome_iff (table : Table α) (name : String) :
    (get? table name).isSome ↔ name ∈ keys table := by
  induction table with
  | nil => simp [get?, keys]
  | cons pair rest ih =>
    obtain ⟨key, old⟩ := pair
    by_cases hkey : key = name
    · simp [get?, keys, hkey]
    · simpa [get?, keys, hkey, Ne.symm hkey] using ih

/-- A name that is new comes last, and nothing else changes. -/
theorem set_of_get?_eq_none {table : Table α} {name : String} (value : α)
    (h : get? table name = none) : table.set name value = table ++ [(name, value)] := by
  induction table with
  | nil => rfl
  | cons pair rest ih =>
    obtain ⟨key, old⟩ := pair
    by_cases hkey : key = name
    · simp [get?, hkey] at h
    · simp only [get?, hkey, if_false] at h
      simp only [set, hkey, if_false, ih h, List.cons_append]

/-- The value of a name stands in the table. -/
theorem mem_of_get?_eq_some {table : Table α} {name : String} {value : α}
    (h : get? table name = some value) : (name, value) ∈ table := by
  induction table with
  | nil => cases h
  | cons pair rest ih =>
    obtain ⟨key, old⟩ := pair
    by_cases hkey : key = name
    · simp [get?, hkey] at h
      simp [hkey, h]
    · simp only [get?, hkey, if_false] at h
      exact List.mem_cons_of_mem _ (ih h)

/-- Where no name is there twice, the value of a name is what stands with it. -/
theorem get?_eq_some_iff {table : Table α} (h : (keys table).Nodup) {name : String} {value : α} :
    get? table name = some value ↔ (name, value) ∈ table := by
  refine ⟨mem_of_get?_eq_some, ?_⟩
  intro hmem
  induction table with
  | nil => cases hmem
  | cons pair rest ih =>
    obtain ⟨key, old⟩ := pair
    obtain ⟨hnew, hrest⟩ := List.nodup_cons.mp h
    rcases List.mem_cons.mp hmem with heq | hmem
    · cases heq
      simp [get?]
    · have hne : key ≠ name := by
        intro heq
        exact hnew (List.mem_map.mpr ⟨(name, value), hmem, heq.symm⟩)
      simp only [get?, hne, if_false]
      exact ih hrest hmem

/-- What is put behind a table does not hide what is in it. -/
theorem get?_append_of_mem {table : Table α} {name : String} (h : name ∈ keys table)
    (added : Table α) : get? (table ++ added) name = get? table name := by
  induction table with
  | nil => cases h
  | cons pair rest ih =>
    obtain ⟨key, old⟩ := pair
    by_cases hkey : key = name
    · simp [get?, hkey]
    · have hrest : name ∈ keys rest := by simpa [keys, Ne.symm hkey] using h
      simp only [List.cons_append, get?, hkey, if_false]
      exact ih hrest

/-- Setting brings in nothing but what is set. -/
theorem mem_of_mem_set {table : Table α} {name : String} {value : α} {pair : String × α}
    (h : pair ∈ table.set name value) : pair ∈ table ∨ pair = (name, value) := by
  induction table with
  | nil => exact .inr (List.mem_singleton.mp h)
  | cons entry rest ih =>
    obtain ⟨key, old⟩ := entry
    by_cases hkey : key = name
    · simp only [set, hkey, if_true] at h
      rcases List.mem_cons.mp h with h | h
      · exact .inr h
      · exact .inl (List.mem_cons_of_mem _ h)
    · simp only [set, hkey, if_false] at h
      rcases List.mem_cons.mp h with h | h
      · exact .inl (h ▸ List.mem_cons_self)
      · exact (ih h).imp_left (List.mem_cons_of_mem _)

/-! ### Tables of pairs -/

/-- What is set last has the last word; what is not set stays. -/
theorem get?_setAll (table : Table α) (pairs : List (String × α)) (name : String) :
    get? (table.setAll pairs) name =
      ((pairs.filter (·.1 == name)).getLast?.map (·.2)).or (get? table name) := by
  induction pairs generalizing table with
  | nil => rfl
  | cons pair pairs ih =>
    show get? ((table.set pair.1 pair.2).setAll pairs) name = _
    rw [ih, List.filter_cons]
    by_cases hname : pair.1 = name
    · subst hname
      simp only [get?_set_self, beq_self_eq_true, if_true, List.getLast?_cons]
      cases (pairs.filter (·.1 == pair.1)).getLast? <;> rfl
    · simp [get?_set_of_ne _ _ hname, hname]

/-- Names that are new come behind the others, each where it occurs first. -/
theorem keys_setAll (table : Table α) (pairs : List (String × α)) :
    keys (table.setAll pairs) =
      keys table ++ ((pairs.map (·.1)).filter (· ∉ keys table)).eraseDups := by
  induction pairs generalizing table with
  | nil => simp [setAll]
  | cons pair pairs ih =>
    show keys ((table.set pair.1 pair.2).setAll pairs) = _
    rw [ih, keys_set, List.map_cons, List.filter_cons]
    by_cases hmem : pair.1 ∈ keys table
    · simp [hmem]
    · have hboth : ∀ name, decide (name ∉ keys table ++ [pair.1]) =
          (!name == pair.1 && decide (name ∉ keys table)) := by
        intro name
        grind
      simp only [hmem, not_false_eq_true, decide_true, if_true, if_false, List.eraseDups_cons,
        List.filter_filter, hboth, List.append_assoc, List.singleton_append]

/-- Setting new and distinct names is appending them. -/
theorem setAll_of_nodup {table pairs : Table α} (h : (keys (table ++ pairs)).Nodup) :
    table.setAll pairs = table ++ pairs := by
  induction pairs generalizing table with
  | nil => exact (List.append_nil table).symm
  | cons pair pairs ih =>
    have hnew : get? table pair.1 = none := by
      rw [← Option.not_isSome_iff_eq_none, get?_isSome_iff]
      grind [keys]
    rw [List.append_cons] at h
    calc table.setAll (pair :: pairs)
      _ = (table.set pair.1 pair.2).setAll pairs := rfl
      _ = (table ++ [pair]).setAll pairs := by rw [set_of_get?_eq_none _ hnew]
      _ = table ++ pair :: pairs := by rw [ih h, List.append_assoc, List.singleton_append]

/-- The names of pairs, each once and in the order of first occurrence. -/
theorem keys_ofPairs (pairs : List (String × α)) :
    keys (ofPairs pairs) = (pairs.map (·.1)).eraseDups := by
  have hall : ∀ names : List String, names.filter (· ∉ keys ([] : Table α)) = names := by
    intro names
    exact List.filter_eq_self.mpr fun name _ => decide_eq_true List.not_mem_nil
  rw [ofPairs, keys_setAll, hall]
  rfl

/-- A name has the value of the last pair it is in. -/
theorem get?_ofPairs (pairs : List (String × α)) (name : String) :
    get? (ofPairs pairs) name = (pairs.filter (·.1 == name)).getLast?.map (·.2) := by
  rw [ofPairs, get?_setAll, get?, Option.or_none]

/-- A name has the value that stands at the last place where it occurs. -/
theorem get?_ofPairs_of_last {pairs : List (String × α)} {i : Nat} {name : String} {value : α}
    (h : pairs[i]? = some (name, value))
    (hlast : ∀ j, i < j → pairs[j]?.map (·.1) ≠ some name) :
    get? (ofPairs pairs) name = some value := by
  obtain ⟨hi, hpair⟩ := List.getElem?_eq_some_iff.mp h
  have hnone : (pairs.drop (i + 1)).filter (·.1 == name) = [] := by
    rw [List.filter_eq_nil_iff]
    intro pair hmem heq
    obtain ⟨k, hk⟩ := List.mem_iff_getElem?.mp hmem
    rw [List.getElem?_drop] at hk
    refine hlast (i + 1 + k) (by omega) ?_
    rw [hk, Option.map_some, beq_iff_eq.mp heq]
  have hsplit : pairs = pairs.take i ++ (name, value) :: pairs.drop (i + 1) := by
    rw [← hpair, ← List.drop_eq_getElem_cons hi, List.take_append_drop]
  rw [get?_ofPairs, hsplit, List.filter_append, List.filter_cons_of_pos (by simp), hnone]
  simp

/-- A table is that of its own pairs. -/
theorem ofPairs_of_nodup {table : Table α} (h : (keys table).Nodup) : ofPairs table = table :=
  setAll_of_nodup h

/-! ### What erasing does -/

/-- Erasing brings in nothing. -/
theorem mem_of_mem_erase {table : Table α} {name : String} {pair : String × α}
    (h : pair ∈ table.erase name) : pair ∈ table := by
  induction table with
  | nil => cases h
  | cons entry rest ih =>
    obtain ⟨key, old⟩ := entry
    by_cases hkey : key = name
    · simp only [erase, hkey, if_true] at h
      exact List.mem_cons_of_mem _ h
    · simp only [erase, hkey, if_false] at h
      rcases List.mem_cons.mp h with h | h
      · exact h ▸ List.mem_cons_self
      · exact List.mem_cons_of_mem _ (ih h)

/-- **Erasing keeps the order** of the other names. -/
theorem keys_erase (table : Table α) (name : String) :
    keys (table.erase name) = (keys table).erase name := by
  induction table with
  | nil => rfl
  | cons pair rest ih =>
    obtain ⟨key, value⟩ := pair
    by_cases hkey : key = name
    · simp [erase, keys, hkey]
    · simpa [erase, keys, hkey] using ih

/-- Erasing a name leaves the others alone. -/
theorem get?_erase_of_ne (table : Table α) {name other : String} (h : name ≠ other) :
    get? (table.erase name) other = get? table other := by
  induction table with
  | nil => rfl
  | cons pair rest ih =>
    obtain ⟨key, value⟩ := pair
    by_cases hkey : key = name
    · simp [erase, get?, hkey, h]
    · simp only [erase, hkey, if_false, get?, ih]

/-- A name that was there once and is erased has no value. -/
theorem get?_erase_self {table : Table α} (h : (keys table).Nodup) (name : String) :
    get? (table.erase name) name = none := by
  rw [← Option.not_isSome_iff_eq_none, get?_isSome_iff, keys_erase]
  exact h.not_mem_erase

/-- To erase a name that is not there changes nothing. -/
theorem erase_of_get?_eq_none {table : Table α} {name : String} (h : get? table name = none) :
    table.erase name = table := by
  induction table with
  | nil => rfl
  | cons pair rest ih =>
    obtain ⟨key, value⟩ := pair
    by_cases hkey : key = name
    · simp [get?, hkey] at h
    · simp only [get?, hkey, if_false] at h
      simp only [erase, hkey, if_false, ih h]

end Table

end SmallLisp
