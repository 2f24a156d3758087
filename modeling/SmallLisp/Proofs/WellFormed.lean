import SmallLisp.Proofs.RoundTrip
/-!
# Well-formed values

What is true of every value that turns up in a run, however deep it is inside another one: keywords
have their colon, no hash has a key twice, and closures are *known*. Such values are regular. What a
program text is read as is regular in the first place, and **primitives make regular values from regular
ones** (`yields_compute`), so that closures come from nowhere else than from evaluation.

What is to be known of a closure is left open. A value is well-formed if each of its closures has a body
and was made in a scope that is there. What *is there* grows, so being well-formed is relative to how
many scopes there are and stays true when there are more (`Value.WellFormed.mono`).
-/

namespace SmallLisp

/-! ### Tables -/

namespace Table

variable {α : Type} {good : α → Prop} {table : Table α}

/-- Whether every name is there only once, and all values are good. -/
structure WellFormed (good : α → Prop) (table : Table α) : Prop where
  nodup : table.keys.Nodup
  values : ∀ pair ∈ table, good pair.2

theorem WellFormed.nil : WellFormed good [] where
  nodup := List.nodup_nil
  values := by simp

/-- Setting a name replaces a value or adds one, and keeps the names distinct. -/
theorem WellFormed.set (h : WellFormed good table) (name : String) {value : α} (hvalue : good value) :
    WellFormed good (table.set name value) where
  nodup := by
    rw [keys_set]
    split
    · exact h.nodup
    · next hnew =>
      have hne : ∀ key ∈ table.keys, key ≠ name := by
        rintro key hkey rfl
        exact hnew hkey
      simpa [List.nodup_append, h.nodup] using hne
  values := by
    intro pair hpair
    rcases mem_of_mem_set hpair with hold | rfl
    · exact h.values pair hold
    · exact hvalue

theorem WellFormed.setAll (h : WellFormed good table) {pairs : List (String × α)}
    (hpairs : ∀ pair ∈ pairs, good pair.2) : WellFormed good (table.setAll pairs) := by
  induction pairs generalizing table with
  | nil => exact h
  | cons pair pairs ih =>
    obtain ⟨hpair, hpairs⟩ := List.forall_mem_cons.mp hpairs
    exact ih (h.set pair.1 hpair) hpairs

theorem WellFormed.ofPairs {pairs : List (String × α)} (h : ∀ pair ∈ pairs, good pair.2) :
    WellFormed good (ofPairs pairs) :=
  WellFormed.nil.setAll h

theorem WellFormed.erase (h : WellFormed good table) (name : String) :
    WellFormed good (table.erase name) where
  nodup := keys_erase table name ▸ h.nodup.erase name
  values pair hpair := h.values pair (mem_of_mem_erase hpair)

/-- Every value of a well-formed table is good. -/
theorem WellFormed.get? (h : WellFormed good table) {name : String} {value : α}
    (hvalue : table.get? name = some value) : good value :=
  h.values _ (mem_of_get?_eq_some hvalue)

theorem WellFormed.imp {good' : α → Prop} (h : WellFormed good table)
    (himp : ∀ value, good value → good' value) : WellFormed good' table :=
  ⟨h.nodup, fun pair hpair => himp _ (h.values pair hpair)⟩

/-- Whether a change does nothing but set variables, to good values. Which ones, and what to, may depend
on the variables. -/
def Sets (good : α → Prop) (change : Table α → Table α) : Prop :=
  ∀ table, ∃ pairs, (∀ pair ∈ pairs, good pair.2) ∧ change table = table.setAll pairs

theorem Sets.setAll {pairs : List (String × α)} (h : ∀ pair ∈ pairs, good pair.2) :
    Sets good fun table => table.setAll pairs :=
  fun _ => ⟨pairs, h, rfl⟩

theorem Sets.imp {good' : α → Prop} {change : Table α → Table α} (h : Sets good change)
    (himp : ∀ value, good value → good' value) : Sets good' change := by
  intro table
  obtain ⟨pairs, hpairs, hchange⟩ := h table
  exact ⟨pairs, fun pair hpair => himp _ (hpairs pair hpair), hchange⟩

/-- A change that only sets good values keeps the table well formed. -/
theorem Sets.wellFormed {change : Table α → Table α} (h : Sets good change)
    (htable : WellFormed good table) : WellFormed good (change table) := by
  obtain ⟨pairs, hpairs, hchange⟩ := h table
  rw [hchange]
  exact htable.setAll hpairs

end Table

/-! ### Values -/

/-- Whether a value is regular, given which closures are known. -/
inductive Value.Regular (known : Closure Value → Prop) : Value → Prop where
  | number (n : Number) : Regular known (.number n)
  | string (s : String) : Regular known (.string s)
  | boolean (b : Bool) : Regular known (.boolean b)
  | symbol (s : String) : Regular known (.symbol s)
  | keyword {s : String} : Value.hasColon s = true → Regular known (.keyword s)
  | null : Regular known .null
  | error (message : String) : Regular known (.error message)
  | list {items : List Value} : (∀ v ∈ items, Regular known v) → Regular known (.list items)
  | hash {entries : Table Value} : entries.keys.Nodup → (∀ pair ∈ entries, Regular known pair.2) →
      Regular known (.hash entries)
  | native (f : Native) : Regular known (.function (.native f))
  | closure {f : Closure Value} : known f → (∀ form ∈ f.body, Regular known form) →
      Regular known (.function (.closure f))

namespace Value

variable {known known' : Closure Value → Prop}

attribute [simp] Regular.number Regular.string Regular.boolean Regular.symbol Regular.null
  Regular.error Regular.native

@[simp] theorem regular_keyword {s : String} : (keyword s).Regular known ↔ hasColon s = true := by
  refine ⟨?_, .keyword⟩
  rintro ⟨⟩
  assumption

@[simp] theorem regular_list {items : List Value} :
    (list items).Regular known ↔ ∀ v ∈ items, v.Regular known := by
  refine ⟨?_, .list⟩
  rintro ⟨⟩
  assumption

/-- A hash is regular if its table is: distinct keys, regular values. -/
@[simp] theorem regular_hash {entries : Table Value} :
    (hash entries).Regular known ↔ entries.WellFormed (·.Regular known) := by
  constructor
  · rintro ⟨⟩
    constructor <;> assumption
  · intro h
    exact .hash h.nodup h.values

/-- A closure is regular if it is known and the forms of its body are regular. -/
@[simp] theorem regular_closure {f : Closure Value} :
    (function (.closure f)).Regular known ↔ known f ∧ ∀ form ∈ f.body, form.Regular known := by
  constructor
  · rintro ⟨⟩
    constructor <;> assumption
  · rintro ⟨hknown, hforms⟩
    exact .closure hknown hforms

/-- Regularity depends on the known closures monotonically, by induction on the value. -/
theorem Regular.imp {v : Value} (h : v.Regular known) (himp : ∀ f, known f → known' f) :
    v.Regular known' := by
  induction h with
  | keyword hcolon => exact .keyword hcolon
  | list _ ih => exact .list ih
  | hash hnodup _ ih => exact .hash hnodup ih
  | closure hknown _ ih => exact .closure (himp _ hknown) ih
  | _ => simp

/-- What a text is read as has no closures in it. -/
theorem IsDatum.regular {v : Value} (h : v.IsDatum) : v.Regular known := by
  induction h with
  | keyword hs =>
    obtain ⟨name, hname, -⟩ := hs
    simp [hasColon, hname]
  | list _ ih => exact .list ih
  | _ => simp

end Value

/-- Whether a value is well-formed where there are so many scopes. -/
inductive Value.WellFormed (size : Nat) : Value → Prop where
  | number (n : Number) : WellFormed size (.number n)
  | string (s : String) : WellFormed size (.string s)
  | boolean (b : Bool) : WellFormed size (.boolean b)
  | symbol (s : String) : WellFormed size (.symbol s)
  | keyword {s : String} : Value.hasColon s = true → WellFormed size (.keyword s)
  | null : WellFormed size .null
  | error (message : String) : WellFormed size (.error message)
  | list {items : List Value} : (∀ v ∈ items, WellFormed size v) → WellFormed size (.list items)
  | hash {entries : Table Value} : entries.keys.Nodup → (∀ pair ∈ entries, WellFormed size pair.2) →
      WellFormed size (.hash entries)
  | native (f : Native) : WellFormed size (.function (.native f))
  | closure {f : Closure Value} : f.body ≠ [] → f.scope < size →
      (∀ form ∈ f.body, WellFormed size form) → WellFormed size (.function (.closure f))

namespace Value

variable {size : Nat}

attribute [simp] WellFormed.number WellFormed.string WellFormed.boolean WellFormed.symbol
  WellFormed.null WellFormed.error WellFormed.native

/-- Well-formed values are regular ones whose closures have a body and a scope. -/
theorem wellFormed_iff_regular {v : Value} :
    v.WellFormed size ↔ v.Regular fun f => f.body ≠ [] ∧ f.scope < size := by
  constructor
  · intro h
    induction h with
    | keyword hcolon => exact .keyword hcolon
    | list _ ih => exact .list ih
    | hash hnodup _ ih => exact .hash hnodup ih
    | closure hbody hscope _ ih => exact .closure ⟨hbody, hscope⟩ ih
    | _ => simp
  · intro h
    induction h with
    | keyword hcolon => exact .keyword hcolon
    | list _ ih => exact .list ih
    | hash hnodup _ ih => exact .hash hnodup ih
    | closure hknown _ ih => exact .closure hknown.1 hknown.2 ih
    | _ => simp

/-- A value stays well-formed when there are more scopes. -/
theorem WellFormed.mono {v : Value} (h : v.WellFormed size) {size' : Nat} (hsize : size ≤ size') :
    v.WellFormed size' := by
  rw [wellFormed_iff_regular] at h ⊢
  exact h.imp fun _ hknown => ⟨hknown.1, Nat.lt_of_lt_of_le hknown.2 hsize⟩

/-- Data hold no closures, so they are well formed whatever scopes there are. -/
theorem IsDatum.wellFormed {v : Value} (h : v.IsDatum) : v.WellFormed size :=
  wellFormed_iff_regular.mpr h.regular

end Value

/-! ### What natives compute -/

/-- Whether a result is good, if there is one. -/
def Yields {α : Type} (good : α → Prop) : Except Fault α → Prop
  | .ok a => good a
  | .error _ => True

section

variable {α β : Type} {good : α → Prop} {good' : β → Prop}

@[simp] theorem yields_ok {a : α} : Yields good (.ok a) ↔ good a := Iff.rfl

@[simp] theorem yields_pure {a : α} : Yields good (pure a) ↔ good a := Iff.rfl

@[simp] theorem yields_error (e : Fault) : Yields good (.error e) := trivial

@[simp] theorem yields_throw (e : Fault) : Yields good (throw e) := trivial

/-- A good result is handed on, and a fault asks for nothing. -/
theorem Yields.bind {x : Except Fault α} {f : α → Except Fault β} (hx : Yields good x)
    (hf : ∀ a, good a → Yields good' (f a)) : Yields good' (x >>= f) := by
  cases x with
  | ok a => exact hf a hx
  | error e => exact trivial

/-- What comes after may not depend on what was there before. -/
@[simp] theorem yields_bind {x : Except Fault α} {f : α → Except Fault β}
    (hf : ∀ a, Yields good' (f a)) : Yields good' (x >>= f) := by
  cases x with
  | ok a => exact hf a
  | error e => exact trivial

@[simp] theorem yields_map {x : Except Fault α} {f : α → β} (hf : ∀ a, good' (f a)) :
    Yields good' (f <$> x) := by
  cases x with
  | ok a => exact hf a
  | error e => exact trivial

theorem yields_mapM {f : α → Except Fault β} {items : List α}
    (hf : ∀ a ∈ items, Yields good' (f a)) : Yields (fun bs => ∀ b ∈ bs, good' b) (items.mapM f) := by
  induction items with
  | nil => simp
  | cons a items ih =>
    rw [List.forall_mem_cons] at hf
    rw [List.mapM_cons]
    refine hf.1.bind fun b hb => (ih hf.2).bind fun bs hbs => ?_
    exact yields_pure.mpr (List.forall_mem_cons.mpr ⟨hb, hbs⟩)

end

namespace Library

variable {known : Closure Value → Prop} {args : List Value}

theorem yields_one (h : ∀ v ∈ args, v.Regular known) : Yields (·.Regular known) (one args) := by
  unfold one
  split <;> simp_all

theorem yields_two (h : ∀ v ∈ args, v.Regular known) :
    Yields (fun pair => pair.1.Regular known ∧ pair.2.Regular known) (two args) := by
  unfold two
  split <;> simp_all

theorem yields_three (h : ∀ v ∈ args, v.Regular known) :
    Yields (fun triple => triple.1.Regular known ∧ triple.2.1.Regular known ∧
      triple.2.2.Regular known) (three args) := by
  unfold three
  split <;> simp_all

theorem yields_asList {v : Value} (h : v.Regular known) :
    Yields (fun items => ∀ item ∈ items, item.Regular known) (convert v.asList) := by
  cases v with
  | list items => exact Value.regular_list.mp h
  | _ => exact trivial

theorem yields_asHash {v : Value} (h : v.Regular known) :
    Yields (Table.WellFormed (·.Regular known)) (convert v.asHash) := by
  cases v with
  | hash entries => exact Value.regular_hash.mp h
  | _ => exact trivial

/-- The values of a hash literal are among its items. -/
theorem regular_of_entries? {items : List Value} (h : ∀ v ∈ items, v.Regular known)
    {entries : List (String × Value)} (hentries : entries? items = some entries) :
    ∀ pair ∈ entries, pair.2.Regular known := by
  induction items using entries?.induct generalizing entries with
  | case1 =>
    cases hentries
    simp
  | case2 key => cases hentries
  | case3 key v rest ih =>
    obtain ⟨more, hmore, rfl⟩ := Option.map_eq_some_iff.mp hentries
    have hrest := ih (fun v hv => h v (by simp [hv])) hmore
    rw [List.forall_mem_cons]
    exact ⟨h v (by simp), hrest⟩

theorem yields_hashOfItems {items : List Value} (h : ∀ v ∈ items, v.Regular known) :
    Yields (·.Regular known) (hashOfItems items) := by
  unfold hashOfItems
  split
  · next entries hentries =>
    exact Value.regular_hash.mpr (.ofPairs (regular_of_entries? h hentries))
  · exact trivial

theorem yields_hashGet (h : ∀ v ∈ args, v.Regular known) :
    Yields (·.Regular known) (hashGet args) := by
  refine (yields_two h).bind fun pair hpair => (yields_asHash hpair.1).bind fun entries hentries => ?_
  cases hvalue : entries.get? pair.2.hashKey with
  | none => simp
  | some v => simpa [hvalue] using hentries.get? hvalue

theorem yields_hashSet (h : ∀ v ∈ args, v.Regular known) :
    Yields (·.Regular known) (hashSet args) := by
  refine (yields_three h).bind fun triple htriple => (yields_asHash htriple.1).bind ?_
  intro entries hentries
  exact Value.regular_hash.mpr (hentries.set _ htriple.2.2)

/-- A listed key is a string or a keyword with its colon. -/
theorem regular_ofHashKey (key : String) : (ofHashKey key).Regular known := by
  unfold ofHashKey
  split <;> simp_all

theorem yields_listAt (h : ∀ v ∈ args, v.Regular known) :
    Yields (·.Regular known) (listAt args) := by
  refine (yields_two h).bind fun pair hpair => (yields_asList hpair.1).bind fun items hitems => ?_
  apply yields_bind
  intro place
  split
  · next item hitem =>
    obtain ⟨i, -, hget⟩ := Option.bind_eq_some_iff.mp hitem
    exact hitems item (List.mem_of_getElem? hget)
  · exact trivial

theorem yields_listConcat (h : ∀ v ∈ args, v.Regular known) :
    Yields (·.Regular known) (listConcat args) := by
  refine (yields_mapM fun v hv => yields_asList (h v hv)).bind fun parts hparts => ?_
  simpa using fun v part hpart => hparts part hpart v

theorem yields_listPush (h : ∀ v ∈ args, v.Regular known) :
    Yields (·.Regular known) (listPush args) := by
  apply yields_bind
  intro _
  split
  · next v new =>
    rw [List.forall_mem_cons] at h
    refine (yields_asList h.1).bind fun items hitems => ?_
    exact Value.regular_list.mpr (List.forall_mem_append.mpr ⟨hitems, h.2⟩)
  · exact trivial

/-! Numbers, booleans and strings are regular whatever the arguments are, but some natives have to
be opened to see that they make nothing else. -/

theorem yields_subtract (args : List Value) : Yields (·.Regular known) (subtract args) := by
  refine yields_bind fun _ => yields_bind fun ns => ?_
  split <;> simp

theorem yields_divide (args : List Value) : Yields (·.Regular known) (divide args) := by
  refine yields_bind fun ns => ?_
  split <;> simp

theorem yields_remainder (args : List Value) : Yields (·.Regular known) (remainder args) := by
  refine yields_bind fun pair => yields_bind fun a => yields_bind fun b => ?_
  cases b.isZero <;> simp

theorem yields_listSum (args : List Value) : Yields (·.Regular known) (listSum args) := by
  refine yields_bind fun v => yields_bind fun items => ?_
  simp

theorem yields_stringSplit (args : List Value) : Yields (·.Regular known) (stringSplit args) := by
  refine yields_bind fun pair => ?_
  split <;> simp

theorem yields_stringReplace (args : List Value) :
    Yields (·.Regular known) (stringReplace args) := by
  refine yields_bind fun triple => yields_bind fun s => ?_
  simp

theorem yields_sortNumbers (items : List Value) :
    Yields (·.Regular known) (sortNumbers items) := by
  simp [sortNumbers]

end Library

open Library in
/-- **What a primitive computes from regular values is regular.** -/
theorem yields_compute (op : Primitive) {known : Closure Value → Prop} {args : List Value}
    (h : ∀ v ∈ args, v.Regular known) : Yields (·.Regular known) (op.compute args) := by
  cases op with
  | subtract => exact yields_subtract args
  | divide => exact yields_divide args
  | remainder => exact yields_remainder args
  | list | listCreate => simpa [Primitive.compute] using h
  | makeHash =>
    refine (yields_one h).bind fun v hv => (yields_asList hv).bind fun items hitems => ?_
    exact yields_hashOfItems hitems
  | hashCreate => exact yields_hashOfItems h
  | hashGet | hashLookup => exact yields_hashGet h
  | hashSet => exact yields_hashSet h
  | hashKeys =>
    refine yields_bind fun v => yields_bind fun entries => ?_
    simpa using fun key _ => regular_ofHashKey key
  | listHead =>
    refine (yields_one h).bind fun v hv => (yields_asList hv).bind fun items hitems => ?_
    cases items with
    | nil => simp
    | cons item items => exact hitems item List.mem_cons_self
  | listTail =>
    refine (yields_one h).bind fun v hv => (yields_asList hv).bind fun items hitems => ?_
    exact Value.regular_list.mpr fun item hitem => hitems item (List.mem_of_mem_tail hitem)
  | listAt => exact yields_listAt h
  | listConcat => exact yields_listConcat h
  | listPush => exact yields_listPush h
  | stringSplit => exact yields_stringSplit args
  | listSum => exact yields_listSum args
  | stringReplace => exact yields_stringReplace args
  | add | multiply | equal | less | greater | lessEqual | greaterEqual =>
    simp [Primitive.compute, Library.add, Library.multiply, Library.equal, Library.compare]
  | listCount | stringTrim => simp [Primitive.compute, listCount, stringTrim]
  | exit | negate | isNull | typeOf | isError | makeError | stringJoin => simp [Primitive.compute]

end SmallLisp
