import Mathlib.Data.List.Forall2
import Mathlib.Data.List.Perm.Subperm
import SmallLisp.Proofs.WellFormed
/-!
# Equality is an equivalence

Equality goes into lists and hashes, and it compares a hash from one side only: are there as many
entries, and is each of them in the other one? Where no hash has a key twice (`Value.DistinctKeys`),
that is to be equal as maps (`Value.equal_hash`), which can be turned around and handed on. So
**equality is reflexive, symmetric and transitive** (`Value.equal_refl`, `equal_symm`, `equal_trans`),
by induction on how a value is made of its parts.

Natives that compare look at neighbours only. For a relation that is handed on along the list this
is to look at every earlier and every later item (`Value.chained_iff_pairwise`).
-/

namespace SmallLisp

/-! ### Numbers and functions -/

namespace Number

variable {a b c : Number}

theorem equal_refl (a : Number) : a.equal a = true := by
  simp [equal]

theorem equal_comm (a b : Number) : a.equal b = b.equal a := by
  simp only [equal, Bool.or_comm, Bool.and_comm, BEq.comm]

theorem equal_trans (h : a.equal b = true) (h' : b.equal c = true) : a.equal c = true := by
  grind [equal]

/-- Transitivity on the numbers' order; a NaN is below nothing, so it never takes part. -/
theorem lt_trans (h : a.lt b = true) (h' : b.lt c = true) : a.lt c = true := by
  grind [lt]

theorem le_trans (h : a.le b = true) (h' : b.le c = true) : a.le c = true := by
  grind [le]

end Number

namespace Function

variable {α : Type} {f g k : Function α}

theorem same_refl (f : Function α) : f.same f = true := by
  cases f <;> simp [same]

theorem same_comm (f g : Function α) : f.same g = g.same f := by
  cases f <;> cases g <;> simp only [same, eq_comm, BEq.comm]

theorem same_trans (h : f.same g = true) (h' : g.same k = true) : f.same k = true := by
  cases f <;> cases g <;> cases k <;> simp_all [same]

end Function

/-! ### Values as maps of maps -/

/-- Whether no hash in a value has a key twice, however deep it is inside. A function may be any: it is
not compared by what it is made of. -/
inductive Value.DistinctKeys : Value → Prop where
  | number (n : Number) : DistinctKeys (.number n)
  | string (s : String) : DistinctKeys (.string s)
  | boolean (b : Bool) : DistinctKeys (.boolean b)
  | symbol (s : String) : DistinctKeys (.symbol s)
  | keyword (s : String) : DistinctKeys (.keyword s)
  | null : DistinctKeys .null
  | error (message : String) : DistinctKeys (.error message)
  | list {items : List Value} : (∀ v ∈ items, DistinctKeys v) → DistinctKeys (.list items)
  | hash {entries : Table Value} : entries.keys.Nodup → (∀ pair ∈ entries, DistinctKeys pair.2) →
      DistinctKeys (.hash entries)
  | function (f : Function Value) : DistinctKeys (.function f)

namespace Value

/-- Every value that turns up in a run is such a value. -/
theorem WellFormed.distinctKeys {size : Nat} {v : Value} (h : v.WellFormed size) :
    v.DistinctKeys := by
  induction h with
  | list _ ih => exact .list ih
  | hash hnodup _ ih => exact .hash hnodup ih
  | _ => constructor

/-- Lists are compared place by place and must have one length. -/
theorem equalItems_iff {as bs : List Value} :
    equalItems as bs = true ↔ List.Forall₂ (fun a b => a.equal b = true) as bs := by
  induction as generalizing bs with
  | nil => cases bs <;> simp [equalItems]
  | cons a as ih => cases bs <;> simp [equalItems, ih]

/-- One table is inside another when each of its keys is there with an equal value, in any order. -/
theorem equalEntries_iff {as : List (String × Value)} {bs : Table Value} :
    equalEntries as bs = true ↔
      ∀ pair ∈ as, ∃ b, bs.get? pair.1 = some b ∧ pair.2.equal b = true := by
  induction as with
  | nil => simp [equalEntries]
  | cons pair as ih =>
    obtain ⟨key, a⟩ := pair
    simp only [equalEntries, Bool.and_eq_true, ih, List.forall_mem_cons]
    cases bs.get? key <;> simp

theorem equal_list {as bs : List Value} :
    (list as).equal (list bs) = true ↔ List.Forall₂ (fun a b => a.equal b = true) as bs := by
  rw [equal, equalItems_iff]

/-- **Hashes are equal as maps**: every key is in both of them or in none, with equal values. The
comparison only looks whether each entry of the first one is in the second; that there is none left
over follows from there being as many. -/
theorem equal_hash {as bs : Table Value} (has : as.keys.Nodup) (hbs : bs.keys.Nodup) :
    (hash as).equal (hash bs) = true ↔
      ∀ key, Option.Rel (fun a b => a.equal b = true) (as.get? key) (bs.get? key) := by
  have hentries : (∀ pair ∈ as, ∃ b, bs.get? pair.1 = some b ∧ pair.2.equal b = true) ↔
      ∀ key a, as.get? key = some a → ∃ b, bs.get? key = some b ∧ a.equal b = true := by
    simp only [Table.get?_eq_some_iff has, Prod.forall]
  rw [equal, Bool.and_eq_true, beq_iff_eq, equalEntries_iff, hentries]
  constructor
  · rintro ⟨hlength, hfound⟩ key
    have hsubset : as.keys ⊆ bs.keys := by
      intro key hkey
      obtain ⟨a, ha⟩ := Option.isSome_iff_exists.mp ((Table.get?_isSome_iff as key).mpr hkey)
      obtain ⟨b, hb, -⟩ := hfound key a ha
      exact (Table.get?_isSome_iff bs key).mp (by rw [hb]; rfl)
    -- as many distinct keys, all of them there: so the same keys
    have hperm : as.keys.Perm bs.keys :=
      (has.subperm hsubset).perm_of_length_le (by simp [Table.keys, hlength])
    cases ha : as.get? key with
    | some a =>
      obtain ⟨b, hb, hequal⟩ := hfound key a ha
      rw [hb]
      exact .some hequal
    | none =>
      have hnot : bs.get? key = none := by
        rw [← Option.not_isSome_iff_eq_none, Table.get?_isSome_iff, ← hperm.mem_iff,
          ← Table.get?_isSome_iff, ha]
        exact Bool.false_ne_true
      rw [hnot]
      exact .none
  · intro hrel
    have hmem : ∀ key, key ∈ as.keys ↔ key ∈ bs.keys := by
      intro key
      rw [← Table.get?_isSome_iff, ← Table.get?_isSome_iff]
      have := hrel key
      generalize as.get? key = a, bs.get? key = b at this
      cases this <;> rfl
    have hperm : as.keys.Perm bs.keys := (List.perm_ext_iff_of_nodup has hbs).mpr hmem
    refine ⟨by simpa [Table.keys] using hperm.length_eq, ?_⟩
    intro key a ha
    have := hrel key
    rw [ha] at this
    generalize hb : bs.get? key = b at this
    cases this with
    | some hequal => exact ⟨_, rfl, hequal⟩

/-- A hash is looked up in itself by key, so equality to itself needs the keys to be distinct. -/
theorem equal_refl {v : Value} (h : v.DistinctKeys) : v.equal v = true := by
  induction h with
  | number n => exact n.equal_refl
  | function f => exact f.same_refl
  | list _ ih => exact equal_list.mpr (List.forall₂_same.mpr ih)
  | @hash entries hnodup _ ih =>
    rw [equal_hash hnodup hnodup]
    intro key
    cases hvalue : entries.get? key with
    | none => exact .none
    | some v => exact .some (ih _ (Table.mem_of_get?_eq_some hvalue))
  | _ => simp [equal]

/-! ### What equal values have in common -/

/-- Only a number equals a number. -/
theorem exists_number_of_equal {n : Number} {b : Value} (h : (number n).equal b = true) :
    ∃ k, b = number k ∧ n.equal k = true := by
  cases b with
  | number k => exact ⟨k, rfl, h⟩
  | _ => cases h

theorem exists_function_of_equal {f : Function Value} {b : Value}
    (h : (function f).equal b = true) : ∃ g, b = function g ∧ f.same g = true := by
  cases b with
  | function g => exact ⟨g, rfl, h⟩
  | _ => cases h

/-- What is equal to a list is a list of equal items. -/
theorem exists_list_of_equal {as : List Value} {b : Value} (hb : b.DistinctKeys)
    (h : (list as).equal b = true) :
    ∃ bs, b = list bs ∧ (∀ v ∈ bs, v.DistinctKeys) ∧
      List.Forall₂ (fun a b => a.equal b = true) as bs := by
  cases hb with
  | @list bs hbs => exact ⟨bs, rfl, hbs, equal_list.mp h⟩
  | _ => cases h

/-- What is equal to a hash is a hash that is equal to it as a map. -/
theorem exists_hash_of_equal {as : Table Value} (has : as.keys.Nodup) {b : Value}
    (hb : b.DistinctKeys) (h : (hash as).equal b = true) :
    ∃ bs : Table Value, b = hash bs ∧ bs.keys.Nodup ∧
      (∀ key v, bs.get? key = some v → v.DistinctKeys) ∧
      ∀ key, Option.Rel (fun a b => a.equal b = true) (as.get? key) (bs.get? key) := by
  cases hb with
  | @hash bs hnodup hbs =>
    refine ⟨bs, rfl, hnodup, ?_, (equal_hash has hnodup).mp h⟩
    intro key v hv
    exact hbs (key, v) (Table.mem_of_get?_eq_some hv)
  | _ => cases h

/-- Values of all other kinds are equal only to themselves. -/
theorem eq_of_equal {a b : Value} (hkind : a.kind ∉ [.number, .function, .list, .hash])
    (h : a.equal b = true) : b = a := by
  cases a <;> cases b <;> simp_all [equal, kind]

/-! ### Symmetry and transitivity -/

/-- The entries of the left are looked up on the right and the lengths compared; with distinct keys
on both sides that can be turned round. -/
theorem equal_symm {a b : Value} (ha : a.DistinctKeys) (hb : b.DistinctKeys)
    (h : a.equal b = true) : b.equal a = true := by
  induction ha generalizing b with
  | number n =>
    obtain ⟨k, rfl, hk⟩ := exists_number_of_equal h
    rwa [equal, Number.equal_comm]
  | function f =>
    obtain ⟨g, rfl, hg⟩ := exists_function_of_equal h
    rwa [equal, Function.same_comm]
  | list has ih =>
    obtain ⟨bs, rfl, hbs, hitems⟩ := exists_list_of_equal hb h
    clear h hb has
    rw [equal_list]
    induction hitems with
    | nil => exact .nil
    | cons hab _ ihRest =>
      rw [List.forall_mem_cons] at ih hbs
      exact .cons (ih.1 hbs.1 hab) (ihRest ih.2 hbs.2)
  | @hash as hnodup _ ih =>
    obtain ⟨bs, rfl, hbsNodup, hbs, hentries⟩ := exists_hash_of_equal hnodup hb h
    rw [equal_hash hbsNodup hnodup]
    intro key
    have hkey := hentries key
    -- a key is in both tables or in neither
    cases ha : as.get? key <;> cases hb : bs.get? key <;> rw [ha, hb] at hkey <;> cases hkey
    · exact .none
    · next hab => exact .some (ih _ (Table.mem_of_get?_eq_some ha) (hbs key _ hb) hab)
  | string | boolean | symbol | keyword | null | error =>
    obtain rfl := eq_of_equal (by simp [kind]) h
    exact h

/-- Equality of values is transitive, through the keys the tables share. -/
theorem equal_trans {a b c : Value} (ha : a.DistinctKeys) (hb : b.DistinctKeys)
    (hc : c.DistinctKeys) (h : a.equal b = true) (h' : b.equal c = true) : a.equal c = true := by
  induction ha generalizing b c with
  | number n =>
    obtain ⟨k, rfl, hk⟩ := exists_number_of_equal h
    obtain ⟨l, rfl, hl⟩ := exists_number_of_equal h'
    exact Number.equal_trans hk hl
  | function f =>
    obtain ⟨g, rfl, hg⟩ := exists_function_of_equal h
    obtain ⟨k, rfl, hk⟩ := exists_function_of_equal h'
    exact Function.same_trans hg hk
  | list has ih =>
    obtain ⟨bs, rfl, hbs, hitems⟩ := exists_list_of_equal hb h
    obtain ⟨cs, rfl, hcs, hitems'⟩ := exists_list_of_equal hc h'
    clear h h' hb hc has
    rw [equal_list]
    induction hitems generalizing cs with
    | nil => exact hitems'
    | cons hab _ ihRest =>
      cases hitems' with
      | cons hbc hrest =>
        rw [List.forall_mem_cons] at ih hbs hcs
        exact .cons (ih.1 hbs.1 hcs.1 hab hbc) (ihRest ih.2 hbs.2 _ hcs.2 hrest)
  | @hash as hnodup _ ih =>
    obtain ⟨bs, rfl, hbsNodup, hbs, hentries⟩ := exists_hash_of_equal hnodup hb h
    obtain ⟨cs, rfl, hcsNodup, hcs, hentries'⟩ := exists_hash_of_equal hbsNodup hc h'
    -- key by key: what the middle table says about a key settles the other two
    rw [equal_hash hnodup hcsNodup]
    intro key
    have hkey := hentries key
    have hkey' := hentries' key
    cases hb : bs.get? key with
    | none =>
      rw [hb] at hkey hkey'
      cases ha : as.get? key <;> rw [ha] at hkey <;> cases hkey
      exact hkey'
    | some b =>
      rw [hb] at hkey hkey'
      cases ha : as.get? key <;> rw [ha] at hkey <;> cases hkey
      cases hc : cs.get? key <;> rw [hc] at hkey' <;> cases hkey'
      next hab _ hbc =>
      exact .some (ih _ (Table.mem_of_get?_eq_some ha) (hbs key _ hb) (hcs key _ hc) hab hbc)
  | string | boolean | symbol | keyword | null | error =>
    obtain rfl := eq_of_equal (by simp [kind]) h
    exact h'

/-! ### Chains -/

/-- Whether a relation holds between neighbours: the same as between every earlier and every later
item, if it can be handed on along the list. -/
theorem chained_iff_pairwise {α : Type} {holds : α → α → Bool} {items : List α}
    (htrans : ∀ a ∈ items, ∀ b ∈ items, ∀ c ∈ items, holds a b = true → holds b c = true →
      holds a c = true) :
    chained holds items = true ↔ items.Pairwise fun a b => holds a b = true := by
  fun_induction chained holds items with
  | case1 a b rest ih =>
    have hrest := ih fun a ha b hb c hc => htrans a (by simp_all) b (by simp_all) c (by simp_all)
    rw [Bool.and_eq_true, hrest, List.pairwise_cons (a := a)]
    refine ⟨?_, fun h => ⟨h.1 b List.mem_cons_self, h.2⟩⟩
    rintro ⟨hab, hpairwise⟩
    refine ⟨?_, hpairwise⟩
    intro c hc
    rcases List.mem_cons.mp hc with rfl | hc
    · exact hab
    · have hbc := (List.pairwise_cons.mp hpairwise).1 c hc
      exact htrans a (by simp) b (by simp) c (by simp [hc]) hab hbc
  | case2 items hitems =>
    match items, hitems with
    | [], _ => simp
    | [a], _ => simp
    | a :: b :: rest, hitems => exact absurd rfl (hitems a b rest)

end Value

/-! ### Natives that compare -/

namespace Library

theorem numbers_map_number (ns : List Number) : numbers (ns.map .number) = .ok ns := by
  induction ns with
  | nil => rfl
  | cons n ns ih =>
    simp only [numbers] at ih ⊢
    rw [List.map_cons, List.mapM_cons, ih]
    rfl

/-- A relation that can be handed on is tested between every earlier and every later number. -/
theorem compare_map_number (holds : Number → Number → Bool)
    (htrans : ∀ {a b c}, holds a b = true → holds b c = true → holds a c = true)
    (ns : List Number) :
    compare holds (ns.map .number) =
      .ok (.boolean (decide (ns.Pairwise fun a b => holds a b = true))) := by
  have hchain : Value.chained holds ns = true ↔ ns.Pairwise fun a b => holds a b = true :=
    Value.chained_iff_pairwise fun a _ b _ c _ => htrans
  have hcompare : compare holds (ns.map .number) = .ok (.boolean (Value.chained holds ns)) := by
    rw [compare, numbers_map_number]
    rfl
  rw [hcompare, Bool.eq_iff_iff.mpr (hchain.trans decide_eq_true_iff.symm)]

/-- Neighbours are equal exactly if any two arguments are. -/
theorem equal_eq {args : List Value} (h : ∀ v ∈ args, v.DistinctKeys) :
    equal args =
      .ok (.boolean (decide (∀ a ∈ args, ∀ b ∈ args, a.equal b = true))) := by
  have hchain : Value.chained Value.equal args = true ↔
      args.Pairwise fun a b => a.equal b = true :=
    Value.chained_iff_pairwise fun a ha b hb c hc => Value.equal_trans (h a ha) (h b hb) (h c hc)
  have hall : Value.chained Value.equal args = true ↔
      ∀ a ∈ args, ∀ b ∈ args, a.equal b = true := by
    rw [hchain]
    refine ⟨?_, List.pairwise_of_forall_mem_list⟩
    intro hpairwise
    have hflipped : args.Pairwise (flip fun a b => a.equal b = true) :=
      hpairwise.imp_of_mem fun ha hb hab => Value.equal_symm (h _ ha) (h _ hb) hab
    exact hpairwise.forall_of_forall_of_flip (fun v hv => Value.equal_refl (h v hv)) hflipped
  rw [equal, Bool.eq_iff_iff.mpr (hall.trans decide_eq_true_iff.symm)]

end Library

open Value in
/-- **Equality of values is an equivalence**, and so chains of comparisons mean what they say. Lists
are equal item by item; hashes as maps, whatever the order of their entries, and those inside them
likewise; closures if they are one and the same. Where no hash has a key twice, as in every value that
turns up in a run, equality is reflexive, symmetric and transitive. Hence `=` holds of arguments
exactly if any two of them are equal, and `<`, `>`, `<=` and `>=` hold of numbers exactly if they hold
between every earlier and every later one. -/
theorem equality_is_equivalence :
    (∀ (size : Nat) (v : Value), v.WellFormed size → v.DistinctKeys) ∧
    (∀ as bs : List Value,
      (list as).equal (list bs) = true ↔ List.Forall₂ (fun a b => a.equal b = true) as bs) ∧
    (∀ as bs : Table Value, as.keys.Nodup → bs.keys.Nodup →
      ((hash as).equal (hash bs) = true ↔
        ∀ key, Option.Rel (fun a b => a.equal b = true) (as.get? key) (bs.get? key))) ∧
    (∀ f g : Closure Value,
      (function (.closure f)).equal (function (.closure g)) = true ↔ f.identity = g.identity) ∧
    (Equivalence fun a b : { v : Value // v.DistinctKeys } => a.val.equal b.val = true) ∧
    (∀ args : List Value, (∀ v ∈ args, v.DistinctKeys) →
      Primitive.equal.compute args =
        .ok (.boolean (decide (∀ a ∈ args, ∀ b ∈ args, a.equal b = true)))) ∧
    (∀ ns : List Number,
      Primitive.less.compute (ns.map .number) =
        .ok (.boolean (decide (ns.Pairwise fun a b => a.lt b = true))) ∧
      Primitive.greater.compute (ns.map .number) =
        .ok (.boolean (decide (ns.Pairwise fun a b => b.lt a = true))) ∧
      Primitive.lessEqual.compute (ns.map .number) =
        .ok (.boolean (decide (ns.Pairwise fun a b => a.le b = true))) ∧
      Primitive.greaterEqual.compute (ns.map .number) =
        .ok (.boolean (decide (ns.Pairwise fun a b => b.le a = true)))) := by
  refine ⟨fun _ _ h => h.distinctKeys, fun _ _ => equal_list, fun _ _ => equal_hash, ?_, ?_,
    fun _ => Library.equal_eq, ?_⟩
  · intro f g
    exact beq_iff_eq
  · constructor
    · intro a
      exact equal_refl a.property
    · intro a b
      exact equal_symm a.property b.property
    · intro a b c
      exact equal_trans a.property b.property c.property
  · intro ns
    refine ⟨?_, ?_, ?_, ?_⟩
    · exact Library.compare_map_number Number.lt Number.lt_trans ns
    · exact Library.compare_map_number (fun a b => b.lt a) (fun hab hbc => Number.lt_trans hbc hab) ns
    · exact Library.compare_map_number Number.le Number.le_trans ns
    · exact Library.compare_map_number (fun a b => b.le a) (fun hab hbc => Number.le_trans hbc hab) ns

open Value in
/-- Two hashes with their entries in another order, one inside the other, and with zeros and NaNs that
have different bits. -/
theorem equality_is_equivalence_reordered :
    let inner : Table Value := [("x", .null), ("y", .number ⟨0x7ff8000000000000⟩)]
    let inner' : Table Value := [("y", .number ⟨0xfff8000000000000⟩), ("x", .null)]
    let a : Value := .hash [("n", .number ⟨0⟩), ("l", .list [.hash inner])]
    let b : Value := .hash [("l", .list [.hash inner']), ("n", .number ⟨0x8000000000000000⟩)]
    (a.DistinctKeys ∧ b.DistinctKeys) ∧ a.equal b = true ∧ b.equal a = true ∧
      ((hash inner).equal (hash inner') = true ↔
        ∀ key, Option.Rel (fun a b => a.equal b = true) (Table.get? inner key) (Table.get? inner' key)) ∧
      Primitive.equal.compute [a, b, a] = .ok (.boolean true) := by
  intro inner inner' a b
  have hinner : (hash inner).DistinctKeys :=
    .hash (by decide) (by simp [inner, DistinctKeys.null, DistinctKeys.number])
  have hinner' : (hash inner').DistinctKeys :=
    .hash (by decide) (by simp [inner', DistinctKeys.null, DistinctKeys.number])
  have ha : a.DistinctKeys := by
    refine .hash (by decide) ?_
    simpa [DistinctKeys.number] using DistinctKeys.list (by simpa using hinner)
  have hb : b.DistinctKeys := by
    refine .hash (by decide) ?_
    simpa [DistinctKeys.number] using DistinctKeys.list (by simpa using hinner')
  have hab : a.equal b = true := by decide +kernel
  obtain ⟨-, -, hhash, -, hequivalence, hequal, -⟩ := equality_is_equivalence
  have hba : b.equal a = true := hequivalence.symm (x := ⟨a, ha⟩) (y := ⟨b, hb⟩) hab
  refine ⟨⟨ha, hb⟩, hab, hba, hhash _ _ (by decide) (by decide), ?_⟩
  have hargs := hequal [a, b, a] (by simp [ha, hb])
  simpa [hab, hba, equal_refl ha, equal_refl hb] using hargs

end SmallLisp
