import SmallLisp.Proofs.Grammar
import SmallLisp.Proofs.Holes
/-!
# Ways to build a hash

A hash can be created from its keys and values, made from a list of them, or put together by setting
one key after the other; a text may hold one, which is read as a call. Keys are told apart by their
texts alone, so `:a` and `":a"` are one key, and so are `1` and `"1"`. **All ways lead to the same
entries**: those of `Table.ofPairs`, in which a key stands where its text comes up first and has the
value that comes last.

The keys of a hash are not the values that it was built from, but they have the same texts
(`hashKey_ofHashKey`); so a hash can be put together again from its keys and what it has for them.
-/

namespace SmallLisp

open Machine Context

namespace Library

/-! ### Putting a hash together -/

def interleave (pairs : List (Value × Value)) : List Value :=
  pairs.flatMap fun pair => [pair.1, pair.2]

/-- Values that pair up are keys and values, alternating. -/
theorem exists_interleave {items : List Value} (h : items.length % 2 = 0) :
    ∃ pairs, items = interleave pairs := by
  induction items using entries?.induct with
  | case1 => exact ⟨[], rfl⟩
  | case2 key => cases h
  | case3 key v rest ih =>
    rw [List.length_cons, List.length_cons] at h
    obtain ⟨pairs, rfl⟩ := ih (by omega)
    exact ⟨(key, v) :: pairs, rfl⟩

def entry (pair : Value × Value) : String × Value :=
  (pair.1.hashKey, pair.2)

theorem entries?_interleave (pairs : List (Value × Value)) :
    entries? (interleave pairs) = some (pairs.map entry) := by
  induction pairs with
  | nil => rfl
  | cons pair pairs ih =>
    show (entries? (interleave pairs)).map _ = _
    rw [ih]
    rfl

/-- The items of a literal are taken in pairs and set one after the other. -/
theorem hashOfItems_interleave (pairs : List (Value × Value)) :
    hashOfItems (interleave pairs) = .ok (.hash (Table.ofPairs (pairs.map entry))) := by
  rw [hashOfItems, entries?_interleave]

/-- Setting keys one after the other sets the entries one after the other. -/
theorem foldlM_hashSet (table : Table Value) (pairs : List (Value × Value)) :
    pairs.foldlM (fun hash pair => hashSet [hash, pair.1, pair.2]) (.hash table) =
      .ok (.hash (table.setAll (pairs.map entry))) := by
  induction pairs generalizing table with
  | nil => rfl
  | cons pair pairs ih => exact ih (table.set pair.1.hashKey pair.2)

/-- Of all pairs whose keys collide the last one written is found. -/
theorem hashGet_ofPairs (pairs : List (Value × Value)) (key : Value) :
    hashGet [.hash (Table.ofPairs (pairs.map entry)), key] =
      .ok (((pairs.filter (·.1.hashKey == key.hashKey)).getLast?.map (·.2)).getD .null) := by
  show Except.ok ((Table.get? (Table.ofPairs (pairs.map entry)) key.hashKey).getD .null) = _
  rw [Table.get?_ofPairs, List.filter_map, List.getLast?_map, Option.map_map]
  rfl

/-! ### Taking a hash apart -/

/-- The text of a key gives back a value with that very text, which is why listing the keys loses
nothing. -/
@[simp] theorem hashKey_ofHashKey (key : String) : (ofHashKey key).hashKey = key := by
  unfold ofHashKey
  split <;> rfl

theorem mapM_of_ok {α β : Type} {f : α → Except Fault β} {g : α → β} {items : List α}
    (h : ∀ a ∈ items, f a = .ok (g a)) : items.mapM f = .ok (items.map g) := by
  induction items with
  | nil => rfl
  | cons a items ih =>
    rw [List.forall_mem_cons] at h
    rw [List.mapM_cons, h.1, ih h.2]
    rfl

/-- Distinct keys keep an entry from being hidden by an earlier one. -/
theorem hashGet_of_mem {table : Table Value} (h : table.keys.Nodup) {pair : String × Value}
    (hpair : pair ∈ table) : hashGet [.hash table, ofHashKey pair.1] = .ok pair.2 := by
  show Except.ok ((table.get? (ofHashKey pair.1).hashKey).getD .null) = _
  rw [hashKey_ofHashKey, (Table.get?_eq_some_iff h).mpr hpair]
  rfl

/-- The keys and the values found under them make the same hash again, in the same order. -/
theorem hash_rebuilt {table : Table Value} (h : table.keys.Nodup) :
    ∃ keys values, hashKeys [.hash table] = .ok (.list keys) ∧
      keys.mapM (fun key => hashGet [.hash table, key]) = .ok values ∧
      hashOfItems (interleave (keys.zip values)) = .ok (.hash table) := by
  refine ⟨table.keys.map ofHashKey, table.map (·.2), rfl, ?_, ?_⟩
  · rw [Table.keys, List.map_map, List.mapM_map]
    exact mapM_of_ok fun pair hpair => hashGet_of_mem h hpair
  · have hentries : ((table.keys.map ofHashKey).zip (table.map (·.2))).map entry = table := by
      rw [Table.keys, List.map_map, List.zip_map', List.map_map]
      exact List.map_id'' (fun pair => by simp [entry]) table
    rw [hashOfItems_interleave, hentries, Table.ofPairs_of_nodup h]

end Library

/-! ### Calls by name -/

/-- A call whose head is a symbol that names a function evaluates the arguments and calls it, unless
the limit is reached. -/
theorem evaluate_call {host : Host} {depth : Nat} {head : String} {args : List Value}
    {scope : ScopeId} {m : Machine} {f : Function Value} (hform : SpecialForm.ofName? head = none)
    (hhead : m.resolve head scope = .ok (.function f))
    (hlimit : ¬ HitsLimit
      ((within host.limit depth).evaluate (.list (.symbol head :: args)) scope host m)) :
    (within host.limit depth).evaluate (.list (.symbol head :: args)) scope host m =
      (do
        let values ← args.mapM fun arg => (within host.limit (depth + 1)).evaluate arg scope
        (within host.limit (depth + 1)).apply f values) host m := by
  rcases Nat.lt_or_ge depth host.limit with hlt | hle
  · rw [evaluate_within hlt] at hlimit ⊢
    have hcall : (within host.limit (depth + 1)).step (.list (.symbol head :: args)) scope =
        (within host.limit (depth + 1)).call (.symbol head) args scope := by
      simp only [step, specialForm?, hform]
    rw [hcall] at hlimit ⊢
    unfold Context.call at hlimit ⊢
    -- the head is evaluated as well, one level further in, and that may hit the limit
    rcases Nat.lt_or_ge (depth + 1) host.limit with hlt' | hle'
    · have hfound : (within host.limit (depth + 1)).evaluate (.symbol head) scope host m =
          .ok (.function f) m := by
        rw [evaluate_within hlt']
        show Eval.ofExcept (m.resolve head scope) host m = _
        rw [hhead]
        rfl
      rw [Eval.bind_of_ok hfound]
    · rw [evaluate_within_of_le hle'] at hlimit
      exact absurd ⟨host.limit, m, rfl⟩ hlimit
  · rw [evaluate_within_of_le hle] at hlimit
    exact absurd ⟨host.limit, m, rfl⟩ hlimit

/-- **A hash in a program evaluates its keys and values in order** and creates a hash from them. The two
functions that it calls are looked up before anything else is evaluated. -/
theorem evaluate_hashCall {host : Host} {depth : Nat} {forms : List Value} {scope : ScopeId}
    {m : Machine} (hlist : m.resolve "list" scope = .ok (.function (.native (.primitive .list))))
    (hmake : m.resolve "make-hash" scope = .ok (.function (.native (.primitive .makeHash))))
    (hlimit : ¬ HitsLimit
      ((within host.limit depth).evaluate (Datum.hashCall forms) scope host m)) :
    (within host.limit depth).evaluate (Datum.hashCall forms) scope host m =
      (do
        let values ← forms.mapM fun form => (within host.limit (depth + 2)).evaluate form scope
        modify (Machine.report (.applying "list" (depth + 2)))
        modify (Machine.report (.applying "make-hash" (depth + 1)))
        Eval.ofExcept (Primitive.hashCreate.compute values)) host m := by
  unfold Datum.hashCall at hlimit ⊢
  have houter := evaluate_call rfl hmake hlimit
  rw [houter] at hlimit ⊢
  simp only [List.mapM_cons, List.mapM_nil, bind_assoc, pure_bind] at hlimit ⊢
  have hinner := evaluate_call rfl hlist fun hhits => hlimit (hhits.bind _)
  rw [Eval.bind_congr hinner]
  simp only [bind_assoc, apply_primitive]
  rfl

open Library in
/-- **All ways to build a hash agree, and so do the ways to read it.** From keys and values, alternating,
`Hash/create`, `make-hash` and `Hash/set` from the empty hash on give the same hash. Its keys are the
texts of the keys, each once and in the order of first occurrence, and `Hash/get` has for a key the
value of the last pair whose key has the same text, or `null`. A hash in a program is read as a call;
where `list` and `make-hash` are the natives, and unless the limit is reached, it evaluates its forms
once each and in order, and ends with their first fault or with the hash that `Hash/create` makes of
their values. And `Hash/create` gives every hash back from its `Hash/keys` with what `Hash/get` has for
them. -/
theorem ways_to_build_a_hash_agree :
    (∀ pairs : List (Value × Value), ∃ entries : Table Value,
      Primitive.hashCreate.compute (interleave pairs) = .ok (.hash entries) ∧
      Primitive.makeHash.compute [.list (interleave pairs)] = .ok (.hash entries) ∧
      pairs.foldlM (fun hash pair => Primitive.hashSet.compute [hash, pair.1, pair.2]) (.hash []) =
        .ok (.hash entries) ∧
      entries.keys = (pairs.map (·.1.hashKey)).eraseDups ∧
      ∀ key, Primitive.hashLookup.compute [.hash entries, key] =
        .ok (((pairs.filter (·.1.hashKey == key.hashKey)).getLast?.map (·.2)).getD .null)) ∧
    (∀ (tokens : List Token) (forms : List Value), Datum.DerivesAll 1 tokens forms →
      forms.length % 2 = 0 →
        Datum.readForms (.hashOpen :: tokens ++ [.hashClose]) = .ok [Datum.hashCall forms]) ∧
    (∀ (host : Host) (depth : Nat) (forms : List Value) (scope : ScopeId) (m : Machine),
      let run := (within host.limit depth).evaluate (Datum.hashCall forms) scope host m
      let parts : Eval (List Value) :=
        forms.mapM fun form => (within host.limit (depth + 2)).evaluate form scope
      forms.length % 2 = 0 →
      m.resolve "list" scope = .ok (.function (.native (.primitive .list))) →
      m.resolve "make-hash" scope = .ok (.function (.native (.primitive .makeHash))) →
      ¬ HitsLimit run →
        (∀ values m', parts host m = .ok values m' →
          ∃ hash, Primitive.hashCreate.compute values = .ok hash ∧
            run = .ok hash ((m'.report (.applying "list" (depth + 2))).report
              (.applying "make-hash" (depth + 1)))) ∧
        (∀ e m', parts host m = .error e m' → run = .error e m')) ∧
    (∀ entries : Table Value, entries.keys.Nodup → ∃ keys values,
      Primitive.hashKeys.compute [.hash entries] = .ok (.list keys) ∧
      keys.mapM (fun key => Primitive.hashLookup.compute [.hash entries, key]) = .ok values ∧
      Primitive.hashCreate.compute (interleave (keys.zip values)) = .ok (.hash entries)) := by
  refine ⟨?_, ?_, ?_, ?_⟩
  · intro pairs
    refine ⟨Table.ofPairs (pairs.map entry), hashOfItems_interleave pairs,
      hashOfItems_interleave pairs, foldlM_hashSet [] pairs, ?_, hashGet_ofPairs pairs⟩
    rw [Table.keys_ofPairs, List.map_map]
    rfl
  · intro tokens forms hforms heven
    exact Datum.readForms_eq_ok_iff.mpr (.singleton (.hash (by decide) hforms heven))
  · intro host depth forms scope m run parts heven hlist hmake hlimit
    have hrun : run = (parts >>= _) host m := evaluate_hashCall hlist hmake hlimit
    refine ⟨?_, ?_⟩
    · intro values m' hparts
      -- as many values as forms, so they pair up as well
      rw [← Eval.length_of_mapM hparts] at heven
      obtain ⟨pairs, rfl⟩ := exists_interleave heven
      refine ⟨_, hashOfItems_interleave pairs, ?_⟩
      rw [hrun, Eval.bind_of_ok hparts]
      show Eval.ofExcept (hashOfItems (interleave pairs)) host _ = _
      rw [hashOfItems_interleave]
      rfl
    · intro e m' hparts
      rw [hrun, Eval.bind_of_error hparts]
  · exact fun _ => hash_rebuilt

/-- A hash whose two keys have one text, and whose first value changes what `list` means. -/
theorem ways_to_build_a_hash_agree_collision :
    let host : Host := ⟨4, fun _ => .error .notFound⟩
    let m := (Machine.initial.set 0 "list" (.function (.native (.primitive .list)))).set 0 "make-hash"
      (.function (.native (.primitive .makeHash)))
    let forms : List Value := [.keyword ":a", .list [.symbol "def", .symbol "list", .keyword ":b"],
      .string ":a", .symbol "list"]
    let m' := m.set 0 "list" (.keyword ":b")
    let tokens : List Token := [.keyword ":a", .listOpen, .symbol "def", .symbol "list",
      .keyword ":b", .listClose, .string ":a", .symbol "list"]
    let run := (within 4 0).evaluate (Datum.hashCall forms) 0 host m
    Datum.readForms (.hashOpen :: tokens ++ [.hashClose]) = .ok [Datum.hashCall forms] ∧
    m.resolve "list" 0 = .ok (.function (.native (.primitive .list))) ∧
    m.resolve "make-hash" 0 = .ok (.function (.native (.primitive .makeHash))) ∧
    ¬ HitsLimit run ∧
    run = .ok (.hash [(":a", .keyword ":b")])
      ((m'.report (.applying "list" 2)).report (.applying "make-hash" 1)) ∧
    ∃ keys values, Primitive.hashKeys.compute [.hash [(":a", .keyword ":b")]] = .ok (.list keys) ∧
      keys.mapM (fun key => Primitive.hashLookup.compute [.hash [(":a", .keyword ":b")], key]) =
        .ok values ∧
      Primitive.hashCreate.compute (Library.interleave (keys.zip values)) =
        .ok (.hash [(":a", .keyword ":b")]) := by
  intro host m forms m' tokens run
  have hlist : m.resolve "list" 0 = .ok (.function (.native (.primitive .list))) := by cbv
  have hmake : m.resolve "make-hash" 0 = .ok (.function (.native (.primitive .makeHash))) := by cbv
  have hparts : forms.mapM (fun form => (within host.limit 2).evaluate form 0) host m =
      .ok [.keyword ":a", .keyword ":b", .string ":a", .keyword ":b"] m' := by
    simp only [forms, m, m', host]
    cbv
  have hlimit : ¬ HitsLimit run := by
    obtain ⟨v, ended, hended⟩ : ∃ v ended, run = .ok v ended :=
      ⟨_, _, by simp only [run, forms, m, host]; cbv⟩
    rw [hended]
    rintro ⟨_, _, ⟨⟩⟩
  obtain ⟨-, hread, hliteral, hrebuilt⟩ := ways_to_build_a_hash_agree
  obtain ⟨hcreated, -⟩ := hliteral host 0 forms 0 m (by simp [forms]) hlist hmake hlimit
  obtain ⟨hash, hhash, hrun⟩ := hcreated _ _ hparts
  cases hhash
  have hinner : Datum.DerivesAll 2 [.symbol "def", .symbol "list", .keyword ":b"]
      [.symbol "def", .symbol "list", .keyword ":b"] :=
    Datum.derivesAll_iff.mpr ⟨[[.symbol "def"], [.symbol "list"], [.keyword ":b"]], rfl,
      .cons (.atom rfl) (.cons (.atom rfl) (.cons (.atom rfl) .nil))⟩
  have hforms : Datum.DerivesAll 1 tokens forms :=
    Datum.derivesAll_iff.mpr ⟨[[.keyword ":a"],
      .listOpen :: [.symbol "def", .symbol "list", .keyword ":b"] ++ [.listClose],
      [.string ":a"], [.symbol "list"]], rfl,
      .cons (.atom rfl) (.cons (.list (by decide) hinner) (.cons (.atom rfl) (.cons (.atom rfl) .nil)))⟩
  exact ⟨hread tokens forms hforms (by simp [forms]), hlist, hmake, hlimit, hrun,
    hrebuilt _ (by decide)⟩

end SmallLisp
