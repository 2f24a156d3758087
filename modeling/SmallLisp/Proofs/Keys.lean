import SmallLisp.Proofs.Equality
import SmallLisp.Proofs.Hashes
import SmallLisp.Proofs.Identity
import SmallLisp.Proofs.Inspection
/-!
# Equal keys find the same entry

A hash is keyed by texts, and programs compare values. The two agree: **equal values without a hash in
them have the same text** (`Value.display_of_equal`), so either of them finds what was set under the
other. For numbers that is so although zeros of either sign are equal, and all NaNs; for closures because
those of one identity are one closure, which a session sees to.

Hashes are different. They are equal whatever the order of their entries, and their texts show it.
-/

namespace SmallLisp

/-! ### Numbers -/

namespace Number

variable {a b : Number}

theorem display_of_isNaN (h : a.isNaN = true) : a.display = "NaN" := by
  have hlt : infinityMagnitude < a.magnitude := of_decide_eq_true h
  have hfinite : a.isFinite = false := decide_eq_false (Nat.not_lt.mpr (Nat.le_of_lt hlt))
  simp [display, isIntegral, hfinite, NumberFormat.write, h]

/-- A zero is written without its sign. -/
theorem display_of_isZero (h : a.isZero = true) : a.display = "0" := by
  have hmagnitude : a.magnitude = 0 := eq_of_beq h
  have hwhole : a.wholePart = 0 := by simp [wholePart, hmagnitude, units, significand]
  rw [display, if_pos (whole_of_isZero h)]
  simp [h, hwhole]

/-- Other numbers than zeros have a key of their own, the sign of which is that of the number. -/
theorem eq_of_key_eq (hzero : a.isZero = false) (h : a.key = b.key) : a = b := by
  have hne : a.magnitude ≠ 0 := beq_eq_false_iff_ne.mp hzero
  have hsign : a.isNegative = b.isNegative := by grind [key]
  have hmagnitude : a.magnitude = b.magnitude := by grind [key]
  exact eq_of_magnitude_eq hsign hmagnitude

/-- **Equal numbers have the same text.** -/
theorem display_of_equal (h : a.equal b = true) : a.display = b.display := by
  unfold equal at h
  split at h
  · obtain ⟨ha, hb⟩ := Bool.and_eq_true_iff.mp h
    rw [display_of_isNaN ha, display_of_isNaN hb]
  · have hkey : a.key = b.key := eq_of_beq h
    cases ha : a.isZero with
    | false => rw [eq_of_key_eq ha hkey]
    | true =>
      -- a zero may be equal to the other one
      have hb : b.isZero = true := by grind [key, isZero]
      rw [display_of_isZero ha, display_of_isZero hb]

end Number

/-! ### Values -/

namespace Value

/-- Whether there is no hash in a value, however deep it is inside lists. -/
inductive HashFree : Value → Prop where
  | list {items : List Value} : (∀ v ∈ items, HashFree v) → HashFree (.list items)
  | plain {v : Value} : v.kind ≠ .list → v.kind ≠ .hash → HashFree v

def ClosuresAgree (a b : Value) : Prop :=
  ∀ f g : Closure Value, a.Contains f → b.Contains g → f.identity = g.identity → f = g

variable {a b : Value}

theorem ClosuresAgree.item {as bs : List Value} (h : ClosuresAgree (.list as) (.list bs))
    (ha : a ∈ as) (hb : b ∈ bs) : ClosuresAgree a b :=
  fun f g hf hg => h f g (.item ha hf) (.item hb hg)

/-- Equal values are of one kind. -/
theorem kind_of_equal (h : a.equal b = true) : b.kind = a.kind := by
  cases a <;> cases b <;> first | rfl | cases h

/-- Apart from lists and hashes, only numbers and functions can be equal and not the same. -/
theorem display_of_equal_plain (hlist : a.kind ≠ .list) (hhash : a.kind ≠ .hash)
    (h : a.equal b = true) (hclosures : ClosuresAgree a b) : a.display = b.display := by
  cases a with
  | number n =>
    obtain ⟨k, rfl, hk⟩ := exists_number_of_equal h
    rw [display, display, Number.display_of_equal hk]
  | function f =>
    obtain ⟨g, rfl, hg⟩ := exists_function_of_equal h
    cases f with
    | native f =>
      cases g with
      | native g => rw [of_decide_eq_true hg]
      | closure g => cases hg
    | closure f =>
      cases g with
      | native g => cases hg
      -- a closure is displayed by its name, which is not compared
      | closure g => rw [hclosures f g .self .self (eq_of_beq hg)]
  | list items => exact absurd rfl hlist
  | hash entries => exact absurd rfl hhash
  | _ => rw [eq_of_equal (by simp [kind]) h]

/-- **Equal values without a hash in them have the same text.** -/
theorem display_of_equal (ha : a.HashFree) (h : a.equal b = true) (hclosures : ClosuresAgree a b) :
    a.display = b.display := by
  induction ha generalizing b with
  | @list as _ ih =>
    cases b with
    | list bs =>
      obtain ⟨hlength, hzip⟩ := List.forall₂_iff_zip.mp (equal_list.mp h)
      have hmap : as.map display = bs.map display := by
        rw [← List.forall₂_eq_eq_eq, List.forall₂_map_left_iff, List.forall₂_map_right_iff,
          List.forall₂_iff_zip]
        refine ⟨hlength, ?_⟩
        intro v w hvw
        obtain ⟨hv, hw⟩ := List.of_mem_zip hvw
        exact ih v hv (hzip hvw) (hclosures.item hv hw)
      rw [display, display, displayItems_eq_map, displayItems_eq_map, hmap]
    | _ => cases h
  | plain hlist hhash => exact display_of_equal_plain hlist hhash h hclosures

/-- The same goes for a text that differs from the displayed one for strings and keywords only, as those
are equal only to themselves. -/
theorem text_eq_of_equal {write : Value → String}
    (hwrite : ∀ v : Value, v.kind ≠ .string → v.kind ≠ .keyword → write v = v.display)
    (ha : a.HashFree) (h : a.equal b = true) (hclosures : ClosuresAgree a b) : write a = write b := by
  by_cases hsame : a.kind = .string ∨ a.kind = .keyword
  · rw [eq_of_equal (by rcases hsame with hkind | hkind <;> simp [hkind]) h]
  · obtain ⟨hstring, hkeyword⟩ := not_or.mp hsame
    have hkind := kind_of_equal h
    rw [hwrite a hstring hkeyword, hwrite b (hkind ▸ hstring) (hkind ▸ hkeyword),
      display_of_equal ha h hclosures]

/-- Only a string's text is not what it displays as. -/
theorem text_eq_display {v : Value} (hstring : v.kind ≠ .string) : v.text = v.display := by
  cases v with
  | string s => exact absurd rfl hstring
  | _ => rfl

/-- Strings and keywords are keys by their name, all other values by what they display as. -/
theorem hashKey_eq_display {v : Value} (hstring : v.kind ≠ .string) (hkeyword : v.kind ≠ .keyword) :
    v.hashKey = v.display := by
  cases v with
  | string s => exact absurd rfl hstring
  | keyword s => exact absurd rfl hkeyword
  | _ => rfl

end Value

/-! ### Entries -/

namespace Library

variable {a b : Value}

/-- Only the text of a key counts. -/
theorem hashGet_of_hashKey_eq (h : a.hashKey = b.hashKey) (hash : Value) :
    hashGet [hash, a] = hashGet [hash, b] := by
  simp only [hashGet, two, bind, Except.bind, h]

/-- A hash sees of a key only its text. -/
theorem hashSet_of_hashKey_eq (h : a.hashKey = b.hashKey) (hash v : Value) :
    hashSet [hash, a, v] = hashSet [hash, b, v] := by
  simp only [hashSet, three, bind, Except.bind, h]

/-- What was set is found again, under whatever value has the same key text. -/
theorem hashGet_set_self (table : Table Value) (key v : Value) :
    hashGet [.hash (table.set key.hashKey v), key] = .ok v := by
  show Except.ok (((table.set key.hashKey v).get? key.hashKey).getD .null) = _
  rw [Table.get?_set_self]
  rfl

end Library

open Value in
/-- **Equal keys address the same entry.** Hashes are keyed by texts while programs compare values; for
equal values that contain no hash the two agree. They are displayed alike, they are the same text and the
same key, and so `Hash/get` finds the same under either of them and `Hash/set` gives the same hash, with
its keys in the same order. Closures count as equal if they have one identity, and in an interpreter that
has served whatever requests, those are one closure. Hashes are apart: of the same entries in another
order there are equal ones with different keys, and what was set under the one is not found under the
other. -/
theorem equal_keys_address_one_entry :
    (∀ a b : Value, a.HashFree → a.equal b = true → ClosuresAgree a b →
      a.display = b.display ∧ a.text = b.text ∧ a.hashKey = b.hashKey ∧
      ∀ h v : Value,
        Primitive.hashLookup.compute [h, a] = Primitive.hashLookup.compute [h, b] ∧
        Primitive.hashGet.compute [h, a] = Primitive.hashGet.compute [h, b] ∧
        Primitive.hashSet.compute [h, a, v] = Primitive.hashSet.compute [h, b, v]) ∧
    (∀ (options : Options) (read : String → Except ReadFailure String) (ip : Interpreter)
      (given : List Value), Interpreter.Serves (.new options read) ip given →
      ∀ a b : Value, ip.Holds given a → ip.Holds given b → ClosuresAgree a b) ∧
    (∃ (pairs pairs' : List (Value × Value)) (a b h : Value), pairs.Perm pairs' ∧
      Primitive.hashCreate.compute (Library.interleave pairs) = .ok a ∧
      Primitive.hashCreate.compute (Library.interleave pairs') = .ok b ∧
      a.equal b = true ∧ a.hashKey ≠ b.hashKey ∧
      Primitive.hashSet.compute [.hash [], a, .boolean true] = .ok h ∧
      Primitive.hashLookup.compute [h, a] = .ok (.boolean true) ∧
      Primitive.hashLookup.compute [h, b] = .ok .null) := by
  refine ⟨?_, ?_, ?_⟩
  · intro a b ha h hclosures
    have htext : a.text = b.text :=
      text_eq_of_equal (fun _ hstring _ => text_eq_display hstring) ha h hclosures
    have hkey : a.hashKey = b.hashKey :=
      text_eq_of_equal (fun _ => hashKey_eq_display) ha h hclosures
    refine ⟨display_of_equal ha h hclosures, htext, hkey, ?_⟩
    intro hash v
    exact ⟨Library.hashGet_of_hashKey_eq hkey hash, Library.hashGet_of_hashKey_eq hkey hash,
      Library.hashSet_of_hashKey_eq hkey hash v⟩
  · intro options read ip given hserves a b ha hb f g hf hg hidentity
    exact hserves.closure_eq ha hb hf hg hidentity
  · refine ⟨[(.keyword ":x", .null), (.keyword ":y", .null)],
      [(.keyword ":y", .null), (.keyword ":x", .null)], .hash [(":x", .null), (":y", .null)],
      .hash [(":y", .null), (":x", .null)],
      .hash [("#\x7b:x null :y null\x7d", .boolean true)], .swap _ _ _, rfl, rfl, rfl, ?_, rfl, rfl, rfl⟩
    decide

/-- A host makes a closure and puts it into two lists, next to zeros of either sign and different NaNs.
What is set under the one list is found under the other. -/
theorem equal_keys_address_one_entry_lists :
    let start : Interpreter := .new ⟨3, false⟩ fun _ => .error .notFound
    let f : Closure Value := ⟨0, none, [], none, [.symbol "x"], 0⟩
    let items (bits bits' : UInt64) : List Value :=
      [.function (.closure f), .number ⟨bits⟩, .list [.number ⟨bits'⟩, .function (.native .print)]]
    let a := items 0 0x7ff8000000000000
    let b := items 0x8000000000000000 0xfff8000000000000
    ∃ ip : Interpreter, Interpreter.Serves start ip [.list b, .list a, .function (.closure f)] ∧
      (Value.list a).equal (.list b) = true ∧ (Value.list a).hashKey = (Value.list b).hashKey ∧
      ∃ h : Value, Primitive.hashSet.compute [.hash [], .list a, .boolean true] = .ok h ∧
        Primitive.hashSet.compute [.hash [], .list b, .boolean true] = .ok h ∧
        Primitive.hashLookup.compute [h, .list b] = .ok (.boolean true) := by
  intro start f items a b
  let make : Request := .evaluate (.list [.symbol "fn", .list [], .symbol "x"]) 0
  let enlist (items : List Value) : Request := .apply (.native (.primitive .list)) items
  have hmake : start.value? make = some (.function (.closure f)) := rfl
  have ha : (start.handle make).value? (enlist a) = some (.list a) := rfl
  have hb : ((start.handle make).handle (enlist a)).value? (enlist b) = some (.list b) := rfl
  have hhands : ∀ (ip : Interpreter) (given : List Value), .function (.closure f) ∈ given →
      ∀ bits bits', (enlist (items bits bits')).Hands fun g => ∃ v, ip.Holds given v ∧ v.Contains g := by
    intro ip given hf bits bits'
    have hknown : ∃ v, ip.Holds given v ∧ v.Contains f := ⟨_, .inl hf, .self⟩
    simpa [enlist, Request.Hands, items, f] using hknown
  have hstart : Interpreter.Serves start (start.handle make) [.function (.closure f)] :=
    Interpreter.Serves.start.request_of_value (by simp [make, Request.Hands]) hmake
  have hserves := (hstart.request_of_value (hhands _ _ (by simp) _ _) ha).request_of_value
    (hhands _ _ (by simp) _ _) hb
  have hequal : (Value.list a).equal (.list b) = true := by decide +kernel
  have hfree : (Value.list a).HashFree := by
    refine .list (List.forall_mem_cons.mpr ⟨.plain nofun nofun, ?_⟩)
    refine List.forall_mem_cons.mpr ⟨.plain nofun nofun, List.forall_mem_singleton.mpr ?_⟩
    refine .list (List.forall_mem_cons.mpr ⟨.plain nofun nofun, ?_⟩)
    exact List.forall_mem_singleton.mpr (.plain nofun nofun)
  obtain ⟨hkeys, hsession, -⟩ := equal_keys_address_one_entry
  have hagree := hsession _ _ _ _ hserves (.list a) (.list b) (.inl (by simp)) (.inl (by simp))
  obtain ⟨-, -, hkey, hentries⟩ := hkeys _ _ hfree hequal hagree
  refine ⟨_, hserves, hequal, hkey, .hash (Table.set [] (Value.list a).hashKey (.boolean true)), rfl,
    (hentries (.hash []) (.boolean true)).2.2.symm, ?_⟩
  rw [← (hentries _ .null).1]
  exact Library.hashGet_set_self [] (.list a) (.boolean true)

end SmallLisp
