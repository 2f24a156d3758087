import Mathlib.Data.List.FinRange
import SmallLisp.Proofs.Log
/-!
# Sorting by a function

Sorting asks a function about two items at a time. The function may be anything: it may answer now this
and now that, print, change variables or fail. So two things are said of the result, of which the first
one needs no promise:

* **nothing is lost or made up** (`perm_of_mergeSortM`): if the sort ends with a list, it is a
  permutation of the items;
* if the function answers by a total and transitive order, **the sort is stable**
  (`exists_stable_mergeSortM`): of two items, the one that stood in front stays in front exactly if the
  order allows it.

Items may be equal, and then only their places tell them apart. Therefore the places are sorted in place
of the items, which comes to the same (`map_mergeSortM`). The places in the order in which their items
end up are unique (`Stable.unique`), since any two places are compared by `comesFirst`, a linear order.
-/

namespace SmallLisp

open Context

/-! ### Nothing is lost or made up -/

section

variable {host : Host} {α : Type} {inOrder : α → α → Eval Bool}

/-- Merging loses and invents nothing, whatever the comparisons answer. -/
theorem perm_of_mergeM {as bs merged : List α} {m m' : Machine}
    (h : mergeM inOrder as bs host m = .ok merged m') : merged.Perm (as ++ bs) := by
  fun_induction mergeM inOrder as bs generalizing m merged with
  | case1 bs =>
    cases h
    exact .refl _
  | case2 as _ =>
    cases h
    rw [List.append_nil]
  | case3 a as b bs ihFront ihBack =>
    obtain ⟨inFront, m₁, -, h⟩ := Eval.bind_eq_ok h
    cases inFront with
    | true =>
      obtain ⟨rest, m₂, hrest, h⟩ := Eval.bind_eq_ok h
      cases h
      exact (ihFront hrest).cons a
    | false =>
      obtain ⟨rest, m₂, hrest, h⟩ := Eval.bind_eq_ok h
      cases h
      exact ((ihBack hrest).cons b).trans List.perm_middle.symm

/-- **A sort that ends with a list ends with a permutation**, whatever the comparison does. -/
theorem perm_of_mergeSortM {items sorted : List α} {m m' : Machine}
    (h : mergeSortM inOrder items host m = .ok sorted m') : sorted.Perm items := by
  induction hlength : items.length using Nat.strongRecOn generalizing items sorted m m' with
  | ind n ih =>
    rw [mergeSortM] at h
    split at h
    · cases h
      exact .refl _
    · obtain ⟨front, m₁, hfront, h⟩ := Eval.bind_eq_ok h
      obtain ⟨back, m₂, hback, h⟩ := Eval.bind_eq_ok h
      have hfront := ih _ (by simp only [List.length_take]; omega) hfront rfl
      have hback := ih _ (by simp only [List.length_drop]; omega) hback rfl
      have hboth := (perm_of_mergeM h).trans (hfront.append hback)
      rwa [List.take_append_drop] at hboth

def AnswersBy (host : Host) (inOrder : α → α → Eval Bool) (le : α → α → Bool) : Prop :=
  ∀ a b m, ∃ m', inOrder a b host m = .ok (le a b) m'

/-- With a comparison that answers, a merge is that of two lists. -/
theorem mergeM_of_answersBy {le : α → α → Bool} (h : AnswersBy host inOrder le) (as bs : List α)
    (m : Machine) : ∃ m', mergeM inOrder as bs host m = .ok (as.merge bs le) m' := by
  fun_induction mergeM inOrder as bs generalizing m with
  | case1 bs => exact ⟨m, by rw [List.nil_merge]; rfl⟩
  | case2 as _ => exact ⟨m, by rw [List.merge_right]; rfl⟩
  | case3 a as b bs ihFront ihBack =>
    obtain ⟨m₁, hanswer⟩ := h a b m
    rw [Eval.bind_of_ok hanswer, List.cons_merge_cons]
    cases le a b with
    | true =>
      obtain ⟨m₂, hrest⟩ := ihFront m₁
      exact ⟨m₂, Eval.bind_of_ok hrest _⟩
    | false =>
      obtain ⟨m₂, hrest⟩ := ihBack m₁
      exact ⟨m₂, Eval.bind_of_ok hrest _⟩

end

/-! ### The order of places -/

section

variable {n : Nat}

/-- Which of two places comes first: the earlier one exactly if `le` allows it. -/
def comesFirst (le : Fin n → Fin n → Bool) (i j : Fin n) : Bool :=
  if i ≤ j then le i j else !le j i

/-- Whether places are in the order in which a stable sort by `le` puts their items: all of them are
there, and of two places the earlier one stays in front exactly if `le` allows it. -/
structure Stable (le : Fin n → Fin n → Bool) (places : List (Fin n)) : Prop where
  perm : places.Perm (List.finRange n)
  before_iff : ∀ i j, i < j → (places.idxOf i < places.idxOf j ↔ le i j = true)

variable {le : Fin n → Fin n → Bool} {places places' : List (Fin n)}

/-- Ties are broken by the place, so no two places come first of each other. -/
theorem comesFirst_antisymm {i j : Fin n} (h : comesFirst le i j = true)
    (h' : comesFirst le j i = true) : i = j := by
  grind [comesFirst]

theorem comesFirst_total (htotal : ∀ i j, le i j = true ∨ le j i = true) (i j : Fin n) :
    (comesFirst le i j || comesFirst le j i) = true := by
  grind [comesFirst]

/-- What comes first is allowed to do so, whichever place is earlier. -/
theorem le_of_comesFirst (htotal : ∀ i j, le i j = true ∨ le j i = true) {i j : Fin n}
    (h : comesFirst le i j = true) : le i j = true := by
  grind [comesFirst]

/-- Transitivity of the order with places for ties, from that of the comparison and its totality. -/
theorem comesFirst_trans (htotal : ∀ i j, le i j = true ∨ le j i = true)
    (htrans : ∀ i j k, le i j = true → le j k = true → le i k = true) (i j k : Fin n)
    (h : comesFirst le i j = true) (h' : comesFirst le j k = true) : comesFirst le i k = true := by
  have hij := le_of_comesFirst htotal h
  have hjk := le_of_comesFirst htotal h'
  unfold comesFirst
  split
  · exact htrans i j k hij hjk
  · next hki =>
    -- if the last place were allowed in front of the first, one of the two steps would be wrong
    rw [Bool.not_eq_true', ← Bool.not_eq_true]
    intro hle
    have hji := htrans j k i hjk hle
    have hkj := htrans k i j hle hij
    grind [comesFirst]

/-- What holds between earlier and later entries of a list holds between those whose places say so. -/
theorem rel_of_idxOf_lt {R : Fin n → Fin n → Prop} (h : places.Pairwise R) {i j : Fin n}
    (hj : j ∈ places) (hlt : places.idxOf i < places.idxOf j) : R i j := by
  have hq := List.idxOf_lt_length_iff.mpr hj
  have hrel := List.pairwise_iff_getElem.mp h _ _ (Nat.lt_trans hlt hq) hq hlt
  rwa [List.getElem_idxOf, List.getElem_idxOf] at hrel

/-- Places are in a stable order exactly if each of them comes first, compared with those after it. -/
theorem stable_iff (hperm : places.Perm (List.finRange n)) :
    Stable le places ↔ places.Pairwise fun i j => comesFirst le i j = true := by
  have hmem : ∀ i, i ∈ places := fun i => hperm.mem_iff.mpr (List.mem_finRange i)
  have hnodup : places.Nodup := hperm.nodup_iff.mpr (List.nodup_finRange n)
  constructor
  · intro h
    rw [List.pairwise_iff_getElem]
    intro p q hp hq hpq
    have hbefore : places.idxOf places[p] < places.idxOf places[q] := by
      rwa [hnodup.idxOf_getElem, hnodup.idxOf_getElem]
    unfold comesFirst
    split
    · next hle =>
      rcases Fin.lt_or_eq_of_le hle with hlt | heq
      · exact (h.before_iff _ _ hlt).mp hbefore
      · rw [heq] at hbefore
        exact absurd hbefore (Nat.lt_irrefl _)
    · -- the other way round: the later place may stand first only if the earlier one may not
      next hlt =>
      rw [Bool.not_eq_true', ← Bool.not_eq_true, ← h.before_iff _ _ (Fin.not_le.mp hlt)]
      omega
  · intro h
    refine ⟨hperm, ?_⟩
    intro i j hij
    have hle : i ≤ j := Fin.le_of_lt hij
    constructor
    · intro hbefore
      simpa [comesFirst, hle] using rel_of_idxOf_lt h (hmem j) hbefore
    · intro hallowed
      have hne : places.idxOf i ≠ places.idxOf j := by
        intro heq
        exact absurd ((List.idxOf_inj (hmem i)).mp heq) (Fin.ne_of_lt hij)
      rcases Nat.lt_or_gt_of_ne hne with hbefore | hafter
      · exact hbefore
      · have hfirst := rel_of_idxOf_lt h (hmem i) hafter
        simp [comesFirst, Fin.not_le.mpr hij, hallowed] at hfirst

/-- There is only one stable order. -/
theorem Stable.unique (h : Stable le places) (h' : Stable le places') : places = places' := by
  have hpairwise := (stable_iff h.perm).mp h
  have hpairwise' := (stable_iff h'.perm).mp h'
  exact List.Perm.eq_of_pairwise (fun i j _ _ => comesFirst_antisymm) hpairwise hpairwise'
    (h.perm.trans h'.perm.symm)

/-- Places in a stable order have their items sorted. -/
theorem Stable.pairwise (h : Stable le places) (htotal : ∀ i j, le i j = true ∨ le j i = true) :
    places.Pairwise fun i j => le i j = true :=
  ((stable_iff h.perm).mp h).imp (le_of_comesFirst htotal)

/-! ### Sorting places -/

variable {host : Host} {inOrder : Fin n → Fin n → Eval Bool}

/-- Places that come from two halves are merged in a stable order: those in front are earlier, so that
asking `le` is asking `comesFirst`. -/
theorem pairwise_merge_halves (htotal : ∀ i j, le i j = true ∨ le j i = true)
    (htrans : ∀ i j k, le i j = true → le j k = true → le i k = true) {front back : List (Fin n)}
    (hfront : front.Pairwise fun i j => comesFirst le i j = true)
    (hback : back.Pairwise fun i j => comesFirst le i j = true)
    (hearlier : ∀ i ∈ front, ∀ j ∈ back, i < j) :
    (front.merge back le).Pairwise fun i j => comesFirst le i j = true := by
  have hask : ∀ i ∈ front, ∀ j ∈ back, le i j = comesFirst le (id i) (id j) := by
    intro i hi j hj
    have hle : i ≤ j := Fin.le_of_lt (hearlier i hi j hj)
    simp [comesFirst, hle]
  have hmerge := List.map_merge hask
  simp only [List.map_id] at hmerge
  rw [hmerge]
  exact List.pairwise_merge (comesFirst_trans htotal htrans) (comesFirst_total htotal) front back
    hfront hback

/-- Sorting with a comparison that always answers ends, and with the places in order. By induction
on the length of the list. -/
theorem pairwise_mergeSortM (htotal : ∀ i j, le i j = true ∨ le j i = true)
    (htrans : ∀ i j k, le i j = true → le j k = true → le i k = true)
    (hanswers : AnswersBy host inOrder le) {places : List (Fin n)}
    (hplaces : places.Pairwise (· < ·)) (m : Machine) :
    ∃ sorted m', mergeSortM inOrder places host m = .ok sorted m' ∧
      sorted.Pairwise fun i j => comesFirst le i j = true := by
  induction hlength : places.length using Nat.strongRecOn generalizing places m with
  | ind k ih =>
    rw [mergeSortM]
    split
    · next hshort =>
      refine ⟨places, m, rfl, ?_⟩
      rcases places with _ | ⟨i, _ | ⟨j, rest⟩⟩
      · exact .nil
      · exact List.pairwise_singleton _ i
      · simp only [List.length_cons] at hshort
        omega
    · -- the places of the first half are all earlier, so ties between the halves are kept
      have hhalves := hplaces
      rw [← List.take_append_drop (places.length / 2) places, List.pairwise_append] at hhalves
      obtain ⟨htake, hdrop, hearlier⟩ := hhalves
      obtain ⟨front, m₁, hfront, hfrontSorted⟩ :=
        ih _ (by simp only [List.length_take]; omega) htake m rfl
      obtain ⟨back, m₂, hback, hbackSorted⟩ :=
        ih _ (by simp only [List.length_drop]; omega) hdrop m₁ rfl
      obtain ⟨m₃, hmerge⟩ := mergeM_of_answersBy hanswers front back m₂
      refine ⟨front.merge back le, m₃, ?_, ?_⟩
      · rw [Eval.bind_of_ok hfront, Eval.bind_of_ok hback, hmerge]
      · apply pairwise_merge_halves htotal htrans hfrontSorted hbackSorted
        intro i hi j hj
        exact hearlier i ((perm_of_mergeSortM hfront).mem_iff.mp hi) j
          ((perm_of_mergeSortM hback).mem_iff.mp hj)

end

/-- **A sort whose comparison answers by a total and transitive order is stable.** -/
theorem exists_stable_mergeSortM {host : Host} {items : List Value}
    {inOrder : Value → Value → Eval Bool} {le : Value → Value → Bool}
    (hanswers : ∀ a ∈ items, ∀ b ∈ items, ∀ m, ∃ m', inOrder a b host m = .ok (le a b) m')
    (htotal : ∀ a ∈ items, ∀ b ∈ items, le a b = true ∨ le b a = true)
    (htrans : ∀ a ∈ items, ∀ b ∈ items, ∀ c ∈ items, le a b = true → le b c = true → le a c = true)
    (m : Machine) :
    ∃ places m', Stable (fun i j => le (items.get i) (items.get j)) places ∧
      mergeSortM inOrder items host m = .ok (places.map items.get) m' := by
  let le' (i j : Fin items.length) : Bool := le (items.get i) (items.get j)
  have htotal' : ∀ i j, le' i j = true ∨ le' j i = true := fun i j =>
    htotal _ (List.get_mem items i) _ (List.get_mem items j)
  obtain ⟨places, m', hsort, hpairwise⟩ := pairwise_mergeSortM htotal'
    (fun i j k => htrans _ (List.get_mem items i) _ (List.get_mem items j) _ (List.get_mem items k))
    (fun i j => hanswers _ (List.get_mem items i) _ (List.get_mem items j))
    (List.pairwise_lt_finRange items.length) m
  have hperm := perm_of_mergeSortM hsort
  refine ⟨places, m', (stable_iff hperm).mpr hpairwise, ?_⟩
  have hplaces := map_mergeSortM items.get inOrder (List.finRange items.length)
  rw [List.map_get_finRange] at hplaces
  rw [← hplaces, map_eq_pure_bind, Eval.bind_of_ok hsort]
  rfl

/-! ### Calls that sort -/

/-- Asks a function whether two items are in order: its answer has to be a number, and at most zero. -/
def askOrder (call : Function Value → List Value → Eval Value) (f : Function Value) (x y : Value) :
    Eval Bool := do
  let order ← call f [x, y]
  return (← Eval.ofConversion order.asNumber).le 0

theorem callWith_listSort (ctx : Context) (call : Function Value → List Value → Eval Value)
    (items : List Value) (f : Function Value) :
    ctx.callWith call (.native .listSort) [.list items, .function f] = (do
      ctx.reportCall (.native .listSort)
      let sorted ← mergeSortM (askOrder call f) items
      return .list sorted) := by
  rfl

def Job.sort (items : List Value) (f : Function Value) : Job :=
  .apply (.native .listSort) [.list items, .function f]

open Classical in
/-- Answers jobs by carrying them out, except that comparing two of the items by the function has the
answer of `order`, whatever comes of it. -/
noncomputable def Job.answerBy (host : Host) (depth : Nat) (items : List Value) (f : Function Value)
    (order : Value → Value → Number) (job : Job) : Eval Value :=
  fun _ m =>
    match job with
    | .apply g [a, b] =>
      if g = f ∧ a ∈ items ∧ b ∈ items then
        .ok (.number (order a b)) ((job.perform (within host.limit depth)).after host m)
      else job.run host depth m
    | job => job.run host depth m

section

variable {host : Host} {depth : Nat} {items : List Value} {f : Function Value}
  {order : Value → Value → Number}

theorem answerBy_of_mem {a b : Value} (ha : a ∈ items) (hb : b ∈ items) (m : Machine) :
    ∃ m', (Job.apply f [a, b]).answerBy host depth items f order host m =
      .ok (.number (order a b)) m' := by
  simp [Job.answerBy, ha, hb]

/-- Where a comparison answers by the order anyway, nothing is changed. -/
theorem answerBy_eq_run {job : Job} {m : Machine}
    (h : ∀ a ∈ items, ∀ b ∈ items, job = .apply f [a, b] →
      ∃ m', job.run host depth m = .ok (.number (order a b)) m') :
    job.answerBy host depth items f order host m = job.run host depth m := by
  unfold Job.answerBy
  split
  · next g a b =>
    split
    · next hcompared =>
      obtain ⟨rfl, ha, hb⟩ := hcompared
      obtain ⟨m', hrun⟩ := h a ha b hb rfl
      rw [hrun, Eval.after_of_ok hrun]
    · rfl
  · rfl

/-- What a sort returns is a rearrangement of what it was given. -/
theorem perm_of_run_sort {m m' : Machine} {v : Value}
    (h : (Job.sort items f).run host depth m = .ok v m') :
    ∃ sorted, v = .list sorted ∧ sorted.Perm items := by
  have hcall : (Job.sort items f).run host depth m =
      (within host.limit depth).callWith (within host.limit depth).apply (.native .listSort)
        [.list items, .function f] host m := by
    rw [← apply_eq_callWith]
    rfl
  rw [hcall, callWith_listSort] at h
  obtain ⟨_, m₁, -, h⟩ := Eval.bind_eq_ok h
  obtain ⟨sorted, m₂, hsort, h⟩ := Eval.bind_eq_ok h
  cases h
  exact ⟨sorted, rfl, perm_of_mergeSortM hsort⟩

/-- If all comparisons that a log tells of answer by an order, the sort is one by that order. -/
theorem run_sort_of_answers {m : Machine} {log : List Entry}
    (hlog : Logs host depth [(.sort items f, m)] log)
    (hcompare : ∀ a ∈ items, ∀ b ∈ items, ∀ m₁, .begun depth (.apply f [a, b]) m₁ ∈ log →
      ∃ m₂, (Job.apply f [a, b]).run host depth m₁ = .ok (.number (order a b)) m₂)
    (htotal : ∀ a ∈ items, ∀ b ∈ items, (order a b).le 0 = true ∨ (order b a).le 0 = true)
    (htrans : ∀ a ∈ items, ∀ b ∈ items, ∀ c ∈ items, (order a b).le 0 = true →
      (order b c).le 0 = true → (order a c).le 0 = true) :
    ∃ places m', Stable (fun i j => (order (items.get i) (items.get j)).le 0) places ∧
      (Job.sort items f).run host depth m = .ok (.list (places.map items.get)) m' := by
  let answers := Job.answerBy host depth items f order
  let call (g : Function Value) (args : List Value) : Eval Value := answers (.apply g args)
  -- the function may do anything elsewhere, but what it does here is all that matters
  have hbody : (Job.sort items f).body depth answers host m = (Job.sort items f).run host depth m := by
    apply hlog.body_eq_run
    intro job m₁ hbegun
    apply answerBy_eq_run
    rintro a ha b hb rfl
    exact hcompare a ha b hb m₁ hbegun
  have hanswers : ∀ a ∈ items, ∀ b ∈ items, ∀ m₁, ∃ m₂,
      askOrder call f a b host m₁ = .ok ((order a b).le 0) m₂ := by
    intro a ha b hb m₁
    obtain ⟨m₂, hanswer⟩ := answerBy_of_mem ha hb m₁
    exact ⟨m₂, Eval.bind_of_ok hanswer _⟩
  let reported := m.report (.applying "sort" depth)
  obtain ⟨places, m', hstable, hsort⟩ := exists_stable_mergeSortM hanswers htotal htrans reported
  refine ⟨places, m', hstable, ?_⟩
  calc (Job.sort items f).run host depth m
      = (Job.sort items f).body depth answers host m := hbody.symm
    _ = (do return .list (← mergeSortM (askOrder call f) items) : Eval Value) host reported := rfl
    _ = .ok (.list (places.map items.get)) m' := Eval.bind_of_ok hsort _

end

/-- **Sorting by a function is a stable sort**, at any depth and from any machine. If it ends with a
value, that is a permutation of the items, whatever the function does. If every call of the function
with two of the items that the log of the sort tells of ends with a number that depends on the two
alone, and to be at most zero is a total and transitive order of the items, then the sort does end with
a value: the items in that order. It is the one order of their places in which, of two items, the one
that stood in front still does so exactly if its number is at most zero. -/
theorem sorting_by_function_is_stable (host : Host) (depth : Nat) (m : Machine) (items : List Value)
    (f : Function Value) :
    (∀ v m', (Job.sort items f).run host depth m = .ok v m' →
      ∃ sorted, v = .list sorted ∧ sorted.Perm items) ∧
    (∃ log, Logs host depth [(.sort items f, m)] log) ∧
    (∀ (log : List Entry) (order : Value → Value → Number),
      Logs host depth [(.sort items f, m)] log →
      (∀ a ∈ items, ∀ b ∈ items, ∀ m₁, .begun depth (.apply f [a, b]) m₁ ∈ log →
        ∃ m₂, (Job.apply f [a, b]).run host depth m₁ = .ok (.number (order a b)) m₂) →
      (∀ a ∈ items, ∀ b ∈ items, (order a b).le 0 = true ∨ (order b a).le 0 = true) →
      (∀ a ∈ items, ∀ b ∈ items, ∀ c ∈ items, (order a b).le 0 = true → (order b c).le 0 = true →
        (order a c).le 0 = true) →
      ∃ places m',
        (Job.sort items f).run host depth m = .ok (.list (places.map items.get)) m' ∧
        Stable (fun i j => (order (items.get i) (items.get j)).le 0) places ∧
        (∀ places', Stable (fun i j => (order (items.get i) (items.get j)).le 0) places' →
          places' = places) ∧
        (places.map items.get).Pairwise fun a b => (order a b).le 0 = true) := by
  refine ⟨fun v m' => perm_of_run_sort, ?_, ?_⟩
  · obtain ⟨log, hlog, -⟩ := hasLog host depth (.sort items f) m
    exact ⟨log, hlog⟩
  · intro log order hlog hcompare htotal htrans
    obtain ⟨places, m', hstable, hrun⟩ := run_sort_of_answers hlog hcompare htotal htrans
    refine ⟨places, m', hrun, hstable, fun places' h => h.unique hstable, ?_⟩
    rw [List.pairwise_map]
    exact hstable.pairwise fun i j => htotal _ (List.get_mem items i) _ (List.get_mem items j)

/-- Three numbers are sorted by their difference, which does not tell the two zeros apart: they keep
their order. -/
theorem sorting_by_function_is_stable_zeros :
    let host : Host := ⟨100, fun _ => .error .notFound⟩
    let items : List Value := [.number 1, .number (-0), .number 0]
    let f : Function Value := .native (.primitive .subtract)
    let order (a b : Value) : Number :=
      match a, b with
      | .number a, .number b => a - b
      | _, _ => 0
    (∃ log, Logs host 3 [(.sort items f, .initial)] log) ∧
    (∀ a ∈ items, ∀ b ∈ items, ∀ m₁, ∃ m₂,
      (Job.apply f [a, b]).run host 3 m₁ = .ok (.number (order a b)) m₂) ∧
    (∀ a ∈ items, ∀ b ∈ items, (order a b).le 0 = true ∨ (order b a).le 0 = true) ∧
    (∀ a ∈ items, ∀ b ∈ items, ∀ c ∈ items, (order a b).le 0 = true → (order b c).le 0 = true →
      (order a c).le 0 = true) ∧
    ∃ m', (Job.sort items f).run host 3 .initial =
      .ok (.list [.number (-0), .number 0, .number 1]) m' := by
  intro host items f order
  have hcompare : ∀ a ∈ items, ∀ b ∈ items, ∀ m₁, ∃ m₂,
      (Job.apply f [a, b]).run host 3 m₁ = .ok (.number (order a b)) m₂ := by
    have hnumbers : ∀ a ∈ items, ∃ x, a = .number x := by simp [items]
    intro a ha b hb m₁
    obtain ⟨x, rfl⟩ := hnumbers a ha
    obtain ⟨y, rfl⟩ := hnumbers b hb
    refine ⟨m₁.report (.applying "-" 3), ?_⟩
    show (within 100 3).apply f [.number x, .number y] host m₁ = _
    rw [apply_eq_callWith]
    rfl
  have htotal : ∀ a ∈ items, ∀ b ∈ items, (order a b).le 0 = true ∨ (order b a).le 0 = true := by
    decide +kernel
  have htrans : ∀ a ∈ items, ∀ b ∈ items, ∀ c ∈ items, (order a b).le 0 = true →
      (order b c).le 0 = true → (order a c).le 0 = true := by
    decide +kernel
  have hstable : Stable (fun i j => (order (items.get i) (items.get j)).le 0) [1, 2, 0] :=
    ⟨by decide, by decide +kernel⟩
  obtain ⟨-, ⟨log, hlog⟩, hsort⟩ := sorting_by_function_is_stable host 3 .initial items f
  obtain ⟨places, m', hrun, -, hunique, -⟩ :=
    hsort log order hlog (fun a ha b hb m₁ _ => hcompare a ha b hb m₁) htotal htrans
  rw [← hunique _ hstable] at hrun
  exact ⟨⟨log, hlog⟩, hcompare, htotal, htrans, m', hrun⟩

end SmallLisp
