import SmallLisp.Proofs.Equality
import SmallLisp.Proofs.Inspection
import SmallLisp.Proofs.Recursion
/-!
# When arithmetic fails

Sums, differences, products, quotients and remainders check their arguments in different ways and in a
different order. `Refuses` lists what can be wrong with arguments, without saying how it is found out:
too few of them or not two, one that is no number, and a zero to divide by. **An operation fails with a
fault exactly if it is listed** (`compute_eq_error_iff`), so of two faults it is clear which one is
reported, and there are no others.

One direction goes through the list (`compute_of_refuses`), the other one through the operations: each
of them gives a number or has something listed (`computes_or_refuses`). Both rest on how a list of
arguments is converted: either all of them are numbers, or one is the first that is none
(`numbers_or_other`).
-/

namespace SmallLisp

namespace Number

def zeros : List Number :=
  [ofMagnitude false 0, ofMagnitude true 0]

/-- The two zeros, of either sign, are the only numbers a division refuses. -/
theorem isZero_iff {n : Number} : n.isZero = true ↔ n ∈ zeros := by
  constructor
  · intro h
    have hmagnitude : n.magnitude = 0 := by simpa [isZero] using h
    cases hsign : n.isNegative with
    | false =>
      have heq : n = ofMagnitude false 0 := eq_of_magnitude_eq hsign hmagnitude
      simp [heq, zeros]
    | true =>
      have heq : n = ofMagnitude true 0 := eq_of_magnitude_eq hsign hmagnitude
      simp [heq, zeros]
  · have hzeros : ∀ n ∈ zeros, n.isZero = true := by decide
    exact hzeros n

end Number

open Number

namespace Library

/-! ### Arguments as numbers -/

/-- The first argument that is no number is of this kind. -/
def FirstOther (args : List Value) (kind : Kind) : Prop :=
  ∃ (before : List Number) (v : Value) (after : List Value),
    args = before.map .number ++ v :: after ∧ v.kind = kind ∧ kind ≠ .number

variable {args : List Value} {kind : Kind}

theorem FirstOther.ne_nil (h : FirstOther args kind) : args ≠ [] := by
  obtain ⟨before, v, after, rfl, -⟩ := h
  simp

/-- Arguments are numbers, or one is the first that is none. -/
theorem numbers_or_other (args : List Value) :
    (∃ ns : List Number, args = ns.map .number) ∨ ∃ kind, FirstOther args kind := by
  induction args with
  | nil => exact .inl ⟨[], rfl⟩
  | cons arg args ih =>
    by_cases hkind : arg.kind = .number
    · obtain ⟨n, rfl⟩ : ∃ n, arg = .number n := by
        cases arg <;> cases hkind
        exact ⟨_, rfl⟩
      rcases ih with ⟨ns, rfl⟩ | ⟨kind, before, v, after, rfl, hv⟩
      · exact .inl ⟨n :: ns, rfl⟩
      · exact .inr ⟨kind, n :: before, v, after, rfl, hv⟩
    · exact .inr ⟨arg.kind, [], arg, args, rfl, rfl, hkind⟩

/-- A value of another kind is refused with the kind that was wanted and the kind it has. -/
theorem convert_asNumber {v : Value} (h : v.kind ≠ .number) :
    convert v.asNumber = .error (.wrongType ⟨.number, v.kind⟩) := by
  cases v <;> first | rfl | exact absurd rfl h

/-- Arguments are converted from the left, so the first that is no number decides the error. -/
theorem numbers_of_firstOther (h : FirstOther args kind) :
    numbers args = .error (.wrongType ⟨.number, kind⟩) := by
  obtain ⟨before, v, after, rfl, rfl, hkind⟩ := h
  have hnumbers : numbers (v :: after) = .error (.wrongType ⟨.number, v.kind⟩) := by
    rw [numbers, List.mapM_cons, convert_asNumber hkind]
    rfl
  induction before with
  | nil => exact hnumbers
  | cons n before ih =>
    simp only [numbers] at ih ⊢
    rw [List.map_cons, List.cons_append, List.mapM_cons, ih]
    rfl

/-! ### Operations on numbers -/

theorem add_map_number (ns : List Number) :
    add (ns.map .number) = .ok (.number (ns.foldl (· + ·) 0)) := by
  rw [add, numbers_map_number]
  rfl

theorem multiply_map_number (ns : List Number) :
    multiply (ns.map .number) = .ok (.number (ns.foldl (· * ·) 1)) := by
  rw [multiply, numbers_map_number]
  rfl

/-- One number is negated and several are subtracted from the first, so only no number at all fails.
-/
theorem subtract_map_number {ns : List Number} (h : ns ≠ []) :
    ∃ n, subtract (ns.map .number) = .ok (.number n) := by
  match ns, h with
  | [n], _ => exact ⟨-n, rfl⟩
  | n :: next :: ns, _ =>
    refine ⟨(next :: ns).foldl (· - ·) n, ?_⟩
    rw [subtract, numbers_map_number]
    rfl

theorem remainder_pair (a b : Number) :
    remainder [.number a, .number b] =
      if b.isZero then .error .moduloByZero else .ok (.number (a % b)) := by
  show (if b.isZero = true then (throw .moduloByZero : Except Fault Value) else _) = _
  split <;> rfl

/-- The number that a quotient starts with: the first, or one if there is no other. -/
def dividend : List Number → Number
  | [_] => 1
  | ns => ns.headD 1

/-- The numbers that a quotient is divided by: all but the first, or the only one. -/
def divisors : List Number → List Number
  | [n] => [n]
  | ns => ns.tail

/-- Dividing by one number after the other fails if one of them is a zero, whatever the quotients in
between are. -/
theorem foldlM_quotient (n : Number) (ns : List Number) :
    ns.foldlM quotient n =
      if ns.any isZero then .error .divisionByZero else .ok (ns.foldl (· / ·) n) := by
  induction ns generalizing n with
  | nil => rfl
  | cons divisor ns ih =>
    rw [List.foldlM_cons, quotient, List.any_cons]
    cases divisor.isZero with
    | true => rfl
    | false => exact ih (n / divisor)

/-- A zero is refused wherever it stands among the divisors; otherwise the quotients are taken from
the left. -/
theorem divide_map_number {ns : List Number} (h : ns ≠ []) :
    divide (ns.map .number) =
      if (divisors ns).any isZero then .error .divisionByZero
      else .ok (.number ((divisors ns).foldl (· / ·) (dividend ns))) := by
  have hfold : divide (ns.map .number) = (do
      return .number (← (divisors ns).foldlM quotient (dividend ns))) := by
    rw [divide, numbers_map_number]
    match ns, h with
    | [n], _ =>
      show (quotient 1 n >>= fun q => pure (Value.number q)) = _
      simp [divisors, dividend]
    | _ :: _ :: _, _ => rfl
  rw [hfold, foldlM_quotient]
  split <;> rfl

theorem any_isZero_iff {ns : List Number} : ns.any isZero = true ↔ ∃ n ∈ ns, n ∈ zeros := by
  simp only [List.any_eq_true, isZero_iff]

/-! ### What is wrong with arguments -/

def arithmetic : List Primitive :=
  [.add, .multiply, .subtract, .divide, .remainder]

/-- The operation refuses the arguments with this fault. -/
inductive Refuses : Primitive → List Value → Fault → Prop where
  /-- There is nothing to subtract from or to divide. -/
  | noArgument {op : Primitive} : op = .subtract ∨ op = .divide → Refuses op [] (.tooFewArgs 1 0)
  /-- A remainder is of two numbers. -/
  | notTwo {args : List Value} :
      args.length ≠ 2 → Refuses .remainder args (.wrongArgCount 2 args.length)
  /-- The first argument that is no number is reported, even behind a zero to divide by. A remainder
  counts its arguments before. -/
  | notANumber {op : Primitive} {args : List Value} {kind : Kind} :
      op ∈ arithmetic → (op = .remainder → args.length = 2) → FirstOther args kind →
        Refuses op args (.wrongType ⟨.number, kind⟩)
  /-- All are numbers, and one to divide by is a zero. -/
  | zeroDivisor {ns : List Number} {n : Number} :
      n ∈ divisors ns → n ∈ zeros → Refuses .divide (ns.map .number) .divisionByZero
  /-- Both are numbers, and the second one is a zero. -/
  | zeroModulus {a b : Number} :
      b ∈ zeros → Refuses .remainder [.number a, .number b] .moduloByZero

/-- An argument that is no number comes before every other complaint but a wrong count, which only
the remainder makes about non-numbers. -/
theorem compute_of_firstOther {op : Primitive} (hop : op ∈ arithmetic)
    (hcount : op = .remainder → args.length = 2) (h : FirstOther args kind) :
    op.compute args = .error (.wrongType ⟨.number, kind⟩) := by
  have hnumbers := numbers_of_firstOther h
  simp only [arithmetic, List.mem_cons, List.not_mem_nil, or_false] at hop
  rcases hop with rfl | rfl | rfl | rfl | rfl
  · rw [Primitive.compute, Library.add, hnumbers]
    rfl
  · rw [Primitive.compute, Library.multiply, hnumbers]
    rfl
  · have hlength : ¬ args.length < 1 := by
      have := List.length_pos_iff.mpr h.ne_nil
      omega
    rw [Primitive.compute, Library.subtract, atLeast, if_neg hlength, hnumbers]
    rfl
  · rw [Primitive.compute, Library.divide, hnumbers]
    rfl
  · -- of the two arguments, either may be the first that is no number
    obtain ⟨before, v, after, rfl, rfl, hkind⟩ := h
    have hconvert := convert_asNumber hkind
    have hlength := hcount rfl
    rw [List.length_append, List.length_map, List.length_cons] at hlength
    cases before with
    | nil =>
      obtain ⟨b, rfl⟩ : ∃ b, after = [b] := List.length_eq_one_iff.mp (by simpa using hlength)
      show (convert v.asNumber >>= _) = _
      rw [hconvert]
      rfl
    | cons n before =>
      obtain ⟨rfl, rfl⟩ : before = [] ∧ after = [] := by
        rw [List.length_cons] at hlength
        exact ⟨List.length_eq_zero_iff.mp (by omega), List.length_eq_zero_iff.mp (by omega)⟩
      show (convert v.asNumber >>= _) = _
      rw [hconvert]
      rfl

/-- **What is listed is what an operation fails with.** -/
theorem compute_of_refuses {op : Primitive} {fault : Fault} (h : Refuses op args fault) :
    op.compute args = .error fault := by
  cases h with
  | noArgument hop => rcases hop with rfl | rfl <;> rfl
  | notTwo hlength =>
    have htwo : two args = .error (.wrongArgCount 2 args.length) := by
      unfold two
      split
      · exact absurd rfl hlength
      · rfl
    rw [Primitive.compute, Library.remainder, htwo]
    rfl
  | notANumber hop hcount hother => exact compute_of_firstOther hop hcount hother
  | @zeroDivisor ns n hn hzero =>
    have hne : ns ≠ [] := by
      rintro rfl
      cases hn
    rw [Primitive.compute, divide_map_number hne, if_pos (any_isZero_iff.mpr ⟨n, hn, hzero⟩)]
  | zeroModulus hzero =>
    rw [Primitive.compute, remainder_pair, if_pos (isZero_iff.mpr hzero)]

/-- Each operation gives a number, unless something is wrong with its arguments. -/
theorem computes_or_refuses {op : Primitive} (hop : op ∈ arithmetic) (args : List Value) :
    (∃ n, op.compute args = .ok (.number n)) ∨ ∃ fault, Refuses op args fault := by
  by_cases hcount : op = .remainder → args.length = 2
  case neg =>
    obtain ⟨rfl, hlength⟩ := Classical.not_imp.mp hcount
    exact .inr ⟨_, .notTwo hlength⟩
  rcases numbers_or_other args with ⟨ns, rfl⟩ | ⟨kind, hother⟩
  case inr => exact .inr ⟨_, .notANumber hop hcount hother⟩
  -- all arguments are numbers, and for a remainder there are two
  simp only [arithmetic, List.mem_cons, List.not_mem_nil, or_false] at hop
  rcases hop with rfl | rfl | rfl | rfl | rfl
  · exact .inl ⟨_, add_map_number ns⟩
  · exact .inl ⟨_, multiply_map_number ns⟩
  · by_cases hne : ns = []
    · subst hne
      exact .inr ⟨_, .noArgument (.inl rfl)⟩
    · exact .inl (subtract_map_number hne)
  · by_cases hne : ns = []
    · subst hne
      exact .inr ⟨_, .noArgument (.inr rfl)⟩
    have hdivide := divide_map_number hne
    by_cases hzero : (divisors ns).any isZero = true
    · obtain ⟨n, hn, hzero⟩ := any_isZero_iff.mp hzero
      exact .inr ⟨_, .zeroDivisor hn hzero⟩
    · rw [if_neg hzero] at hdivide
      exact .inl ⟨_, hdivide⟩
  · obtain ⟨a, b, rfl⟩ : ∃ a b, ns = [a, b] := List.length_eq_two.mp (by simpa using hcount rfl)
    have hremainder := remainder_pair a b
    by_cases hzero : b.isZero = true
    · exact .inr ⟨_, .zeroModulus (isZero_iff.mp hzero)⟩
    · rw [if_neg hzero] at hremainder
      exact .inl ⟨_, hremainder⟩

/-- `Refuses` is exact: it lists each operator's errors with their order of precedence. -/
theorem compute_eq_error_iff {op : Primitive} (hop : op ∈ arithmetic) {fault : Fault} :
    op.compute args = .error fault ↔ Refuses op args fault := by
  refine ⟨?_, compute_of_refuses⟩
  intro h
  rcases computes_or_refuses hop args with ⟨n, hn⟩ | ⟨fault', hrefuses⟩
  · rw [h] at hn
    cases hn
  · have hfault := compute_of_refuses hrefuses
    rw [h] at hfault
    cases hfault
    exact hrefuses

/-! ### When operations give a number -/

theorem not_refuses_of_ok {op : Primitive} {v : Value} {fault : Fault} (h : op.compute args = .ok v) :
    ¬ Refuses op args fault := by
  intro hrefuses
  rw [compute_of_refuses hrefuses] at h
  cases h

/-- What succeeds was given numbers only. -/
theorem exists_numbers_of_ok {op : Primitive} {v : Value} (hop : op ∈ arithmetic)
    (h : op.compute args = .ok v) : ∃ ns : List Number, args = ns.map .number := by
  have hcount : op = .remainder → args.length = 2 := by
    rintro rfl
    by_contra hlength
    exact not_refuses_of_ok h (.notTwo hlength)
  rcases numbers_or_other args with hnumbers | ⟨kind, hother⟩
  · exact hnumbers
  · exact absurd (.notANumber hop hcount hother) (not_refuses_of_ok h)

theorem subtract_eq_ok_iff :
    (∃ v, Primitive.subtract.compute args = .ok v) ↔
      ∃ ns : List Number, args = ns.map .number ∧ ns ≠ [] := by
  constructor
  · rintro ⟨v, hv⟩
    obtain ⟨ns, rfl⟩ := exists_numbers_of_ok (by decide) hv
    refine ⟨ns, rfl, ?_⟩
    rintro rfl
    exact not_refuses_of_ok hv (.noArgument (.inl rfl))
  · rintro ⟨ns, rfl, hne⟩
    obtain ⟨n, hn⟩ := subtract_map_number hne
    exact ⟨.number n, hn⟩

theorem divide_eq_ok_iff :
    (∃ v, Primitive.divide.compute args = .ok v) ↔
      ∃ ns : List Number, args = ns.map .number ∧ ns ≠ [] ∧ ∀ n ∈ divisors ns, n ∉ zeros := by
  constructor
  · rintro ⟨v, hv⟩
    obtain ⟨ns, rfl⟩ := exists_numbers_of_ok (by decide) hv
    refine ⟨ns, rfl, ?_, ?_⟩
    · rintro rfl
      exact not_refuses_of_ok hv (.noArgument (.inr rfl))
    · intro n hn hzero
      exact not_refuses_of_ok hv (.zeroDivisor hn hzero)
  · rintro ⟨ns, rfl, hne, hzeros⟩
    have hany : ¬ (divisors ns).any isZero = true := by
      rw [any_isZero_iff]
      rintro ⟨n, hn, hzero⟩
      exact hzeros n hn hzero
    have hdivide := divide_map_number hne
    rw [if_neg hany] at hdivide
    exact ⟨_, hdivide⟩

theorem remainder_eq_ok_iff :
    (∃ v, Primitive.remainder.compute args = .ok v) ↔
      ∃ a b : Number, args = [.number a, .number b] ∧ b ∉ zeros := by
  constructor
  · rintro ⟨v, hv⟩
    have hlength : args.length = 2 := by
      by_contra hlength
      exact not_refuses_of_ok hv (.notTwo hlength)
    obtain ⟨ns, rfl⟩ := exists_numbers_of_ok (by decide) hv
    obtain ⟨a, b, rfl⟩ : ∃ a b, ns = [a, b] := List.length_eq_two.mp (by simpa using hlength)
    exact ⟨a, b, rfl, fun hzero => not_refuses_of_ok hv (.zeroModulus hzero)⟩
  · rintro ⟨a, b, rfl, hzero⟩
    have hremainder := remainder_pair a b
    rw [if_neg (mt isZero_iff.mp hzero)] at hremainder
    exact ⟨_, hremainder⟩

end Library

/-- A call of a primitive is reported, and does nothing else. -/
theorem Context.run_primitive (ctx : Context) (op : Primitive) (args : List Value) (host : Host)
    (m : Machine) :
    ctx.apply (.native (.primitive op)) args host m =
      match op.compute args with
      | .ok v => .ok v (m.report (.applying op.name ctx.depth))
      | .error fault => .error fault (m.report (.applying op.name ctx.depth)) := by
  rw [apply_primitive]
  cases op.compute args <;> rfl

open Library in
/-- **Arithmetic fails exactly when it must, and with the right fault.** Sums and products are given if
all arguments are numbers, and a difference if there is one at least. A quotient also needs that
nothing it is divided by is a zero, and a remainder is of two numbers of which the second is no zero.
Otherwise an operation fails, and `Refuses` says with which fault. Either way, no scope changes. -/
theorem arithmetic_fails_exactly_when_it_must (args : List Value) :
    (∀ op ∈ [Primitive.add, .multiply], (∃ v, op.compute args = .ok v) ↔
      ∃ ns : List Number, args = ns.map .number) ∧
    ((∃ v, Primitive.subtract.compute args = .ok v) ↔
      ∃ ns : List Number, args = ns.map .number ∧ ns ≠ []) ∧
    ((∃ v, Primitive.divide.compute args = .ok v) ↔
      ∃ ns : List Number, args = ns.map .number ∧ ns ≠ [] ∧ ∀ n ∈ divisors ns, n ∉ zeros) ∧
    ((∃ v, Primitive.remainder.compute args = .ok v) ↔
      ∃ a b : Number, args = [.number a, .number b] ∧ b ∉ zeros) ∧
    (∀ op ∈ arithmetic, ∀ fault, op.compute args = .error fault ↔ Refuses op args fault) ∧
    (∀ op ∈ arithmetic, ∀ (ctx : Context) (host : Host) (m : Machine), ∃ m' : Machine,
      (m'.scopes = m.scopes ∧ m'.registry = m.registry ∧ m'.output = m.output) ∧
      ctx.apply (.native (.primitive op)) args host m =
        match op.compute args with
        | .ok v => .ok v m'
        | .error fault => .error fault m') := by
  refine ⟨?_, subtract_eq_ok_iff, divide_eq_ok_iff, remainder_eq_ok_iff,
    fun op hop fault => compute_eq_error_iff hop, ?_⟩
  · intro op hop
    constructor
    · rintro ⟨v, hv⟩
      have hmem : ∀ op ∈ [Primitive.add, .multiply], op ∈ arithmetic := by decide
      exact exists_numbers_of_ok (hmem op hop) hv
    · rintro ⟨ns, rfl⟩
      simp only [List.mem_cons, List.not_mem_nil, or_false] at hop
      rcases hop with rfl | rfl
      · exact ⟨_, add_map_number ns⟩
      · exact ⟨_, multiply_map_number ns⟩
  · intro op _ ctx host m
    exact ⟨m.report (.applying op.name ctx.depth), ⟨rfl, rfl, rfl⟩,
      ctx.run_primitive op args host m⟩

open Library in
/-- The sum of nothing, a quotient that is a zero all along, a divisor that is the negative zero, and the
call of a quotient with a zero in front of an argument that is no number. -/
theorem arithmetic_fails_exactly_when_it_must_zeros :
    let one : Number := ⟨0x3ff0000000000000⟩
    let zero : Number := ⟨0⟩
    let minusZero : Number := ⟨0x8000000000000000⟩
    (∃ v, Primitive.add.compute [] = .ok v) ∧
    (∃ v, Primitive.divide.compute [.number zero, .number one, .number one] = .ok v) ∧
    Primitive.divide.compute [.number one, .number one, .number minusZero] =
      .error .divisionByZero ∧
    ∃ m' : Machine, m'.scopes = Machine.initial.scopes ∧
      (Context.within 100 0).apply (.native (.primitive .divide))
        [.number one, .number zero, .string "", .null]
        ⟨100, fun _ => .error .notFound⟩ .initial = .error (.wrongType ⟨.number, .string⟩) m' := by
  intro one zero minusZero
  obtain ⟨hsum, -⟩ := arithmetic_fails_exactly_when_it_must []
  obtain ⟨-, -, hquotient, -⟩ :=
    arithmetic_fails_exactly_when_it_must [.number zero, .number one, .number one]
  obtain ⟨-, -, -, -, hzero, -⟩ :=
    arithmetic_fails_exactly_when_it_must [.number one, .number one, .number minusZero]
  obtain ⟨-, -, -, -, hother, hcall⟩ :=
    arithmetic_fails_exactly_when_it_must [.number one, .number zero, .string "", .null]
  have hdivisor : minusZero ∈ divisors [one, one, minusZero] := by decide
  have hfirst : FirstOther [.number one, .number zero, .string "", .null] .string :=
    ⟨[one, zero], .string "", [.null], rfl, rfl, by decide⟩
  refine ⟨(hsum .add (by decide)).mpr ⟨[], rfl⟩, hquotient.mpr ⟨[zero, one, one], rfl, by decide⟩,
    (hzero .divide (by decide) _).mpr (.zeroDivisor hdivisor (by decide)), ?_⟩
  have hfault := (hother .divide (by decide) _).mpr (.notANumber (by decide) nofun hfirst)
  obtain ⟨m', ⟨hscopes, -⟩, hrun⟩ :=
    hcall .divide (by decide) (.within 100 0) ⟨100, fun _ => .error .notFound⟩ .initial
  rw [hfault] at hrun
  exact ⟨m', hscopes, hrun⟩

end SmallLisp
