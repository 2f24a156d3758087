import SmallLisp.Proofs.Spelling
/-!
# Inspected tokens are told apart

Inspecting shows a token as a text for people to read, and nothing reads such a text back. Still it
shows all that there is to see: **tokens that may be read from a program and are inspected alike are
equal** (`Token.eq_of_inspect_eq`), even zeros of different signs.

For texts that is so because what stands for one character ends where it ends, whatever comes after it
(`Text.escapeInspected_append_inj`). For numbers, a text without an exponent is a numeral, and two
numerals that are the same text are read as the same number; and from a text with an exponent the
significant digits and the place of the leading one can be taken, of which a number is made up
(`Decimal.magnitude_significant`).
-/

namespace SmallLisp

/-! ### Digits -/

theorem exists_digitChar_of_mem_toDigits {n : Nat} {c : Char} (h : c ∈ Nat.toDigits 16 n) :
    ∃ d < 16, c = Nat.digitChar d := by
  induction n using Nat.strongRecOn with
  | ind n ih =>
    rw [Nat.toDigits_eq_if (by decide)] at h
    split at h
    · next hlt => exact ⟨n, hlt, List.mem_singleton.mp h⟩
    · next hle =>
      rcases List.mem_append.mp h with hfront | hlast
      · exact ih (n / 16) (Nat.div_lt_self (by omega) (by decide)) hfront
      · exact ⟨n % 16, Nat.mod_lt n (by decide), List.mem_singleton.mp hlast⟩

/-- Hexadecimal digits are written with distinct characters. -/
theorem digitChar_inj {a b : Nat} (ha : a < 16) (hb : b < 16)
    (h : Nat.digitChar a = Nat.digitChar b) : a = b := by
  have hall : ∀ a < 16, ∀ b < 16, Nat.digitChar a = Nat.digitChar b → a = b := by decide
  exact hall a ha b hb h

/-- A number is known by its hexadecimal digits. -/
theorem toDigits_sixteen_inj {a b : Nat} (h : Nat.toDigits 16 a = Nat.toDigits 16 b) : a = b := by
  induction a using Nat.strongRecOn generalizing b with
  | ind a ih =>
    have hne : ∀ n, Nat.toDigits 16 n ≠ [] := fun _ => Nat.toDigits_ne_nil
    rw [Nat.toDigits_eq_if (by decide), Nat.toDigits_eq_if (n := b) (by decide)] at h
    split at h <;> split at h
    · next ha hb => exact digitChar_inj ha hb (List.singleton_inj.mp h)
    · simpa [hne] using congrArg List.length h
    · simpa [hne] using congrArg List.length h
    · next ha hb =>
      obtain ⟨hfront, hlast⟩ := List.append_inj' h rfl
      have hdiv : a / 16 = b / 16 := ih (a / 16) (Nat.div_lt_self (by omega) (by decide)) hfront
      have hmod : a % 16 = b % 16 :=
        digitChar_inj (Nat.mod_lt a (by decide)) (Nat.mod_lt b (by decide))
          (List.singleton_inj.mp hlast)
      rw [← Nat.div_add_mod a 16, ← Nat.div_add_mod b 16, hdiv, hmod]

theorem toList_toString_int (a : Int) :
    (toString a).toList = (if a < 0 then ['-'] else []) ++ Nat.toDigits 10 a.natAbs := by
  cases a with
  | ofNat n =>
    have hsign : ¬ Int.ofNat n < 0 := Int.not_lt.mpr (Int.natCast_nonneg n)
    rw [if_neg hsign]
    exact Nat.toList_repr
  | negSucc n =>
    have htext : toString (Int.negSucc n) = "-" ++ (n + 1).repr := rfl
    rw [htext, String.toList_append, Nat.toList_repr, if_pos (Int.negSucc_lt_zero n)]
    rfl

/-- An exponent is written with digits and a minus sign, so it brings no letter in. -/
theorem mem_toString_int {a : Int} {c : Char} (h : c ∈ (toString a).toList) :
    c.isDigit = true ∨ c = '-' := by
  rw [toList_toString_int, List.mem_append] at h
  rcases h with hsign | hdigit
  · split at hsign <;> simp_all
  · exact .inl (Decimal.isDigit_of_mem_toDigits hdigit)

/-- An integer is known by its text. -/
theorem toString_int_inj {a b : Int} (h : toString a = toString b) : a = b := by
  have htext := congrArg String.toList h
  rw [toList_toString_int, toList_toString_int] at htext
  have hminus : ∀ n, '-' ∉ Nat.toDigits 10 n := by
    intro n hn
    exact absurd (Decimal.isDigit_of_mem_toDigits hn) (by decide)
  have hsign : a < 0 ↔ b < 0 := by
    have hmem := congrArg ('-' ∈ ·) htext
    simpa [hminus] using hmem
  simp only [hsign, List.append_cancel_left_eq] at htext
  have hnat : a.natAbs = b.natAbs := by
    rw [← Decimal.ofDigits_toDigits a.natAbs, htext, Decimal.ofDigits_toDigits]
  omega

/-- Up to a character that neither has in front, two texts are alike. -/
theorem append_cons_inj {α : Type} {a : α} {xs ys rest rest' : List α} (hxs : a ∉ xs) (hys : a ∉ ys)
    (h : xs ++ a :: rest = ys ++ a :: rest') : xs = ys ∧ rest = rest' := by
  induction xs generalizing ys with
  | nil =>
    cases ys with
    | nil => exact ⟨rfl, (List.cons.inj h).2⟩
    | cons y ys =>
      have ha : a = y := (List.cons.inj h).1
      simp [ha] at hys
  | cons x xs ih =>
    rw [List.mem_cons, not_or] at hxs
    cases ys with
    | nil => exact absurd (List.cons.inj h).1.symm hxs.1
    | cons y ys =>
      rw [List.mem_cons, not_or] at hys
      obtain ⟨rfl, hrest⟩ := List.cons.inj h
      obtain ⟨rfl, rfl⟩ := ih hxs.2 hys.2 hrest
      exact ⟨rfl, rfl⟩

/-! ### Texts -/

namespace Text

variable {c d : Char} {rest rest' : List Char}

/-- The four ways in which a character is shown. -/
theorem escapeInspected_cases (c : Char) :
    (∃ letter, unescape? letter = some c ∧ escapeInspected c = ['\\', letter]) ∨
    (c = '\x00' ∧ escapeInspected c = ['\\', '0']) ∨
    escapeInspected c = byCode c ∨
    (escapeInspected c = [c] ∧ escapeLetter? c = none) := by
  unfold escapeInspected
  split
  · next letter hletter => exact .inl ⟨letter, unescape?_escapeLetter? hletter, rfl⟩
  · next hnone =>
    split
    · next hzero => exact .inr (.inl ⟨hzero, rfl⟩)
    · split
      · exact .inr (.inr (.inl rfl))
      · exact .inr (.inr (.inr ⟨rfl, hnone⟩))

/-- A character that is no hexadecimal digit does not occur in a code. -/
theorem not_mem_toDigits_sixteen {n : Nat} (h : ∀ d < 16, c ≠ Nat.digitChar d) :
    c ∉ Nat.toDigits 16 n := by
  intro hc
  obtain ⟨d, hd, rfl⟩ := exists_digitChar_of_mem_toDigits hc
  exact h d hd rfl

theorem byCode_append (c : Char) (rest : List Char) :
    byCode c ++ rest = '\\' :: 'u' :: '\x7b' :: (Nat.toDigits 16 c.toNat ++ '\x7d' :: rest) := by
  simp [byCode]

/-- The closing brace ends the code, so what stands behind cannot be taken for a part of it. -/
theorem byCode_append_inj (h : byCode c ++ rest = byCode d ++ rest') : c = d ∧ rest = rest' := by
  have hbrace : ∀ n, '\x7d' ∉ Nat.toDigits 16 n := fun n => not_mem_toDigits_sixteen (by decide)
  rw [byCode_append, byCode_append] at h
  simp only [List.cons.injEq, true_and] at h
  obtain ⟨hdigits, hrest⟩ := append_cons_inj (hbrace _) (hbrace _) h
  exact ⟨Char.toNat_inj.mp (toDigits_sixteen_inj hdigits), hrest⟩

/-- **What stands for a character ends where it ends.** -/
theorem escapeInspected_append_inj (h : escapeInspected c ++ rest = escapeInspected d ++ rest') :
    c = d ∧ rest = rest' := by
  have hletter : unescape? '0' = none ∧ unescape? 'u' = none := by decide
  have hbackslash : escapeLetter? '\\' = some '\\' := rfl
  rcases escapeInspected_cases c with ⟨letter, hc, hshown⟩ | ⟨hc, hshown⟩ | hshown | ⟨hshown, hc⟩ <;>
    rcases escapeInspected_cases d with
      ⟨letter', hd, hshown'⟩ | ⟨hd, hshown'⟩ | hshown' | ⟨hshown', hd⟩ <;>
    rw [hshown, hshown'] at h
  case inr.inr.inl.inr.inr.inl => exact byCode_append_inj h
  all_goals
    simp only [byCode_append, List.cons_append, List.nil_append, List.cons.injEq] at h
    grind

theorem escapeInspected_ne_nil (c : Char) : escapeInspected c ≠ [] := by
  rcases escapeInspected_cases c with ⟨letter, -, hshown⟩ | ⟨-, hshown⟩ | hshown | ⟨hshown, -⟩ <;>
    simp [hshown, byCode]

/-- Quoting loses nothing: each character's spelling says where it ends. By induction on both texts.
-/
theorem flatMap_escapeInspected_inj {cs ds : List Char}
    (h : cs.flatMap escapeInspected = ds.flatMap escapeInspected) : cs = ds := by
  induction cs generalizing ds with
  | nil =>
    cases ds with
    | nil => rfl
    | cons d ds => simp [escapeInspected_ne_nil] at h
  | cons c cs ih =>
    cases ds with
    | nil => simp [escapeInspected_ne_nil] at h
    | cons d ds =>
      obtain ⟨rfl, hrest⟩ := escapeInspected_append_inj h
      rw [ih hrest]

theorem inspected_injective : Function.Injective inspected := by
  intro s t h
  have hshown := congrArg String.toList h
  simp only [inspected, enclose, String.toList_ofList, List.cons_append, List.cons.injEq,
    List.append_cancel_right_eq, true_and] at hshown
  exact String.toList_injective (flatMap_escapeInspected_inj hshown)

/-- What a character is shown as consists of the character itself, letters after a backslash, braces
and digits. -/
theorem mem_escapeInspected {x : Char} (h : x ∈ escapeInspected c) :
    (x = c ∧ escapeLetter? c = none) ∨ x ∈ ['\\', 'n', 't', 'r', '"', 'u', '\x7b', '\x7d'] ∨
      ∃ d < 16, x = Nat.digitChar d := by
  rcases escapeInspected_cases c with ⟨letter, hc, hshown⟩ | ⟨-, hshown⟩ | hshown | ⟨hshown, hc⟩ <;>
    rw [hshown] at h
  · have hletter : letter ∈ ['\\', 'n', 't', 'r', '"'] := by
      unfold unescape? at hc
      split at hc <;> simp_all
    grind
  · have hzero : '0' = Nat.digitChar 0 := rfl
    grind
  · simp only [byCode, List.cons_append, List.mem_cons, List.mem_append] at h
    grind [exists_digitChar_of_mem_toDigits]
  · exact .inl ⟨List.mem_singleton.mp h, hc⟩

/-- A spelling is made of the character itself, the escapes' own characters and hexadecimal digits.
-/
theorem not_mem_escapeInspected {x : Char} (hc : x = c → escapeLetter? c ≠ none)
    (hmarks : x ∉ ['\\', 'n', 't', 'r', '"', 'u', '\x7b', '\x7d'])
    (hdigits : ∀ d < 16, x ≠ Nat.digitChar d) : x ∉ escapeInspected c := by
  intro h
  rcases mem_escapeInspected h with ⟨hself, hnone⟩ | hmark | ⟨d, hd, hdigit⟩
  · exact hc hself hnone
  · exact hmarks hmark
  · exact hdigits d hd hdigit

/-- What is shown is on one line. -/
theorem newline_not_mem_inspected (s : String) : '\n' ∉ (inspected s).toList := by
  have hchar : ∀ c, '\n' ∉ escapeInspected c := by
    intro c
    apply not_mem_escapeInspected
    · rintro rfl
      decide
    · decide
    · decide
  simp [inspected, enclose, hchar]

end Text

/-! ### Numbers -/

namespace Decimal

open Number

/-- Zeros at the end of the digits may be written as a larger scale. -/
theorem magnitude_mul_pow10 (digits zeros : Nat) (scale : Int) :
    magnitude ⟨digits * pow10 zeros, scale⟩ = magnitude ⟨digits, scale + zeros⟩ := by
  unfold magnitude
  by_cases hscale : 0 ≤ scale
  · obtain ⟨places, rfl⟩ := Int.eq_ofNat_of_zero_le hscale
    have hsum : 0 ≤ (places : Int) + zeros := by omega
    have htoNat : ((places : Int) + zeros).toNat = zeros + places := by omega
    simp [ratio, hsum, htoNat, pow10_add, Nat.mul_assoc]
  · obtain ⟨places, rfl⟩ : ∃ places : Nat, scale = -(places : Int) := ⟨(-scale).toNat, by omega⟩
    rw [ratio_neg]
    by_cases hsum : zeros ≤ places
    · -- still digits behind the point
      obtain ⟨count, rfl⟩ := Nat.exists_eq_add_of_le hsum
      have hrest : -((zeros + count : Nat) : Int) + zeros = -(count : Int) := by omega
      rw [hrest, ratio_neg, pow10_add, Nat.mul_comm, nearestMagnitude_mul (pow10_pos zeros)]
    · obtain ⟨count, rfl⟩ := Nat.exists_eq_add_of_le (Nat.le_of_not_le hsum)
      have hrest : -(places : Int) + (places + count : Nat) = count := by omega
      have hratio : ratio ⟨digits, count⟩ = (digits * pow10 count, 1) := by simp [ratio]
      have hnum : digits * pow10 (places + count) = pow10 places * (digits * pow10 count) := by
        rw [pow10_add, Nat.mul_left_comm]
      rw [hrest, hratio, hnum]
      have hone := nearestMagnitude_mul (pow10_pos places) (digits * pow10 count) 1
      rwa [Nat.mul_one] at hone

/-- The digits of a decimal without the zeros at the end. -/
def significant (d : Decimal) : List Char :=
  dropZeros (Nat.toDigits 10 d.digits)

/-- **A decimal is known by its significant digits and the place of the leading one.** -/
theorem magnitude_significant (d : Decimal) :
    d.magnitude =
      magnitude ⟨ofDigits d.significant, d.leadingPlace + 1 - (d.significant.length : Int)⟩ := by
  obtain ⟨zeros, hzeros⟩ := dropZeros_append_zeros (Nat.toDigits 10 d.digits)
  have hdigits : d.digits = ofDigits d.significant * pow10 zeros := by
    have hvalue := ofDigits_toDigits d.digits
    rw [hzeros, ofDigits_append, ofDigits_zeros, List.length_replicate, Nat.add_zero] at hvalue
    exact hvalue.symm
  have hcount : digitCount d.digits = d.significant.length + zeros := by
    have hlength := congrArg List.length hzeros
    rwa [List.length_append, List.length_replicate] at hlength
  have hplace : d.leadingPlace + 1 - (d.significant.length : Int) = d.scale + zeros := by
    rw [leadingPlace, hcount]
    omega
  rw [hplace, ← magnitude_mul_pow10, ← hdigits]

theorem isDigit_of_mem_significant {d : Decimal} {c : Char} (h : c ∈ d.significant) :
    c.isDigit = true := by
  obtain ⟨zeros, hzeros⟩ := dropZeros_append_zeros (Nat.toDigits 10 d.digits)
  apply isDigit_of_mem_toDigits (n := d.digits)
  rw [hzeros]
  exact List.mem_append_left _ h

/-- Digits with a point after the first one, if there are more. -/
def pointed : List Char → List Char
  | lead :: [] => [lead]
  | lead :: places => lead :: '.' :: places
  | [] => []

/-- Leaving the point out gives the digits back. -/
theorem filter_pointed {cs : List Char} (h : ∀ c ∈ cs, c.isDigit = true) :
    (pointed cs).filter Char.isDigit = cs := by
  have hpoint : '.'.isDigit = false := by decide
  unfold pointed
  split <;> simp_all

theorem mem_pointed {cs : List Char} {c : Char} (h : c ∈ pointed cs) : c = '.' ∨ c ∈ cs := by
  unfold pointed at h
  split at h <;> grind

end Decimal

open Decimal

namespace NumberFormat

/-- Very large and very small numbers are written with an exponent. -/
theorem layOut_exponent {format : NumberFormat} {d : Decimal}
    (h : format.isPositional d.leadingPlace = false) :
    format.layOut d = pointed d.significant ++ 'e' :: (toString d.leadingPlace).toList := by
  simp only [layOut, h, Bool.false_eq_true, if_false]
  unfold significant pointed
  split <;> simp_all

/-- The others are written out, and always with a place behind the point. -/
theorem layOut_inspection {d : Decimal} (h : inspection.isPositional d.leadingPlace = true) :
    inspection.layOut d =
      numeral d.positional.1 (if d.positional.2 = [] then ['0'] else d.positional.2) := by
  unfold layOut numeral
  rw [if_pos h]
  split
  · next whole hparts => simp [hparts, inspection]
  · next whole places hplaces hparts =>
    have hne : places ≠ [] := hplaces
    simp [hparts, hne]

/-- Without an exponent, a number is shown as a numeral. -/
theorem isNumeral_inspection {d : Decimal} (h : inspection.isPositional d.leadingPlace = true) :
    IsNumeral (inspection.layOut d) d.magnitude := by
  obtain ⟨k, hk, hfst, hsnd⟩ := d.ratio_positional
  have hne : d.positional.1 ≠ [] := toDigits_ne_nil _
  have hdigits : ∀ c ∈ d.positional.1 ++ d.positional.2, c.isDigit = true :=
    fun c hc => isDigit_of_mem_positional hc
  have hmagnitude : Number.nearestMagnitude (ofDigits (d.positional.1 ++ d.positional.2))
      (pow10 d.positional.2.length) = d.magnitude := by
    rw [Decimal.magnitude, hfst, hsnd, Number.nearestMagnitude_mul hk]
  rw [layOut_inspection h]
  split
  · next hnil =>
    -- the zero behind the point takes both sides of the quotient times ten
    rw [hnil, List.append_nil] at hdigits hmagnitude
    apply isNumeral_numeral hne
    · simpa [or_imp, forall_and] using hdigits
    · rw [← hmagnitude, ofDigits_append, Nat.mul_comm]
      exact Number.nearestMagnitude_mul (pow10_pos 1) _ (pow10 0)
  · exact isNumeral_numeral hne hdigits hmagnitude

variable {d d' : Decimal}

/-- The letter `e` tells the two layouts apart. -/
theorem e_not_mem_inspection (h : inspection.isPositional d.leadingPlace = true) :
    'e' ∉ inspection.layOut d := by
  intro he
  exact absurd ((isNumeral_inspection h).chars 'e' he) (by decide)

theorem e_not_mem_pointed (d : Decimal) : 'e' ∉ pointed d.significant := by
  intro he
  rcases mem_pointed he with hpoint | hdigit
  · exact absurd hpoint (by decide)
  · exact absurd (isDigit_of_mem_significant hdigit) (by decide)

/-- **Decimals that are laid out alike are closest to the same double.** -/
theorem magnitude_of_layOut_eq (h : inspection.layOut d = inspection.layOut d') :
    d.magnitude = d'.magnitude := by
  cases hd : inspection.isPositional d.leadingPlace <;>
    cases hd' : inspection.isPositional d'.leadingPlace
  · rw [layOut_exponent hd, layOut_exponent hd'] at h
    obtain ⟨hpointed, hplace⟩ := append_cons_inj (e_not_mem_pointed d) (e_not_mem_pointed d') h
    have hsignificant : d.significant = d'.significant := by
      rw [← filter_pointed fun _ => isDigit_of_mem_significant, hpointed,
        filter_pointed fun _ => isDigit_of_mem_significant]
    rw [magnitude_significant, magnitude_significant d', hsignificant,
      toString_int_inj (String.toList_injective hplace)]
  · exact absurd (by simp [layOut_exponent hd]) (h ▸ e_not_mem_inspection hd')
  · exact absurd (by simp [layOut_exponent hd']) (h ▸ e_not_mem_inspection hd)
  · obtain ⟨e, hread, hmagnitude⟩ := (isNumeral_inspection hd).read
    obtain ⟨e', hread', hmagnitude'⟩ := (isNumeral_inspection hd').read
    rw [h, hread'] at hread
    cases hread
    rw [← hmagnitude, hmagnitude']

/-- The characters of a decimal that is laid out. -/
theorem mem_layOut_inspection {c : Char} (h : c ∈ inspection.layOut d) :
    c.isDigit = true ∨ c ∈ ['.', 'e', '-'] := by
  cases hd : inspection.isPositional d.leadingPlace with
  | true =>
    have hchar := (isNumeral_inspection hd).chars c h
    simp only [Token.isNumberChar, Bool.or_eq_true, beq_iff_eq] at hchar
    exact hchar.imp_right fun hpoint => by simp [hpoint]
  | false =>
    rw [layOut_exponent hd, List.mem_append, List.mem_cons] at h
    rcases h with hpointed | rfl | hplace
    · rcases mem_pointed hpointed with rfl | hdigit
      · simp
      · exact .inl (isDigit_of_mem_significant hdigit)
    · simp
    · exact (mem_toString_int hplace).imp_right fun hminus => by simp [hminus]

/-- No layout starts with a minus sign, so a sign in front belongs to the number. -/
theorem head?_layOut_inspection (d : Decimal) : (inspection.layOut d).head? ≠ some '-' := by
  intro hhead
  cases hd : inspection.isPositional d.leadingPlace with
  | true =>
    have hdigit := (isNumeral_inspection hd).startsWithDigit
    cases hlayOut : inspection.layOut d <;> simp_all [Token.startsWithDigit]
  | false =>
    rw [layOut_exponent hd] at hhead
    cases hpointed : pointed d.significant with
    | nil => simp [hpointed] at hhead
    | cons c cs =>
      have hc : c = '-' := by simpa [hpointed] using hhead
      have hmem : c ∈ pointed d.significant := hpointed ▸ List.mem_cons_self
      rcases mem_pointed hmem with hpoint | hdigit
      · exact absurd (hc.symm.trans hpoint) (by decide)
      · exact absurd (isDigit_of_mem_significant (hc ▸ hdigit)) (by decide)

end NumberFormat

namespace Number

variable {a b : Number}

theorem inspect_of_isFinite {n : Number} (h : n.isFinite = true) :
    n.inspect.toList = (if n.isNegative then ['-'] else []) ++
      NumberFormat.inspection.layOut (shortest n.magnitude) := by
  have hlt : n.magnitude < infinityMagnitude := of_decide_eq_true h
  have hnan : n.isNaN = false := decide_eq_false (Nat.not_lt.mpr (Nat.le_of_lt hlt))
  have hinfinite : n.isInfinite = false := beq_eq_false_iff_ne.mpr (Nat.ne_of_lt hlt)
  simp [inspect, NumberFormat.write, hnan, hinfinite]

/-- The only characters a finite number is written with. -/
theorem mem_inspect {n : Number} (h : n.isFinite = true) {c : Char} (hc : c ∈ n.inspect.toList) :
    c.isDigit = true ∨ c ∈ ['.', 'e', '-'] := by
  rw [inspect_of_isFinite h, List.mem_append] at hc
  rcases hc with hsign | hdigits
  · split at hsign <;> simp_all
  · exact NumberFormat.mem_layOut_inspection hdigits

/-- A number is negative if its text has a sign. -/
theorem isNegative_eq_head? {n : Number} (h : n.isFinite = true) :
    n.isNegative = (n.inspect.toList.head? == some '-') := by
  have hhead := NumberFormat.head?_layOut_inspection (shortest n.magnitude)
  rw [inspect_of_isFinite h]
  cases n.isNegative <;> simp [hhead]

/-- Sign and magnitude are all there is to a number. -/
theorem eq_of_magnitude_eq (hsign : a.isNegative = b.isNegative) (h : a.magnitude = b.magnitude) :
    a = b := by
  have hpow : pow2 63 = 9223372036854775808 := rfl
  have hnat : a.bits.toNat = b.bits.toNat := by
    have hlt := a.bits.toNat_lt
    have hlt' := b.bits.toNat_lt
    simp only [isNegative, magnitude, hpow, decide_eq_decide] at hsign h
    omega
  cases a
  cases b
  exact congrArg Number.mk (UInt64.toNat_inj.mp hnat)

/-- **Finite numbers that are shown alike are the same**, the sign of a zero included. -/
theorem eq_of_inspect_eq (ha : a.isFinite = true) (hb : b.isFinite = true)
    (h : a.inspect = b.inspect) : a = b := by
  have hsign : a.isNegative = b.isNegative := by
    rw [isNegative_eq_head? ha, h, isNegative_eq_head? hb]
  have hshown := congrArg String.toList h
  rw [inspect_of_isFinite ha, inspect_of_isFinite hb, hsign, List.append_cancel_left_eq] at hshown
  have hmagnitude := NumberFormat.magnitude_of_layOut_eq hshown
  rw [magnitude_shortest (of_decide_eq_true ha), magnitude_shortest (of_decide_eq_true hb)]
    at hmagnitude
  exact eq_of_magnitude_eq hsign hmagnitude

end Number

/-! ### Tokens -/

namespace Token

/-- **Tokens that may be read and are shown alike are the same.** -/
theorem eq_of_inspect_eq {t t' : Token} (ht : t.WellFormed) (ht' : t'.WellFormed)
    (h : t.inspect = t'.inspect) : t = t' := by
  have hshown := congrArg String.toList h
  cases t <;> cases t' <;> simp [inspect] at hshown
  case number.number =>
    rw [Number.eq_of_inspect_eq ht ht' (String.toList_injective hshown)]
  case string.string | keyword.keyword | symbol.symbol =>
    rw [Text.inspected_injective (String.toList_injective hshown)]
  all_goals rfl

end Token

end SmallLisp
