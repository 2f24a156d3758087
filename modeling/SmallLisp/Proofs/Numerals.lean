import Mathlib.Data.List.TakeWhile
import SmallLisp.Token.Lexer
/-!
# Texts of numbers read back

A finite number is written as a numeral: digits, perhaps a point, and more digits. Reading takes the
double that is closest to the numeral, so **what is written reads back** if the numeral is close
enough, and it is, for one of two reasons:

* the shortest decimal is only taken if it reads back, and where none is taken the numeral is the
  exact value of the number (`magnitude_shortest`);
* a whole number is written with all its digits, so it is exact as well (`magnitude_wholePart`).

In between, the digits are laid out and zeros at the end are dropped, which changes the decimal but
not the quotient that it stands for (`isNumeral_layOut`). Only the sign of a zero is lost.
-/

namespace SmallLisp

theorem pow2_pos (n : Nat) : 0 < pow2 n :=
  Nat.two_pow_pos n

theorem pow10_pos (n : Nat) : 0 < pow10 n :=
  Nat.pow_pos (by decide)

theorem pow10_add (m n : Nat) : pow10 (m + n) = pow10 m * pow10 n :=
  Nat.pow_add 10 m n

namespace Number

/-! ### Rounding depends on the quotient alone -/

/-- Rounding a quotient depends on its value only, not on how the fraction is written. -/
theorem roundDiv_mul {k : Nat} (hk : 0 < k) (a b : Nat) :
    roundDiv (k * a) (k * b) = roundDiv a b := by
  have hquotient : k * a / (k * b) = a / b := Nat.mul_div_mul_left a b hk
  have hrest : k * a % (k * b) = k * (a % b) := Nat.mul_mod_mul_left k a b
  have hlt : 2 * (k * (a % b)) < k * b ↔ 2 * (a % b) < b := by
    rw [Nat.mul_left_comm]
    exact Nat.mul_lt_mul_left hk
  have heq : 2 * (k * (a % b)) = k * b ↔ 2 * (a % b) = b := by
    rw [Nat.mul_left_comm]
    exact Nat.mul_right_inj (Nat.ne_of_gt hk)
  simp only [roundDiv, hquotient, hrest, hlt, heq]

/-- A whole quotient is not rounded. -/
theorem roundDiv_self (a : Nat) {b : Nat} (hb : 0 < b) : roundDiv (a * b) b = a := by
  simp [roundDiv, Nat.mul_div_cancel a hb, hb]

/-- The same for a number of units, since its exponent is read from the quotient. -/
theorem magnitudeOfUnits_mul {k : Nat} (hk : 0 < k) (a b : Nat) :
    magnitudeOfUnits (k * a) (k * b) = magnitudeOfUnits a b := by
  simp only [magnitudeOfUnits, Nat.mul_div_mul_left a b hk, Nat.mul_assoc, roundDiv_mul hk]

theorem nearestMagnitude_mul {k : Nat} (hk : 0 < k) (a b : Nat) :
    nearestMagnitude (k * a) (k * b) = nearestMagnitude a b := by
  rw [nearestMagnitude, Nat.mul_assoc, magnitudeOfUnits_mul hk, nearestMagnitude]

/-! ### A finite number is its own closest double -/

/-- Exponent and significand take a magnitude apart and lose nothing, below the first power of two
included. -/
theorem exponent_mul_add_significand (magnitude : Nat) :
    exponent magnitude * pow2 52 + significand magnitude = magnitude := by
  have hpow : pow2 52 = 4503599627370496 := rfl
  simp only [significand, exponent, hpow]
  omega

theorem significand_lt (magnitude : Nat) : significand magnitude < pow2 53 := by
  have hpow : pow2 52 = 4503599627370496 := rfl
  have hbound : pow2 53 = 9007199254740992 := rfl
  simp only [significand, exponent, hpow, hbound]
  omega

/-- Only the smallest numbers have a significand that is not full. -/
theorem le_significand {magnitude : Nat} (h : exponent magnitude ≠ 0) :
    pow2 52 ≤ significand magnitude := by
  have hpow : pow2 52 = 4503599627370496 := rfl
  simp only [significand, exponent, hpow] at h ⊢
  omega

/-- The exponent is read back from the number of units: a significand fills its places, or the
exponent is zero. -/
theorem log2_units (magnitude : Nat) : (units magnitude).log2 - 52 = exponent magnitude := by
  have hlt := significand_lt magnitude
  by_cases hexponent : exponent magnitude = 0
  · -- the numbers next to zero: their significand need not fill its places
    have hunits : units magnitude = significand magnitude := by
      rw [units, hexponent]
      exact Nat.mul_one _
    rw [hunits, hexponent]
    by_cases hzero : significand magnitude = 0
    · rw [hzero]
      rfl
    · have := (Nat.log2_lt hzero).mpr hlt
      omega
  · -- elsewhere the significand has exactly 53 places, and doubling adds one each time
    have hle := le_significand hexponent
    have hfull : 0 < significand magnitude := Nat.lt_of_lt_of_le (pow2_pos 52) hle
    have hpos : 0 < 2 ^ exponent magnitude := Nat.two_pow_pos _
    have hlog : (units magnitude).log2 = 52 + exponent magnitude := by
      have hunits : units magnitude = significand magnitude * 2 ^ exponent magnitude := rfl
      rw [hunits, Nat.log2_eq_iff (Nat.ne_of_gt (Nat.mul_pos hfull hpos))]
      constructor
      · rw [Nat.pow_add]
        exact Nat.mul_le_mul_right _ hle
      · rw [Nat.add_right_comm, Nat.pow_add]
        exact Nat.mul_lt_mul_of_pos_right hlt hpos
    omega

/-- A double rounds to itself. -/
theorem magnitudeOfUnits_units {magnitude : Nat} (h : magnitude < infinityMagnitude) :
    magnitudeOfUnits (units magnitude) 1 = magnitude := by
  have hround : roundDiv (units magnitude) (pow2 (exponent magnitude)) = significand magnitude :=
    roundDiv_self _ (pow2_pos _)
  simp only [magnitudeOfUnits, Nat.div_one, log2_units, Nat.one_mul, hround,
    exponent_mul_add_significand]
  exact Nat.min_eq_left (Nat.le_of_lt h)

/-- A whole number is the double closest to its whole part. -/
theorem magnitude_wholePart {n : Number} (h : n.isIntegral = true) :
    nearestMagnitude n.wholePart 1 = n.magnitude := by
  simp only [isIntegral, isFinite, Bool.and_eq_true, decide_eq_true_eq, beq_iff_eq] at h
  obtain ⟨hfinite, hwhole⟩ := h
  have hunits : n.wholePart * pow2 1074 = units n.magnitude :=
    Nat.div_mul_cancel (Nat.dvd_of_mod_eq_zero hwhole)
  rw [nearestMagnitude, hunits, magnitudeOfUnits_units hfinite]

end Number

namespace Decimal

open Number

/-! ### The decimals that numbers are written as -/

theorem ratio_neg (digits places : Nat) :
    ratio ⟨digits, -(places : Int)⟩ = (digits, pow10 places) := by
  unfold ratio
  split
  · next hscale =>
    obtain rfl : places = 0 := by
      simp only at hscale
      omega
    simp [pow10]
  · simp

/-- A scale is the same whether it is taken off in tens or in fives and twos. -/
theorem magnitudeOfUnits_tenths (units places : Nat) :
    magnitudeOfUnits (units * Nat.pow 5 places * pow2 places) (pow10 places) =
      magnitudeOfUnits units 1 := by
  have hpow : Nat.pow 5 places * pow2 places = pow10 places := (Nat.mul_pow 5 2 places).symm
  rw [Nat.mul_assoc, hpow, Nat.mul_comm, ← magnitudeOfUnits_mul (pow10_pos places) units 1,
    Nat.mul_one]

/-- The exact decimal of a double reads back as that double, so there is always a decimal that does.
-/
theorem magnitude_exact {magnitude : Nat} (h : magnitude < infinityMagnitude) :
    (exact magnitude).magnitude = magnitude := by
  have hratio : (exact magnitude).ratio = _ := ratio_neg _ 1074
  rw [Decimal.magnitude, hratio, nearestMagnitude]
  -- the powers are too large to be computed
  generalize 1074 = places
  rw [magnitudeOfUnits_tenths, magnitudeOfUnits_units h]

/-- A shorter decimal is taken only after it was read back. -/
theorem magnitude_neighbour? {magnitude count : Nat} {d : Decimal}
    (h : neighbour? magnitude count = some d) : d.magnitude = magnitude := by
  unfold neighbour? at h
  have hread := List.find?_some h
  rwa [beq_iff_eq] at hread

theorem magnitude_zero : (⟨0, 0⟩ : Decimal).magnitude = 0 := by
  have hpos : 0 < pow2 0 := pow2_pos 0
  simp [Decimal.magnitude, ratio, nearestMagnitude, magnitudeOfUnits, roundDiv, hpos]

/-- **The decimal that a number is written as reads back.** -/
theorem magnitude_shortest {magnitude : Nat} (h : magnitude < infinityMagnitude) :
    (shortest magnitude).magnitude = magnitude := by
  unfold shortest
  split
  · next hzero => rw [hzero, magnitude_zero]
  · cases hfound : (List.range 17).findSome? fun i => neighbour? magnitude (i + 1) with
    | none => exact magnitude_exact h
    | some d =>
      obtain ⟨i, -, hi⟩ := List.exists_of_findSome?_eq_some hfound
      exact magnitude_neighbour? hi

/-! ### Digits -/

theorem ofDigits_toDigits (n : Nat) : ofDigits (Nat.toDigits 10 n) = n :=
  Nat.ofDigitChars_ten_toDigits

/-- Digits in front weigh as many tens as there are digits behind. -/
theorem ofDigits_append (cs ds : List Char) :
    ofDigits (cs ++ ds) = ofDigits cs * pow10 ds.length + ofDigits ds := by
  have happend : ofDigits (cs ++ ds) = Nat.ofDigitChars 10 ds (ofDigits cs) :=
    Nat.ofDigitChars_append 0
  rw [happend, Nat.ofDigitChars_eq_ofDigitChars_zero, Nat.mul_comm]
  rfl

theorem ofDigits_zeros (count : Nat) : ofDigits (List.replicate count '0') = 0 :=
  (Nat.ofDigitChars_replicate_zero).trans (Nat.mul_zero _)

theorem isDigit_of_mem_toDigits {n : Nat} {c : Char} (h : c ∈ Nat.toDigits 10 n) :
    c.isDigit = true :=
  Nat.isDigit_of_mem_toDigits (by decide) (by decide) h

theorem toDigits_ne_nil (n : Nat) : Nat.toDigits 10 n ≠ [] := by
  rw [Nat.toDigits_eq_if (by decide)]
  split <;> simp

/-- The digits behind the point, before zeros are dropped: exactly as many as there are places. -/
theorem take_padded {places n : Nat} (h : n < pow10 places) :
    ((padded places n).take places).length = places ∧
      ofDigits ((padded places n).take places) = n ∧
      ∀ c ∈ (padded places n).take places, c.isDigit = true := by
  -- zero places are apart: the digits of `0` are still one digit
  by_cases hplaces : places = 0
  · subst hplaces
    have hn : n = 0 := Nat.lt_one_iff.mp h
    simp [hn, ofDigits]
  · have hlength : (Nat.toDigits 10 n).length ≤ places :=
      (Nat.length_toDigits_le_iff (by decide) (Nat.pos_of_ne_zero hplaces)).mpr h
    have hpadded : (padded places n).length = places := by
      simp only [padded, List.length_append, List.length_replicate]
      omega
    rw [List.take_of_length_le (Nat.le_of_eq hpadded)]
    refine ⟨hpadded, ?_, ?_⟩
    · rw [padded, ofDigits_append, ofDigits_zeros, ofDigits_toDigits, Nat.zero_mul, Nat.zero_add]
    · intro c hc
      rcases List.mem_append.mp hc with hc | hc
      · rw [List.eq_of_mem_replicate hc]
        rfl
      · exact isDigit_of_mem_toDigits hc

/-- Dropping the zeros at the end drops nothing else. -/
theorem dropZeros_append_zeros (cs : List Char) :
    ∃ count, cs = dropZeros cs ++ List.replicate count '0' := by
  let zeros := cs.reverse.takeWhile (· == '0')
  have hzeros : zeros = List.replicate zeros.length '0' := by
    apply List.eq_replicate_of_mem
    intro c hc
    exact eq_of_beq (List.all_eq_true.mp List.all_takeWhile c hc)
  refine ⟨zeros.length, ?_⟩
  calc cs = (zeros ++ cs.reverse.dropWhile (· == '0')).reverse := by
        rw [List.takeWhile_append_dropWhile, List.reverse_reverse]
    _ = dropZeros cs ++ zeros.reverse := List.reverse_append
    _ = dropZeros cs ++ List.replicate zeros.length '0' := by
        rw [hzeros, List.reverse_replicate, List.length_replicate]

/-! ### Numerals -/

/-- The digits before and after a point; without any after it there is no point. -/
def numeral (whole places : List Char) : List Char :=
  if places = [] then whole else whole ++ '.' :: places

/-- What is written with a point is read as all the digits, scaled by those behind it. -/
theorem read?_numeral {whole places : List Char} (hwhole : ∀ c ∈ whole, c.isDigit = true)
    (hplaces : ∀ c ∈ places, c.isDigit = true) :
    read? (numeral whole places) = some ⟨ofDigits (whole ++ places), -(places.length : Int)⟩ := by
  unfold numeral read?
  split
  · next hnil =>
    have htake : whole.takeWhile Char.isDigit = whole := List.takeWhile_eq_self_iff.mpr hwhole
    have hdrop : whole.dropWhile Char.isDigit = [] := List.dropWhile_eq_nil_iff.mpr hwhole
    simp [htake, hdrop, hnil]
  · have htake : (whole ++ '.' :: places).takeWhile Char.isDigit = whole := by
      rw [List.takeWhile_append_of_pos hwhole]
      simp
    have hdrop : (whole ++ '.' :: places).dropWhile Char.isDigit = '.' :: places := by
      rw [List.dropWhile_append_of_pos hwhole]
      rfl
    have hall : places.all Char.isDigit = true := List.all_eq_true.mpr hplaces
    simp only [htake, hdrop, hall, if_true]

/-- Numbers that programs see are written without exponents. -/
theorem layOut_surface (d : Decimal) :
    NumberFormat.surface.layOut d = numeral d.positional.1 d.positional.2 := by
  have hpositional : NumberFormat.surface.isPositional d.leadingPlace = true := rfl
  unfold NumberFormat.layOut numeral
  rw [if_pos hpositional]
  split
  · next whole hparts => simp [hparts, NumberFormat.surface]
  · next whole places hplaces hparts => rw [hparts, if_neg hplaces]

theorem ratio_snd (d : Decimal) : d.ratio.2 = pow10 (-d.scale).toNat := by
  unfold ratio
  split
  · next hscale =>
    have hplaces : (-d.scale).toNat = 0 := by omega
    rw [hplaces]
    rfl
  · rfl

/-- The digits behind the point are what is left of the quotient, without zeros at the end. -/
theorem positional_snd_append_zeros (d : Decimal) :
    ∃ count, d.positional.2.length + count = (-d.scale).toNat ∧
      ofDigits (d.positional.2 ++ List.replicate count '0') = d.ratio.1 % d.ratio.2 ∧
      ∀ c ∈ d.positional.2, c.isDigit = true := by
  have hlt : d.ratio.1 % d.ratio.2 < pow10 (-d.scale).toNat := by
    rw [ratio_snd]
    exact Nat.mod_lt _ (pow10_pos _)
  have hpositional : d.positional.2 = dropZeros
      ((padded (-d.scale).toNat (d.ratio.1 % d.ratio.2)).take (-d.scale).toNat) := rfl
  obtain ⟨hlength, hvalue, hdigits⟩ := take_padded hlt
  obtain ⟨count, hcount⟩ := dropZeros_append_zeros
    ((padded (-d.scale).toNat (d.ratio.1 % d.ratio.2)).take (-d.scale).toNat)
  rw [← hpositional] at hcount
  rw [hcount] at hlength hvalue hdigits
  refine ⟨count, ?_, hvalue, fun c hc => hdigits c (List.mem_append_left _ hc)⟩
  rwa [List.length_append, List.length_replicate] at hlength

/-- **A decimal keeps its quotient when it is laid out.** -/
theorem ratio_positional (d : Decimal) :
    ∃ k, 0 < k ∧ d.ratio.1 = k * ofDigits (d.positional.1 ++ d.positional.2) ∧
      d.ratio.2 = k * pow10 d.positional.2.length := by
  obtain ⟨count, hlength, hvalue, -⟩ := d.positional_snd_append_zeros
  have hscale : d.ratio.2 = pow10 count * pow10 d.positional.2.length := by
    rw [ratio_snd, ← hlength, Nat.add_comm, pow10_add]
  refine ⟨pow10 count, pow10_pos count, ?_, hscale⟩
  have hwhole : ofDigits d.positional.1 = d.ratio.1 / d.ratio.2 := ofDigits_toDigits _
  rw [ofDigits_append, ofDigits_zeros, List.length_replicate, Nat.add_zero] at hvalue
  calc d.ratio.1 = d.ratio.2 * (d.ratio.1 / d.ratio.2) + d.ratio.1 % d.ratio.2 :=
        (Nat.div_add_mod _ _).symm
    _ = pow10 count * pow10 d.positional.2.length * ofDigits d.positional.1 +
          ofDigits d.positional.2 * pow10 count := by rw [← hwhole, ← hvalue, ← hscale]
    _ = pow10 count * ofDigits (d.positional.1 ++ d.positional.2) := by
        rw [ofDigits_append, Nat.mul_add, Nat.mul_comm (ofDigits d.positional.2), Nat.mul_assoc,
          Nat.mul_comm (pow10 d.positional.2.length)]

theorem isDigit_of_mem_positional {d : Decimal} {c : Char}
    (h : c ∈ d.positional.1 ++ d.positional.2) : c.isDigit = true := by
  obtain ⟨-, -, -, hdigits⟩ := d.positional_snd_append_zeros
  rcases List.mem_append.mp h with h | h
  · exact isDigit_of_mem_toDigits h
  · exact hdigits c h

end Decimal

/-! ### Texts of numbers -/

open Decimal Token

/-- Characters that are read as a number of this magnitude. -/
structure IsNumeral (cs : List Char) (magnitude : Nat) : Prop where
  startsWithDigit : startsWithDigit cs = true
  chars : ∀ c ∈ cs, isNumberChar c = true
  read : ∃ d, read? cs = some d ∧ d.magnitude = magnitude

/-- Digits with a point among them are a numeral for the double closest to what they say. -/
theorem isNumeral_numeral {whole places : List Char} {magnitude : Nat} (hne : whole ≠ [])
    (hdigits : ∀ c ∈ whole ++ places, c.isDigit = true)
    (hmagnitude : Number.nearestMagnitude (ofDigits (whole ++ places)) (pow10 places.length) =
      magnitude) : IsNumeral (numeral whole places) magnitude where
  startsWithDigit := by
    obtain ⟨c, cs, rfl⟩ := List.exists_cons_of_ne_nil hne
    have hc : c.isDigit = true := hdigits c List.mem_cons_self
    unfold numeral
    split <;> exact hc
  chars := by
    intro c hc
    have hpoint : c = '.' ∨ c ∈ whole ++ places := by
      unfold numeral at hc
      split at hc
      · exact .inr (List.mem_append_left _ hc)
      · rcases List.mem_append.mp hc with hc | hc
        · exact .inr (List.mem_append_left _ hc)
        · exact (List.mem_cons.mp hc).imp_right (List.mem_append_right _)
    rcases hpoint with rfl | hdigit
    · rfl
    · simp [isNumberChar, hdigits c hdigit]
  read := by
    have hread := read?_numeral (fun c hc => hdigits c (List.mem_append_left _ hc))
      (fun c hc => hdigits c (List.mem_append_right _ hc))
    refine ⟨_, hread, ?_⟩
    rw [Decimal.magnitude, ratio_neg, hmagnitude]

theorem isNumeral_toDigits (n : Nat) :
    IsNumeral (Nat.toDigits 10 n) (Number.nearestMagnitude n 1) := by
  have h : IsNumeral (numeral (Nat.toDigits 10 n) []) (Number.nearestMagnitude n 1) := by
    apply isNumeral_numeral (toDigits_ne_nil n)
    · rw [List.append_nil]
      exact fun c hc => isDigit_of_mem_toDigits hc
    · rw [List.append_nil, ofDigits_toDigits]
      rfl
  exact h

/-- A decimal is laid out as a numeral for its own magnitude. -/
theorem isNumeral_layOut (d : Decimal) :
    IsNumeral (NumberFormat.surface.layOut d) d.magnitude := by
  obtain ⟨k, hk, hfst, hsnd⟩ := d.ratio_positional
  have hne : d.positional.1 ≠ [] := toDigits_ne_nil _
  rw [layOut_surface]
  apply isNumeral_numeral hne (fun c hc => isDigit_of_mem_positional hc)
  rw [Decimal.magnitude, hfst, hsnd, Number.nearestMagnitude_mul hk]

namespace Number

/-- The number that a text gives back: a zero loses its sign. -/
def plain (n : Number) : Number :=
  ofMagnitude (n.isNegative && !n.isZero) n.magnitude

theorem magnitude_lt (n : Number) : n.magnitude < pow2 63 :=
  Nat.mod_lt _ (pow2_pos 63)

/-- The sign is the highest bit, so it cannot be mixed up with the magnitude. -/
theorem toNat_bits_ofMagnitude (negative : Bool) {magnitude : Nat} (h : magnitude < pow2 63) :
    (ofMagnitude negative magnitude).bits.toNat =
      if negative then pow2 63 + magnitude else magnitude := by
  have hpow : pow2 63 = 9223372036854775808 := rfl
  rw [hpow] at h
  simp only [ofMagnitude, hpow, UInt64.toNat_ofNat']
  split <;> omega

theorem magnitude_ofMagnitude (negative : Bool) {magnitude : Nat} (h : magnitude < pow2 63) :
    (ofMagnitude negative magnitude).magnitude = magnitude := by
  rw [Number.magnitude, toNat_bits_ofMagnitude negative h]
  split
  · rw [Nat.add_mod_left, Nat.mod_eq_of_lt h]
  · exact Nat.mod_eq_of_lt h

theorem isNegative_ofMagnitude (negative : Bool) {magnitude : Nat} (h : magnitude < pow2 63) :
    (ofMagnitude negative magnitude).isNegative = negative := by
  rw [isNegative, toNat_bits_ofMagnitude negative h]
  cases negative with
  | true => simp
  | false => simpa using h

theorem magnitude_plain (n : Number) : n.plain.magnitude = n.magnitude :=
  magnitude_ofMagnitude _ n.magnitude_lt

/-- A number and what it reads back as are equal: only the sign of a zero may be lost. -/
theorem equal_plain (n : Number) : n.equal n.plain = true := by
  have hnan : n.plain.isNaN = n.isNaN := by rw [isNaN, isNaN, magnitude_plain]
  have hkey : n.plain.key = n.key := by
    have hnegative : n.plain.isNegative = (n.isNegative && !n.isZero) :=
      isNegative_ofMagnitude _ n.magnitude_lt
    rw [key, key, hnegative, magnitude_plain]
    cases hzero : n.isZero with
    | false => simp
    | true =>
      -- a zero has the same key with and without its sign
      have hmagnitude : n.magnitude = 0 := eq_of_beq hzero
      simp [hmagnitude]
  rw [equal, hnan, hkey]
  cases n.isNaN <;> simp

theorem whole_of_isZero {n : Number} (h : n.isZero = true) :
    (n.isIntegral && n.wholePart < pow10 15) = true := by
  have hmagnitude : n.magnitude = 0 := eq_of_beq h
  have hunits : units 0 = 0 := by simp [units, significand]
  have hfinite : n.isFinite = true := by
    rw [isFinite, hmagnitude]
    rfl
  simp [isIntegral, wholePart, hfinite, hmagnitude, hunits, pow10_pos]

/-- **A finite number is written as a numeral of its magnitude**, with a sign if it is negative. -/
theorem exists_numeral {n : Number} (h : n.isFinite = true) :
    ∃ cs, IsNumeral cs n.magnitude ∧
      n.display.toList = if n.isNegative && !n.isZero then '-' :: cs else cs := by
  have hlt : n.magnitude < infinityMagnitude := of_decide_eq_true h
  unfold display
  split
  · -- numbers that are whole and not too large are written by their whole part
    next hwhole =>
    simp only [Bool.and_eq_true] at hwhole
    refine ⟨Nat.toDigits 10 n.wholePart, ?_, String.toList_ofList⟩
    rw [← magnitude_wholePart hwhole.1]
    exact isNumeral_toDigits _
  · next hwhole =>
    have hzero : n.isZero = false := by
      cases hzero : n.isZero with
      | false => rfl
      | true => exact absurd (whole_of_isZero hzero) hwhole
    have hnan : n.isNaN = false := decide_eq_false (Nat.not_lt.mpr (Nat.le_of_lt hlt))
    have hinfinite : n.isInfinite = false := beq_eq_false_iff_ne.mpr (Nat.ne_of_lt hlt)
    refine ⟨NumberFormat.surface.layOut (shortest n.magnitude), ?_, ?_⟩
    · have hnumeral := isNumeral_layOut (shortest n.magnitude)
      rwa [magnitude_shortest hlt] at hnumeral
    · unfold NumberFormat.write
      cases n.isNegative <;> simp [hnan, hinfinite, hzero]

end Number

end SmallLisp
