import SmallLisp.Proofs.Numerals
/-!
# Tokens and their texts

`spelling` is the other way round from the tokenizer: the text of a token. Two facts tie them
together.

* **Every token that is read is well-formed** (`wellFormed_of_tokenize`): numbers are finite, and
  keywords and symbols hold the characters they may hold and do not look like numbers.
* **The text of a well-formed token is read as that token** (`tokenizeFrom_spelling`), except that a
  zero loses its sign. What follows the text may be anything that does not go on with it (`Ends`).

Which token a text starts with is decided by its first character, for a minus sign by the second one
as well. So the facts about characters come first.
-/

namespace SmallLisp

namespace Token

/-! ### Characters -/

theorem isSymbolChar_of_isDigit {c : Char} (h : c.isDigit = true) : isSymbolChar c = true := by
  simp [isSymbolChar, Char.isAlphanum, h]

/-- What a number is written with could also stand in a symbol, so only the first characters tell
the two apart. -/
theorem isSymbolChar_of_isNumberChar {c : Char} (h : isNumberChar c = true) :
    isSymbolChar c = true := by
  rcases Bool.or_eq_true_iff.mp h with h | h
  · exact isSymbolChar_of_isDigit h
  · rw [eq_of_beq h]
    rfl

/-- Symbols are plain visible characters. -/
theorem toNat_of_isSymbolChar {c : Char} (h : isSymbolChar c = true) :
    33 ≤ c.toNat ∧ c.toNat < 128 := by
  rcases Bool.or_eq_true_iff.mp h with h | h
  · have hcode : c.toNat = c.val.toNat := rfl
    have hletter : (decide (c.val ≥ 65 ∧ c.val ≤ 90) || (c.val ≥ 97 && c.val ≤ 122) ||
      (c.val ≥ 48 && c.val ≤ 57)) = true := h
    simp [UInt32.le_iff_toNat_le] at hletter
    omega
  · have hsigns : symbolSigns.all (fun d => 33 ≤ d.toNat && d.toNat < 128) = true := by decide
    have hc := List.all_eq_true.mp hsigns c (List.contains_iff_mem.mp h)
    simpa using hc

theorem isBlank_of_isSymbolChar {c : Char} (h : isSymbolChar c = true) :
    Text.isBlank c = false := by
  obtain ⟨hlow, hhigh⟩ := toNat_of_isSymbolChar h
  simp [Text.isBlank, Text.CharClass.contains, Text.blanks, Text.Run.contains]
  omega

/-- A symbol's character starts a number or a symbol, and nothing else. -/
theorem lead_of_isSymbolChar {c : Char} (h : isSymbolChar c = true) :
    lead c = if c.isDigit then .digit else .symbolic := by
  have hblank := isBlank_of_isSymbolChar h
  unfold lead
  split
  case h_11 => simp [hblank, h]
  all_goals exact absurd h (by decide)

theorem isSymbolChar_of_lead {c : Char} (h : lead c = .symbolic) :
    isSymbolChar c = true ∧ c.isDigit = false := by
  unfold lead at h
  split at h
  case h_11 =>
    split at h
    · cases h
    · split at h
      · cases h
      · next hdigit =>
        split at h
        · next hsymbol => exact ⟨hsymbol, Bool.eq_false_iff.mpr hdigit⟩
        · cases h
  all_goals cases h

/-! ### Every token that is read is well-formed -/

/-- Whether a text would be taken for a number. -/
def startsNumber : List Char → Bool
  | '-' :: cs => startsWithDigit cs
  | cs => startsWithDigit cs

/-- A text starts no number unless with a digit, or a minus sign and then a digit. -/
theorem startsNumber_cons {c : Char} {cs : List Char} :
    startsNumber (c :: cs) = false ↔
      c.isDigit = false ∧ ¬ (c = '-' ∧ startsWithDigit cs = true) := by
  unfold startsNumber
  split
  · next heq =>
    cases heq
    have hminus : '-'.isDigit = false := by decide
    simp [hminus]
  · next hminus =>
    constructor
    · intro h
      exact ⟨h, fun hc => hminus cs (by rw [hc.1])⟩
    · exact And.left

/-- Whether a token holds what tokens of its kind may hold. -/
def WellFormed : Token → Prop
  | number n => n.isFinite = true
  | keyword s => ∃ name, s.toList = ':' :: name ∧ name ≠ [] ∧ ∀ c ∈ name, isSymbolChar c = true
  | symbol s =>
    s.toList ≠ [] ∧ (∀ c ∈ s.toList, isSymbolChar c = true) ∧ startsNumber s.toList = false
  | _ => True

theorem wellFormed_symbol {s : String} (hne : s.toList.isEmpty = false)
    (hchars : s.toList.all isSymbolChar = true) (hnumber : startsNumber s.toList = false) :
    (symbol s).WellFormed :=
  ⟨List.isEmpty_eq_false_iff.mp hne, List.all_eq_true.mp hchars, hnumber⟩

variable {c : Char} {cs rest : List Char} {token : Token} {tokens : List Token}

theorem wellFormed_of_lead (h : lead c = .single token) : token.WellFormed := by
  unfold lead at h
  split at h
  case h_11 => split at h <;> (try split at h) <;> (try split at h) <;> cases h
  all_goals cases h
  all_goals trivial

theorem wellFormed_of_readNumber {negative : Bool}
    (h : readNumber negative cs = .ok (tokens, rest)) : ∀ token ∈ tokens, token.WellFormed := by
  unfold readNumber at h
  dsimp only at h
  split at h
  · next n hn =>
    cases h
    obtain ⟨d, -, hd⟩ := Option.bind_eq_some_iff.mp hn
    have hfinite : n.isFinite = true := by
      unfold Number.ofDecimal? at hd
      dsimp only at hd
      split at hd
      · next hfinite =>
        cases hd
        exact hfinite
      · cases hd
    rintro _ (_ | _)
    · exact hfinite
    · contradiction
  · cases h

theorem wellFormed_of_readString {text : String} (h : readString text cs = .ok (tokens, rest)) :
    ∀ token ∈ tokens, token.WellFormed := by
  fun_induction readString text cs with
  | case1 => cases h
  | case2 text cs =>
    cases h
    rintro _ (_ | _)
    · trivial
    · contradiction
  | case3 => cases h
  | case4 _ _ _ _ _ ih => exact ih h
  | case5 => cases h
  | case6 _ _ _ _ _ _ ih => exact ih h

theorem mem_takeWhile {p : Char → Bool} (h : c ∈ cs.takeWhile p) : p c = true :=
  List.all_eq_true.mp List.all_takeWhile c h

/-- A digit may stand in a symbol, so a run of symbol characters starts as the text does. -/
theorem startsWithDigit_takeWhile (cs : List Char) :
    startsWithDigit (cs.takeWhile isSymbolChar) = startsWithDigit cs := by
  cases cs with
  | nil => rfl
  | cons c cs =>
    rw [List.takeWhile_cons]
    split
    · rfl
    · next hsymbol =>
      exact (Bool.eq_false_iff.mpr fun h => hsymbol (isSymbolChar_of_isDigit h)).symm

/-- Each piece of the lexer gives well-formed tokens. -/
theorem wellFormed_of_scan (h : scan c cs = .ok (tokens, rest)) :
    ∀ token ∈ tokens, token.WellFormed := by
  unfold scan at h
  cases hlead : lead c <;> simp only [hlead] at h
  case blank | comment =>
    cases h
    nofun
  case single token =>
    cases h
    rintro _ (_ | _)
    · exact wellFormed_of_lead hlead
    · contradiction
  case numberSign =>
    unfold readHashOpen at h
    split at h <;> cases h
    rintro _ (_ | _)
    · trivial
    · contradiction
  case comma =>
    unfold readUnquote at h
    split at h <;> cases h <;> simp [WellFormed]
  case digit => exact wellFormed_of_readNumber h
  case doubleQuote => exact wellFormed_of_readString h
  case colon =>
    unfold readKeyword at h
    dsimp only at h
    split at h
    · cases h
    · next hname =>
      cases h
      rintro _ (_ | _)
      · refine ⟨cs.takeWhile isSymbolChar, String.toList_ofList, ?_, fun _ hc => mem_takeWhile hc⟩
        rwa [List.isEmpty_iff] at hname
      · contradiction
  -- a minus sign starts a number only before a digit, so what is left is no number
  case symbolic =>
    split at h
    · exact wellFormed_of_readNumber h
    · next hminus =>
      obtain ⟨hsymbol, hdigit⟩ := isSymbolChar_of_lead hlead
      cases h
      rintro _ (_ | _)
      · simp only [WellFormed, String.toList_ofList]
        refine ⟨List.cons_ne_nil _ _, ?_, ?_⟩
        · rintro d (_ | ⟨_, hd⟩)
          · exact hsymbol
          · exact mem_takeWhile hd
        · rw [startsNumber_cons, startsWithDigit_takeWhile]
          exact ⟨hdigit, hminus⟩
      · contradiction
  case nothing => cases h

/-- The tokens of a text are well formed, by induction along the pieces it is cut into. -/
theorem wellFormed_of_tokenizeFrom {done : Array Token} (h : tokenizeFrom done cs = .ok tokens)
    (hdone : ∀ token ∈ done.toList, token.WellFormed) : ∀ token ∈ tokens, token.WellFormed := by
  fun_induction tokenizeFrom done cs with
  | case1 done =>
    cases h
    exact hdone
  | case2 => cases h
  | case3 done c cs new rest hscan ih =>
    apply ih h
    intro token htoken
    simp only [Array.appendList_eq_append, Array.toList_appendList, List.mem_append] at htoken
    rcases htoken with hold | hnew
    · exact hdone token hold
    · exact wellFormed_of_scan hscan token hnew

/-- **Every token that is read is well-formed.** -/
theorem wellFormed_of_tokenize {source : String} (h : tokenize source = .ok tokens) :
    ∀ token ∈ tokens, token.WellFormed :=
  wellFormed_of_tokenizeFrom h nofun

/-! ### The text of a token is read as that token -/

def spelling : Token → List Char
  | listOpen => ['(']
  | listClose => [')']
  | quote => ['\'']
  | quasiquote => ['\x60']
  | unquote => [',']
  | splice => ['@']
  | hashOpen => ['#', '\x7b']
  | hashClose => ['\x7d']
  | number n => n.display.toList
  | string s => (Text.quoted s).toList
  | keyword s => s.toList
  | symbol s => s.toList

/-- What is read back of a token. -/
def plain : Token → Token
  | number n => number n.plain
  | token => token

/-- What follows goes on with no token that could stand before it. -/
def Ends (rest : List Char) : Prop :=
  ∀ c ∈ rest.head?, isSymbolChar c = false ∧ c ≠ '@'

theorem ends_nil : Ends [] := nofun

/-- A character that no symbol goes on with ends whatever was being read, an `@` apart, which can
still join an unquote. -/
theorem ends_cons (hsymbol : isSymbolChar c = false) (hat : c ≠ '@') : Ends (c :: rest) := by
  intro d hd
  cases hd
  exact ⟨hsymbol, hat⟩

/-- A run of characters that symbols may hold stops where the text `Ends`. -/
theorem takeWhile_append {p : Char → Bool} (hp : ∀ c, p c = true → isSymbolChar c = true)
    (hcs : ∀ c ∈ cs, p c = true) (hends : Ends rest) : (cs ++ rest).takeWhile p = cs := by
  rw [List.takeWhile_append_of_pos hcs]
  cases rest with
  | nil => simp
  | cons c rest =>
    have hc : ¬ p c = true := fun h => by simpa [hp c h] using (hends c rfl).1
    rw [List.takeWhile_cons_of_neg hc, List.append_nil]

/-- A run of a token's characters stops where the token ends. -/
theorem dropWhile_append {p : Char → Bool} (hp : ∀ c, p c = true → isSymbolChar c = true)
    (hcs : ∀ c ∈ cs, p c = true) (hends : Ends rest) : (cs ++ rest).dropWhile p = rest := by
  have happend := List.takeWhile_append_dropWhile (p := p) (l := cs ++ rest)
  rw [takeWhile_append hp hcs hends] at happend
  exact List.append_cancel_left happend

theorem startsWithDigit_append (hends : Ends rest) (cs : List Char) :
    startsWithDigit (cs ++ rest) = startsWithDigit cs := by
  cases cs with
  | cons c cs => rfl
  | nil =>
    cases rest with
    | nil => rfl
    | cons c rest =>
      have hsymbol := (hends c rfl).1
      exact Bool.eq_false_iff.mpr fun h => by simp [isSymbolChar_of_isDigit h] at hsymbol

/-- A finite numeral is read to its end and no further. -/
theorem readNumber_append {magnitude : Nat} (h : IsNumeral cs magnitude)
    (hlt : magnitude < Number.infinityMagnitude) (negative : Bool) (hends : Ends rest) :
    readNumber negative (cs ++ rest) =
      .ok ([number (Number.ofMagnitude negative magnitude)], rest) := by
  obtain ⟨d, hread, rfl⟩ := h.read
  have hfinite : (Number.ofMagnitude negative d.magnitude).isFinite = true := by
    rw [Number.isFinite, Number.magnitude_ofMagnitude]
    · exact decide_eq_true hlt
    · exact Nat.lt_trans hlt (by decide)
  unfold readNumber
  dsimp only
  rw [takeWhile_append (fun _ => isSymbolChar_of_isNumberChar) h.chars hends,
    dropWhile_append (fun _ => isSymbolChar_of_isNumberChar) h.chars hends, hread]
  simp [Number.ofDecimal?, hfinite]

/-- Each escape is read as the character it was made of. -/
theorem readString_escape {c : Char} (text : String) (cs : List Char) :
    readString text (Text.escape c ++ cs) = readString (text.push c) cs := by
  unfold Text.escape
  split
  · next letter hletter =>
    show readString text ('\\' :: letter :: cs) = _
    rw [readString, Text.unescape?_escapeLetter? hletter]
  · next hplain =>
    have hquote : c ≠ '"' := by
      rintro rfl
      cases hplain
    have hslash : c ≠ '\\' := by
      rintro rfl
      cases hplain
    rw [List.singleton_append, readString] <;> simp [hquote, hslash]

/-- By induction on the text, a quoted string is read back to its closing quote. -/
theorem readString_quoted (s : List Char) (text : String) (rest : List Char) :
    readString text (s.flatMap Text.escape ++ '"' :: rest) =
      .ok ([string (text ++ String.ofList s)], rest) := by
  induction s generalizing text with
  | nil => simp [readString]
  | cons c s ih =>
    have htext : text.push c ++ String.ofList s = text ++ String.ofList (c :: s) := by
      apply String.toList_injective
      simp
    rw [List.flatMap_cons, List.append_assoc, readString_escape, ih, htext]

/-- A printed number starts with a digit or a minus sign, and either way is read back as one number.
-/
theorem scan_number {n : Number} (h : n.isFinite = true) (hends : Ends rest) :
    ∃ c cs, n.display.toList = c :: cs ∧ scan c (cs ++ rest) = .ok ([number n.plain], rest) := by
  have hlt : n.magnitude < Number.infinityMagnitude := of_decide_eq_true h
  obtain ⟨cs, hcs, hdisplay⟩ := Number.exists_numeral h
  have hread := readNumber_append hcs hlt (n.isNegative && !n.isZero) hends
  cases hnegative : (n.isNegative && !n.isZero) with
  | true =>
    -- the minus sign alone would start a symbol, and the digit behind it decides
    rw [hnegative] at hdisplay hread
    have hdigit : startsWithDigit (cs ++ rest) = true := by
      rw [startsWithDigit_append hends, hcs.startsWithDigit]
    refine ⟨'-', cs, hdisplay, ?_⟩
    rw [scan, lead_of_isSymbolChar (by decide)]
    simp [hdigit, hread, Number.plain, hnegative]
  | false =>
    rw [hnegative] at hdisplay hread
    have hne : cs ≠ [] := by
      rintro rfl
      cases hcs.startsWithDigit
    obtain ⟨c, cs, rfl⟩ := List.exists_cons_of_ne_nil hne
    have hdigit : c.isDigit = true := hcs.startsWithDigit
    refine ⟨c, cs, hdisplay, ?_⟩
    rw [scan, lead_of_isSymbolChar (isSymbolChar_of_isDigit hdigit), if_pos hdigit]
    simpa [Number.plain, hnegative] using hread

theorem scan_keyword {s : String} (h : (keyword s).WellFormed) (hends : Ends rest) :
    ∃ c cs, s.toList = c :: cs ∧ scan c (cs ++ rest) = .ok ([keyword s], rest) := by
  obtain ⟨name, hname, hne, hchars⟩ := h
  have hs : s = String.ofList (':' :: name) := by rw [← hname, String.ofList_toList]
  refine ⟨':', name, hname, ?_⟩
  show readKeyword (name ++ rest) = _
  unfold readKeyword
  dsimp only
  rw [takeWhile_append (fun _ => id) hchars hends, dropWhile_append (fun _ => id) hchars hends,
    if_neg (by simpa using hne), hs]

theorem scan_symbol {s : String} (h : (symbol s).WellFormed) (hends : Ends rest) :
    ∃ c cs, s.toList = c :: cs ∧ scan c (cs ++ rest) = .ok ([symbol s], rest) := by
  obtain ⟨hne, hchars, hnumber⟩ := h
  obtain ⟨c, cs, hcs⟩ := List.exists_cons_of_ne_nil hne
  have hs : s = String.ofList (c :: cs) := by rw [← hcs, String.ofList_toList]
  rw [hcs] at hchars hnumber
  have hrun : ∀ d ∈ cs, isSymbolChar d = true := fun d hd => hchars d (List.mem_cons_of_mem _ hd)
  obtain ⟨hdigit, hminus⟩ := startsNumber_cons.mp hnumber
  refine ⟨c, cs, hcs, ?_⟩
  rw [scan, lead_of_isSymbolChar (hchars c List.mem_cons_self), hdigit]
  simp only [Bool.false_eq_true, if_false]
  rw [startsWithDigit_append hends, if_neg hminus, takeWhile_append (fun _ => id) hrun hends,
    dropWhile_append (fun _ => id) hrun hends, hs]

/-- **The text of a well-formed token is read as that token**, up to the sign of a zero. An at sign
is no token on its own. -/
theorem scan_spelling (h : token.WellFormed) (hsplice : token ≠ splice) (hends : Ends rest) :
    ∃ c cs, token.spelling = c :: cs ∧ scan c (cs ++ rest) = .ok ([token.plain], rest) := by
  cases token with
  | number n => exact scan_number h hends
  | keyword s => exact scan_keyword h hends
  | symbol s => exact scan_symbol h hends
  | string s =>
    refine ⟨'"', s.toList.flatMap Text.escape ++ ['"'], String.toList_ofList, ?_⟩
    have hread := readString_quoted s.toList "" rest
    rw [String.ofList_toList, String.empty_append] at hread
    rw [List.append_assoc]
    exact hread
  | unquote =>
    refine ⟨',', [], rfl, ?_⟩
    have hread : readUnquote rest = ([unquote], rest) := by
      unfold readUnquote
      split
      · exact absurd rfl (hends _ rfl).2
      · rfl
    exact congrArg Except.ok hread
  | splice => exact absurd rfl hsplice
  | hashOpen => exact ⟨'#', ['\x7b'], rfl, rfl⟩
  | listOpen | listClose | quote | quasiquote | hashClose => exact ⟨_, [], rfl, rfl⟩

/-- A well-formed token's spelling is cut off as that token, if what follows ends it. -/
theorem tokenizeFrom_spelling (done : Array Token) (h : token.WellFormed) (hsplice : token ≠ splice)
    (hends : Ends rest) :
    tokenizeFrom done (token.spelling ++ rest) = tokenizeFrom (done.push token.plain) rest := by
  obtain ⟨c, cs, hspelling, hscan⟩ := scan_spelling h hsplice hends
  rw [hspelling, List.cons_append, tokenizeFrom_cons hscan]
  rfl

end Token

end SmallLisp
