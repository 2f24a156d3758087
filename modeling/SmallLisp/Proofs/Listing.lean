import Mathlib
import SmallLisp.Proofs.Inspection
import SmallLisp.Proofs.Pieces
import SmallLisp.Proofs.RoundTrip
/-!
# What the listing of a program's tokens tells

The `lex` command prints a line for each token: the token as it is inspected, less `Token::` wherever
that stands. Inspected tokens are told apart, and so are their lines; but a string may hold `Token::`,
and then its line is that of a string without (`Token.listing_eq`). So **the listing of a program tells
its tokens, except for `Token::` in strings**, and it does not tell `"Token::x"` from `"x"`.

Leaving out a pattern from an inspected text is leaving it out from the text, because the characters of
the pattern stand for themselves and a character that does not is shown with a backslash in front
(`Text.without_flatMap_escapeInspected`).
-/

namespace SmallLisp

namespace Text

/-! ### Leaving out a pattern -/

/-- Characters without a pattern, wherever it stands. -/
def without (pattern : List Char) (nonempty : pattern ≠ []) (text : List Char) : List Char :=
  (pieces pattern nonempty text).flatten

/-- Joining the pieces of a split with nothing is leaving the pattern out. -/
theorem join_split {pattern : String} (nonempty : pattern.toList ≠ []) (text : String) :
    String.join (split text pattern) = String.ofList (without pattern.toList nonempty text.toList) := by
  rw [split_of_ne_nil nonempty, ← String.toList_inj, String.toList_join]
  simp [without, List.flatMap_def, Function.comp_def]

variable {pattern : List Char} (nonempty : pattern ≠ [])

/-- Where the pattern does not occur there is nothing to leave out. -/
theorem without_of_not_isInfix {text : List Char} (h : ¬ pattern <:+: text) :
    without pattern nonempty text = text := by
  rw [without, pieces_of_cut?_eq_none nonempty (cut?_eq_none_iff.mpr h)]
  simp

/-- An occurrence at the front is left out whole, and the rest is looked at afresh. -/
theorem without_append_self (rest : List Char) :
    without pattern nonempty (pattern ++ rest) = without pattern nonempty rest := by
  have hcut : cut? pattern (pattern ++ rest) = some ([], rest) := by
    cases pattern with
    | nil => exact absurd rfl nonempty
    | cons c cs => simp [cut?]
  rw [without, pieces_of_cut?_eq_some nonempty hcut]
  rfl

/-- A character no occurrence starts at is kept. -/
theorem without_cons {c : Char} {cs : List Char} (h : ¬ pattern <+: c :: cs) :
    without pattern nonempty (c :: cs) = c :: without pattern nonempty cs := by
  have hcut : cut? pattern (c :: cs) =
      (cut? pattern cs).map fun parts => (c :: parts.1, parts.2) := by
    rw [cut?, if_neg (mt List.isPrefixOf_iff_prefix.mp h)]
  unfold without
  cases hrest : cut? pattern cs with
  | none =>
    rw [hrest] at hcut
    rw [pieces_of_cut?_eq_none nonempty hcut, pieces_of_cut?_eq_none nonempty hrest]
    rfl
  | some parts =>
    rw [hrest] at hcut
    rw [pieces_of_cut?_eq_some nonempty hcut, pieces_of_cut?_eq_some nonempty hrest]
    rfl

/-- What does not hold the first character of the pattern is left as it is. -/
theorem without_append_of_not_mem {first : Char} (hfirst : pattern.head? = some first)
    {front : List Char} (h : first ∉ front) (rest : List Char) :
    without pattern nonempty (front ++ rest) = front ++ without pattern nonempty rest := by
  induction front with
  | nil => rfl
  | cons c front ih =>
    rw [List.mem_cons, not_or] at h
    have hc : ¬ pattern <+: c :: (front ++ rest) := by
      obtain ⟨more, rfl⟩ := List.head?_eq_some_iff.mp hfirst
      rw [List.cons_prefix_cons]
      exact fun hstart => h.1 hstart.1
    rw [List.cons_append, without_cons nonempty hc, ih h.2, List.cons_append]

/-! ### Leaving out a pattern from an inspected text -/

theorem escapeInspected_eq_self_or (c : Char) :
    escapeInspected c = [c] ∨ ∃ rest, escapeInspected c = '\\' :: rest := by
  rcases escapeInspected_cases c with ⟨letter, -, hshown⟩ | ⟨-, hshown⟩ | hshown | ⟨hshown, -⟩
  · exact .inr ⟨_, hshown⟩
  · exact .inr ⟨_, hshown⟩
  · exact .inr ⟨_, hshown⟩
  · exact .inl hshown

/-- A pattern of characters that stand for themselves is seen in an inspected text exactly where it
stands in the text. -/
theorem isPrefix_flatMap_escapeInspected_iff (hplain : ∀ c ∈ pattern, escapeInspected c = [c])
    (cs rest : List Char) :
    pattern <+: cs.flatMap escapeInspected ++ '"' :: rest ↔ pattern <+: cs := by
  induction pattern generalizing cs with
  | nil => simp
  | cons a pattern ih =>
    rw [List.forall_mem_cons] at hplain
    obtain ⟨ha, hplain⟩ := hplain
    have hquote : a ≠ '"' := by
      rintro rfl
      exact absurd ha (by decide)
    -- what is spelt by itself is no backslash, and an escape starts with one
    have hbackslash : a ≠ '\\' := by
      rintro rfl
      exact absurd ha (by decide)
    cases cs with
    | nil => simp [hquote]
    | cons c cs =>
      rw [List.flatMap_cons, List.append_assoc]
      by_cases hc : a = c
      · subst hc
        rw [ha, List.singleton_append, List.cons_prefix_cons, List.cons_prefix_cons, ih hplain]
      · rcases escapeInspected_eq_self_or c with hshown | ⟨more, hshown⟩ <;>
          simp [hshown, hc, hbackslash]

/-- **Leaving out a pattern from an inspected text is leaving it out from the text.** -/
theorem without_flatMap_escapeInspected (hplain : ∀ c ∈ pattern, escapeInspected c = [c])
    {first : Char} (hfirst : pattern.head? = some first)
    (hothers : ∀ c, c ≠ first → first ∉ escapeInspected c) (cs rest : List Char) :
    without pattern nonempty (cs.flatMap escapeInspected ++ '"' :: rest) =
      (without pattern nonempty cs).flatMap escapeInspected ++
        without pattern nonempty ('"' :: rest) := by
  have hsame : pattern.flatMap escapeInspected = pattern :=
    (List.flatMap_congr hplain).trans (List.flatMap_singleton' pattern)
  induction hlength : cs.length using Nat.strongRecOn generalizing cs with
  | ind n ih =>
    subst hlength
    cases cs with
    | nil =>
      have hnil : without pattern nonempty [] = [] :=
        without_of_not_isInfix nonempty (by simpa using nonempty)
      rw [hnil]
      rfl
    | cons c cs =>
      by_cases hfront : pattern <+: c :: cs
      · -- an occurrence in the text is one in its spelling, and both are left out
        obtain ⟨after, hafter⟩ := hfront
        have hshorter : after.length < (c :: cs).length := by
          have hpos := List.length_pos_iff.mpr nonempty
          rw [← hafter, List.length_append]
          omega
        rw [← hafter, List.flatMap_append, hsame, List.append_assoc, without_append_self,
          without_append_self, ih _ hshorter after rfl]
      · have hrest := ih cs.length (Nat.lt_succ_self _) cs rfl
        rw [without_cons nonempty hfront, List.flatMap_cons, List.flatMap_cons, List.append_assoc,
          List.append_assoc, ← hrest]
        -- the only way for the pattern to start in here is with its first character, spelt as it is
        by_cases hc : c = first
        · have hself : escapeInspected c = [c] := hplain c (List.mem_of_mem_head? (hc ▸ hfirst))
          have hshown := mt (isPrefix_flatMap_escapeInspected_iff hplain (c :: cs) rest).mp hfront
          rw [List.flatMap_cons, hself] at hshown
          rw [hself]
          exact without_cons nonempty hshown
        · exact without_append_of_not_mem nonempty hfirst (hothers c hc) _

end Text

/-! ### Lines -/

/-- Lines without a newline are told apart again by the newlines between them. -/
theorem splitOn_lines {texts : List String} (hne : texts ≠ [])
    (h : ∀ text ∈ texts, '\n' ∉ text.toList) :
    ("\n".intercalate texts).toList.splitOn '\n' = texts.map String.toList := by
  rw [String.toList_intercalate]
  refine List.splitOn_intercalate '\n' ?_ (by simpa using hne)
  simpa using h

theorem eq_nil_of_lines_eq {texts : List String}
    (h : ∀ text ∈ texts, text ≠ "" ∧ '\n' ∉ text.toList) (hnone : "\n".intercalate texts = "") :
    texts = [] := by
  by_contra hne
  have hmap := splitOn_lines hne fun text htext => (h text htext).2
  rw [hnone] at hmap
  have hmem : [] ∈ texts.map String.toList := hmap ▸ List.mem_singleton_self []
  obtain ⟨text, htext, hnil⟩ := List.mem_map.mp hmem
  exact (h text htext).1 (String.toList_eq_nil_iff.mp hnil)

/-- Texts that have something on one line each are told by their lines. -/
theorem eq_of_lines_eq {texts texts' : List String}
    (h : ∀ text ∈ texts, text ≠ "" ∧ '\n' ∉ text.toList)
    (h' : ∀ text ∈ texts', text ≠ "" ∧ '\n' ∉ text.toList)
    (hlines : "\n".intercalate texts = "\n".intercalate texts') : texts = texts' := by
  by_cases hnil : texts = []
  · subst hnil
    exact (eq_nil_of_lines_eq h' hlines.symm).symm
  · by_cases hnil' : texts' = []
    · subst hnil'
      exact eq_nil_of_lines_eq h hlines
    · have hmap := splitOn_lines hnil fun text htext => (h text htext).2
      rw [hlines, splitOn_lines hnil' fun text htext => (h' text htext).2] at hmap
      exact (List.map_injective_iff.mpr (fun _ _ => String.toList_injective) hmap).symm

namespace Token

/-! ### Listed tokens -/

/-- A text as listings show it. -/
def withoutQualifier (s : String) : String :=
  String.join (Text.split s "Token::")

/-- A token as far as its listing tells it. -/
def unqualified : Token → Token
  | string s => string (withoutQualifier s)
  | token => token

/-- Removing the qualifier, as a deletion on characters. -/
theorem toList_withoutQualifier (s : String) :
    (withoutQualifier s).toList = Text.without "Token::".toList (by decide) s.toList := by
  rw [withoutQualifier, Text.join_split (by decide), String.toList_ofList]

/-- Where the qualifier does not occur nothing is removed. -/
theorem withoutQualifier_of_not_isInfix {s : String} (h : ¬ "Token::".toList <:+: s.toList) :
    withoutQualifier s = s := by
  rw [← String.toList_inj, toList_withoutQualifier, Text.without_of_not_isInfix _ h]

theorem not_isInfix_of_not_mem {s : String} (h : 'T' ∉ s.toList) :
    ¬ "Token::".toList <:+: s.toList :=
  fun hholds => h (hholds.subset (by decide))

/-- A text without a capital `T` cannot hold the qualifier. -/
theorem withoutQualifier_of_not_mem {s : String} (h : 'T' ∉ s.toList) : withoutQualifier s = s :=
  withoutQualifier_of_not_isInfix (not_isInfix_of_not_mem h)

/-- What is left out between quotes is left out from the text that is quoted. -/
theorem withoutQualifier_inspected {label : String} (hlabel : 'T' ∉ label.toList) (s : String) :
    withoutQualifier (label ++ Text.inspected s ++ ")") =
      label ++ Text.inspected (withoutQualifier s) ++ ")" := by
  have hfront : 'T' ∉ label.toList ++ ['"'] := by simpa using hlabel
  have hothers : ∀ c, c ≠ 'T' → 'T' ∉ Text.escapeInspected c :=
    fun c hc => Text.not_mem_escapeInspected (fun heq => absurd heq.symm hc) (by decide) (by decide)
  have hend : Text.without "Token::".toList (by decide) ['"', ')'] = ['"', ')'] :=
    Text.without_of_not_isInfix _ (by decide)
  have htext : ∀ cs : List Char, label.toList ++ (Text.enclose cs).toList ++ ")".toList =
      (label.toList ++ ['"']) ++ (cs ++ ['"', ')']) := by
    intro cs
    simp [Text.enclose]
  have hall : ("Token::".toList.all fun c => Text.escapeInspected c == [c]) = true := by
    decide +kernel
  have hplain : ∀ c ∈ "Token::".toList, Text.escapeInspected c = [c] :=
    fun c hc => eq_of_beq (List.all_eq_true.mp hall c hc)
  rw [← String.toList_inj]
  simp only [toList_withoutQualifier, String.toList_append, Text.inspected, htext]
  rw [Text.without_append_of_not_mem _ rfl hfront,
    Text.without_flatMap_escapeInspected _ hplain rfl hothers, hend]

variable {token : Token}

/-- **A token is listed as it is inspected without qualifiers in it.** -/
theorem listing_eq (h : token.WellFormed) : token.listing = token.unqualified.inspect := by
  have hlisting : token.listing = withoutQualifier token.inspect := rfl
  rw [hlisting]
  cases token with
  | number n =>
    apply withoutQualifier_of_not_mem
    have hn : 'T' ∉ n.inspect.toList := fun hT => absurd (Number.mem_inspect h hT) (by decide)
    simp [inspect, hn]
  | string s => exact withoutQualifier_inspected (by decide) s
  | keyword s =>
    obtain ⟨name, hs, -, hname⟩ := h
    -- only the first colon of a keyword can be one of the qualifier's, which has two and letters before
    have hcolon : ':' ∉ name := fun hc => absurd (hname ':' hc) (by decide)
    have hkept : withoutQualifier s = s := by
      apply withoutQualifier_of_not_isInfix
      rw [hs, List.infix_cons_iff, not_or]
      exact ⟨by simp, fun hholds => hcolon (hholds.subset (by decide))⟩
    rw [inspect, withoutQualifier_inspected (by decide), hkept]
    rfl
  | symbol s =>
    have hcolon : ':' ∉ s.toList := fun hc => absurd (h.2.1 ':' hc) (by decide)
    have hkept : withoutQualifier s = s :=
      withoutQualifier_of_not_isInfix fun hholds => hcolon (hholds.subset (by decide))
    rw [inspect, withoutQualifier_inspected (by decide), hkept]
    rfl
  | _ => exact withoutQualifier_of_not_mem (by decide)

/-- A token whose text lost a qualifier is still well formed. -/
theorem WellFormed.unqualified (h : token.WellFormed) : token.unqualified.WellFormed := by
  cases token with
  | string s => trivial
  | _ => exact h

/-- Each token is listed on one line: the newlines of a string are escaped. -/
theorem newline_not_mem_inspect (h : token.WellFormed) : '\n' ∉ token.inspect.toList := by
  cases token with
  | number n =>
    have hn : '\n' ∉ n.inspect.toList := fun hT => absurd (Number.mem_inspect h hT) (by decide)
    simp [inspect, hn]
  | string s | keyword s | symbol s => simp [inspect, Text.newline_not_mem_inspected]
  | _ => decide

theorem inspect_ne_empty (token : Token) : token.inspect ≠ "" := by
  cases token <;> simp [inspect]

theorem listing_ne_empty (h : token.WellFormed) : token.listing ≠ "" := by
  rw [listing_eq h]
  exact inspect_ne_empty _

theorem newline_not_mem_listing (h : token.WellFormed) : '\n' ∉ token.listing.toList := by
  rw [listing_eq h]
  exact newline_not_mem_inspect h.unqualified

/-- **Listed tokens are told apart as far as they are unqualified.** -/
theorem listing_eq_iff {token' : Token} (h : token.WellFormed) (h' : token'.WellFormed) :
    token.listing = token'.listing ↔ token.unqualified = token'.unqualified := by
  rw [listing_eq h, listing_eq h']
  exact ⟨eq_of_inspect_eq h.unqualified h'.unqualified, congrArg inspect⟩

/-- Listings agree line by line exactly if the tokens do once their qualifiers are removed. -/
theorem map_listing_eq_iff {tokens tokens' : List Token} (h : ∀ token ∈ tokens, token.WellFormed)
    (h' : ∀ token ∈ tokens', token.WellFormed) :
    tokens.map listing = tokens'.map listing ↔ tokens.map unqualified = tokens'.map unqualified := by
  induction tokens generalizing tokens' with
  | nil => simp [eq_comm]
  | cons token tokens ih =>
    cases tokens' with
    | nil => simp
    | cons token' tokens' =>
      rw [List.forall_mem_cons] at h h'
      simp only [List.map_cons, List.cons.injEq, listing_eq_iff h.1 h'.1, ih h.2 h'.2]

end Token

namespace Console

variable {arguments arguments' : Arguments} {files files' : Files} {tokens tokens' : List Token}

/-- Whether the arguments ask for the tokens of a file that is a program, and which tokens it has. -/
def Lexes (arguments : Arguments) (files : Files) (tokens : List Token) : Prop :=
  ∃ path source, arguments.command = .lex path ∧ readText files path = .ok source ∧
    Token.tokenize source = .ok tokens

theorem lexes_of_tokenize {source : String} (h : Token.tokenize source = .ok tokens) :
    Lexes ⟨.lex "program", 100, 0⟩ (fun _ => .ok source.toUTF8) tokens :=
  ⟨"program", source, rfl, readText_of_toUTF8 rfl, h⟩

/-- The command lists only what the lexer gives, and that is well formed. -/
theorem Lexes.wellFormed (h : Lexes arguments files tokens) : ∀ token ∈ tokens, token.WellFormed := by
  obtain ⟨_, _, -, -, htokens⟩ := h
  exact Token.wellFormed_of_tokenize htokens

theorem Lexes.lines (h : Lexes arguments files tokens) :
    ∀ text ∈ tokens.map Token.listing, text ≠ "" ∧ '\n' ∉ text.toList := by
  rw [List.forall_mem_map]
  intro token htoken
  have hwell := h.wellFormed token htoken
  exact ⟨Token.listing_ne_empty hwell, Token.newline_not_mem_listing hwell⟩

/-- The whole answer of the command on a file that can be cut into tokens. -/
theorem respond_of_lexes (h : Lexes arguments files tokens) (stdin : ByteArray) :
    respond arguments files stdin =
      { status := 0, stdout := "\n".intercalate (tokens.map Token.listing) ++ "\n", stderr := "" } := by
  obtain ⟨path, source, hcommand, hsource, htokens⟩ := h
  simp only [respond, hcommand, printFile, hsource, htokens]

/-- Two listings are the same text exactly if the token lists are the same without qualifiers. -/
theorem stdout_eq_iff_of_lexes (h : Lexes arguments files tokens) (h' : Lexes arguments' files' tokens')
    (stdin stdin' : ByteArray) :
    (respond arguments files stdin).stdout = (respond arguments' files' stdin').stdout ↔
      tokens.map Token.unqualified = tokens'.map Token.unqualified := by
  rw [← Token.map_listing_eq_iff h.wellFormed h'.wellFormed, respond_of_lexes h, respond_of_lexes h',
    String.append_left_inj]
  exact ⟨eq_of_lines_eq h.lines h'.lines, congrArg _⟩

end Console

open Console in
/-- **A listing tells the tokens of a program, except for the qualifier in strings.** Two programs that
are listed have the same listing exactly if their tokens are the same once `Token::` is left out from
their strings. So if no string holds it, the listing tells the tokens, each number with its bits. -/
theorem listing_tells_unqualified_tokens {arguments arguments' : Arguments} {files files' : Files}
    {tokens tokens' : List Token} (h : Lexes arguments files tokens)
    (h' : Lexes arguments' files' tokens') (stdin stdin' : ByteArray) :
    let printed := (respond arguments files stdin).stdout
    let printed' := (respond arguments' files' stdin').stdout
    (printed = printed' ↔ tokens.map Token.unqualified = tokens'.map Token.unqualified) ∧
    ((∀ s, Token.string s ∈ tokens ++ tokens' → ¬ "Token::".toList <:+: s.toList) →
      printed = printed' → tokens = tokens') := by
  refine ⟨stdout_eq_iff_of_lexes h h' stdin stdin', ?_⟩
  intro hstrings hprinted
  have hkept : ∀ token ∈ tokens ++ tokens', token.unqualified = token := by
    intro token htoken
    cases token with
    | string s =>
      exact congrArg Token.string (Token.withoutQualifier_of_not_isInfix (hstrings s htoken))
    | _ => rfl
  rw [List.forall_mem_append] at hkept
  have hmap := (stdout_eq_iff_of_lexes h h' stdin stdin').mp hprinted
  rwa [List.map_congr_left hkept.1, List.map_congr_left hkept.2, List.map_id', List.map_id'] at hmap

/-- One string that reads like the lines of two is not listed like the two. -/
theorem listing_tells_unqualified_tokens_lines :
    let listed (source : String) : String :=
      (Console.respond ⟨.lex "program", 100, 0⟩ (fun _ => .ok source.toUTF8) .empty).stdout
    let one := "\"a\\\")\\nStr(\\\"b\""
    let two := "\"a\" \"b\""
    Token.tokenize one = .ok [.string "a\")\nStr(\"b"] ∧
      Token.tokenize two = .ok [.string "a", .string "b"] ∧ listed one ≠ listed two := by
  intro listed one two
  have hone : Token.tokenize one = .ok [.string "a\")\nStr(\"b"] := by cbv
  have htwo : Token.tokenize two = .ok [.string "a", .string "b"] := by cbv
  refine ⟨hone, htwo, ?_⟩
  intro hlisted
  have htells := listing_tells_unqualified_tokens (Console.lexes_of_tokenize hone)
    (Console.lexes_of_tokenize htwo) .empty .empty
  have htokens := htells.2 ?_ hlisted
  · exact absurd htokens (by decide)
  · intro s hs
    simp only [List.cons_append, List.nil_append, List.mem_cons, Token.string.injEq,
      List.not_mem_nil, or_false] at hs
    rcases hs with rfl | rfl | rfl <;> exact Token.not_isInfix_of_not_mem (by decide)

/-- A string that holds the qualifier is listed like the string without it. -/
theorem listing_hides_qualifiers :
    let listed (source : String) : String :=
      (Console.respond ⟨.lex "program", 100, 0⟩ (fun _ => .ok source.toUTF8) .empty).stdout
    Token.tokenize "\"Token::x\"" = .ok [.string "Token::x"] ∧
      Token.tokenize "\"x\"" = .ok [.string "x"] ∧ Token.string "Token::x" ≠ .string "x" ∧
      listed "\"Token::x\"" = listed "\"x\"" := by
  intro listed
  have hlong : Token.tokenize "\"Token::x\"" = .ok [.string "Token::x"] := by cbv
  have hshort : Token.tokenize "\"x\"" = .ok [.string "x"] := by cbv
  have hx : Token.withoutQualifier "x" = "x" := Token.withoutQualifier_of_not_mem (by decide)
  have hqualified : Token.withoutQualifier "Token::x" = "x" := by
    rw [← String.toList_inj, Token.toList_withoutQualifier]
    exact (Text.without_append_self _ ['x']).trans (Text.without_of_not_isInfix _ (by decide))
  refine ⟨hlong, hshort, by decide, ?_⟩
  apply (Console.stdout_eq_iff_of_lexes (Console.lexes_of_tokenize hlong)
    (Console.lexes_of_tokenize hshort) .empty .empty).mpr
  simp only [List.map_cons, List.map_nil, Token.unqualified, hqualified, hx]

end SmallLisp
