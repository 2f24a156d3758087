import Mathlib
import SmallLisp.Proofs.RoundTrip
/-!
# Which lists of tokens are read

Tokenizing gives the *well-formed* lists of tokens and no others: every token holds what a token of
its kind may hold, and an at sign comes right after a comma.

* **What is read is well-formed** (`wellFormedList_of_tokenize`). Each scan reads one token or none,
  or a comma with its at sign, so no at sign is ever separated from its comma.
* **What is well-formed is read** (`tokenize_spelled`), from the text that spells its tokens with a
  blank between them. No blank comes before an at sign, and everywhere else the blank keeps two tokens
  from running into each other.

`Arranged` says where at signs may stand in the way the proofs use it: along the list.
-/

namespace SmallLisp

namespace Token

/-! ### Where an at sign may stand -/

/-- Whether tokens may be what a text is cut into. -/
structure WellFormedList (tokens : List Token) : Prop where
  each : ∀ token ∈ tokens, token.WellFormed
  /-- Every at sign comes right after a comma. -/
  splices : ∀ before after, tokens = before ++ splice :: after → before.getLast? = some unquote

/-- Whether every at sign comes right after a comma. -/
inductive Arranged : List Token → Prop where
  | nil : Arranged []
  | cons {token : Token} {tokens : List Token} :
      token ≠ splice → Arranged tokens → Arranged (token :: tokens)
  | spliced {tokens : List Token} : Arranged tokens → Arranged (unquote :: splice :: tokens)

theorem Arranged.singleton {token : Token} (h : token ≠ splice) : Arranged [token] :=
  .cons h .nil

/-- Arrangements in a row are one, since each splice has its unquote in its own part. -/
theorem Arranged.append {first second : List Token} (h : Arranged first) (h' : Arranged second) :
    Arranged (first ++ second) := by
  induction h with
  | nil => exact h'
  | cons hne _ ih => exact .cons hne ih
  | spliced _ ih => exact .spliced ih

theorem Arranged.head_ne_splice {token : Token} {tokens : List Token}
    (h : Arranged (token :: tokens)) : token ≠ splice := by
  cases h with
  | cons hne _ => exact hne
  | spliced _ => simp

/-- In an arranged list every splice stands right behind an unquote. -/
theorem getLast?_of_arranged {tokens : List Token} (h : Arranged tokens) (before after : List Token)
    (heq : tokens = before ++ splice :: after) : before.getLast? = some unquote := by
  induction h generalizing before with
  | nil => simp at heq
  | cons hne _ ih =>
    cases before with
    | nil => simp_all
    | cons first before =>
      simp only [List.cons_append, List.cons.injEq] at heq
      simp [List.getLast?_cons, ih before heq.2]
  | spliced _ ih =>
    match before with
    | [] => simp at heq
    | [first] => simp_all
    | first :: second :: before =>
      simp only [List.cons_append, List.cons.injEq] at heq
      simp [List.getLast?_cons, ih before heq.2.2]

/-- The other way round, by induction on the list, looking one token ahead. -/
theorem arranged_of_getLast? {tokens : List Token}
    (h : ∀ before after, tokens = before ++ splice :: after → before.getLast? = some unquote) :
    Arranged tokens := by
  match tokens with
  | [] => exact .nil
  | [token] =>
    apply Arranged.singleton
    rintro rfl
    simpa using h [] [] rfl
  | token :: next :: tokens =>
    have hne : token ≠ splice := by
      rintro rfl
      simpa using h [] _ rfl
    by_cases hnext : next = splice
    · -- the at sign has its comma, and the tokens behind it are on their own
      subst hnext
      have htoken : token = unquote := by simpa using h [token] tokens rfl
      subst htoken
      apply Arranged.spliced
      apply arranged_of_getLast?
      rintro before after rfl
      have hlast := h (unquote :: splice :: before) after rfl
      cases before with
      | nil => simp at hlast
      | cons first before => simpa [List.getLast?_cons] using hlast
    · apply Arranged.cons hne
      apply arranged_of_getLast?
      intro before after heq
      have hlast := h (token :: before) after (by rw [heq, List.cons_append])
      cases before with
      | nil => simp_all
      | cons first before => simpa [List.getLast?_cons] using hlast

/-- Both conditions on a list of tokens, the second in the form that goes along with the lexer. -/
theorem wellFormedList_iff {tokens : List Token} :
    WellFormedList tokens ↔ (∀ token ∈ tokens, token.WellFormed) ∧ Arranged tokens := by
  constructor
  · rintro ⟨heach, hsplices⟩
    exact ⟨heach, arranged_of_getLast? hsplices⟩
  · rintro ⟨heach, harranged⟩
    exact ⟨heach, getLast?_of_arranged harranged⟩

/-! ### What is read is well-formed -/

variable {c : Char} {cs rest : List Char} {tokens : List Token}

theorem arranged_of_readNumber {negative : Bool} (h : readNumber negative cs = .ok (tokens, rest)) :
    Arranged tokens := by
  unfold readNumber at h
  dsimp only at h
  split at h
  · cases h
    exact .singleton (by simp)
  · cases h

theorem arranged_of_readString {text : String} (h : readString text cs = .ok (tokens, rest)) :
    Arranged tokens := by
  fun_induction readString text cs with
  | case2 text cs =>
    cases h
    exact .singleton (by simp)
  | case4 _ _ _ _ _ ih => exact ih h
  | case6 _ _ _ _ _ _ ih => exact ih h
  | case1 | case3 | case5 => cases h

theorem ne_splice_of_lead {token : Token} (h : lead c = .single token) : token ≠ splice := by
  rintro rfl
  unfold lead at h
  grind

/-- A scan that reads an at sign reads its comma as well. -/
theorem arranged_of_scan (h : scan c cs = .ok (tokens, rest)) : Arranged tokens := by
  unfold scan at h
  cases hlead : lead c <;> simp only [hlead] at h
  case blank | comment =>
    cases h
    exact .nil
  case single token =>
    cases h
    exact .singleton (ne_splice_of_lead hlead)
  case numberSign =>
    unfold readHashOpen at h
    split at h <;> cases h
    exact .singleton (by simp)
  case comma =>
    unfold readUnquote at h
    split at h <;> cases h
    · exact .spliced .nil
    · exact .singleton (by simp)
  case digit => exact arranged_of_readNumber h
  case doubleQuote => exact arranged_of_readString h
  case colon =>
    unfold readKeyword at h
    dsimp only at h
    split at h <;> cases h
    exact .singleton (by simp)
  case symbolic =>
    split at h
    · exact arranged_of_readNumber h
    · cases h
      exact .singleton (by simp)
  case nothing => cases h

/-- The lexer gives a splice only together with its unquote. -/
theorem arranged_of_tokenizeFrom {done : Array Token} (h : tokenizeFrom done cs = .ok tokens)
    (hdone : Arranged done.toList) : Arranged tokens := by
  fun_induction tokenizeFrom done cs with
  | case1 done =>
    cases h
    exact hdone
  | case2 => cases h
  | case3 done c cs new rest hscan ih =>
    apply ih h
    rw [Array.appendList_eq_append, Array.toList_appendList]
    exact hdone.append (arranged_of_scan hscan)

/-- So it gives well-formed lists only. -/
theorem wellFormedList_of_tokenize {source : String} (h : tokenize source = .ok tokens) :
    WellFormedList tokens :=
  wellFormedList_iff.mpr ⟨wellFormed_of_tokenize h, arranged_of_tokenizeFrom h .nil⟩

/-! ### What is well-formed is read -/

/-- The text of tokens, with a blank before each one but the first and at signs. -/
def spelled : List Token → List Char
  | [] => []
  | [token] => token.spelling
  | token :: next :: tokens =>
    token.spelling ++ (if next = splice then [] else [' ']) ++ spelled (next :: tokens)

/-- What is written behind a token, if no at sign comes next. -/
def spelledBehind (tokens : List Token) : List Char :=
  if tokens.isEmpty then [] else ' ' :: spelled tokens

theorem spelled_cons {token : Token} (h : Arranged tokens) :
    spelled (token :: tokens) = token.spelling ++ spelledBehind tokens := by
  cases tokens with
  | nil => simp [spelled, spelledBehind]
  | cons next tokens => simp [spelled, spelledBehind, h.head_ne_splice]

/-- What is spelt behind a token ends it, since it is nothing or starts with a blank. -/
theorem ends_spelledBehind (tokens : List Token) : Ends (spelledBehind tokens) := by
  unfold spelledBehind
  split
  · exact ends_nil
  · exact ends_cons (by decide) (by decide)

theorem tokenizeFrom_spelledBehind (done : Array Token) (tokens : List Token) :
    tokenizeFrom done (spelledBehind tokens) = tokenizeFrom done (spelled tokens) := by
  unfold spelledBehind
  split
  · next hempty => rw [List.isEmpty_iff.mp hempty, spelled]
  · exact Datum.tokenizeFrom_blank rfl done _

/-- **The spelling of well-formed tokens is cut into them**, up to the sign of a zero: by induction
along the list, with what was read before in front. -/
theorem tokenizeFrom_spelled (h : Arranged tokens) (hwell : ∀ token ∈ tokens, token.WellFormed)
    (done : Array Token) :
    tokenizeFrom done (spelled tokens) = .ok (done.toList ++ tokens.map plain) := by
  induction h generalizing done with
  | nil => simp [spelled, tokenizeFrom]
  | @cons token tokens hne hrest ih =>
    rw [List.forall_mem_cons] at hwell
    rw [spelled_cons hrest, tokenizeFrom_spelling done hwell.1 hne (ends_spelledBehind tokens),
      tokenizeFrom_spelledBehind, ih hwell.2]
    simp
  | @spliced tokens hrest ih =>
    -- comma and at sign are read in one scan
    have hscan : scan ',' ('@' :: spelledBehind tokens) =
        .ok ([unquote, splice], spelledBehind tokens) := rfl
    have htext : spelled (unquote :: splice :: tokens) = ',' :: '@' :: spelledBehind tokens := by
      rw [spelled, spelled_cons hrest]
      rfl
    rw [htext, tokenizeFrom_cons hscan, tokenizeFrom_spelledBehind,
      ih fun token htoken => hwell token (by simp [htoken])]
    simp [plain]

/-- Every well-formed list is the tokens of its own spelling, with numbers as they read back. -/
theorem tokenize_spelled (h : WellFormedList tokens) :
    tokenize (String.ofList (spelled tokens)) = .ok (tokens.map plain) := by
  obtain ⟨hwell, harranged⟩ := wellFormedList_iff.mp h
  rw [tokenize, String.toList_ofList, tokenizeFrom_spelled harranged hwell]
  rfl

def equal : Token → Token → Bool
  | number m, number n => m.equal n
  | token, other => token = other

theorem equal_plain (token : Token) : token.equal token.plain = true := by
  cases token with
  | number n => exact n.equal_plain
  | _ => simp [equal, plain]

end Token

open Token

/-- **A text is cut into a well-formed list of tokens, and every such list is what some text is cut
into**: the text that spells its tokens in order, with a blank between them and at signs right behind
their commas. Numbers come back as equal numbers. -/
theorem tokens_read_are_the_wellFormed_lists :
    (∀ (source : String) (tokens : List Token),
      tokenize source = .ok tokens → WellFormedList tokens) ∧
    (∀ tokens : List Token, WellFormedList tokens →
      ∃ again, tokenize (String.ofList (spelled tokens)) = .ok again ∧
        List.Forall₂ (fun token token' => token.equal token' = true) tokens again) := by
  refine ⟨fun _ _ => wellFormedList_of_tokenize, ?_⟩
  intro tokens h
  refine ⟨tokens.map plain, tokenize_spelled h, ?_⟩
  rw [List.forall₂_map_right_iff, List.forall₂_same]
  exact fun token _ => token.equal_plain

/-- A list with an at sign, a symbol that looks like a number, a string that needs escapes and a
negative zero, and a text whose tokens have an at sign without a blank in front of it. -/
theorem tokens_read_are_the_wellFormed_lists_splice :
    let tokens := [listOpen, unquote, splice, symbol "-.5", string "\"\\\n", keyword ":-1",
      number (Number.ofMagnitude true 0), listClose]
    (tokenize ",@-" = .ok [unquote, splice, symbol "-"] ∧
      WellFormedList [unquote, splice, symbol "-"]) ∧
    WellFormedList tokens ∧
    spelled tokens = "( ,@ -.5 \"\\\"\\\\\\n\" :-1 0 )".toList ∧
    ∃ again, tokenize (String.ofList (spelled tokens)) = .ok again ∧
      List.Forall₂ (fun token token' => token.equal token' = true) tokens again := by
  intro tokens
  have hread : tokenize ",@-" = .ok [unquote, splice, symbol "-"] := by cbv
  have hsymbol : (symbol "-.5").WellFormed := wellFormed_symbol rfl rfl rfl
  have hkeyword : (keyword ":-1").WellFormed := ⟨['-', '1'], rfl, by simp, List.all_eq_true.mp rfl⟩
  have hwell : ∀ token ∈ tokens, token.WellFormed := by
    simp only [tokens, List.forall_mem_cons, List.not_mem_nil, false_implies, implies_true, and_true]
    exact ⟨trivial, trivial, trivial, hsymbol, trivial, hkeyword, rfl, trivial⟩
  have harranged : Arranged tokens := by
    refine .cons (by simp) (.spliced ?_)
    exact .cons (by simp) (.cons (by simp) (.cons (by simp) (.cons (by simp) (.singleton (by simp)))))
  have hlist : WellFormedList tokens := wellFormedList_iff.mpr ⟨hwell, harranged⟩
  obtain ⟨hforward, hback⟩ := tokens_read_are_the_wellFormed_lists
  exact ⟨⟨hread, hforward _ _ hread⟩, hlist, by decide +kernel, hback tokens hlist⟩

end SmallLisp
