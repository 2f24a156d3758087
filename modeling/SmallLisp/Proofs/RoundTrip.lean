import SmallLisp.Console.Reply
import SmallLisp.Proofs.Grammar
import SmallLisp.Proofs.Spelling
import SmallLisp.Proofs.Verdict
/-!
# Printed forms read back

```
forms  ──display──▶  text  ──tokenize──▶  tokens  ──readForms──▶  forms
```

Forms that were parsed are printed as lists, symbols, keywords, numbers and strings only: marks and
hashes are printed as the lists they stand for. **Reading the print-out gives the forms back**,
except that a zero loses its sign, or it fails because of the one thing that printing changes, which
is how deep the text nests: a hash takes up one level of the text and two of the print-out.

* Parsed forms are data (`isDatum_of_derives`), with what a token of their kind may hold.
* The text of a datum is cut into the tokens of the datum (`rereads_of_isDatum`). An item of a list
  is followed by a blank or a bracket, and neither goes on with a token.
* The grammar derives a datum from its tokens if there are levels left for it (`derives_tokens`).
  If there are not, the first bracket too many is refused (`readFrom_of_tooDeep`).
-/

namespace SmallLisp

namespace Value

/-! ### Data and their tokens -/

/-- Whether a value is made of what tokens hold. -/
inductive IsDatum : Value → Prop where
  | number {n : Number} : (Token.number n).WellFormed → IsDatum (.number n)
  | string (s : String) : IsDatum (.string s)
  | keyword {s : String} : (Token.keyword s).WellFormed → IsDatum (.keyword s)
  | symbol {s : String} : (Token.symbol s).WellFormed → IsDatum (.symbol s)
  | list {items : List Value} : (∀ v ∈ items, IsDatum v) → IsDatum (.list items)

mutual

def tokens : Value → List Token
  | number n => [.number n]
  | string s => [.string s]
  | keyword s => [.keyword s]
  | symbol s => [.symbol s]
  | list items => .listOpen :: tokensAll items ++ [.listClose]
  | _ => []

def tokensAll : List Value → List Token
  | [] => []
  | v :: vs => v.tokens ++ tokensAll vs

end

mutual

/-- What is read back of a datum. -/
def plain : Value → Value
  | number n => number n.plain
  | list items => list (plainAll items)
  | v => v

def plainAll : List Value → List Value
  | [] => []
  | v :: vs => v.plain :: plainAll vs

end

theorem tokensAll_append (vs ws : List Value) :
    tokensAll (vs ++ ws) = tokensAll vs ++ tokensAll ws := by
  induction vs with
  | nil => rfl
  | cons v vs ih => rw [List.cons_append, tokensAll, tokensAll, ih, List.append_assoc]

theorem plainAll_eq_map (vs : List Value) : plainAll vs = vs.map plain := by
  induction vs with
  | nil => rfl
  | cons v vs ih => rw [plainAll, List.map_cons, ih]

theorem displayItems_eq_map (vs : List Value) : displayItems vs = vs.map display := by
  induction vs with
  | nil => rfl
  | cons v vs ih => rw [displayItems, List.map_cons, ih]

/-- Items in a row are as deep as the deepest of them. -/
theorem nestingAll_le_iff {vs : List Value} {limit : Nat} :
    nestingAll vs ≤ limit ↔ ∀ v ∈ vs, v.nesting ≤ limit := by
  induction vs with
  | nil => simp [nestingAll]
  | cons v vs ih => rw [nestingAll, Nat.max_le, ih, List.forall_mem_cons]

/-- The first of the values that is nested too deep stands behind values that are not. -/
theorem exists_first_of_lt_nestingAll {vs : List Value} {limit : Nat} (h : limit < nestingAll vs) :
    ∃ before v after,
      vs = before ++ v :: after ∧ nestingAll before ≤ limit ∧ limit < v.nesting := by
  induction vs with
  | nil => cases h
  | cons v vs ih =>
    by_cases hv : limit < v.nesting
    · exact ⟨[], v, vs, rfl, Nat.zero_le _, hv⟩
    · have hvs : limit < nestingAll vs := by
        rw [nestingAll] at h
        omega
      obtain ⟨before, w, after, rfl, hbefore, hw⟩ := ih hvs
      refine ⟨v :: before, w, after, rfl, ?_, hw⟩
      rw [nestingAll]
      omega

theorem equalItems_plainAll {items : List Value} (h : ∀ v ∈ items, v.equal v.plain = true) :
    equalItems items (plainAll items) = true := by
  induction items with
  | nil => rfl
  | cons v vs ih =>
    rw [List.forall_mem_cons] at h
    rw [plainAll, equalItems, h.1, ih h.2]
    rfl

/-- **What is read back is equal to what was printed.** -/
theorem IsDatum.equal_plain {v : Value} (h : IsDatum v) : v.equal v.plain = true := by
  induction h with
  | number => exact Number.equal_plain _
  | string | keyword | symbol => exact beq_self_eq_true _
  | list _ ih => exact equalItems_plainAll ih

theorem nestingAll_plainAll {items : List Value} (h : ∀ v ∈ items, v.plain.nesting = v.nesting) :
    nestingAll (plainAll items) = nestingAll items := by
  induction items with
  | nil => rfl
  | cons v vs ih =>
    rw [List.forall_mem_cons] at h
    rw [plainAll, nestingAll, nestingAll, h.1, ih h.2]

/-- Reading numbers back changes no shape. -/
theorem IsDatum.nesting_plain {v : Value} (h : IsDatum v) : v.plain.nesting = v.nesting := by
  induction h with
  | number | string | keyword | symbol => rfl
  | list _ ih => exact congrArg (· + 1) (nestingAll_plainAll ih)

theorem IsDatum.plain {v : Value} (h : IsDatum v) : IsDatum v.plain := by
  induction h with
  | @number n hn =>
    apply IsDatum.number
    show n.plain.isFinite = true
    rwa [Number.isFinite, Number.magnitude_plain]
  | string s => exact .string s
  | keyword hs => exact .keyword hs
  | symbol hs => exact .symbol hs
  | @list items _ ih =>
    apply IsDatum.list
    rw [plainAll_eq_map]
    exact List.forall_mem_map.mpr ih

end Value

namespace Datum

open Value

/-! ### Parsed forms are data -/

theorem ofKeyword_of_wellFormed {s : String} (h : (Token.keyword s).WellFormed) :
    ofKeyword s = .keyword s := by
  obtain ⟨name, hname, -⟩ := h
  have hcolon : hasColon s = true := by simp [hasColon, hname]
  rw [ofKeyword, if_pos hcolon]

/-- Well-formed tokens stand for data. -/
theorem isDatum_of_atom {token : Token} {v : Value} (h : atom? token = some v)
    (hwell : token.WellFormed) : v.IsDatum := by
  cases token <;> cases h
  case number => exact .number hwell
  case string => exact .string _
  case symbol => exact .symbol hwell
  case keyword =>
    rw [ofKeyword_of_wellFormed hwell]
    exact .keyword hwell

/-- An abbreviation expands to a call by name, which is a list of data. -/
theorem isDatum_call {name : String} {items : List Value} (hname : (Token.symbol name).WellFormed)
    (hitems : ∀ v ∈ items, v.IsDatum) : (Value.list (.symbol name :: items)).IsDatum :=
  .list (List.forall_mem_cons.mpr ⟨.symbol hname, hitems⟩)

theorem isDatum_wrap (mark : Mark) {v : Value} (h : v.IsDatum) : (mark.wrap v).IsDatum := by
  apply isDatum_call
  · cases mark <;> exact Token.wellFormed_symbol rfl rfl rfl
  · simpa using h

theorem isDatum_hashCall {items : List Value} (h : ∀ v ∈ items, v.IsDatum) :
    (hashCall items).IsDatum := by
  apply isDatum_call
  · exact Token.wellFormed_symbol rfl rfl rfl
  · rw [List.forall_mem_singleton]
    apply isDatum_call
    · exact Token.wellFormed_symbol rfl rfl rfl
    · exact h

mutual

/-- **Well-formed tokens derive data.** -/
theorem isDatum_of_derives {depth : Nat} {tokens : List Token} {v : Value}
    (h : Derives depth tokens v) (hwell : ∀ token ∈ tokens, token.WellFormed) : v.IsDatum := by
  cases h with
  | atom hatom => exact isDatum_of_atom hatom (hwell _ List.mem_cons_self)
  | list _ hitems =>
    apply IsDatum.list
    apply isDatum_of_derivesAll hitems
    intro token htoken
    exact hwell token (by simp [htoken])
  | hash _ hitems =>
    apply isDatum_hashCall
    apply isDatum_of_derivesAll hitems
    intro token htoken
    exact hwell token (by simp [htoken])
  | mark mark _ hv =>
    apply isDatum_wrap
    apply isDatum_of_derives hv
    intro token htoken
    exact hwell token (List.mem_append_right _ htoken)

/-- What the grammar derives from well-formed tokens are data, one case for each production. -/
theorem isDatum_of_derivesAll {depth : Nat} {tokens : List Token} {vs : List Value}
    (h : DerivesAll depth tokens vs) (hwell : ∀ token ∈ tokens, token.WellFormed) :
    ∀ v ∈ vs, v.IsDatum := by
  cases h with
  | nil => nofun
  | cons hv hvs =>
    rw [List.forall_mem_append] at hwell
    rw [List.forall_mem_cons]
    exact ⟨isDatum_of_derives hv hwell.1, isDatum_of_derivesAll hvs hwell.2⟩

end

/-- Programs are data: the lexer gives well-formed tokens only. -/
theorem isDatum_of_parseForms {source : String} {forms : List Value}
    (h : parseForms source = .ok forms) : ∀ v ∈ forms, v.IsDatum := by
  unfold parseForms at h
  split at h
  · cases h
  · next tokens htokens =>
    exact isDatum_of_derivesAll (readForms_eq_ok_iff.mp h) (Token.wellFormed_of_tokenize htokens)

/-! ### From text to tokens -/

open Token

/-- Blanks separate tokens and leave nothing behind. -/
theorem tokenizeFrom_blank {separator : Char} (h : lead separator = .blank) (done : Array Token)
    (rest : List Char) : tokenizeFrom done (separator :: rest) = tokenizeFrom done rest := by
  have hscan : scan separator rest = .ok ([], rest) := by rw [scan, h]
  rw [tokenizeFrom_cons hscan]
  rfl

theorem tokenizeFrom_blanks {cs : List Char} (h : ∀ c ∈ cs, lead c = .blank) (done : Array Token) :
    tokenizeFrom done cs = .ok done.toList := by
  induction cs with
  | nil => rw [tokenizeFrom]
  | cons c cs ih =>
    rw [List.forall_mem_cons] at h
    rw [tokenizeFrom_blank h.1, ih h.2]

theorem ends_blank {separator : Char} (h : lead separator = .blank) (rest : List Char) :
    Ends (separator :: rest) := by
  apply ends_cons
  · by_contra hsymbol
    rw [lead_of_isSymbolChar (by simpa using hsymbol)] at h
    split at h <;> cases h
  · rintro rfl
    cases h

theorem array_append_append (done : Array Token) (first second : List Token) :
    done ++ first ++ second = done ++ (first ++ second) := by
  apply Array.toList_inj.mp
  simp

/-- Whether the text of a value is cut into the tokens of what is read back of it. -/
def Rereads (v : Value) : Prop :=
  ∀ (done : Array Token) (rest : List Char), Ends rest →
    tokenizeFrom done (v.display.toList ++ rest) = tokenizeFrom (done ++ v.plain.tokens) rest

/-- The texts of values with a blank between them are cut into their tokens. -/
theorem tokenizeFrom_intercalate {separator : Char} (hblank : lead separator = .blank)
    {items : List Value} (hitems : ∀ v ∈ items, Rereads v) (done : Array Token) {rest : List Char}
    (hends : Ends rest) :
    tokenizeFrom done ([separator].intercalate (items.map (·.display.toList)) ++ rest) =
      tokenizeFrom (done ++ tokensAll (plainAll items)) rest := by
  induction items generalizing done with
  | nil => rfl
  | cons v vs ih =>
    rw [List.forall_mem_cons] at hitems
    cases vs with
    | nil =>
      rw [List.map_singleton, List.intercalate_singleton, hitems.1 done rest hends]
      simp [plainAll, tokensAll]
    | cons w vs =>
      -- the blank ends the text of `v`, and is skipped
      have hrest := ih hitems.2 (done ++ v.plain.tokens)
      rw [List.map_cons] at hrest
      rw [List.map_cons, List.map_cons, List.intercalate_cons_cons, List.append_assoc,
        List.append_assoc, List.singleton_append, hitems.1 done _ (ends_blank hblank _),
        tokenizeFrom_blank hblank, hrest, array_append_append]
      rfl

/-- An atom whose text is the spelling of a token is cut back into that token. -/
theorem rereads_of_token {v : Value} {token : Token} (hwell : token.WellFormed)
    (hsplice : token ≠ splice) (hdisplay : v.display.toList = token.spelling)
    (htokens : v.plain.tokens = [token.plain]) : Rereads v := by
  intro done rest hends
  rw [hdisplay, htokens, tokenizeFrom_spelling done hwell hsplice hends]
  rfl

theorem display_list_toList (items : List Value) :
    (Value.list items).display.toList =
      '(' :: ([' '].intercalate (items.map (·.display.toList)) ++ [')']) := by
  simp [display, displayItems_eq_map, String.toList_intercalate, Function.comp_def]

/-- **The text of a datum is cut into its tokens.** -/
theorem rereads_of_isDatum {v : Value} (h : v.IsDatum) : Rereads v := by
  induction h with
  | number hn => exact rereads_of_token hn nofun (by rw [display, spelling]) rfl
  | string s =>
    have hs : (Token.string s).WellFormed := trivial
    exact rereads_of_token hs nofun (by rw [display, spelling]) rfl
  | keyword hs => exact rereads_of_token hs nofun (by rw [display, spelling]) rfl
  | symbol hs => exact rereads_of_token hs nofun (by rw [display, spelling]) rfl
  | @list items _ ih =>
    intro done rest hends
    have hspace : lead ' ' = .blank := rfl
    have hopen : ∀ cs, scan '(' cs = .ok ([.listOpen], cs) := fun _ => rfl
    have hclose : ∀ cs, scan ')' cs = .ok ([.listClose], cs) := fun _ => rfl
    have hbracket : Ends (')' :: rest) := ends_cons (by decide) (by decide)
    rw [display_list_toList, List.cons_append, List.append_assoc, List.singleton_append,
      tokenizeFrom_cons (hopen _), tokenizeFrom_intercalate hspace ih _ hbracket,
      tokenizeFrom_cons (hclose _), Value.plain, tokens, ← array_append_append]
    rfl

/-! ### From tokens to forms -/

theorem derivesAll_tokensAll {depth : Nat} {vs : List Value}
    (h : ∀ v ∈ vs, Derives depth v.tokens v) : DerivesAll depth (tokensAll vs) vs := by
  induction vs with
  | nil => exact .nil
  | cons v vs ih =>
    rw [List.forall_mem_cons] at h
    exact .cons h.1 (ih h.2)

/-- **The tokens of a datum derive it** if there are levels left for it. -/
theorem derives_tokens {v : Value} (h : v.IsDatum) {depth : Nat}
    (hdepth : depth + v.nesting ≤ maxNesting) : Derives depth v.tokens v := by
  induction h generalizing depth with
  | number | string | symbol => exact .atom rfl
  | keyword hs =>
    apply Derives.atom
    rw [atom?, ofKeyword_of_wellFormed hs]
  | @list items _ ih =>
    rw [nesting] at hdepth
    apply Derives.list (by omega)
    apply derivesAll_tokensAll
    intro v hv
    have hle := nesting_le_nestingAll hv
    exact ih v hv (by omega)

/-- Data within the limit are derived from their own tokens. -/
theorem derivesAll_of_nestingAll_le {vs : List Value} (h : ∀ v ∈ vs, v.IsDatum) {depth : Nat}
    (hdepth : depth + nestingAll vs ≤ maxNesting) : DerivesAll depth (tokensAll vs) vs := by
  apply derivesAll_tokensAll
  intro v hv
  have hle := nesting_le_nestingAll hv
  exact derives_tokens (h v hv) (by omega)

/-- **A datum for which there are no levels left is refused.** The first of the items that is nested
too deep decides, and those before it are read. -/
theorem readFrom_of_tooDeep {v : Value} (h : v.IsDatum) {frames : List Frame}
    (hframes : frames.length ≤ maxNesting) (hdeep : maxNesting < frames.length + v.nesting)
    (rest : List Token) : readFrom frames (v.tokens ++ rest) = .error .tooDeep := by
  induction h generalizing frames rest with
  | number | string | keyword | symbol => exact absurd hdeep (Nat.not_lt.mpr hframes)
  | @list items hitems ih =>
    rw [nesting] at hdeep
    rw [tokens, List.cons_append, List.cons_append, List.append_assoc]
    by_cases hlevel : frames.length < maxNesting
    · -- there is a level for this bracket, so the limit is passed in one of the items
      have hopen : step frames .listOpen = _ := enter_of_lt hlevel _
      have hlimit : maxNesting - (frames.length + 1) < nestingAll items := by omega
      obtain ⟨before, w, after, rfl, hbefore, hw⟩ := exists_first_of_lt_nestingAll hlimit
      have hread : DerivesAll (frames.length + 1) (tokensAll before) before := by
        apply derivesAll_of_nestingAll_le
        · exact fun v hv => hitems v (List.mem_append_left _ hv)
        · omega
      rw [readFrom_cons hopen]
      show readFrom (.list [] :: frames) _ = _
      rw [tokensAll_append, tokensAll, List.append_assoc, List.append_assoc,
        readFrom_of_derivesAll .list (fun _ _ _ => rfl) hread []]
      apply ih w (List.mem_append_right _ List.mem_cons_self)
      · exact hlevel
      · rw [List.length_cons]
        omega
    · -- this bracket is the one too many
      have hrefused : step frames .listOpen = .error .tooDeep := if_neg hlevel
      rw [readFrom, hrefused]

/-- Reading all forms fails where reading one does, unless it was only the end of the tokens. -/
theorem readAllFrom_of_refused {frames : List Frame} {tokens : List Token} {e : SyntaxError}
    (h : readFrom frames tokens = .error e) (he : e ∉ shortages) (done : Array Value) :
    readAllFrom done frames tokens = .error e := by
  induction tokens generalizing frames with
  | nil =>
    cases h
    exact absurd (unfinished_mem_shortages frames) he
  | cons token tokens ih =>
    rw [readFrom] at h
    rw [readAllFrom]
    cases hstep : step frames token with
    | error e' =>
      rw [hstep] at h
      cases h
      rfl
    | ok progress =>
      rw [hstep] at h
      cases progress with
      | complete form => cases h
      | pending frames => exact ih h

/-- Whether data can be read again is decided by their nesting alone. -/
theorem readForms_tokensAll {vs : List Value} (h : ∀ v ∈ vs, v.IsDatum) :
    readForms (tokensAll vs) =
      if nestingAll vs ≤ maxNesting then .ok vs else .error .tooDeep := by
  split
  · next hnesting =>
    rw [readForms_eq_ok_iff]
    exact derivesAll_of_nestingAll_le h (by omega)
  · next hnesting =>
    -- everything before the first value that is too deep is read
    obtain ⟨before, w, after, rfl, hbefore, hw⟩ :=
      exists_first_of_lt_nestingAll (Nat.lt_of_not_le hnesting)
    have hread : DerivesAll 0 (tokensAll before) before := by
      apply derivesAll_of_nestingAll_le
      · exact fun v hv => h v (List.mem_append_left _ hv)
      · omega
    have hrefused : readFrom [] (w.tokens ++ tokensAll after) = .error .tooDeep := by
      apply readFrom_of_tooDeep (h w (List.mem_append_right _ List.mem_cons_self))
      · exact Nat.zero_le _
      · rw [List.length_nil]
        omega
    rw [tokensAll_append, tokensAll, readForms, readAllFrom_of_derivesAll hread]
    exact readAllFrom_of_refused hrefused (by decide) _

/-! ### Printing and parsing -/

def printed (forms : List Value) : String :=
  "\n".intercalate (forms.map display)

/-- The print-out is cut into the tokens of its forms, with blanks behind it or without. -/
theorem tokenize_printed {forms : List Value} (h : ∀ v ∈ forms, v.IsDatum) (ending : String)
    (hending : ∀ c ∈ ending.toList, lead c = .blank) :
    tokenize (printed forms ++ ending) = .ok (tokensAll (plainAll forms)) := by
  have hline : lead '\n' = .blank := rfl
  have hforms : ∀ v ∈ forms, Rereads v := fun v hv => rereads_of_isDatum (h v hv)
  have hends : Ends ending.toList := by
    cases hcs : ending.toList with
    | nil => exact ends_nil
    | cons c cs => exact ends_blank (hending c (by simp [hcs])) cs
  have htext : (printed forms).toList = ['\n'].intercalate (forms.map (·.display.toList)) := by
    simp [printed, String.toList_intercalate, Function.comp_def]
  rw [tokenize, String.toList_append, htext, tokenizeFrom_intercalate hline hforms _ hends,
    tokenizeFrom_blanks hending]
  simp

/-- **Parsing the print-out of data** gives what is read back of them, if they are not nested too
deep. -/
theorem parseForms_printed {forms : List Value} (h : ∀ v ∈ forms, v.IsDatum) (ending : String)
    (hending : ∀ c ∈ ending.toList, lead c = .blank) :
    parseForms (printed forms ++ ending) =
      if nestingAll forms ≤ maxNesting then .ok (plainAll forms) else .error .tooDeep := by
  have hplain : ∀ v ∈ plainAll forms, v.IsDatum := by
    rw [plainAll_eq_map]
    exact List.forall_mem_map.mpr fun v hv => (h v hv).plain
  have hnesting : nestingAll (plainAll forms) = nestingAll forms :=
    nestingAll_plainAll fun v hv => (h v hv).nesting_plain
  rw [parseForms, tokenize_printed h ending hending]
  dsimp only
  rw [readForms_tokensAll hplain, hnesting]

/-! ### A text at the limit

Marks in front of an empty hash show what the limit does: the hash takes the last level of the text,
and the list inside its call is one level too deep to be read back. -/

def quotes : Nat → Value → Value
  | 0, v => v
  | count + 1, v => Mark.quote.wrap (quotes count v)

def quotedHash (count : Nat) : String :=
  String.ofList (List.replicate count '\'' ++ ['#', '\x7b', '\x7d'])

theorem nesting_quotes (count : Nat) (v : Value) :
    (quotes count v).nesting = v.nesting + count := by
  induction count with
  | zero => rfl
  | succ count ih =>
    rw [quotes, Mark.wrap, nesting, nestingAll, nestingAll, nestingAll, ih]
    simp [nesting]
    omega

theorem tokenizeFrom_quotes (done : Array Token) (count : Nat) (rest : List Char) :
    tokenizeFrom done (List.replicate count '\'' ++ rest) =
      tokenizeFrom (done ++ List.replicate count Token.quote) rest := by
  induction count generalizing done with
  | zero => rfl
  | succ count ih =>
    have hscan : ∀ cs, scan '\'' cs = .ok ([.quote], cs) := fun _ => rfl
    rw [List.replicate_succ, List.cons_append, tokenizeFrom_cons (hscan _), ih]
    rfl

theorem derives_quotes {depth : Nat} {tokens : List Token} {v : Value} (count : Nat)
    (h : Derives (depth + count) tokens v) (hdepth : depth + count ≤ maxNesting) :
    Derives depth (List.replicate count Token.quote ++ tokens) (quotes count v) := by
  induction count generalizing depth with
  | zero => exact h
  | succ count ih =>
    apply Derives.mark .quote (by omega)
    apply ih
    · rwa [Nat.add_assoc, Nat.add_comm 1]
    · omega

/-- An empty hash behind fewer quotes than the limit is read, although what it stands for is one
level deeper than it is written. -/
theorem parseForms_quotedHash {count : Nat} (h : count < maxNesting) :
    parseForms (quotedHash count) = .ok [quotes count (hashCall [])] := by
  have hscan : scan '#' ['\x7b', '\x7d'] = .ok ([.hashOpen], ['\x7d']) := rfl
  have htokens : tokenize (quotedHash count) =
      .ok (List.replicate count Token.quote ++ [.hashOpen, .hashClose]) := by
    rw [tokenize, quotedHash, String.toList_ofList, tokenizeFrom_quotes, tokenizeFrom_cons hscan,
      tokenizeFrom_cons rfl, tokenizeFrom]
    simp
  have hhash : Derives (0 + count) [.hashOpen, .hashClose] (hashCall []) :=
    .hash (by omega) .nil rfl
  rw [parseForms, htokens]
  exact readForms_eq_ok_iff.mpr (.singleton (derives_quotes count hhash (by omega)))

end Datum

theorem fromUTF8?_toUTF8 (source : String) : String.fromUTF8? source.toUTF8 = some source := by
  unfold String.fromUTF8?
  rw [String.toUTF8_eq_toByteArray, dif_pos source.isValidUTF8]
  rfl

theorem Console.readText_of_toUTF8 {files : Console.Files} {path source : String}
    (h : files path = .ok source.toUTF8) : Console.readText files path = .ok source := by
  rw [readText, h]
  dsimp only
  rw [fromUTF8?_toUTF8]

open Datum in
/-- **Printing a parsed program and parsing it again gives the program back**, equal form by form,
whenever no form nests lists deeper than the limit of the reader; if one does, the print-out is
refused for that reason. The print-out is what the `parse` command prints, and the end of the last
line makes no difference. -/
theorem printed_forms_read_back {source : String} {forms : List Value}
    (h : parseForms source = .ok forms) :
    ((∀ v ∈ forms, v.nesting ≤ maxNesting) →
      ∃ again, parseForms (printed forms) = .ok again ∧ Value.equalItems forms again = true) ∧
    ((∃ v ∈ forms, maxNesting < v.nesting) →
      parseForms (printed forms) = .error .tooDeep) ∧
    (∀ (arguments : Console.Arguments) (files : Console.Files) (stdin : ByteArray) (path : String),
      arguments.command = .parse path → Console.readText files path = .ok source →
        Console.respond arguments files stdin =
          { status := 0, stdout := printed forms ++ "\n", stderr := "" }) ∧
    parseForms (printed forms ++ "\n") = parseForms (printed forms) := by
  have hdata := isDatum_of_parseForms h
  have hblank : Token.lead '\n' = .blank := rfl
  have hparse := parseForms_printed hdata "" nofun
  -- with and without the newline that the console adds
  have hline := parseForms_printed hdata "\n" (by simpa using hblank)
  rw [String.append_empty] at hparse
  rw [hline, hparse]
  refine ⟨?_, ?_, ?_, rfl⟩
  · intro hnesting
    rw [if_pos (Value.nestingAll_le_iff.mpr hnesting)]
    refine ⟨Value.plainAll forms, rfl, ?_⟩
    exact Value.equalItems_plainAll fun v hv => (hdata v hv).equal_plain
  · rintro ⟨v, hv, hdeep⟩
    have hnesting := Value.nesting_le_nestingAll hv
    rw [if_neg (by omega)]
  · intro arguments files stdin path hcommand htext
    simp [Console.respond, hcommand, Console.printFile, htext, h, printed]

open Datum in
/-- At the limit: with 998 apostrophes a hash nests exactly as deep as may be read back, with 999 it
is still parsed, but what the command prints is refused. -/
theorem printed_forms_read_back_quotedHash :
    (∃ again, parseForms (printed [quotes 998 (hashCall [])]) = .ok again ∧
      Value.equalItems [quotes 998 (hashCall [])] again = true) ∧
    parseForms (quotedHash 999) = .ok [quotes 999 (hashCall [])] ∧
    parseForms (printed [quotes 999 (hashCall [])]) = .error .tooDeep ∧
    Console.respond ⟨.parse "hash", 100, 0⟩ (fun _ => .ok (quotedHash 999).toUTF8) .empty =
      { status := 0, stdout := printed [quotes 999 (hashCall [])] ++ "\n", stderr := "" } := by
  have hhash : (hashCall []).nesting = 2 := by decide
  have hat : parseForms (quotedHash 998) = .ok [quotes 998 (hashCall [])] :=
    parseForms_quotedHash (by decide)
  have hbeyond : parseForms (quotedHash 999) = .ok [quotes 999 (hashCall [])] :=
    parseForms_quotedHash (by decide)
  obtain ⟨hback, -⟩ := printed_forms_read_back hat
  obtain ⟨-, hdeep, hprint, -⟩ := printed_forms_read_back hbeyond
  refine ⟨hback ?_, hbeyond, hdeep ?_, hprint _ _ _ "hash" rfl (Console.readText_of_toUTF8 rfl)⟩
  · rw [List.forall_mem_singleton, nesting_quotes, hhash]
    decide
  · refine ⟨_, List.mem_singleton_self _, ?_⟩
    rw [nesting_quotes, hhash]
    decide

end SmallLisp
