import SmallLisp.Proofs.Refusal
import SmallLisp.Proofs.TokenLists
/-!
# At signs without a comma

The reader refuses an at sign unless the innermost thing open is a comma that waits for its datum.
**With tokens that come from a text this does not happen.** A text has its at signs right behind their
commas (`Token.Arranged`), and a comma that is read opens a frame, which is still the innermost one when
the next token is read. So the at sign finds its comma, at every depth and whatever came before
(`readAllFrom_ne_unexpectedSplice`), unless the comma itself was one level too many.
-/

namespace SmallLisp

namespace Datum

variable {tokens : List Token}

/-- Only a splice sign where a form should start is an unexpected splice. -/
theorem eq_splice_of_step {frames : List Frame} {token : Token}
    (h : step frames token = .error .unexpectedSplice) : token = .splice := by
  rcases step_error_cases h with ⟨he, -⟩ | ⟨-, htoken, -⟩ | ⟨he, -⟩ | ⟨he, -⟩
  · cases he
  · exact htoken
  · cases he
  · cases he

/-- **No at sign is refused where each comes right after a comma**: by induction along the tokens, a
comma and its at sign being one step. -/
theorem readAllFrom_ne_unexpectedSplice (h : Token.Arranged tokens) (done : Array Value)
    (frames : List Frame) : readAllFrom done frames tokens ≠ .error .unexpectedSplice := by
  induction h generalizing done frames with
  | nil =>
    have hshortage : .unexpectedSplice ∉ shortages := by decide
    rw [readAllFrom]
    split
    · simp
    · intro hend
      have hunfinished := unfinished_mem_shortages frames
      rw [Except.error.inj hend] at hunfinished
      exact hshortage hunfinished
  | @cons token tokens hne _ ih =>
    cases hstep : step frames token with
    | error e =>
      rw [readAllFrom, hstep]
      intro hrefused
      cases hrefused
      exact hne (eq_splice_of_step hstep)
    | ok progress =>
      rw [readAllFrom_cons hstep]
      cases progress with
      | complete form => exact ih _ _
      | pending frames => exact ih _ _
  -- the comma is open when its sign comes, unless it was too deep itself
  | @spliced tokens _ ih =>
    by_cases hlevel : frames.length < maxNesting
    · have hcomma : step frames .unquote = _ := enter_of_lt hlevel _
      have hsplice : step (.mark .unquote :: frames) .splice =
          .ok (.pending (.mark .splice :: frames)) := rfl
      rw [readAllFrom_cons hcomma]
      show readAllFrom done (.mark .unquote :: frames) (.splice :: tokens) ≠ _
      rw [readAllFrom_cons hsplice]
      exact ih done (.mark .splice :: frames)
    · have hcomma : step frames .unquote = .error .tooDeep := if_neg hlevel
      rw [readAllFrom, hcomma]
      simp

/-- No text has an unexpected splice: the lexer gives the sign only behind an unquote, and there the
reader takes it. -/
theorem parseForms_ne_unexpectedSplice (source : String) :
    parseForms source ≠ .error .unexpectedSplice := by
  unfold parseForms
  cases htokens : Token.tokenize source with
  | error e => simp
  | ok tokens =>
    exact readAllFrom_ne_unexpectedSplice (Token.arranged_of_tokenizeFrom htokens .nil) #[] []

theorem map_program_eq_error_iff {result : Except SyntaxError (List Value)} {e : SyntaxError} :
    result.map program = .error e ↔ result = .error e := by
  cases result <;> simp [Except.map]

end Datum

open Datum in
/-- **No text has an at sign that belongs to no comma**, be it read as forms or as a program. Tokens
that are no text's may have one: wherever a form can begin, it is refused as such. -/
theorem no_text_has_a_stray_splice :
    (∀ source : String, parseForms source ≠ .error .unexpectedSplice ∧
      parseProgram source ≠ .error .unexpectedSplice) ∧
    (∀ (front : List Token) (forms : List Value) (after : List Token), readForms front = .ok forms →
      (readForms (front ++ .splice :: after)).map program = .error .unexpectedSplice) := by
  constructor
  · intro source
    have hforms := parseForms_ne_unexpectedSplice source
    exact ⟨hforms, fun hprogram => hforms (map_program_eq_error_iff.mp hprogram)⟩
  · intro front forms after h
    have hstray : RefusedAt .unexpectedSplice (.splice :: after) :=
      ⟨[], .splice, after, [], rfl, .nil, rfl⟩
    rw [map_program_eq_error_iff, readForms_eq_error_iff (by decide)]
    exact ⟨front, forms, .splice :: after, rfl, h, hstray⟩

open Datum in
/-- The comma of `,x` has its datum, so that an at sign behind it is a stray one. -/
theorem no_text_has_a_stray_splice_behind_unquote :
    readForms [.unquote, .symbol "x"] = .ok [Mark.unquote.wrap (.symbol "x")] ∧
    (readForms [.unquote, .symbol "x", .splice, .symbol "y"]).map program =
      .error .unexpectedSplice :=
  ⟨rfl, no_text_has_a_stray_splice.2 [.unquote, .symbol "x"] _ [.symbol "y"] rfl⟩

end SmallLisp
