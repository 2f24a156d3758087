import Mathlib
import SmallLisp.Proofs.Session
/-!
# Programs in pieces

A program may be cut at the end of any line at which it could end. To run both pieces one after the
other is then the same as to run the whole. Each stage from texts to values has its own reason:

* a newline ends every comment, number and name, and belongs to none of them, so the tokens of the
  first piece are the same whether the text ends there or goes on (`tokenizeFrom_append_newline`);
* after the last token of the first piece no frame is open, so its forms are the same as well
  (`readAllFrom_append`);
* forms are evaluated one by one in the root, and **no evaluation replaces the root**, so the second
  piece is evaluated in the scope in which the first one was (`root_perform`).
-/

namespace SmallLisp

/-! ### Tokens -/

namespace Token

/-- What a newline does not belong to ends there, if it does not end before. -/
theorem takeWhile_append_newline {p : Char → Bool} (hp : p '\n' = false) (cs ds : List Char) :
    (cs ++ '\n' :: ds).takeWhile p = cs.takeWhile p := by
  induction cs with
  | nil => simp [hp]
  | cons c cs ih =>
    rw [List.cons_append, List.takeWhile_cons, List.takeWhile_cons, ih]

/-- A run that no newline belongs to ends at the newline at the latest, so the text behind does not
matter. -/
theorem dropWhile_append_newline {p : Char → Bool} (hp : p '\n' = false) (cs ds : List Char) :
    (cs ++ '\n' :: ds).dropWhile p = cs.dropWhile p ++ '\n' :: ds := by
  induction cs with
  | nil => simp [hp]
  | cons c cs ih =>
    rw [List.cons_append, List.dropWhile_cons, List.dropWhile_cons, ih]
    split <;> rfl

variable {c : Char} {cs rest : List Char} {tokens : List Token}

/-- A number that was read to its end is read the same with a newline and more text behind. -/
theorem readNumber_append_newline {negative : Bool}
    (h : readNumber negative cs = .ok (tokens, rest)) (ds : List Char) :
    readNumber negative (cs ++ '\n' :: ds) = .ok (tokens, rest ++ '\n' :: ds) := by
  have hnewline : isNumberChar '\n' = false := by decide
  unfold readNumber at h ⊢
  rw [takeWhile_append_newline hnewline, dropWhile_append_newline hnewline]
  dsimp only at h ⊢
  split at h
  · cases h
    rfl
  · cases h

/-- A string goes on over a newline, so here it matters that its closing quote was read. -/
theorem readString_append {text : String} (h : readString text cs = .ok (tokens, rest))
    (ds : List Char) : readString text (cs ++ ds) = .ok (tokens, rest ++ ds) := by
  fun_induction readString text cs with
  | case1 => cases h
  | case2 text cs =>
    cases h
    rfl
  | case3 => cases h
  | case4 text letter cs c hletter ih =>
    simp only [List.cons_append, readString, hletter]
    exact ih h
  | case5 => cases h
  | case6 text c cs hquote hend hescape ih =>
    have hbackslash : c ≠ '\\' := by
      intro hc
      cases cs with
      | nil => exact hend hc rfl
      | cons letter cs => exact hescape letter cs hc rfl
    rw [List.cons_append, readString]
    · exact ih h
    · exact hquote
    · exact fun hc _ => hbackslash hc
    · exact fun _ _ hc _ => hbackslash hc

/-- The same for every token: nothing that one piece of the lexer accepts can reach across a
newline. -/
theorem scan_append_newline (h : scan c cs = .ok (tokens, rest)) (ds : List Char) :
    scan c (cs ++ '\n' :: ds) = .ok (tokens, rest ++ '\n' :: ds) := by
  have hnewline : isSymbolChar '\n' = false := by decide
  unfold scan at h ⊢
  cases hlead : lead c <;> simp only [hlead] at h ⊢
  case blank =>
    cases h
    rfl
  case comment =>
    cases h
    rw [dropWhile_append_newline (by decide)]
  case single =>
    cases h
    rfl
  case numberSign =>
    unfold readHashOpen at h
    split at h
    · cases h
      rfl
    · cases h
  case comma =>
    unfold readUnquote at h
    split at h
    · cases h
      rfl
    · next hat =>
      cases h
      cases cs with
      -- a comma at the end is followed by the newline now, which is no at sign
      | nil => rfl
      | cons c cs =>
        rw [List.cons_append, readUnquote]
        rintro ds' ⟨rfl⟩
        exact hat cs rfl
  case digit => exact readNumber_append_newline h ds
  case doubleQuote => exact readString_append h _
  case colon =>
    unfold readKeyword at h ⊢
    rw [takeWhile_append_newline hnewline, dropWhile_append_newline hnewline]
    dsimp only at h ⊢
    split at h
    · cases h
    · next hname =>
      cases h
      rw [if_neg hname]
  case symbolic =>
    -- and a minus sign at the end is still not followed by a digit
    have hdigit : startsWithDigit (cs ++ '\n' :: ds) = startsWithDigit cs := by
      cases cs <;> rfl
    rw [hdigit, takeWhile_append_newline hnewline, dropWhile_append_newline hnewline]
    split at h
    · next hminus =>
      rw [if_pos hminus]
      exact readNumber_append_newline h ds
    · next hminus =>
      cases h
      rw [if_neg hminus]
  case nothing => cases h

/-- **Cutting into tokens goes on after a newline** as if the text started there. -/
theorem tokenizeFrom_append_newline {done : Array Token} (h : tokenizeFrom done cs = .ok tokens)
    (ds : List Char) : tokenizeFrom done (cs ++ '\n' :: ds) = tokenizeFrom tokens.toArray ds := by
  fun_induction tokenizeFrom done cs with
  | case1 done =>
    cases h
    have hnewline : scan '\n' ds = .ok ([], ds) := rfl
    rw [List.nil_append, tokenizeFrom_cons hnewline, Array.toArray_toList]
    simp
  | case2 done c cs e hscan => cases h
  | case3 done c cs tokens' rest hscan ih =>
    rw [List.cons_append, tokenizeFrom_cons (scan_append_newline hscan ds)]
    exact ih h

end Token

/-! ### Forms -/

namespace Datum

/-- **Reading goes on after whole forms** as if the tokens started there. -/
theorem readAllFrom_append {done : Array Value} {frames : List Frame} {tokens : List Token}
    {forms : List Value} (h : readAllFrom done frames tokens = .ok forms) (more : List Token) :
    readAllFrom done frames (tokens ++ more) = readAllFrom forms.toArray [] more := by
  induction tokens generalizing done frames with
  | nil =>
    cases frames with
    | nil =>
      cases h
      rw [List.nil_append, Array.toArray_toList]
    -- tokens that end inside of a frame are no program
    | cons frame frames => cases h
  | cons token tokens ih =>
    rw [List.cons_append]
    simp only [readAllFrom] at h ⊢
    cases hstep : step frames token with
    | error e =>
      rw [hstep] at h
      cases h
    | ok progress =>
      rw [hstep] at h
      cases progress with
      | complete form => exact ih h
      | pending frames => exact ih h

theorem toList_append_newline (a b : String) :
    (a ++ "\n" ++ b).toList = a.toList ++ '\n' :: b.toList := by
  simp

/-- **The forms of two pieces are those of the first and then those of the second**, whose error is
that of the whole. -/
theorem parseForms_append_newline {a : String} {forms : List Value}
    (h : parseForms a = .ok forms) (b : String) :
    parseForms (a ++ "\n" ++ b) = (parseForms b).map (forms ++ ·) := by
  unfold parseForms at h ⊢
  cases htokens : Token.tokenize a with
  | error e =>
    rw [htokens] at h
    cases h
  | ok tokens =>
    rw [htokens] at h
    have hwhole : Token.tokenize (a ++ "\n" ++ b) = (Token.tokenize b).map (tokens ++ ·) := by
      unfold Token.tokenize at htokens ⊢
      rw [toList_append_newline, Token.tokenizeFrom_append_newline htokens, Token.tokenizeFrom_eq]
    rw [hwhole]
    cases Token.tokenize b with
    | error e => rfl
    | ok more =>
      show readForms (tokens ++ more) = (readForms more).map (forms ++ ·)
      unfold readForms at h ⊢
      -- the forms of the first piece are in front of those of the second one from here on
      rw [readAllFrom_append h more, readAllFrom_eq]

end Datum

/-! ### Values -/

/-- Forms in a row are the first part, and then the second unless there is none. -/
theorem Context.sequence_append (ctx : Context) (forms more : List Value) (scope : ScopeId) :
    ctx.sequence (forms ++ more) scope = (do
      let v ← ctx.sequence forms scope
      if more.isEmpty then return v else ctx.sequence more scope) := by
  unfold sequence
  rw [List.foldlM_append]
  congr 1
  funext v
  cases more with
  | nil => rfl
  | cons form more => rfl

namespace Interpreter

/-- Two evaluations in one are carried out one after the other. -/
theorem perform_bind {α β : Type} (ip : Interpreter) (x : Context → Eval α)
    (f : Context → α → Eval β) :
    (ip.perform fun ctx => x ctx >>= f ctx) =
      match ip.perform x with
      | (.error e, ip') => (.error e, ip')
      | (.ok a, ip') => ip'.perform fun ctx => f ctx a := by
  unfold perform
  dsimp only
  cases hrun : x (.outermost ip.host) ip.host ip.machine with
  | ok a m =>
    rw [Eval.bind_of_ok hrun]
    rfl
  | error e m => rw [Eval.bind_of_error hrun]

/-- No evaluation replaces the root. -/
theorem root_perform (ip : Interpreter) (forms : List Value) (scope : ScopeId) :
    (ip.perform fun ctx => ctx.sequence forms scope).2.root = ip.root := by
  rw [perform_snd]
  exact ((extension_admits_within ip.host 0).sequence forms scope ip.machine).root

/-- A program that parses is its forms evaluated in a row at the root. -/
theorem eval_of_parseForms (ip : Interpreter) {source : String} {forms : List Value}
    (h : Datum.parseForms source = .ok forms) :
    ip.eval source =
      ((ip.perform fun ctx => ctx.sequence forms ip.root).1.mapError .fault,
        (ip.perform fun ctx => ctx.sequence forms ip.root).2) := by
  simp only [eval, evalIn, h]

/-- Joining two programs that parse is running one after the other, up to the result of an empty
second part. -/
theorem eval_append_newline (ip : Interpreter) {a b : String} {forms more : List Value}
    (ha : Datum.parseForms a = .ok forms) (hb : Datum.parseForms b = .ok more) :
    ip.eval (a ++ "\n" ++ b) =
      match ip.eval a with
      | (.error e, ip') => (.error e, ip')
      | (.ok v, ip') => (if more.isEmpty then .ok v else (ip'.eval b).1, (ip'.eval b).2) := by
  have hwhole : Datum.parseForms (a ++ "\n" ++ b) = .ok (forms ++ more) := by
    rw [Datum.parseForms_append_newline ha, hb]
    rfl
  have hroot := ip.root_perform forms ip.root
  rw [ip.eval_of_parseForms hwhole, ip.eval_of_parseForms ha]
  simp only [Context.sequence_append, perform_bind]
  cases hrun : ip.perform fun ctx => ctx.sequence forms ip.root with
  | mk result ip' =>
    rw [hrun] at hroot
    cases result with
    | error e => rfl
    | ok v =>
      show (_, _) = (if more.isEmpty then .ok v else (ip'.eval b).1, (ip'.eval b).2)
      -- the second piece looks up the root again
      rw [ip'.eval_of_parseForms hb, hroot]
      cases more with
      | nil => rfl
      | cons form more => rfl

end Interpreter

/-- **A program in one piece does what its pieces do.** If the first piece is a program, the forms of
the whole are its forms and then those of the second piece, or there is the error of the second
piece; then nothing is evaluated. Otherwise the whole fails as the first piece does, or goes on with
the second one from where the first one ended. The value is that of the second piece, unless there
is no form in it. -/
theorem one_piece_same_as_pieces {a : String} {forms : List Value}
    (ha : Datum.parseForms a = .ok forms) (b : String) (ip : Interpreter) :
    Datum.parseForms (a ++ "\n" ++ b) = (Datum.parseForms b).map (forms ++ ·) ∧
    (∀ e, Datum.parseForms b = .error e →
      ip.eval (a ++ "\n" ++ b) = (.error (.malformed e), ip)) ∧
    (∀ more, Datum.parseForms b = .ok more →
      ip.eval (a ++ "\n" ++ b) =
        match ip.eval a with
        | (.error e, ip') => (.error e, ip')
        | (.ok v, ip') => (if more.isEmpty then .ok v else (ip'.eval b).1, (ip'.eval b).2)) := by
  have hforms := Datum.parseForms_append_newline ha b
  refine ⟨hforms, ?_, ?_⟩
  · intro e hb
    rw [hb] at hforms
    simp only [Interpreter.eval, Interpreter.evalIn, hforms, Except.map]
  · intro more hb
    exact ip.eval_append_newline ha hb

/-- The first piece ends in a comment. The second piece is a form, or a closing parenthesis. -/
theorem one_piece_same_as_pieces_comment :
    let ip : Interpreter := .new ⟨100, false⟩ fun _ => .error .notFound
    Datum.parseForms "(quote x) ; one" = .ok [.list [.symbol "quote", .symbol "x"]] ∧
    Datum.parseForms "y" = .ok [.symbol "y"] ∧
    Datum.parseForms ")" = .error .unexpectedListClose ∧
    Datum.parseForms ("(quote x) ; one" ++ "\n" ++ "y") =
      .ok [.list [.symbol "quote", .symbol "x"], .symbol "y"] ∧
    ip.eval ("(quote x) ; one" ++ "\n" ++ ")") =
      (.error (.malformed .unexpectedListClose), ip) ∧
    ip.eval ("(quote x) ; one" ++ "\n" ++ "y") =
      match ip.eval "(quote x) ; one" with
      | (.error e, ip') => (.error e, ip')
      | (.ok _, ip') => ((ip'.eval "y").1, (ip'.eval "y").2) := by
  intro ip
  have ha : Datum.parseForms "(quote x) ; one" = .ok [.list [.symbol "quote", .symbol "x"]] := by cbv
  have hb : Datum.parseForms "y" = .ok [.symbol "y"] := by cbv
  have hclose : Datum.parseForms ")" = .error .unexpectedListClose := by cbv
  refine ⟨ha, hb, hclose, ?_, ?_, ?_⟩
  · rw [(one_piece_same_as_pieces ha "y" ip).1, hb]
    rfl
  · exact (one_piece_same_as_pieces ha ")" ip).2.1 _ hclose
  · exact (one_piece_same_as_pieces ha "y" ip).2.2 _ hb

end SmallLisp
