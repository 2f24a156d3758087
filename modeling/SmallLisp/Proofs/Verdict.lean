import Mathlib.Logic.ExistsUnique
import SmallLisp.Datum
/-!
# Incomplete and wrong

Whoever gets an error for tokens wants to know whether to wait for more of them. The error says it:
`incomplete` errors mean that some tokens are missing at the end, `wrong` ones that nothing which
follows can help. Tokens that are forms as they stand are `accepted`, and **every list of tokens is
exactly one of the three**.

* A token that is refused is refused whatever follows it, and only the end of the tokens gives an
  error otherwise (`refused_or_readOn`). So what is not refused can be read on from.
* Frames can always be finished (`canFinish_pending`). Closing one hands a datum to the frames
  around it, so this goes from the innermost frame outwards. A mark needs a datum, and so does a hash
  that has a key without a value. Nothing of that opens a frame, so the limit of nesting does not
  matter.
-/

namespace SmallLisp

namespace Datum

/-! ### What is refused, and what can be read on from -/

def Progress.readAllOn (done : Array Value) (progress : Progress) (tokens : List Token) :
    Except SyntaxError (List Value) :=
  match progress with
  | complete form => readAllFrom (done.push form) [] tokens
  | pending frames => readAllFrom done frames tokens

/-- A whole program is read on from one token's progress. -/
theorem readAllFrom_cons {frames : List Frame} {token : Token} {progress : Progress}
    (h : step frames token = .ok progress) (done : Array Value) (tokens : List Token) :
    readAllFrom done frames (token :: tokens) = progress.readAllOn done tokens := by
  rw [readAllFrom, h]
  cases progress <;> rfl

/-- The errors that nothing which follows can help. -/
def refusals : List SyntaxError :=
  [.unexpectedListClose, .unexpectedHashClose, .unexpectedSplice, .tooDeep]

/-- The errors of tokens that end too early. -/
def shortages : List SyntaxError :=
  [.unclosedList, .unclosedHash, .unexpectedEnd]

def openers : List Token :=
  [.listOpen, .hashOpen, .quote, .quasiquote, .unquote]

theorem of_enter_eq_error {frame : Frame} {frames : List Frame} {e : SyntaxError}
    (h : enter frame frames = .error e) : e = .tooDeep ∧ maxNesting ≤ frames.length := by
  unfold enter at h
  split at h
  · cases h
  · next hlevel =>
    cases h
    exact ⟨rfl, Nat.not_lt.mp hlevel⟩

/-- **Why a token is refused**: it opens one level too many, or it does not go with the innermost
frame. -/
theorem step_error_cases {frames : List Frame} {token : Token} {e : SyntaxError}
    (h : step frames token = .error e) :
    (e = .tooDeep ∧ token ∈ openers ∧ maxNesting ≤ frames.length) ∨
    (e = .unexpectedSplice ∧ token = .splice ∧ ∀ outer, frames ≠ .mark .unquote :: outer) ∨
    (e = .unexpectedListClose ∧ token = .listClose ∧ ∀ items outer, frames ≠ .list items :: outer) ∨
    (e = .unexpectedHashClose ∧ token = .hashClose ∧
      ∀ items outer, frames = .hash items :: outer → items.length % 2 ≠ 0) := by
  cases token with
  | number | string | keyword | symbol => cases h
  | listOpen | hashOpen | quote | quasiquote | unquote =>
    obtain ⟨he, hlevel⟩ := of_enter_eq_error h
    exact .inl ⟨he, by decide, hlevel⟩
  | splice =>
    simp only [step, markSplice] at h
    split at h
    · cases h
    · next hother =>
      cases h
      exact .inr (.inl ⟨rfl, rfl, hother⟩)
  | listClose =>
    simp only [step, closeList] at h
    split at h
    · cases h
    · next hother =>
      cases h
      exact .inr (.inr (.inl ⟨rfl, rfl, hother⟩))
  | hashClose =>
    simp only [step, closeHash] at h
    split at h
    · split at h
      · cases h
      · next hodd =>
        cases h
        -- a hash is open, but its last key has no value
        refine .inr (.inr (.inr ⟨rfl, rfl, ?_⟩))
        rintro items outer ⟨⟩
        exact hodd
    · next hother =>
      cases h
      exact .inr (.inr (.inr ⟨rfl, rfl, fun items outer hframes => (hother _ _ hframes).elim⟩))

/-- A token that is not read is refused. -/
theorem mem_refusals_of_step {frames : List Frame} {token : Token} {e : SyntaxError}
    (h : step frames token = .error e) : e ∈ refusals := by
  rcases step_error_cases h with ⟨rfl, -⟩ | ⟨rfl, -⟩ | ⟨rfl, -⟩ | ⟨rfl, -⟩ <;> decide

/-- Whatever is open when the tokens run out, the error is one that more tokens can mend. -/
theorem unfinished_mem_shortages (frames : List Frame) : unfinished frames ∈ shortages := by
  unfold unfinished
  split <;> decide

/-- **Tokens are refused whatever follows, or read on from**, with some frames open. -/
theorem refused_or_readOn (done : Array Value) (frames : List Frame) (tokens : List Token) :
    (∃ e ∈ refusals, ∀ more, readAllFrom done frames (tokens ++ more) = .error e) ∨
    (∃ done' frames', ∀ more,
      readAllFrom done frames (tokens ++ more) = readAllFrom done' frames' more) := by
  induction tokens generalizing done frames with
  | nil => exact .inr ⟨done, frames, fun _ => rfl⟩
  | cons token tokens ih =>
    cases hstep : step frames token with
    | error e =>
      refine .inl ⟨e, mem_refusals_of_step hstep, ?_⟩
      intro more
      rw [List.cons_append, readAllFrom, hstep]
    | ok progress =>
      simp only [List.cons_append, readAllFrom_cons hstep]
      cases progress with
      | complete form => exact ih (done.push form) []
      | pending frames => exact ih done frames

/-! ### Frames can be finished -/

/-- Whether some tokens finish all forms from where the reader stands. -/
def CanFinish (progress : Progress) : Prop :=
  ∃ more, ∀ done, ∃ forms, progress.readAllOn done more = .ok forms

/-- If the reader can finish after a token, it could before it. -/
theorem CanFinish.of_step {frames : List Frame} {token : Token} {progress : Progress}
    (h : step frames token = .ok progress) (hprogress : CanFinish progress) :
    CanFinish (.pending frames) := by
  obtain ⟨more, hmore⟩ := hprogress
  refine ⟨token :: more, ?_⟩
  intro done
  obtain ⟨forms, hforms⟩ := hmore done
  exact ⟨forms, (readAllFrom_cons h done more).trans hforms⟩

/-- The innermost frame can be finished if those around it can, whatever datum they get. -/
theorem canFinish_frame {frames : List Frame} (h : ∀ v, CanFinish (deliver v frames))
    (frame : Frame) : CanFinish (.pending (frame :: frames)) := by
  -- any datum will do where one is missing
  have hdatum : ∀ frames, step frames (.symbol "x") = .ok (deliver (.symbol "x") frames) :=
    fun _ => rfl
  cases frame with
  | list items =>
    have hclose : step (.list items :: frames) .listClose = _ := rfl
    exact .of_step hclose (h _)
  | mark mark => exact .of_step (hdatum _) (h _)
  | hash items =>
    have heven : ∀ items : List Value, items.length % 2 = 0 →
        CanFinish (.pending (.hash items :: frames)) := by
      intro items hitems
      have hclose : step (.hash items :: frames) .hashClose = _ := if_pos hitems
      exact .of_step hclose (h _)
    by_cases hitems : items.length % 2 = 0
    · exact heven items hitems
    · apply CanFinish.of_step (hdatum _)
      apply heven (.symbol "x" :: items)
      rw [List.length_cons]
      omega

/-- Whatever has a form delivered can be closed, by induction on what is open. -/
theorem canFinish_deliver (v : Value) (frames : List Frame) : CanFinish (deliver v frames) := by
  induction frames generalizing v with
  | nil => exact ⟨[], fun done => ⟨_, rfl⟩⟩
  | cons frame frames ih =>
    cases frame with
    | list items => exact canFinish_frame ih (.list (v :: items))
    | hash items => exact canFinish_frame ih (.hash (v :: items))
    | mark mark => exact ih (mark.wrap v)

/-- **Whatever is open can be finished.** -/
theorem canFinish_pending (frames : List Frame) : CanFinish (.pending frames) := by
  cases frames with
  | nil => exact ⟨[], fun done => ⟨_, rfl⟩⟩
  | cons frame frames => exact canFinish_frame (canFinish_deliver · frames) frame

/-! ### Verdicts -/

inductive Verdict where
  /-- They are forms. -/
  | accepted
  /-- They are forms once some tokens follow. -/
  | incomplete
  /-- They are no forms, whatever follows. -/
  | wrong

/-- Whether a verdict is true of tokens, and the error is one that says so. -/
def Verdict.Holds (tokens : List Token) : Verdict → Prop
  | accepted => ∃ forms, readForms tokens = .ok forms
  | incomplete =>
    ∃ e ∈ shortages, readForms tokens = .error e ∧
      ∃ more forms, readForms (tokens ++ more) = .ok forms
  | wrong =>
    ∃ e ∈ refusals, readForms tokens = .error e ∧
      ∀ more, readForms (tokens ++ more) = .error e

/-- Every list of tokens has a verdict. -/
theorem Verdict.exists_holds (tokens : List Token) : ∃ verdict : Verdict, verdict.Holds tokens := by
  rcases refused_or_readOn #[] [] tokens with ⟨e, he, hrefused⟩ | ⟨done, frames, hread⟩
  · refine ⟨.wrong, e, he, ?_, hrefused⟩
    have hend := hrefused []
    rwa [List.append_nil] at hend
  · have hend := hread []
    rw [List.append_nil] at hend
    cases frames with
    | nil => exact ⟨.accepted, _, hend⟩
    | cons frame frames =>
      obtain ⟨more, hmore⟩ := canFinish_pending (frame :: frames)
      obtain ⟨forms, hforms⟩ := hmore done
      exact ⟨.incomplete, _, unfinished_mem_shortages _, hend, more, forms,
        (hread more).trans hforms⟩

/-- The verdict that a result of the reader says. -/
def Verdict.ofResult : Except SyntaxError (List Value) → Verdict
  | .ok _ => accepted
  | .error e => if e ∈ shortages then incomplete else wrong

/-- No error is both a shortage and a refusal, so a verdict that holds is the one that the result
says. -/
theorem Verdict.Holds.eq_ofResult {tokens : List Token} {verdict : Verdict}
    (h : verdict.Holds tokens) : verdict = ofResult (readForms tokens) := by
  have hdisjoint : ∀ e ∈ refusals, e ∉ shortages := by decide
  cases verdict with
  | accepted =>
    obtain ⟨forms, hforms⟩ := h
    rw [hforms, ofResult]
  | incomplete =>
    obtain ⟨e, he, herror, -⟩ := h
    rw [herror, ofResult, if_pos he]
  | wrong =>
    obtain ⟨e, he, herror, -⟩ := h
    rw [herror, ofResult, if_neg (hdisjoint e he)]

end Datum

/-- **Tokens are accepted, incomplete or wrong, and only one of the three.** Either they are forms;
or they end inside a list, inside a hash or where a datum has to follow, and some tokens behind them
make them forms; or a token is refused, and then it is, with the same error, whatever follows. -/
theorem exactly_one_verdict (tokens : List Token) :
    ∃! verdict : Datum.Verdict, verdict.Holds tokens := by
  obtain ⟨verdict, hverdict⟩ := Datum.Verdict.exists_holds tokens
  refine ⟨verdict, hverdict, ?_⟩
  intro other hother
  rw [hother.eq_ofResult, hverdict.eq_ofResult]

end SmallLisp
