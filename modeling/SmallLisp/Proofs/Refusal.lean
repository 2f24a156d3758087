import SmallLisp.Proofs.RoundTrip
/-!
# Where tokens are refused

Tokens are refused at one place: those before it open some frames, and with these frames open the
token there cannot be read (`RefusedAt`). **This is all that makes a form fail**, the early end of the
tokens apart (`readForm_eq_error_iff`), and forms fail where the first of them does that is refused
(`readForms_eq_error_iff`). So to say when an error arises it is enough to look at a single step.
-/

namespace SmallLisp

namespace Datum

variable {tokens : List Token}

/-- The data that a frame has collected are read again from their tokens. -/
theorem readFrom_collect {frames : List Frame} {items : List Value} (collect : List Value → Frame)
    (hcollect : ∀ v items frames, deliver v (collect items :: frames) =
      .pending (collect (v :: items) :: frames))
    (h : DerivesAll (frames.length + 1) tokens items.reverse) (rest : List Token) :
    readFrom (collect [] :: frames) (tokens ++ rest) = readFrom (collect items :: frames) rest := by
  rw [readFrom_of_derivesAll collect hcollect h [], List.reverse_reverse, List.append_nil]

/-- Reading what opens frames opens them. -/
theorem readFrom_of_opens {frames : List Frame} (h : Opens tokens frames) (rest : List Token) :
    readFrom [] (tokens ++ rest) = readFrom frames rest := by
  induction h generalizing rest with
  | nil => rfl
  | @list _ _ _ frames _ hlevel hitems ih =>
    have hopen : step frames .listOpen = _ := enter_of_lt hlevel _
    rw [List.append_assoc, ih, List.cons_append, readFrom_cons hopen]
    exact readFrom_collect .list (fun _ _ _ => rfl) hitems rest
  | @hash _ _ _ frames _ hlevel hitems ih =>
    have hopen : step frames .hashOpen = _ := enter_of_lt hlevel _
    rw [List.append_assoc, ih, List.cons_append, readFrom_cons hopen]
    exact readFrom_collect .hash (fun _ _ _ => rfl) hitems rest
  | mark mark _ hlevel ih => rw [List.append_assoc, ih, readFrom_mark hlevel]

theorem not_mem_shortages_of_refused {e : SyntaxError} (he : e ∈ refusals) : e ∉ shortages := by
  have hdisjoint : ∀ e ∈ refusals, e ∉ shortages := by decide
  exact hdisjoint e he

/-- Whether the tokens come to a place where one of them is refused: those before it open frames, and
with these open it cannot be read. -/
def RefusedAt (e : SyntaxError) (tokens : List Token) : Prop :=
  ∃ before token after frames, tokens = before ++ token :: after ∧ Opens before frames ∧
    step frames token = .error e

/-- A refusal is due to the tokens up to some point: in front the reader went on, and that token it
refused. -/
theorem refusedAt_of_readFrom {e : SyntaxError} {before more : List Token} {frames : List Frame}
    (h : Opens before frames) (he : e ∈ refusals) (hread : readFrom frames more = .error e) :
    RefusedAt e (before ++ more) := by
  induction more generalizing before frames with
  | nil =>
    cases hread
    exact absurd (unfinished_mem_shortages frames) (not_mem_shortages_of_refused he)
  | cons token more ih =>
    rw [readFrom] at hread
    cases hstep : step frames token with
    | error e' =>
      rw [hstep] at hread
      cases hread
      exact ⟨before, token, more, frames, rfl, h, hstep⟩
    | ok progress =>
      rw [hstep] at hread
      cases progress with
      -- a complete form is no error
      | complete form => cases hread
      | pending frames =>
        have hrefused := ih (explains_step h hstep) hread
        rwa [List.append_assoc] at hrefused

/-- **A form is refused at one place.** -/
theorem readForm_eq_error_iff {e : SyntaxError} (he : e ∈ refusals) :
    readForm tokens = .error e ↔ RefusedAt e tokens := by
  constructor
  · exact refusedAt_of_readFrom .nil he
  · rintro ⟨before, token, after, frames, rfl, hopens, hstep⟩
    rw [readForm, readFrom_of_opens hopens, readFrom, hstep]

/-- A refused program is a row of whole forms followed by a form that is refused. -/
theorem refused_of_readAllFrom {e : SyntaxError} {done : Array Value} {before more : List Token}
    {frames : List Frame} (h : Opens before frames) (he : e ∈ refusals)
    (hread : readAllFrom done frames more = .error e) :
    ∃ front forms rest, before ++ more = front ++ rest ∧ DerivesAll 0 front forms ∧
      readForm rest = .error e := by
  induction more generalizing before frames done with
  | nil =>
    rw [readAllFrom] at hread
    split at hread
    · cases hread
    · cases hread
      exact absurd (unfinished_mem_shortages frames) (not_mem_shortages_of_refused he)
  | cons token more ih =>
    rw [readAllFrom] at hread
    cases hstep : step frames token with
    | error e' =>
      rw [hstep] at hread
      cases hread
      refine ⟨[], [], before ++ token :: more, rfl, .nil, ?_⟩
      rw [readForm, readFrom_of_opens h, readFrom, hstep]
    | ok progress =>
      rw [hstep] at hread
      have hexplains := explains_step h hstep
      rw [← List.singleton_append, ← List.append_assoc]
      cases progress with
      | complete form =>
        -- the form is done, and the token that is refused is in one behind it
        obtain ⟨front, forms, rest, rfl, hforms, hrest⟩ := ih .nil hread
        exact ⟨before ++ [token] ++ front, form :: forms, rest, (List.append_assoc _ _ _).symm,
          .cons hexplains hforms, hrest⟩
      | pending frames => exact ih hexplains hread

/-- **Forms are refused where the first one is** that is refused, and those before it are read. -/
theorem readForms_eq_error_iff {e : SyntaxError} (he : e ∈ refusals) :
    readForms tokens = .error e ↔
      ∃ front forms rest, tokens = front ++ rest ∧ readForms front = .ok forms ∧
        RefusedAt e rest := by
  simp only [readForms_eq_ok_iff, ← readForm_eq_error_iff he]
  constructor
  · exact refused_of_readAllFrom .nil he
  · rintro ⟨front, forms, rest, rfl, hforms, hrest⟩
    rw [readForms, readAllFrom_of_derivesAll hforms]
    exact readAllFrom_of_refused hrest (not_mem_shortages_of_refused he) _

end Datum

end SmallLisp
