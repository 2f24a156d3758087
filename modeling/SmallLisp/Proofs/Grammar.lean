import Mathlib.Data.List.Forall2
import SmallLisp.Datum
/-!
# The grammar of data

`Derives depth tokens v` is the grammar: read at a depth of nesting, the tokens are one datum, and
it is `v`. It knows nothing of frames. **The reader accepts exactly this grammar**, and the two
directions have their own reasons.

* **What the grammar derives is read.** Reading the tokens of a datum hands that datum to the frames
  that were open before and touches nothing else (`readFrom_of_derives`). This is why it does not
  matter which tokens follow.
* **What is read, the grammar derives.** `Opens tokens frames` says which tokens led to the frames
  that are open: each frame stands for its opening token and for the data read in it so far. Every
  step keeps that (`explains_step`), and when no frame is left the tokens are those of a datum.
-/

namespace SmallLisp

namespace Datum

/-! ### Derivations -/

def Mark.tokens : Mark → List Token
  | quote => [.quote]
  | quasiquote => [.quasiquote]
  | unquote => [.unquote]
  | splice => [.unquote, .splice]

/-- The datum that a token is on its own. -/
def atom? : Token → Option Value
  | .number n => some (.number n)
  | .string s => some (.string s)
  | .keyword s => some (.ofKeyword s)
  | .symbol s => some (.symbol s)
  | _ => none

mutual

/-- At this depth, the tokens are one datum. -/
inductive Derives : Nat → List Token → Value → Prop where
  | atom {depth : Nat} {token : Token} {v : Value} :
    atom? token = some v → Derives depth [token] v
  | list {depth : Nat} {tokens : List Token} {items : List Value} :
    depth < maxNesting → DerivesAll (depth + 1) tokens items →
      Derives depth (.listOpen :: tokens ++ [.listClose]) (.list items)
  | hash {depth : Nat} {tokens : List Token} {items : List Value} :
    depth < maxNesting → DerivesAll (depth + 1) tokens items → items.length % 2 = 0 →
      Derives depth (.hashOpen :: tokens ++ [.hashClose]) (hashCall items)
  | mark {depth : Nat} {tokens : List Token} {v : Value} (mark : Mark) :
    depth < maxNesting → Derives (depth + 1) tokens v →
      Derives depth (mark.tokens ++ tokens) (mark.wrap v)

inductive DerivesAll : Nat → List Token → List Value → Prop where
  | nil {depth : Nat} : DerivesAll depth [] []
  | cons {depth : Nat} {tokens more : List Token} {v : Value} {vs : List Value} :
    Derives depth tokens v → DerivesAll depth more vs →
      DerivesAll depth (tokens ++ more) (v :: vs)

end

theorem DerivesAll.singleton {depth : Nat} {tokens : List Token} {v : Value}
    (h : Derives depth tokens v) : DerivesAll depth tokens [v] := by
  have := DerivesAll.cons h .nil
  rwa [List.append_nil] at this

theorem DerivesAll.append {depth : Nat} {tokens more : List Token} {vs ws : List Value}
    (h : DerivesAll depth tokens vs) (h' : DerivesAll depth more ws) :
    DerivesAll depth (tokens ++ more) (vs ++ ws) := by
  induction vs generalizing tokens with
  | nil =>
    cases h
    exact h'
  | cons v vs ih =>
    cases h with
    | cons hv hvs =>
      rw [List.append_assoc, List.cons_append]
      exact .cons hv (ih hvs)

/-- Data one after the other are segments of the tokens, a datum each. -/
theorem derivesAll_iff {depth : Nat} {tokens : List Token} {vs : List Value} :
    DerivesAll depth tokens vs ↔
      ∃ segments : List (List Token), tokens = segments.flatten ∧
        List.Forall₂ (Derives depth) segments vs := by
  constructor
  · intro h
    induction vs generalizing tokens with
    | nil =>
      cases h
      exact ⟨[], rfl, .nil⟩
    | cons v vs ih =>
      cases h with
      | cons hv hvs =>
        obtain ⟨segments, rfl, hsegments⟩ := ih hvs
        exact ⟨_ :: segments, rfl, .cons hv hsegments⟩
  · rintro ⟨segments, rfl, h⟩
    induction h with
    | nil => exact .nil
    | cons hv _ ih => exact .cons hv ih

/-! ### What the grammar derives is read -/

def Progress.readOn (progress : Progress) (tokens : List Token) :
    Except SyntaxError (Value × List Token) :=
  match progress with
  | complete form => .ok (form, tokens)
  | pending frames => readFrom frames tokens

/-- The reader goes one token on, and from there as the progress says. -/
theorem readFrom_cons {frames : List Frame} {token : Token} {progress : Progress}
    (h : step frames token = .ok progress) (tokens : List Token) :
    readFrom frames (token :: tokens) = progress.readOn tokens := by
  rw [readFrom, h]
  cases progress <;> rfl

/-- An atom is a whole form, handed to whatever is open. -/
theorem step_of_atom {token : Token} {v : Value} (h : atom? token = some v) (frames : List Frame) :
    step frames token = .ok (deliver v frames) := by
  cases token <;> cases h <;> rfl

theorem enter_of_lt {frames : List Frame} (h : frames.length < maxNesting) (frame : Frame) :
    enter frame frames = .ok (.pending (frame :: frames)) :=
  if_pos h

/-- Reading the tokens of a mark opens its frame. -/
theorem readFrom_mark {frames : List Frame} (h : frames.length < maxNesting) (mark : Mark)
    (tokens : List Token) :
    readFrom frames (mark.tokens ++ tokens) = readFrom (.mark mark :: frames) tokens := by
  have hquote : step frames .quote = _ := enter_of_lt h _
  have hquasiquote : step frames .quasiquote = _ := enter_of_lt h _
  have hunquote : step frames .unquote = _ := enter_of_lt h _
  have hsplice : step (.mark .unquote :: frames) .splice =
      .ok (.pending (.mark .splice :: frames)) := rfl
  cases mark with
  | quote => exact readFrom_cons hquote tokens
  | quasiquote => exact readFrom_cons hquasiquote tokens
  | unquote => exact readFrom_cons hunquote tokens
  | splice => exact (readFrom_cons hunquote _).trans (readFrom_cons hsplice tokens)

mutual

/-- **Reading the tokens of a datum hands it to the frames that are open**, whatever follows. -/
theorem readFrom_of_derives (frames : List Frame) {tokens : List Token} {v : Value}
    (h : Derives frames.length tokens v) (rest : List Token) :
    readFrom frames (tokens ++ rest) = (deliver v frames).readOn rest := by
  cases h with
  | atom hatom => exact readFrom_cons (step_of_atom hatom frames) rest
  | @list _ inner items hdepth hitems =>
    have hopen : step frames .listOpen = _ := enter_of_lt hdepth _
    -- a frame collects its items last first
    have hclose : step (.list (items.reverse ++ []) :: frames) .listClose =
        .ok (deliver (.list items) frames) := by
      simp [step, closeList]
    rw [List.cons_append, List.cons_append, List.append_assoc, readFrom_cons hopen]
    show readFrom (.list [] :: frames) (inner ++ _) = _
    rw [readFrom_of_derivesAll .list (fun _ _ _ => rfl) hitems [], List.singleton_append,
      readFrom_cons hclose]
  | @hash _ inner items hdepth hitems heven =>
    have hopen : step frames .hashOpen = _ := enter_of_lt hdepth _
    have hclose : step (.hash (items.reverse ++ []) :: frames) .hashClose =
        .ok (deliver (hashCall items) frames) := by
      simp [step, closeHash, heven]
    rw [List.cons_append, List.cons_append, List.append_assoc, readFrom_cons hopen]
    show readFrom (.hash [] :: frames) (inner ++ _) = _
    rw [readFrom_of_derivesAll .hash (fun _ _ _ => rfl) hitems [], List.singleton_append,
      readFrom_cons hclose]
  | @mark _ inner v mark hdepth hinner =>
    have hread := readFrom_of_derives (.mark mark :: frames) hinner rest
    rw [List.append_assoc, readFrom_mark hdepth, hread]
    rfl

/-- Reading data collects them in the innermost frame, newest first. A list and a hash collect in
the same way. -/
theorem readFrom_of_derivesAll {frames : List Frame} {tokens : List Token} {vs : List Value}
    {rest : List Token} (collect : List Value → Frame)
    (hcollect : ∀ v items frames, deliver v (collect items :: frames) =
      .pending (collect (v :: items) :: frames))
    (h : DerivesAll (frames.length + 1) tokens vs) (items : List Value) :
    readFrom (collect items :: frames) (tokens ++ rest) =
      readFrom (collect (vs.reverse ++ items) :: frames) rest := by
  cases h with
  | nil => rfl
  | @cons _ tokens more v vs hv hvs =>
    have hread := readFrom_of_derives (collect items :: frames) hv (more ++ rest)
    rw [List.append_assoc, hread, hcollect]
    show readFrom (collect (v :: items) :: frames) (more ++ rest) = _
    rw [readFrom_of_derivesAll collect hcollect hvs (v :: items), List.reverse_cons,
      List.append_assoc, List.singleton_append]

end

/-- Reading all forms reads one form and then the others. -/
theorem readAllFrom_of_readFrom {frames : List Frame} {tokens rest : List Token} {form : Value}
    (h : readFrom frames tokens = .ok (form, rest)) (done : Array Value) :
    readAllFrom done frames tokens = readAllFrom (done.push form) [] rest := by
  induction tokens generalizing frames with
  | nil => cases h
  | cons token tokens ih =>
    rw [readAllFrom]
    rw [readFrom] at h
    cases hstep : step frames token with
    | error e =>
      rw [hstep] at h
      cases h
    | ok progress =>
      rw [hstep] at h
      cases progress with
      | complete form =>
        cases h
        rfl
      | pending frames => exact ih h

/-- Forms that the grammar derives are read, one after the other. -/
theorem readAllFrom_of_derivesAll {tokens : List Token} {forms : List Value}
    (h : DerivesAll 0 tokens forms) (done : Array Value) (rest : List Token) :
    readAllFrom done [] (tokens ++ rest) = readAllFrom (done ++ forms) [] rest := by
  induction forms generalizing tokens done with
  | nil =>
    cases h
    simp
  | cons form forms ih =>
    cases h with
    | @cons _ tokens more _ _ hform hforms =>
      have hread := readFrom_of_derives [] hform (more ++ rest)
      rw [List.append_assoc, readAllFrom_of_readFrom hread, ih hforms]
      simp

/-! ### What is read, the grammar derives -/

/-- The tokens open the frames: each frame stands for its opening token and, behind that, for the
tokens of the data read in it. -/
inductive Opens : List Token → List Frame → Prop where
  | nil : Opens [] []
  | list {tokens inner : List Token} {items : List Value} {frames : List Frame} :
    Opens tokens frames → frames.length < maxNesting →
      DerivesAll (frames.length + 1) inner items.reverse →
        Opens (tokens ++ .listOpen :: inner) (.list items :: frames)
  | hash {tokens inner : List Token} {items : List Value} {frames : List Frame} :
    Opens tokens frames → frames.length < maxNesting →
      DerivesAll (frames.length + 1) inner items.reverse →
        Opens (tokens ++ .hashOpen :: inner) (.hash items :: frames)
  | mark {tokens : List Token} {frames : List Frame} (mark : Mark) :
    Opens tokens frames → frames.length < maxNesting →
      Opens (tokens ++ mark.tokens) (.mark mark :: frames)

/-- The tokens of the form so far explain where the reader stands. -/
def Explains (tokens : List Token) : Progress → Prop
  | .complete form => Derives 0 tokens form
  | .pending frames => Opens tokens frames

/-- A datum that was read is explained wherever it is handed to. -/
theorem explains_deliver {tokens more : List Token} {frames : List Frame} {v : Value}
    (h : Opens tokens frames) (hv : Derives frames.length more v) :
    Explains (tokens ++ more) (deliver v frames) := by
  induction h generalizing more v with
  | nil => exact hv
  | list hopens hdepth hitems =>
    have hmore := hitems.append (.singleton hv)
    rw [← List.reverse_cons] at hmore
    rw [List.append_assoc, List.cons_append]
    exact .list hopens hdepth hmore
  | hash hopens hdepth hitems =>
    have hmore := hitems.append (.singleton hv)
    rw [← List.reverse_cons] at hmore
    rw [List.append_assoc, List.cons_append]
    exact .hash hopens hdepth hmore
  | mark mark hopens hdepth ih =>
    -- a mark hands on the list that it stands for
    rw [List.append_assoc]
    exact ih (.mark mark hdepth hv)

/-- Opening one more frame is explained by the tokens so far when there is room for it. -/
theorem explains_enter {tokens : List Token} {frame : Frame} {frames : List Frame}
    {progress : Progress} (h : enter frame frames = .ok progress)
    (hframe : frames.length < maxNesting → Opens tokens (frame :: frames)) :
    Explains tokens progress := by
  unfold enter at h
  split at h
  · next hdepth =>
    cases h
    exact hframe hdepth
  · cases h

/-- **Every step keeps the reader explained.** -/
theorem explains_step {tokens : List Token} {frames : List Frame} {token : Token}
    {progress : Progress} (h : Opens tokens frames) (hstep : step frames token = .ok progress) :
    Explains (tokens ++ [token]) progress := by
  cases token with
  | number | string | keyword | symbol =>
    cases hstep
    exact explains_deliver h (.atom rfl)
  | listOpen => exact explains_enter hstep fun hdepth => .list h hdepth .nil
  | hashOpen => exact explains_enter hstep fun hdepth => .hash h hdepth .nil
  | quote => exact explains_enter hstep fun hdepth => .mark .quote h hdepth
  | quasiquote => exact explains_enter hstep fun hdepth => .mark .quasiquote h hdepth
  | unquote => exact explains_enter hstep fun hdepth => .mark .unquote h hdepth
  | splice =>
    cases h with
    | nil | list | hash => cases hstep
    | mark mark hopens hdepth =>
      -- a splice is the comma before it, read once more
      cases mark with
      | quote | quasiquote | splice => cases hstep
      | unquote =>
        cases hstep
        rw [List.append_assoc]
        exact .mark .splice hopens hdepth
  | listClose =>
    cases h with
    | nil | hash | mark => cases hstep
    | list hopens hdepth hitems =>
      cases hstep
      rw [List.append_assoc]
      exact explains_deliver hopens (.list hdepth hitems)
  | hashClose =>
    cases h with
    | nil | list | mark => cases hstep
    | @hash _ _ items _ hopens hdepth hitems =>
      simp only [step, closeHash] at hstep
      split at hstep
      · next heven =>
        cases hstep
        rw [List.append_assoc]
        exact explains_deliver hopens (.hash hdepth hitems (by rwa [List.length_reverse]))
      · cases hstep

/-- Soundness of the reader: what it returns is derived from exactly the tokens it used. By
induction on the tokens, with the open frames explained by those already read. -/
theorem derives_of_readFrom {tokens more rest : List Token} {frames : List Frame} {form : Value}
    (h : Opens tokens frames) (hread : readFrom frames more = .ok (form, rest)) :
    ∃ used, more = used ++ rest ∧ Derives 0 (tokens ++ used) form := by
  induction more generalizing tokens frames with
  | nil => cases hread
  | cons token more ih =>
    rw [readFrom] at hread
    cases hstep : step frames token with
    | error e =>
      rw [hstep] at hread
      cases hread
    | ok progress =>
      rw [hstep] at hread
      have hexplains := explains_step h hstep
      cases progress with
      | complete form =>
        cases hread
        exact ⟨[token], rfl, hexplains⟩
      | pending frames =>
        obtain ⟨used, rfl, hform⟩ := ih hexplains hread
        rw [List.append_assoc] at hform
        exact ⟨token :: used, rfl, hform⟩

/-- The same for a whole program, where finished forms collect in front. -/
theorem derivesAll_of_readAllFrom {done : Array Value} {tokens more : List Token}
    {frames : List Frame} {forms : List Value} (h : Opens tokens frames)
    (hread : readAllFrom done frames more = .ok forms) :
    ∃ new, forms = done.toList ++ new ∧ DerivesAll 0 (tokens ++ more) new := by
  induction more generalizing tokens frames done with
  | nil =>
    cases h with
    | nil =>
      cases hread
      exact ⟨[], (List.append_nil _).symm, .nil⟩
    | list | hash | mark => cases hread
  | cons token more ih =>
    rw [readAllFrom] at hread
    cases hstep : step frames token with
    | error e =>
      rw [hstep] at hread
      cases hread
    | ok progress =>
      rw [hstep] at hread
      have hexplains := explains_step h hstep
      rw [← List.singleton_append, ← List.append_assoc]
      cases progress with
      | complete form =>
        -- the form is done, and what follows starts without a frame
        obtain ⟨new, rfl, hnew⟩ := ih .nil hread
        exact ⟨form :: new, by simp, .cons hexplains hnew⟩
      | pending frames => exact ih hexplains hread

/-! ### The reader and its grammar -/

/-- The reader accepts what the grammar derives, and nothing else. -/
theorem readForm_eq_ok_iff {tokens rest : List Token} {v : Value} :
    readForm tokens = .ok (v, rest) ↔ ∃ used, tokens = used ++ rest ∧ Derives 0 used v := by
  constructor
  · exact derives_of_readFrom .nil
  · rintro ⟨used, rfl, h⟩
    exact readFrom_of_derives [] h rest

/-- Whether these tokens are taken away is a question about them alone. -/
theorem readForm_append_eq_ok_iff {used rest : List Token} {v : Value} :
    readForm (used ++ rest) = .ok (v, rest) ↔ Derives 0 used v := by
  rw [readForm_eq_ok_iff]
  constructor
  · rintro ⟨used', hused, h⟩
    rwa [List.append_cancel_right hused]
  · intro h
    exact ⟨used, rfl, h⟩

/-- A program is read exactly when the grammar cuts all its tokens into forms. -/
theorem readForms_eq_ok_iff {tokens : List Token} {vs : List Value} :
    readForms tokens = .ok vs ↔ DerivesAll 0 tokens vs := by
  constructor
  · intro h
    obtain ⟨new, rfl, hnew⟩ := derivesAll_of_readAllFrom .nil h
    exact hnew
  · intro h
    have hread := readAllFrom_of_derivesAll h #[] []
    rw [List.append_nil] at hread
    rw [readForms, hread]
    simp [readAllFrom]

end Datum

open Datum in
/-- **The reader accepts exactly its grammar.** It reads a form off the front of the tokens if and
only if the grammar derives that form from what it takes away, and it reads all tokens as forms if
and only if they are segments from which the grammar derives these forms in order. What it takes
away and what it gives does not depend on what follows. -/
theorem reader_accepts_exactly_the_grammar :
    (∀ (tokens rest : List Token) (v : Value),
      readForm tokens = .ok (v, rest) ↔ ∃ used, tokens = used ++ rest ∧ Derives 0 used v) ∧
    (∀ (tokens : List Token) (vs : List Value),
      readForms tokens = .ok vs ↔
        ∃ segments : List (List Token), tokens = segments.flatten ∧
          List.Forall₂ (Derives 0) segments vs) ∧
    (∀ (used rest rest' : List Token) (v : Value),
      readForm (used ++ rest) = .ok (v, rest) ↔ readForm (used ++ rest') = .ok (v, rest')) := by
  refine ⟨fun _ _ _ => readForm_eq_ok_iff, fun _ _ => ?_, ?_⟩
  · rw [readForms_eq_ok_iff, derivesAll_iff]
  · intro used rest rest' v
    rw [readForm_append_eq_ok_iff, readForm_append_eq_ok_iff]

end SmallLisp
