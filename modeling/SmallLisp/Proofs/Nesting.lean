import Mathlib.Data.List.Infix
import Mathlib.Order.Basic
import SmallLisp.Proofs.Refusal
/-!
# How deep forms are nested

The reader counts what is open in the text, not how deep the lists are that come out of it. The two
differ by the hashes: a bracket of a list and a mark stand for one list, a hash stands for two, one
inside the other. So **a form is nested at most as deep as the limit and the hashes that enclose one
another together**, which is at most twice the limit.

* Along a derivation, every list is paid for by the depth, but for the second list of a hash, which is
  paid for by `hashNesting` (`bounded_of_derives`).
* Where tokens are refused for going too deep, exactly as many brackets and marks are open as may be,
  and the token that is refused would open another one (`refusedAt_tooDeep_iff`).
-/

namespace SmallLisp

namespace Datum

/-! ### Hashes that enclose one another -/

/-- How many of the hashes that tokens open are still open behind them. -/
def openHashes (tokens : List Token) : Nat :=
  tokens.count .hashOpen - tokens.count .hashClose

/-- The largest number of hashes that enclose one another: the most that are open behind some first
part of the tokens. -/
def hashNesting (tokens : List Token) : Nat :=
  (tokens.inits.map openHashes).foldr max 0

def Balanced (tokens : List Token) : Prop :=
  tokens.count .hashOpen = tokens.count .hashClose

def WithoutHashes (tokens : List Token) : Prop :=
  .hashOpen ∉ tokens ∧ .hashClose ∉ tokens

variable {tokens first second : List Token}

/-- The nesting of hashes is the most that are open at any point. -/
theorem hashNesting_le_iff {limit : Nat} :
    hashNesting tokens ≤ limit ↔ ∀ front, front <+: tokens → openHashes front ≤ limit := by
  unfold hashNesting
  simp only [← List.mem_inits]
  induction tokens.inits with
  | nil => simp
  | cons front fronts ih =>
    rw [List.map_cons, List.foldr_cons, Nat.max_le, ih, List.forall_mem_cons]

theorem openHashes_le {front : List Token} (h : front <+: tokens) :
    openHashes front ≤ hashNesting tokens :=
  hashNesting_le_iff.mp (Nat.le_refl _) front h

theorem WithoutHashes.balanced (h : WithoutHashes tokens) : Balanced tokens := by
  rw [Balanced, List.count_eq_zero.mpr h.1, List.count_eq_zero.mpr h.2]

theorem WithoutHashes.hashNesting_eq (h : WithoutHashes tokens) : hashNesting tokens = 0 := by
  rw [← Nat.le_zero, hashNesting_le_iff]
  intro front hfront
  rw [openHashes, List.count_eq_zero.mpr fun hmem => h.1 (hfront.subset hmem), Nat.zero_sub]

theorem Balanced.append (h : Balanced first) (h' : Balanced second) : Balanced (first ++ second) := by
  unfold Balanced at *
  rw [List.count_append, List.count_append, h, h']

/-- Whatever is balanced in front does not count for what comes behind. -/
theorem Balanced.openHashes_append (h : Balanced first) (second : List Token) :
    openHashes (first ++ second) = openHashes second := by
  unfold Balanced at h
  rw [openHashes, openHashes, List.count_append, List.count_append, h, Nat.add_sub_add_left]

/-- Behind tokens that close their hashes, counting starts anew. -/
theorem Balanced.hashNesting_append (h : Balanced first) (second : List Token) :
    hashNesting (first ++ second) = max (hashNesting first) (hashNesting second) := by
  apply eq_of_forall_ge_iff
  intro limit
  simp only [Nat.max_le, hashNesting_le_iff]
  constructor
  · intro hall
    refine ⟨fun front hfront => hall front (hfront.trans (List.prefix_append _ _)), ?_⟩
    intro front hfront
    rw [← h.openHashes_append front]
    exact hall (first ++ front) ((List.prefix_append_right_inj first).mpr hfront)
  · rintro ⟨hfirst, hsecond⟩ front hfront
    rcases List.prefix_or_prefix_of_prefix hfront (List.prefix_append first second) with hle | hge
    · exact hfirst front hle
    · obtain ⟨more, rfl⟩ := hge
      rw [h.openHashes_append]
      exact hsecond more ((List.prefix_append_right_inj first).mp hfront)

/-- One more brace around the front is one more hash open everywhere behind. -/
theorem hashNesting_hashOpen_cons (tokens : List Token) :
    hashNesting (.hashOpen :: tokens) = hashNesting tokens + 1 := by
  have hopen : ∀ front, openHashes (.hashOpen :: front) =
      front.count .hashOpen + 1 - front.count .hashClose := by
    intro front
    simp [openHashes]
  apply Nat.le_antisymm
  · rw [hashNesting_le_iff]
    intro front hfront
    rcases List.prefix_cons_iff.mp hfront with rfl | ⟨behind, rfl, hbehind⟩
    · exact Nat.zero_le _
    · have hle := openHashes_le hbehind
      rw [openHashes] at hle
      rw [hopen]
      omega
  · have hle : ∀ front, front <+: tokens →
        front.count .hashOpen + 1 - front.count .hashClose ≤ hashNesting (.hashOpen :: tokens) := by
      intro front hfront
      rw [← hopen]
      exact openHashes_le (List.prefix_cons_inj _ |>.mpr hfront)
    -- a front that closes more than it opens does not count, but the empty one does
    have hempty : 1 ≤ hashNesting (.hashOpen :: tokens) := hle [] tokens.nil_prefix
    have hbehind : hashNesting tokens ≤ hashNesting (.hashOpen :: tokens) - 1 := by
      rw [hashNesting_le_iff]
      intro front hfront
      have := hle front hfront
      rw [openHashes]
      omega
    omega

/-! ### What the depth bounds -/

/-- What the depth at which tokens are read says about them, and about how deep the data are nested
that they are read as. -/
structure Bounded (depth : Nat) (tokens : List Token) (nesting : Nat) : Prop where
  balanced : Balanced tokens
  hashNesting_le : depth + hashNesting tokens ≤ maxNesting
  nesting_le : depth + nesting ≤ maxNesting + hashNesting tokens

theorem bounded_of_withoutHashes {depth : Nat} (h : WithoutHashes tokens)
    (hdepth : depth ≤ maxNesting) : Bounded depth tokens 0 where
  balanced := h.balanced
  hashNesting_le := by rwa [h.hashNesting_eq]
  nesting_le := Nat.le_add_right_of_le hdepth

/-- The bound on forms in a row is that on the deepest of them. -/
theorem Bounded.append {depth nesting nesting' : Nat} (h : Bounded depth first nesting)
    (h' : Bounded depth second nesting') :
    Bounded depth (first ++ second) (max nesting nesting') where
  balanced := h.balanced.append h'.balanced
  hashNesting_le := by
    have := h.hashNesting_le
    have := h'.hashNesting_le
    rw [h.balanced.hashNesting_append]
    omega
  nesting_le := by
    have := h.nesting_le
    have := h'.nesting_le
    rw [h.balanced.hashNesting_append]
    omega

/-- A list around data takes one level of the depth. -/
theorem Bounded.inList {depth nesting : Nat} (h : Bounded (depth + 1) tokens nesting)
    (hfirst : WithoutHashes first) (hsecond : WithoutHashes second) :
    Bounded depth (first ++ tokens ++ second) (nesting + 1) := by
  have hnesting : hashNesting (first ++ tokens ++ second) = hashNesting tokens := by
    rw [(hfirst.balanced.append h.balanced).hashNesting_append, hfirst.balanced.hashNesting_append,
      hfirst.hashNesting_eq, hsecond.hashNesting_eq, Nat.zero_max, Nat.max_zero]
  have hdepth := h.hashNesting_le
  have hle := h.nesting_le
  constructor
  · exact (hfirst.balanced.append h.balanced).append hsecond.balanced
  · rw [hnesting]
    omega
  · rw [hnesting]
    omega

/-- A hash around data takes one level of the depth as well, but is two lists. -/
theorem Bounded.inHash {depth nesting : Nat} (h : Bounded (depth + 1) tokens nesting) :
    Bounded depth (.hashOpen :: tokens ++ [.hashClose]) (nesting + 2) := by
  have hclose : hashNesting [.hashClose] = 0 := rfl
  have hnesting : hashNesting (.hashOpen :: tokens ++ [.hashClose]) = hashNesting tokens + 1 := by
    rw [List.cons_append, hashNesting_hashOpen_cons, h.balanced.hashNesting_append, hclose,
      Nat.max_zero]
  have hbalanced := h.balanced
  have hdepth := h.hashNesting_le
  have hle := h.nesting_le
  constructor
  · simpa [Balanced] using hbalanced
  · rw [hnesting]
    omega
  · rw [hnesting]
    omega

theorem withoutHashes_of_atom {token : Token} {v : Value} (h : atom? token = some v) :
    WithoutHashes [token] := by
  cases token <;> cases h <;> simp [WithoutHashes]

theorem nesting_of_atom {token : Token} {v : Value} (h : atom? token = some v) : v.nesting = 0 := by
  cases token <;> cases h <;> rfl

theorem withoutHashes_mark (mark : Mark) : WithoutHashes mark.tokens := by
  cases mark <;> simp [WithoutHashes, Mark.tokens]

/-- A mark adds one level, the list that it abbreviates. -/
theorem nesting_wrap (mark : Mark) (v : Value) : (mark.wrap v).nesting = v.nesting + 1 := by
  simp [Mark.wrap, Value.nesting, Value.nestingAll]

/-- A literal hash adds two levels, since it stands for a call on a list of items, and this is where
the factor in the bound comes from. -/
theorem nesting_hashCall (items : List Value) :
    (hashCall items).nesting = Value.nestingAll items + 2 := by
  simp [hashCall, Value.nesting, Value.nestingAll]

mutual

/-- **Every level of a datum is paid for by the depth or by a hash.** -/
theorem bounded_of_derives {depth : Nat} {tokens : List Token} {v : Value}
    (h : Derives depth tokens v) (hdepth : depth ≤ maxNesting) : Bounded depth tokens v.nesting := by
  cases h with
  | atom hatom =>
    rw [nesting_of_atom hatom]
    exact bounded_of_withoutHashes (withoutHashes_of_atom hatom) hdepth
  | list hlevel hitems =>
    have hopen : WithoutHashes [.listOpen] := by simp [WithoutHashes]
    have hclose : WithoutHashes [.listClose] := by simp [WithoutHashes]
    exact (bounded_of_derivesAll hitems hlevel).inList hopen hclose
  | hash hlevel hitems _ =>
    rw [nesting_hashCall]
    exact (bounded_of_derivesAll hitems hlevel).inHash
  | mark mark hlevel hinner =>
    have hclose : WithoutHashes [] := by simp [WithoutHashes]
    rw [nesting_wrap, ← List.append_nil (mark.tokens ++ _)]
    exact (bounded_of_derives hinner hlevel).inList (withoutHashes_mark mark) hclose

/-- The bound along a derivation, one case for each way a form is made. -/
theorem bounded_of_derivesAll {depth : Nat} {tokens : List Token} {vs : List Value}
    (h : DerivesAll depth tokens vs) (hdepth : depth ≤ maxNesting) :
    Bounded depth tokens (Value.nestingAll vs) := by
  cases h with
  | nil => exact bounded_of_withoutHashes (by simp [WithoutHashes]) hdepth
  | cons hv hvs => exact (bounded_of_derives hv hdepth).append (bounded_of_derivesAll hvs hdepth)

end

/-! ### One level too many -/

/-- Whether the tokens come to a place where one level too many is opened: those before it open as
many brackets and marks as may be open, and the token there opens another one. -/
def PassesLimit (tokens : List Token) : Prop :=
  ∃ before opener after frames, tokens = before ++ opener :: after ∧ Opens before frames ∧
    frames.length = maxNesting ∧ opener ∈ openers

/-- The reader never has more open than it may nest. -/
theorem Opens.length_le {frames : List Frame} (h : Opens tokens frames) :
    frames.length ≤ maxNesting := by
  cases h with
  | nil => exact Nat.zero_le _
  | list _ hlevel _ | hash _ hlevel _ | mark _ _ hlevel => exact hlevel

/-- A token is too deep only by opening something while the limit is open already. -/
theorem step_eq_tooDeep_iff {frames : List Frame} {token : Token} :
    step frames token = .error .tooDeep ↔ token ∈ openers ∧ maxNesting ≤ frames.length := by
  constructor
  · intro h
    rcases step_error_cases h with ⟨-, hopener⟩ | ⟨he, -⟩ | ⟨he, -⟩ | ⟨he, -⟩
    · exact hopener
    all_goals cases he
  · rintro ⟨hopener, hlevel⟩
    have henter : ∀ frame, enter frame frames = .error .tooDeep := fun _ => if_neg hlevel.not_gt
    simp only [openers, List.mem_cons, List.not_mem_nil, or_false] at hopener
    rcases hopener with rfl | rfl | rfl | rfl | rfl <;> exact henter _

/-- The refusal stands at the very token that opens one too many. -/
theorem refusedAt_tooDeep_iff : RefusedAt .tooDeep tokens ↔ PassesLimit tokens := by
  constructor
  · rintro ⟨before, token, after, frames, htokens, hopens, hstep⟩
    obtain ⟨hopener, hle⟩ := step_eq_tooDeep_iff.mp hstep
    exact ⟨before, token, after, frames, htokens, hopens, Nat.le_antisymm hopens.length_le hle,
      hopener⟩
  · rintro ⟨before, opener, after, frames, htokens, hopens, hlength, hopener⟩
    exact ⟨before, opener, after, frames, htokens, hopens,
      step_eq_tooDeep_iff.mpr ⟨hopener, hlength.ge⟩⟩

/-- How deep a form may be nested that was read from the tokens. -/
structure WithinBounds (tokens : List Token) (form : Value) : Prop where
  nesting_le : form.nesting ≤ maxNesting + hashNesting tokens
  hashNesting_le : hashNesting tokens ≤ maxNesting
  nesting_le_double : form.nesting ≤ 2 * maxNesting

theorem withinBounds_of_derives {form : Value} (h : Derives 0 tokens form) :
    WithinBounds tokens form := by
  have hbounded := bounded_of_derives h (Nat.zero_le _)
  have hhashes := hbounded.hashNesting_le
  have hnesting := hbounded.nesting_le
  rw [Nat.zero_add] at hhashes hnesting
  exact ⟨hnesting, hhashes, by omega⟩

/-! Apostrophes take a level each, so with a hash behind them they get to the bound and to the limit. -/

theorem opens_quotes {count : Nat} (h : count ≤ maxNesting) :
    Opens (List.replicate count Token.quote) (List.replicate count (.mark .quote)) := by
  induction count with
  | zero => exact .nil
  | succ count ih =>
    rw [List.replicate_succ', List.replicate_succ]
    refine .mark .quote (ih (Nat.le_of_lt h)) ?_
    rwa [List.length_replicate]

theorem hashNesting_quotes (count : Nat) (tokens : List Token) :
    hashNesting (List.replicate count .quote ++ tokens) = hashNesting tokens := by
  have hquotes : WithoutHashes (List.replicate count .quote) := by simp [WithoutHashes]
  rw [hquotes.balanced.hashNesting_append, hquotes.hashNesting_eq, Nat.zero_max]

end Datum

open Datum in
/-- **A form is nested at most as deep as the limit and its hashes together.** It has at most
`maxNesting` levels of lists and, on top of these, as many as there are hashes that enclose one another
in the tokens it is read from, which are at most `maxNesting` again. Tokens are refused for going too
deep exactly if they come, behind forms that are read, to a place where `maxNesting` brackets and marks
are open and another one is opened. -/
theorem nesting_is_bounded :
    (∀ (tokens rest : List Token) (form : Value), readForm tokens = .ok (form, rest) →
      ∃ used, tokens = used ++ rest ∧ WithinBounds used form) ∧
    (∀ (tokens : List Token) (forms : List Value), readForms tokens = .ok forms →
      ∃ segments : List (List Token), tokens = segments.flatten ∧
        List.Forall₂ (fun segment form =>
          readForm segment = .ok (form, []) ∧ WithinBounds segment form) segments forms) ∧
    (∀ tokens : List Token, readForm tokens = .error .tooDeep ↔ PassesLimit tokens) ∧
    (∀ tokens : List Token, readForms tokens = .error .tooDeep ↔
      ∃ front forms rest, tokens = front ++ rest ∧ readForms front = .ok forms ∧
        PassesLimit rest) := by
  have hrefused : SyntaxError.tooDeep ∈ refusals := by decide
  refine ⟨?_, ?_, ?_, ?_⟩
  · intro tokens rest form h
    obtain ⟨used, htokens, hform⟩ := readForm_eq_ok_iff.mp h
    exact ⟨used, htokens, withinBounds_of_derives hform⟩
  · intro tokens forms h
    obtain ⟨segments, htokens, hforms⟩ := derivesAll_iff.mp (readForms_eq_ok_iff.mp h)
    refine ⟨segments, htokens, hforms.imp ?_⟩
    intro segment form hform
    have hread := readFrom_of_derives [] hform []
    rw [List.append_nil] at hread
    exact ⟨hread, withinBounds_of_derives hform⟩
  · intro tokens
    rw [readForm_eq_error_iff hrefused, refusedAt_tooDeep_iff]
  · intro tokens
    simp only [readForms_eq_error_iff hrefused, refusedAt_tooDeep_iff]

open Datum in
/-- With 999 apostrophes in front, an empty hash is nested as deep as the bound allows, and one more
apostrophe is one level too many. -/
theorem nesting_is_bounded_quotes :
    let tokens := List.replicate 999 Token.quote ++ [.hashOpen, .hashClose]
    let form := quotes 999 (hashCall [])
    (readForm (tokens ++ [.listClose]) = .ok (form, [.listClose]) ∧ readForms tokens = .ok [form]) ∧
    (form.nesting = maxNesting + 1 ∧ hashNesting tokens = 1) ∧
    (∃ used, tokens ++ [.listClose] = used ++ [.listClose] ∧ WithinBounds used form) ∧
    (∃ segments : List (List Token), tokens = segments.flatten ∧
      List.Forall₂ (fun segment form =>
        readForm segment = .ok (form, []) ∧ WithinBounds segment form) segments [form]) ∧
    readForm (.quote :: tokens) = .error .tooDeep := by
  intro tokens form
  have hhash : Derives (0 + 999) [.hashOpen, .hashClose] (hashCall []) := .hash (by decide) .nil rfl
  have hderives : Derives 0 tokens form := derives_quotes 999 hhash (by decide)
  have hform : readForm (tokens ++ [.listClose]) = .ok (form, [.listClose]) :=
    readForm_append_eq_ok_iff.mpr hderives
  have hforms : readForms tokens = .ok [form] := readForms_eq_ok_iff.mpr (.singleton hderives)
  have hlimit : PassesLimit (.quote :: tokens) :=
    ⟨List.replicate 1000 .quote, .hashOpen, [.hashClose], List.replicate 1000 (.mark .quote), rfl,
      opens_quotes (by decide), List.length_replicate, by decide⟩
  obtain ⟨hbound, hbounds, hdeep, -⟩ := nesting_is_bounded
  refine ⟨⟨hform, hforms⟩, ⟨?_, hashNesting_quotes 999 _⟩, hbound _ _ _ hform, hbounds _ _ hforms,
    (hdeep _).mpr hlimit⟩
  rw [nesting_quotes, nesting_hashCall]
  decide

end SmallLisp
