import SmallLisp.Proofs.Headroom
import SmallLisp.Proofs.Limit
/-!
# The holes of a template

Filling in a template goes through it once, evaluating as it goes. What it does can be said in two
steps that do not mix: first the forms in the holes are evaluated, one after the other from left to
right; then what they have come to is put in their places. `Template.outline` says what the holes are,
`Outline.holes` in which order they come, and `Outline.fill` puts values in their places.

Evaluating a template takes up one level for every list around a hole, and the forms in the holes are
evaluated that much further in. **Unless the limit is reached, no program can tell**
(`agrees_evaluate`): only the reports of calls say how deep they are made.
-/

namespace SmallLisp

open Machine Context

/-! ### Holes -/

inductive Outline where
  /-- What stays as it is. -/
  | kept (v : Value)
  /-- A hole for the value of a form. -/
  | hole (form : Value)
  /-- A hole for all items of the list that a form evaluates to. -/
  | splice (form : Value)
  | list (parts : List Outline)

mutual

/-- What a template is made of. It is never a splice itself. -/
def Template.outline : Value → Outline
  | .list [.symbol "unquote", form] => .hole form
  | .list items => .list (Template.outlines items)
  | v => .kept v

def Template.outlines : List Value → List Outline
  | [] => []
  | .list [.symbol "unquote-splicing", form] :: items => .splice form :: Template.outlines items
  | item :: items => Template.outline item :: Template.outlines items

end

/-- A form in a template, and whether the items of its value are wanted instead of the value. -/
structure Hole where
  form : Value
  splices : Bool

namespace Outline

mutual

def holes : Outline → List Hole
  | kept _ => []
  | hole form => [⟨form, false⟩]
  | splice form => [⟨form, true⟩]
  | list parts => holesAll parts

def holesAll : List Outline → List Hole
  | [] => []
  | part :: parts => part.holes ++ holesAll parts

end

mutual

/-- The values that a part comes to if these are put into its holes, and what is left of these. -/
def fill (answers : List (List Value)) : Outline → List Value × List (List Value)
  | kept v => ([v], answers)
  | hole _ | splice _ => (answers.headD [], answers.tail)
  | list parts =>
    let (items, rest) := fillAll answers parts
    ([.list items], rest)

def fillAll (answers : List (List Value)) : List Outline → List Value × List (List Value)
  | [] => ([], answers)
  | part :: parts =>
    let (front, rest) := part.fill answers
    let (back, rest) := fillAll rest parts
    (front ++ back, rest)

end

end Outline

namespace Context

/-- What is put into a hole: the value of its form, or all items of the value. -/
def answer (ctx : Context) (scope : ScopeId) (hole : Hole) : Eval (List Value) := do
  let v ← ctx.evaluate hole.form scope
  if hole.splices then Eval.ofConversion v.asList else return [v]

/-- Evaluates the forms in the holes of a template, one after the other, and then puts in what they
have come to. -/
def fillHoles (ctx : Context) (template : Value) (scope : ScopeId) : Eval Value := do
  let outline := Template.outline template
  let answers ← outline.holes.mapM (ctx.answer scope)
  return (outline.fill answers).1.headD .null

end Context

/-! ### One hole after the other -/

/-- A list of questions that are all answered has one answer each. -/
theorem Eval.length_of_mapM {host : Host} {α β : Type} {f : α → Eval β} {items : List α}
    {results : List β} {m m' : Machine} (h : items.mapM f host m = .ok results m') :
    results.length = items.length := by
  induction items generalizing results m with
  | nil =>
    cases h
    rfl
  | cons a items ih =>
    rw [List.mapM_cons] at h
    obtain ⟨b, m₁, -, h⟩ := Eval.bind_eq_ok h
    obtain ⟨bs, m₂, hrest, h⟩ := Eval.bind_eq_ok h
    cases h
    simp [ih hrest]

namespace Outline

mutual

/-- A part takes as many answers as it has holes, and leaves the others. -/
theorem fill_append {answers : List (List Value)} (part : Outline)
    (h : answers.length = part.holes.length) (rest : List (List Value)) :
    part.fill (answers ++ rest) = ((part.fill answers).1, rest) := by
  match part, h with
  | .kept v, h =>
    obtain rfl := List.length_eq_zero_iff.mp h
    rfl
  | .hole form, h | .splice form, h =>
    obtain ⟨values, rfl⟩ := List.length_eq_one_iff.mp h
    rfl
  | .list parts, h =>
    have hparts := fillAll_append parts h rest
    simp only [fill, hparts]

/-- Filling takes as many answers as there are holes and leaves the others. -/
theorem fillAll_append {answers : List (List Value)} (parts : List Outline)
    (h : answers.length = (holesAll parts).length) (rest : List (List Value)) :
    fillAll (answers ++ rest) parts = ((fillAll answers parts).1, rest) := by
  match parts, h with
  | [], h =>
    obtain rfl := List.length_eq_zero_iff.mp h
    rfl
  | part :: parts, h =>
    rw [holesAll, List.length_append] at h
    -- the first answers belong to the first part
    obtain ⟨front, back, rfl, hfront⟩ : ∃ front back, answers = front ++ back ∧
        front.length = part.holes.length :=
      ⟨_, _, (List.take_append_drop part.holes.length answers).symm, by simp; omega⟩
    have hback : back.length = (holesAll parts).length := by
      rw [List.length_append] at h
      omega
    have hpart := fill_append part hfront
    have hparts := fillAll_append parts hback rest
    simp only [List.append_assoc, fillAll, hpart, hparts]

end

variable (ctx : Context) (scope : ScopeId)

/-- What parts come to once their holes are filled in, one after the other. -/
def refill (parts : List Outline) : Eval (List Value) := do
  let answers ← (holesAll parts).mapM (ctx.answer scope)
  return (fillAll answers parts).1

theorem refill_nil : refill ctx scope [] = pure [] := by
  simp [refill, holesAll, fillAll]

/-- For one part, the holes are answered and then filled. -/
theorem refill_singleton (part : Outline) :
    refill ctx scope [part] = (do
      let answers ← part.holes.mapM (ctx.answer scope)
      return (part.fill answers).1) := by
  simp [refill, holesAll, fillAll]

/-- **The holes of one part come before those of the next**, and all of them before anything is put
in. -/
theorem refill_cons (part : Outline) (parts : List Outline) :
    refill ctx scope (part :: parts) = (do
      let front ← refill ctx scope [part]
      let back ← refill ctx scope parts
      return front ++ back) := by
  rw [refill_singleton]
  funext host m
  unfold refill
  rw [holesAll, List.mapM_append]
  simp only [bind_assoc, pure_bind]
  cases hrun : part.holes.mapM (ctx.answer scope) host m with
  | ok answers m₁ =>
    rw [Eval.bind_of_ok hrun, Eval.bind_of_ok hrun]
    simp only [fillAll, fill_append part (Eval.length_of_mapM hrun)]
  | error e m₁ => rw [Eval.bind_of_error hrun, Eval.bind_of_error hrun]

end Outline

open Template Outline

theorem outline_of_hole? {v form : Value} (h : hole? .unquote v = some form) :
    outline v = .hole form := by
  unfold hole? at h
  split at h
  · split at h
    · next hhead =>
      cases h
      rw [hhead]
      rfl
    · cases h
  · cases h

theorem outline_list_of_hole? {items : List Value} (h : hole? .unquote (.list items) = none) :
    outline (.list items) = .list (outlines items) := by
  rw [outline]
  rintro form rfl
  simp [hole?, Datum.Mark.name] at h

/-- A splice is seen in its list, before the item itself is looked at. -/
theorem outlines_cons_of_hole? {item form : Value} (h : hole? .splice item = some form)
    (items : List Value) : outlines (item :: items) = .splice form :: outlines items := by
  unfold hole? at h
  split at h
  · split at h
    · next hhead =>
      cases h
      rw [hhead]
      rfl
    · cases h
  · cases h

theorem outlines_cons_of_not_hole? {item : Value} (h : hole? .splice item = none)
    (items : List Value) : outlines (item :: items) = outline item :: outlines items := by
  rw [outlines]
  rintro form rfl
  simp [hole?, Datum.Mark.name] at h

section

variable (ctx : Context) (scope : ScopeId)

/-- A template that is one hole is what its form evaluates to. -/
theorem fillHoles_of_hole? {template form : Value} (h : hole? .unquote template = some form) :
    ctx.fillHoles template scope = ctx.evaluate form scope := by
  simp [fillHoles, outline_of_hole? h, holes, Outline.fill, answer]

/-- A list is refilled part by part. -/
theorem fillHoles_list {items : List Value} (h : hole? .unquote (.list items) = none) :
    ctx.fillHoles (.list items) scope = (do return .list (← refill ctx scope (outlines items))) := by
  simp [fillHoles, outline_list_of_hole? h, holes, Outline.fill, refill]

/-- A template comes to one value. -/
theorem refill_outline (template : Value) :
    refill ctx scope [outline template] = (do return [← ctx.fillHoles template scope]) := by
  rw [refill_singleton]
  cases hhole : hole? .unquote template with
  | some form => simp [fillHoles_of_hole? ctx scope hhole, outline_of_hole? hhole, holes, Outline.fill, answer]
  | none =>
    cases template with
    | list items =>
      simp [fillHoles_list ctx scope hhole, outline_list_of_hole? hhole, holes, Outline.fill, refill]
    | _ => simp [fillHoles, outline, holes, Outline.fill]

/-- A splice gives the items of a list, and fails on any other value. -/
theorem refill_splice (form : Value) :
    refill ctx scope [.splice form] = (do
      let v ← ctx.evaluate form scope
      Eval.ofConversion v.asList) := by
  simp [refill_singleton, holes, Outline.fill, answer]

end

/-! ### Agreement unless the limit is reached -/

/-- Whether two runs end in the same way, with related machines. -/
inductive Alike (R : Machine → Machine → Prop) {α : Type} : Outcome α → Outcome α → Prop where
  | value (a : α) {m m' : Machine} : R m m' → Alike R (.ok a m) (.ok a m')
  | fault (e : Fault) {m m' : Machine} : R m m' → Alike R (.error e m) (.error e m')

/-- Whether two evaluations end in the same way from related machines, unless the first one reaches
the limit. -/
def Agrees (R : Machine → Machine → Prop) (host : Host) {α : Type} (x x' : Eval α) : Prop :=
  ∀ m m', R m m' → ¬ HitsLimit (x host m) → Alike R (x host m) (x' host m')

namespace Agrees

variable {R : Machine → Machine → Prop} {host : Host} {α β : Type}

theorem pure (a : α) : Agrees R host (Pure.pure a) (Pure.pure a) :=
  fun _ _ hm _ => .value a hm

theorem ofConversion (result : Except TypeError α) :
    Agrees R host (Eval.ofConversion result) (Eval.ofConversion result) := by
  cases result with
  | ok a => exact .pure a
  | error e => exact fun _ _ hm _ => .fault _ hm

/-- Agreement passes through a sequence: if the first part hits the limit on the left, so does the
whole. -/
theorem bind {x x' : Eval α} {f f' : α → Eval β} (hx : Agrees R host x x')
    (hf : ∀ a, Agrees R host (f a) (f' a)) : Agrees R host (x >>= f) (x' >>= f') := by
  intro m m' hm hlimit
  have hx := hx m m' hm
  cases hrun : x host m with
  | ok a m₁ =>
    rw [Eval.bind_of_ok hrun] at hlimit ⊢
    rw [hrun] at hx
    have hnot : ¬ HitsLimit (EStateM.Result.ok a m₁ : Outcome α) := by
      rintro ⟨_, _, ⟨⟩⟩
    generalize hrun' : x' host m' = outcome' at hx
    cases hx hnot with
    | value _ hm₁ =>
      rw [Eval.bind_of_ok hrun']
      exact hf a _ _ hm₁ hlimit
  | error e m₁ =>
    rw [Eval.bind_of_error hrun] at hlimit ⊢
    rw [hrun] at hx
    -- a limit that the first part hits would be hit by the whole
    have hnot : ¬ HitsLimit (EStateM.Result.error e m₁ : Outcome α) := by
      rintro ⟨limit, _, ⟨⟩⟩
      exact hlimit ⟨limit, _, rfl⟩
    generalize hrun' : x' host m' = outcome' at hx
    cases hx hnot with
    | fault _ hm₁ =>
      rw [Eval.bind_of_error hrun']
      exact .fault e hm₁

end Agrees

section

variable {R : Machine → Machine → Prop} {host : Host} {ctx : Context} {scope : ScopeId} {depth : Nat}

/-- Whether forms do the same in a context as they do at this depth and further in. -/
def AgreesFrom (R : Machine → Machine → Prop) (host : Host) (ctx : Context) (scope : ScopeId)
    (depth : Nat) (holes : List Hole) : Prop :=
  ∀ hole ∈ holes, ∀ depth', depth ≤ depth' →
    Agrees R host ((within host.limit depth').evaluate hole.form scope)
      (ctx.evaluate hole.form scope)

/-- What agrees from some depth on agrees from every greater one. -/
theorem AgreesFrom.mono {depth' : Nat} {holes : List Hole} (h : AgreesFrom R host ctx scope depth holes)
    (hle : depth ≤ depth') : AgreesFrom R host ctx scope depth' holes :=
  fun hole hhole depth'' hle' => h hole hhole depth'' (Nat.le_trans hle hle')

/-- A template inside another one is filled in one level further in. -/
theorem agrees_fill {template : Value} {x : Eval Value}
    (h : Agrees R host ((within host.limit (depth + 1)).fillTemplate template scope) x) :
    Agrees R host ((within host.limit depth).fill template scope) x := by
  intro m m' hm hlimit
  rcases Nat.lt_or_ge depth host.limit with hlt | hle
  · rw [fill_within hlt] at hlimit ⊢
    exact h m m' hm hlimit
  · rw [fill_within_of_le hle] at hlimit
    exact absurd ⟨host.limit, m, rfl⟩ hlimit

mutual

/-- Filling in a template is to evaluate the forms in its holes and then to put in what they have come
to: by induction on the template, at any depth. -/
theorem agrees_fillTemplate (template : Value) (depth : Nat)
    (h : AgreesFrom R host ctx scope depth (outline template).holes) :
    Agrees R host ((within host.limit depth).fillTemplate template scope)
      (ctx.fillHoles template scope) := by
  unfold fillTemplate
  cases hhole : hole? .unquote template with
  | some form =>
    rw [fillHoles_of_hole? ctx scope hhole]
    rw [outline_of_hole? hhole] at h
    exact h ⟨form, false⟩ List.mem_cons_self depth (Nat.le_refl _)
  | none =>
    match template with
    | .list items =>
      rw [fillHoles_list ctx scope hhole]
      rw [outline_list_of_hole? hhole] at h
      have hitems := agrees_fillItems items depth h
      simpa using hitems.bind fun values => .pure (Value.list values)
    | .number _ | .string _ | .boolean _ | .symbol _ | .keyword _ | .null | .error _ | .hash _
    | .function _ =>
      simp only [fillHoles, outline, holes, Outline.fill]
      exact .pure _

/-- Evaluating items in a row and then joining is answering all holes and then filling, by induction
on the items. -/
theorem agrees_fillItems (items : List Value) (depth : Nat)
    (h : AgreesFrom R host ctx scope depth (holesAll (outlines items))) :
    Agrees R host (do return (← items.mapM ((within host.limit depth).fillItem scope)).flatten)
      (refill ctx scope (outlines items)) := by
  match items with
  | [] =>
    rw [outlines, refill_nil]
    exact .pure []
  | item :: items =>
    -- the loop over all items, as its first turn and the others
    have hsplit : (do return (← (item :: items).mapM ((within host.limit depth).fillItem scope)).flatten) =
        (do
          let front ← (within host.limit depth).fillItem scope item
          let back ← (do return (← items.mapM ((within host.limit depth).fillItem scope)).flatten)
          return front ++ back : Eval (List Value)) := by
      simp
    rw [hsplit]
    cases hhole : hole? .splice item with
    | some form =>
      rw [outlines_cons_of_hole? hhole] at h ⊢
      rw [refill_cons, refill_splice]
      have hform : Agrees R host ((within host.limit depth).evaluate form scope)
          (ctx.evaluate form scope) :=
        h ⟨form, true⟩ List.mem_cons_self depth (Nat.le_refl _)
      have hrest := agrees_fillItems items depth fun hole hmem =>
        h hole (List.mem_cons_of_mem _ hmem)
      simp only [fillItem, hhole]
      exact (hform.bind fun v => .ofConversion v.asList).bind fun front =>
        hrest.bind fun back => .pure _
    | none =>
      rw [outlines_cons_of_not_hole? hhole] at h ⊢
      rw [refill_cons, refill_outline]
      have hfront : AgreesFrom R host ctx scope depth (outline item).holes := fun hole hmem =>
        h hole (List.mem_append_left _ hmem)
      have hrest := agrees_fillItems items depth fun hole hmem =>
        h hole (List.mem_append_right _ hmem)
      have hitem : Agrees R host ((within host.limit depth).fillItem scope item)
          (do return [← ctx.fillHoles item scope]) := by
        simp only [fillItem, hhole]
        match item with
        | .list inner =>
          -- an inner list is a template of its own, one level further in
          have hinner := agrees_fillTemplate (.list inner) (depth + 1) (hfront.mono (Nat.le_succ _))
          exact (agrees_fill hinner).bind fun v => .pure [v]
        | .number _ | .string _ | .boolean _ | .symbol _ | .keyword _ | .null | .error _ | .hash _
        | .function _ =>
          simp only [fillHoles, outline, holes, Outline.fill]
          exact .pure _
      exact hitem.bind fun front => hrest.bind fun back => .pure _

end

end

/-! ### Depths do not matter -/

def Event.withoutDepth : Event → Event
  | .applying function _ => .applying function 0
  | event => event

theorem Event.withoutDepth_deeper (levels : Nat) (event : Event) :
    (event.deeper levels).withoutDepth = event.withoutDepth := by
  cases event <;> rfl

/-- Whether machines are the same, apart from the depth in reports of calls. -/
def Machine.SameButDepths (m m' : Machine) : Prop :=
  m' = { m with events := m'.events } ∧
    m'.events.map Event.withoutDepth = m.events.map Event.withoutDepth

theorem Machine.SameButDepths.refl (m : Machine) : m.SameButDepths m :=
  ⟨rfl, rfl⟩

/-- Shifted runs report the same events but for the depths in them. -/
theorem Shift.Relates.sameButDepths {s : Shift} {m m' : Machine} (h : s.Relates m m')
    (hreported : s.reported'.map Event.withoutDepth = s.reported.map Event.withoutDepth) :
    m'.SameButDepths m := by
  obtain ⟨new, hevents, rfl⟩ := h
  refine ⟨rfl, ?_⟩
  have hnew : (new.map (Event.deeper s.levels)).map Event.withoutDepth =
      new.map Event.withoutDepth := by
    rw [Array.map_map]
    exact congrArg (new.map ·) (funext (Event.withoutDepth_deeper s.levels))
  rw [hevents, Array.map_append, Array.map_append, hreported, hnew]

/-- **Further in, evaluation does the same unless the limit is reached.** The run further in has fewer
evaluations left. It does what is done in the other place under a limit that leaves no more than that;
and there raising the limit makes no difference. -/
theorem agrees_evaluate (host : Host) {depth depth' : Nat} (hdepth : depth ≤ depth') (v : Value)
    (scope : ScopeId) :
    Agrees SameButDepths host ((within host.limit depth').evaluate v scope)
      ((within host.limit depth).evaluate v scope) := by
  intro m m' hm hlimit
  obtain ⟨levels, rfl⟩ := Nat.exists_eq_add_of_le hdepth
  rcases Nat.lt_or_ge host.limit levels with hlt | hle
  · rw [evaluate_within_of_le (by omega)] at hlimit
    exact absurd ⟨host.limit, m, rfl⟩ hlimit
  · obtain ⟨lower, hlower⟩ := Nat.exists_eq_add_of_le' hle
    let s : Shift := ⟨⟨lower, host.read⟩, levels, m'.events, m.events⟩
    have hhost : s.host' = host := by
      cases host
      cases hlower
      rfl
    have hstart : s.Relates m' m := by
      refine .start _ levels m' m ?_
      rw [hm.1]
    have hread : host.read = s.host.read := rfl
    have hhigher : s.host.limit ≤ host.limit := by
      show lower ≤ host.limit
      omega
    have hshift : Parallel s ((within lower depth).evaluate v scope s.host m')
        ((within s.host'.limit (depth + levels)).evaluate v scope s.host' m) :=
      (deeper_admits_within s depth).evaluate v scope m' m hstart
    have hraise : ¬ HitsLimit ((within lower depth).evaluate v scope s.host m') →
        (within host.limit depth).evaluate v scope host m' =
          (within lower depth).evaluate v scope s.host m' :=
      (((raising_admits_within hread hhigher depth).evaluate v scope).1 m').same
    have hreported : s.reported'.map Event.withoutDepth = s.reported.map Event.withoutDepth :=
      hm.2.symm
    rw [hhost] at hshift
    -- the run under the lower limit ends as the one further in does, not at its limit
    generalize (within lower depth).evaluate v scope s.host m' = result at hshift hraise
    generalize (within host.limit (depth + levels)).evaluate v scope host m = result' at hshift hlimit ⊢
    cases hshift with
    | value a hrelates =>
      rw [hraise (by rintro ⟨_, _, ⟨⟩⟩)]
      exact .value a (hrelates.sameButDepths hreported)
    | @fault e _ _ he hrelates =>
      rw [hraise (by rintro ⟨_, _, ⟨⟩⟩; cases he)]
      exact .fault e (hrelates.sameButDepths hreported)
    | limit hrelates => exact absurd ⟨_, _, rfl⟩ hlimit

/-! ### Quasiquotation -/

mutual

/-- Without holes there is nothing to put in. -/
theorem fill_outline_of_no_holes (template : Value) (h : (outline template).holes = [])
    (answers : List (List Value)) : (outline template).fill answers = ([template], answers) := by
  match template with
  | .list items =>
    cases hhole : hole? .unquote (.list items) with
    | some form =>
      rw [outline_of_hole? hhole] at h
      cases h
    | none =>
      rw [outline_list_of_hole? hhole] at h ⊢
      rw [Outline.fill, fillAll_outlines_of_no_holes items h answers]
  | .number _ | .string _ | .boolean _ | .symbol _ | .keyword _ | .null | .error _ | .hash _
  | .function _ => rfl

/-- Without holes the outline is the template again, and no answer is used. -/
theorem fillAll_outlines_of_no_holes (items : List Value) (h : holesAll (outlines items) = [])
    (answers : List (List Value)) : fillAll answers (outlines items) = (items, answers) := by
  match items with
  | [] => rfl
  | item :: items =>
    cases hhole : hole? .splice item with
    | some form =>
      rw [outlines_cons_of_hole? hhole] at h
      cases h
    | none =>
      rw [outlines_cons_of_not_hole? hhole] at h ⊢
      obtain ⟨hitem, hitems⟩ := List.append_eq_nil_iff.mp h
      simp only [fillAll, fill_outline_of_no_holes item hitem,
        fillAll_outlines_of_no_holes items hitems, List.singleton_append]

end

/-- What is evaluated for a quasiquotation. -/
theorem evaluate_quasiquote (host : Host) (depth : Nat) (template : Value) (scope : ScopeId)
    (m : Machine) :
    (within host.limit depth).evaluate (.list [.symbol "quasiquote", template]) scope host m =
      if depth < host.limit then (within host.limit (depth + 1)).fillTemplate template scope host m
      else .error (.recursionLimit host.limit) m := by
  split
  · next hlt => exact evaluate_within hlt _ scope m
  · next hle =>
    rw [evaluate_within_of_le (Nat.le_of_not_lt hle)]
    rfl

/-- **A quasiquotation fills in its holes from left to right.** Unless it reaches the limit, to
evaluate it is to evaluate the forms in the holes of its template, once each and in order, up to the
first fault or the first splice that is not a list, and then to put in what they have come to: with the
same outcome, and with the same machine but for the depth in reports of calls. The forms may as well be
evaluated where the quasiquotation is, or anywhere further out. Without holes the template is the
value, and nothing changes. -/
theorem quasiquote_fills_holes_in_order (host : Host) (depth : Nat) (template : Value)
    (scope : ScopeId) (m : Machine) :
    let run := (within host.limit depth).evaluate (.list [.symbol "quasiquote", template]) scope host m
    ¬ HitsLimit run →
    (∀ outer ≤ depth + 1,
      Alike SameButDepths run ((within host.limit outer).fillHoles template scope host m)) ∧
    ((outline template).holes = [] → run = .ok template m) := by
  intro run hlimit
  have hrun : run = (within host.limit (depth + 1)).fillTemplate template scope host m := by
    have hquasi := evaluate_quasiquote host depth template scope m
    split at hquasi
    · exact hquasi
    · exact absurd ⟨_, _, hquasi⟩ hlimit
  rw [hrun] at hlimit ⊢
  refine ⟨?_, ?_⟩
  · intro outer houter
    apply agrees_fillTemplate template (depth + 1) _ m m (.refl m) hlimit
    intro hole _ depth' hdepth'
    exact agrees_evaluate host (Nat.le_trans houter hdepth') hole.form scope
  · intro hholes
    -- nothing is evaluated, so machines may be compared as they are
    have halike : Alike Eq ((within host.limit (depth + 1)).fillTemplate template scope host m)
        ((within host.limit 0).fillHoles template scope host m) := by
      apply agrees_fillTemplate template (depth + 1) _ m m rfl hlimit
      rw [hholes]
      rintro hole ⟨⟩
    have hkept : (within host.limit 0).fillHoles template scope host m = .ok template m := by
      simp only [fillHoles, hholes, fill_outline_of_no_holes template hholes]
      rfl
    generalize (within host.limit (depth + 1)).fillTemplate template scope host m = result at halike ⊢
    rw [hkept] at halike
    cases halike with
    | value _ hm => rw [hm]

/-- A hole that sets a variable, a splice further in that uses it, and a list that only looks like a
hole. -/
theorem quasiquote_fills_holes_in_order_splice :
    let host : Host := ⟨5, fun _ => .error .notFound⟩
    let first : Value := .list [.symbol "def", .symbol "x", .keyword ":one"]
    let second : Value :=
      .list [.symbol "quasiquote", .list [.keyword ":two", .list [.symbol "unquote", .symbol "x"]]]
    let other : Value := .list [.symbol "unquote", .symbol "x", .symbol "x"]
    let template : Value := .list [.list [.symbol "unquote", first],
      .list [.list [.symbol "unquote-splicing", second]], other]
    let run := (within 5 0).evaluate (.list [.symbol "quasiquote", template]) 0 host .initial
    (outline template).holes = [⟨first, false⟩, ⟨second, true⟩] ∧
      run = .ok (.list [.keyword ":one", .list [.keyword ":two", .keyword ":one"], other])
        (Machine.initial.set 0 "x" (.keyword ":one")) ∧
      Alike SameButDepths run ((within 5 0).fillHoles template 0 host .initial) := by
  intro host first second other template run
  have hrun : run = .ok (.list [.keyword ":one", .list [.keyword ":two", .keyword ":one"], other])
      (Machine.initial.set 0 "x" (.keyword ":one")) := by
    simp only [run, template, first, second, other, host]
    cbv
  have hlimit : ¬ HitsLimit run := by
    rw [hrun]
    rintro ⟨_, _, ⟨⟩⟩
  exact ⟨rfl, hrun,
    (quasiquote_fills_holes_in_order host 0 template 0 .initial hlimit).1 0 (Nat.zero_le _)⟩

end SmallLisp
