import SmallLisp.Proofs.Dialogue
import SmallLisp.Proofs.WellFormed
/-!
# Keeping track of values

Many facts about a run are about the values in it: each one was regular when it turned up, and stays so.
What is known of closures, and which scopes are there, is more and more while evaluation goes on; it
goes through *stages*, each of which leads to the later ones.

A `Tracking` says what is known at a stage and when a machine is in order at it, and has a law for each
way in which evaluation changes a machine. From the laws it follows that **evaluation keeps the machine
in order**, whether it ends with a value or a fault, **and its value is regular** at the stage at which
it ends (`Tracking.admits_within`, `Tracking.safe_job`).
-/

namespace SmallLisp

open Context

/-- Something that is kept track of while evaluations go on. -/
structure Tracking where
  host : Host
  Stage : Type
  /-- Whether a stage is followed by another one. -/
  Leads : Stage → Stage → Prop
  inOrder : Stage → Machine → Prop
  /-- The closures that are known at a stage. -/
  known : Stage → Closure Value → Prop
  /-- The scopes that are there at a stage. -/
  there : Stage → ScopeId → Prop
  leads_refl : ∀ s : Stage, Leads s s
  leads_trans : ∀ {s s' s'' : Stage}, Leads s s' → Leads s' s'' → Leads s s''
  known_mono : ∀ {s s' : Stage} {f : Closure Value}, Leads s s' → known s f → known s' f
  there_mono : ∀ {s s' : Stage} {id : ScopeId}, Leads s s' → there s id → there s' id
  there_scope : ∀ {s : Stage} {f : Closure Value}, known s f → there s f.scope
  there_get? : ∀ {s : Stage} {m : Machine} {name : String} {id : ScopeId}, inOrder s m →
    m.registry.get? name = some id → there s id
  vars : ∀ {s : Stage} {m : Machine} {id : ScopeId} {scope : Scope}, inOrder s m →
    m.scopes[id]? = some scope → scope.vars.WellFormed (·.Regular (known s))
  report : ∀ {s : Stage} {m : Machine} (event : Event), inOrder s m → inOrder s (m.report event)
  print : ∀ {s : Stage} {m : Machine} (line : String), inOrder s m → inOrder s (m.print line)
  set : ∀ {s : Stage} {m : Machine} (id : ScopeId) (name : String) {v : Value}, inOrder s m →
    v.Regular (known s) → inOrder s (m.set id name v)
  alloc : ∀ {s : Stage} {m : Machine} {vars : Table Value} {parent : ScopeId}, inOrder s m →
    vars.WellFormed (·.Regular (known s)) → there s parent →
      ∃ s', Leads s s' ∧ inOrder s' (m.alloc ⟨vars, some parent⟩).2 ∧ there s' m.scopes.size
  create : ∀ {s : Stage} {m : Machine} {name : String}, inOrder s m → name ≠ Path.global →
    ∃ s', Leads s s' ∧ inOrder s' (m.create name).2 ∧ there s' m.scopes.size
  make : ∀ {s : Stage} {m : Machine} (name : Option String) (params : List String)
    (rest : Option String) {body : List Value} {scope : ScopeId}, inOrder s m → body ≠ [] →
    (∀ form ∈ body, form.Regular (known s)) → there s scope →
      ∃ s', Leads s s' ∧ inOrder s' { m with closures := m.closures + 1 } ∧
        known s' ⟨m.closures, name, params, rest, body, scope⟩

namespace Tracking

variable (t : Tracking) {α β : Type}

def Good (s : t.Stage) (v : Value) : Prop :=
  v.Regular (t.known s)

def AllGood (s : t.Stage) (items : List Value) : Prop :=
  ∀ v ∈ items, t.Good s v

def GoodVars (s : t.Stage) (vars : Table Value) : Prop :=
  vars.WellFormed (t.Good s)

def Lasting (good : t.Stage → α → Prop) : Prop :=
  ∀ s s' a, t.Leads s s' → good s a → good s' a

/-- Whether an evaluation ends in a machine that is in order at a later stage, and with something good
if it does not fail. -/
def Ends (s : t.Stage) (good : t.Stage → α → Prop) : Outcome α → Prop
  | .ok a m => ∃ s', t.Leads s s' ∧ t.inOrder s' m ∧ good s' a
  | .error _ m => ∃ s', t.Leads s s' ∧ t.inOrder s' m

def Safe (s : t.Stage) (good : t.Stage → α → Prop) (x : Eval α) : Prop :=
  ∀ m : Machine, t.inOrder s m → t.Ends s good (x t.host m)

variable {t} {s s' : t.Stage} {good : t.Stage → α → Prop} {good' : t.Stage → β → Prop}

/-- What is good stays good, as closures stay known. -/
theorem Good.mono {v : Value} (h : t.Good s v) (hs : t.Leads s s') : t.Good s' v :=
  h.imp fun _ => t.known_mono hs

theorem AllGood.mono {items : List Value} (h : t.AllGood s items) (hs : t.Leads s s') :
    t.AllGood s' items :=
  fun v hv => (h v hv).mono hs

theorem allGood_pair {a b : Value} (ha : t.Good s a) (hb : t.Good s b) : t.AllGood s [a, b] :=
  List.forall_mem_cons.mpr ⟨ha, List.forall_mem_singleton.mpr hb⟩

theorem GoodVars.mono {vars : Table Value} (h : t.GoodVars s vars) (hs : t.Leads s s') :
    t.GoodVars s' vars :=
  h.imp fun _ hv => hv.mono hs

theorem lasting_good : t.Lasting t.Good :=
  fun _ _ _ hs hv => hv.mono hs

theorem lasting_allGood : t.Lasting t.AllGood :=
  fun _ _ _ hs hitems => hitems.mono hs

/-- What starts at a later stage also ends at one later than the first. -/
theorem Ends.of_leads {outcome : Outcome α} (h : t.Ends s' good outcome) (hs : t.Leads s s') :
    t.Ends s good outcome := by
  cases outcome with
  | ok a m =>
    obtain ⟨s'', hs', hm, ha⟩ := h
    exact ⟨s'', t.leads_trans hs hs', hm, ha⟩
  | error e m =>
    obtain ⟨s'', hs', hm⟩ := h
    exact ⟨s'', t.leads_trans hs hs', hm⟩

/-! ### What is found in a machine -/

/-- Scopes in order hold good values only. -/
theorem good_lookup {m : Machine} (hm : t.inOrder s m) {id : ScopeId} {name : String} {v : Value}
    (hv : Scopes.lookup m.scopes id name = some v) : t.Good s v := by
  fun_induction Scopes.lookup m.scopes id name with
  | case1 => cases hv
  | case2 id scope hscope w hw =>
    cases hv
    exact (t.vars hm hscope).get? hw
  | case3 id scope hscope hnone parent hparent hlt ih => exact ih hv
  | case4 => cases hv
  | case5 => cases hv

theorem good_resolve {m : Machine} (hm : t.inOrder s m) (symbol : String) (scope : ScopeId) :
    Yields (t.Good s) (m.resolve symbol scope) := by
  unfold Machine.resolve
  dsimp only
  split
  · split
    · split
      · next v hv => exact good_lookup hm hv
      · exact trivial
    · split
      · split
        · next v hv => exact good_lookup hm hv
        · exact trivial
      · exact trivial
  · split
    · next v hv => exact good_lookup hm hv
    · exact trivial

namespace Safe

/-! ### Steps and loops -/

theorem pure {a : α} (h : good s a) : t.Safe s good (Pure.pure a) :=
  fun _ hm => ⟨s, t.leads_refl s, hm, h⟩

theorem throw (e : Fault) : t.Safe s good (MonadExcept.throw e) :=
  fun _ hm => ⟨s, t.leads_refl s, hm⟩

/-- The stage may advance in the first part, so the second is taken at any later one. -/
theorem bind {x : Eval α} {f : α → Eval β} (hx : t.Safe s good x)
    (hf : ∀ s' a, t.Leads s s' → good s' a → t.Safe s' good' (f a)) : t.Safe s good' (x >>= f) := by
  intro m hm
  have hend := hx m hm
  cases hrun : x t.host m with
  | ok a m' =>
    rw [hrun] at hend
    obtain ⟨s', hs, hm', ha⟩ := hend
    rw [Eval.bind_of_ok hrun]
    exact (hf s' a hs ha m' hm').of_leads hs
  | error e m' =>
    rw [hrun] at hend
    rw [Eval.bind_of_error hrun]
    exact hend

theorem imp {good' : t.Stage → α → Prop} {x : Eval α} (hx : t.Safe s good x)
    (himp : ∀ s' a, good s' a → good' s' a) : t.Safe s good' x := by
  intro m hm
  have hend := hx m hm
  cases hrun : x t.host m with
  | ok a m' =>
    rw [hrun] at hend
    obtain ⟨s', hs, hm', ha⟩ := hend
    exact ⟨s', hs, hm', himp s' a ha⟩
  | error e m' =>
    rw [hrun] at hend
    exact hend

theorem ofExcept {result : Except Fault α} (h : Yields (good s) result) :
    t.Safe s good (Eval.ofExcept result) := by
  cases result with
  | ok a => exact pure h
  | error e => exact throw e

theorem anyExcept (result : Except Fault α) : t.Safe s (fun _ _ => True) (Eval.ofExcept result) := by
  cases result with
  | ok a => exact pure trivial
  | error e => exact throw e

theorem anyConversion (result : Except TypeError α) :
    t.Safe s (fun _ _ => True) (Eval.ofConversion result) := by
  cases result with
  | ok a => exact pure trivial
  | error e => exact throw _

/-- A list's items are as good as the list. -/
theorem asList {v : Value} (h : t.Good s v) :
    t.Safe s (fun s' items => v = .list items ∧ t.AllGood s' items) (Eval.ofConversion v.asList) := by
  cases v with
  | list items => exact pure ⟨rfl, Value.regular_list.mp h⟩
  | _ => exact throw _

theorem asFunction {v : Value} (h : t.Good s v) :
    t.Safe s (fun s' f => t.Good s' (.function f)) (Eval.ofConversion v.asFunction) := by
  cases v with
  | function f => exact pure h
  | _ => exact throw _

theorem report (event : Event) : t.Safe s (fun _ _ => True) (modify (Machine.report event)) :=
  fun _ hm => ⟨s, t.leads_refl s, t.report event hm, trivial⟩

theorem print (line : String) : t.Safe s (fun _ _ => True) (modify (Machine.print line)) :=
  fun _ hm => ⟨s, t.leads_refl s, t.print line hm, trivial⟩

/-- Results gathered at earlier stages must last until the end of the list. -/
theorem mapM {f : α → Eval β} {items : List α} (hgood : t.Lasting good')
    (hf : ∀ s', t.Leads s s' → ∀ a ∈ items, t.Safe s' good' (f a)) :
    t.Safe s (fun s' bs => ∀ b ∈ bs, good' s' b) (items.mapM f) := by
  induction items generalizing s with
  | nil => exact pure (by simp)
  | cons a items ih =>
    rw [List.mapM_cons]
    apply bind (hf s (t.leads_refl s) a List.mem_cons_self)
    intro s₁ b hs₁ hb
    apply bind (ih fun s' hs' a ha => hf s' (t.leads_trans hs₁ hs') a (List.mem_cons_of_mem _ ha))
    intro s₂ bs hs₂ hbs
    exact pure (List.forall_mem_cons.mpr ⟨hgood _ _ b hs₂ hb, hbs⟩)

theorem foldlM {f : β → α → Eval β} {items : List α} {start : β} (hstart : good' s start)
    (hf : ∀ s' b, t.Leads s s' → good' s' b → ∀ a ∈ items, t.Safe s' good' (f b a)) :
    t.Safe s good' (items.foldlM f start) := by
  induction items generalizing s start with
  | nil => exact pure hstart
  | cons a items ih =>
    rw [List.foldlM_cons]
    apply bind (hf s start (t.leads_refl s) hstart a List.mem_cons_self)
    intro s₁ b hs₁ hb
    apply ih hb
    intro s' b' hs' hb' a' ha'
    exact hf s' b' (t.leads_trans hs₁ hs') hb' a' (List.mem_cons_of_mem _ ha')

/-- Sorting makes no items up. -/
theorem mergeM {P : α → Prop} {inOrder : α → α → Eval Bool}
    (h : ∀ s', t.Leads s s' → ∀ a b, P a → P b → t.Safe s' (fun _ _ => True) (inOrder a b))
    {as bs : List α} (has : ∀ a ∈ as, P a) (hbs : ∀ b ∈ bs, P b) :
    t.Safe s (fun _ sorted => ∀ a ∈ sorted, P a) (SmallLisp.mergeM inOrder as bs) := by
  fun_induction SmallLisp.mergeM inOrder as bs generalizing s with
  | case1 bs => exact pure hbs
  | case2 as _ => exact pure has
  | case3 a as b bs ihFront ihBack =>
    obtain ⟨ha, has'⟩ := List.forall_mem_cons.mp has
    obtain ⟨hb, hbs'⟩ := List.forall_mem_cons.mp hbs
    apply bind (h s (t.leads_refl s) a b ha hb)
    intro s₁ inFront hs₁ _
    -- a comparison may call a closure, so the others are made at a later stage
    have h' : ∀ s', t.Leads s₁ s' → ∀ a b, P a → P b → t.Safe s' (fun _ _ => True) (inOrder a b) :=
      fun s' hs' => h s' (t.leads_trans hs₁ hs')
    cases inFront
    · apply bind (ihBack h' has hbs')
      intro s₂ sorted _ hsorted
      exact pure (List.forall_mem_cons.mpr ⟨hb, hsorted⟩)
    · apply bind (ihFront h' has' hbs)
      intro s₂ sorted _ hsorted
      exact pure (List.forall_mem_cons.mpr ⟨ha, hsorted⟩)

/-- Sorting only rearranges, so what holds of all items holds of the sorted ones. -/
theorem mergeSortM {P : α → Prop} {inOrder : α → α → Eval Bool}
    (h : ∀ s', t.Leads s s' → ∀ a b, P a → P b → t.Safe s' (fun _ _ => True) (inOrder a b))
    {items : List α} (hitems : ∀ a ∈ items, P a) :
    t.Safe s (fun _ sorted => ∀ a ∈ sorted, P a) (SmallLisp.mergeSortM inOrder items) := by
  fun_induction SmallLisp.mergeSortM inOrder items generalizing s with
  | case1 items _ => exact pure hitems
  | case2 items _ half ihFront =>
    rename_i ihBack
    apply bind (ihFront h fun a ha => hitems a (List.mem_of_mem_take ha))
    intro s₁ front hs₁ hfront
    have h' : ∀ s', t.Leads s₁ s' → ∀ a b, P a → P b → t.Safe s' (fun _ _ => True) (inOrder a b) :=
      fun s' hs' => h s' (t.leads_trans hs₁ hs')
    apply bind (ihBack h' fun a ha => hitems a (List.mem_of_mem_drop ha))
    intro s₂ back hs₂ hback
    exact mergeM (fun s' hs' => h' s' (t.leads_trans hs₂ hs')) hfront hback

/-! ### Scopes -/

/-- A scope made for good variables is there from then on. -/
theorem newScope {vars : Table Value} {parent : ScopeId} (hvars : t.GoodVars s vars)
    (hparent : t.there s parent) : t.Safe s t.there (Machine.newScope vars parent) :=
  fun _ hm => t.alloc hm hvars hparent

/-- Entering a namespace finds its scope or makes it, and never that of the root anew. -/
theorem enterNamespace (name : String) : t.Safe s t.there (Context.enterNamespace name) := by
  intro m hm
  rw [enterNamespace_eq]
  split
  · split
    · next id hid => exact ⟨s, t.leads_refl s, hm, t.there_get? hm hid⟩
    · next hnew =>
      have hglobal : name ≠ Path.global := by
        rintro rfl
        simp [Registry.get?] at hnew
      rw [Machine.create_fst]
      exact t.create hm hglobal
  · exact ⟨s, t.leads_refl s, hm⟩

theorem enterRoot {f : ScopeId → Eval α} (hf : ∀ id, t.there s id → t.Safe s good (f id)) :
    t.Safe s good (do f (← get).registry.root) := by
  intro m hm
  have hroot : m.registry.get? Path.global = some m.registry.root := rfl
  exact hf _ (t.there_get? hm hroot) m hm

theorem resolve (symbol : String) (scope : ScopeId) :
    t.Safe s t.Good (do Eval.ofExcept ((← get).resolve symbol scope)) :=
  fun m hm => ofExcept (good_resolve hm symbol scope) m hm

theorem assign (scope : ScopeId) (name : String) {v : Value} (h : t.Good s v) :
    t.Safe s t.Good (Context.assign scope name v) :=
  fun _ hm => ⟨s, t.leads_refl s, t.set scope name hm h, h⟩

/-- A closure with a good body, in a scope that is there, becomes known when it is made. -/
theorem makeClosure (name : Option String) (params : Value) {body : List Value} {scope : ScopeId}
    (hbody : body ≠ []) (hforms : t.AllGood s body) (hscope : t.there s scope) :
    t.Safe s t.Good (Context.makeClosure name params body scope) := by
  apply bind (anyConversion _)
  intro s₁ items hs₁ _
  apply bind (anyExcept _)
  rintro s₂ ⟨names, rest⟩ hs₂ _ m hm
  have hs := t.leads_trans hs₁ hs₂
  obtain ⟨s₃, hs₃, hm', hknown⟩ :=
    t.make name names rest hm hbody (hforms.mono hs) (t.there_mono hs hscope)
  exact ⟨s₃, hs₃, hm', .closure hknown (hforms.mono (t.leads_trans hs hs₃))⟩

end Safe

/-! ### Evaluations over contexts -/

variable (t) in
/-- A context in which nested evaluations are safe. -/
structure Admits (ctx : Context) : Prop where
  evaluate : ∀ {s : t.Stage} {v : Value} {scope : ScopeId}, t.Good s v → t.there s scope →
    t.Safe s t.Good (ctx.evaluate v scope)
  fill : ∀ {s : t.Stage} {template : Value} {scope : ScopeId}, t.Good s template →
    t.there s scope → t.Safe s t.Good (ctx.fill template scope)

namespace Admits

variable {ctx : Context} (h : t.Admits ctx)
include h

/-- Forms in a row, by induction, each at the stage the ones before have led to. -/
theorem sequence {forms : List Value} {scope : ScopeId} (hforms : t.AllGood s forms)
    (hscope : t.there s scope) : t.Safe s t.Good (ctx.sequence forms scope) := by
  apply Safe.foldlM .null
  intro s' _ hs _ form hform
  exact h.evaluate ((hforms form hform).mono hs) (t.there_mono hs hscope)

/-- A body in a scope of its own: this is how closures are called and how `let` works. -/
theorem sequenceInNewScope {vars : Table Value} {parent : ScopeId} {forms : List Value}
    (hvars : t.GoodVars s vars) (hparent : t.there s parent) (hforms : t.AllGood s forms) :
    t.Safe s t.Good (Machine.newScope vars parent >>= ctx.sequence forms) := by
  apply Safe.bind (.newScope hvars hparent)
  intro s' id hs hid
  exact h.sequence (hforms.mono hs) hid

theorem require (path : String) {scope : ScopeId} (hscope : t.there s scope) :
    t.Safe s t.Good (ctx.require path scope) := by
  have hload : ∀ result, t.Safe s t.Good (ctx.load path scope result) := by
    rintro ((_ | reason) | source)
    · exact .throw _
    · exact .throw _
    · apply Safe.bind (.report _)
      intro s' _ hs _
      split
      · exact .throw _
      · next forms hparse =>
        have hdata := Datum.isDatum_of_parseForms hparse
        exact h.sequence (fun form hform => (hdata form hform).regular) (t.there_mono hs hscope)
  rw [require_eq]
  exact hload (t.host.read path)

/-! #### Templates -/

omit h in
/-- The form in a hole is a part of the template. -/
theorem good_of_hole? {mark : Datum.Mark} {v form : Value} (hv : t.Good s v)
    (hform : Template.hole? mark v = some form) : t.Good s form := by
  unfold Template.hole? at hform
  split at hform
  · split at hform
    · cases hform
      exact Value.regular_list.mp hv _ (by simp)
    · cases hform
  · cases hform

theorem fillItem {scope : ScopeId} {item : Value} (hitem : t.Good s item)
    (hscope : t.there s scope) : t.Safe s t.AllGood (ctx.fillItem scope item) := by
  unfold Context.fillItem
  split
  · next form hform =>
    apply Safe.bind (h.evaluate (good_of_hole? hitem hform) hscope)
    intro s' v _ hv
    exact (Safe.asList hv).imp fun _ _ hitems => hitems.2
  · split
    · apply Safe.bind (h.fill hitem hscope)
      intro s' v _ hv
      exact .pure (List.forall_mem_singleton.mpr hv)
    · exact .pure (List.forall_mem_singleton.mpr hitem)

/-- Templates are good data, and what fills their holes is good by evaluation. -/
theorem fillTemplate {template : Value} {scope : ScopeId} (htemplate : t.Good s template)
    (hscope : t.there s scope) : t.Safe s t.Good (ctx.fillTemplate template scope) := by
  unfold Context.fillTemplate
  split
  · next form hform => exact h.evaluate (good_of_hole? htemplate hform) hscope
  · split
    · next items _ =>
      have hitems : t.AllGood s items := Value.regular_list.mp htemplate
      apply Safe.bind (.mapM lasting_allGood fun s' hs item hitem =>
        h.fillItem ((hitems item hitem).mono hs) (t.there_mono hs hscope))
      intro s' parts _ hparts
      have hflat : t.AllGood s' parts.flatten := by
        intro v hv
        obtain ⟨part, hpart, hmem⟩ := List.mem_flatten.mp hv
        exact hparts part hpart v hmem
      exact .pure (.list hflat)
    · exact .pure htemplate

/-! #### Calls -/

omit h in
/-- The variables that a call of a closure sets. -/
theorem goodVars_bind (f : Closure Value) {args : List Value} (hargs : t.AllGood s args) :
    t.GoodVars s (f.bind args) := by
  have hparams : t.GoodVars s (Table.ofPairs (f.params.zipIdx.map fun param =>
      (param.1, args.getD param.2 .null))) := by
    apply Table.WellFormed.ofPairs
    rw [List.forall_mem_map]
    intro param _
    show t.Good s (args.getD param.2 .null)
    rw [List.getD_eq_getElem?_getD]
    cases harg : args[param.2]? with
    | none => exact .null
    | some v => exact hargs v (List.mem_of_getElem? harg)
  unfold Closure.bind
  split
  · apply hparams.set
    exact .list fun v hv => hargs v (List.mem_of_mem_drop hv)
  · exact hparams

/-- One case for each native, callbacks apart. Where a value is looked up the stage may have moved on. -/
theorem callNative (f : Native) {args : List Value} (hargs : t.AllGood s args) :
    t.Safe s t.Good (ctx.callNative f args) := by
  have hone : t.Safe s t.Good (Eval.ofExcept (Library.one args)) :=
    .ofExcept (Library.yields_one hargs)
  cases f with
  | primitive op => exact .ofExcept (yields_compute op hargs)
  | print =>
    apply Safe.bind (.print _)
    intro s' _ hs _
    apply Safe.pure
    cases hlast : args.getLast? with
    | none =>
      rw [List.getLastD_eq_getLast?, hlast]
      exact .null
    | some v =>
      rw [List.getLastD_eq_getLast?, hlast]
      exact (hargs v (List.mem_of_getLast? hlast)).mono hs
  | inspect =>
    apply Safe.bind hone
    intro s₁ v _ hv
    apply Safe.bind (.print _)
    intro s₂ _ hs₂ _
    exact .pure (hv.mono hs₂)
  | eval =>
    apply Safe.bind hone
    intro s' v _ hv
    apply Safe.enterRoot
    intro root hroot
    exact h.evaluate hv hroot
  | listMap => exact .throw _
  | listReduce => exact .throw _
  | listSort =>
    match args with
    | [v] =>
      apply Safe.bind (.anyConversion _)
      intro s' items _ _
      exact .ofExcept (Library.yields_sortNumbers items)
    | [] | _ :: _ :: _ => exact .throw _

/-- A closure's parameters are bound to good arguments in its own scope, which is there. -/
theorem callPlain {f : Function Value} {args : List Value} (hf : t.Good s (.function f))
    (hargs : t.AllGood s args) : t.Safe s t.Good (ctx.callPlain f args) := by
  cases f with
  | native f => exact h.callNative f hargs
  | closure f =>
    obtain ⟨hknown, hforms⟩ := Value.regular_closure.mp hf
    exact h.sequenceInNewScope (goodVars_bind f hargs) (t.there_scope hknown) hforms

/-- One call is safe if the calls that it may make are. -/
theorem callWith {call : Function Value → List Value → Eval Value} {f : Function Value}
    {args : List Value} (hf : t.Good s (.function f)) (hargs : t.AllGood s args)
    (hcall : ∀ s' g args', t.Leads s s' → Callback args' args → t.Good s' (.function g) →
      t.AllGood s' args' → t.Safe s' t.Good (call g args')) :
    t.Safe s t.Good (ctx.callWith call f args) := by
  unfold Context.callWith
  apply Safe.bind (.report _)
  intro s₀ _ hs₀ _
  replace hargs := hargs.mono hs₀
  replace hcall := fun s' g args' (hs' : t.Leads s₀ s') => hcall s' g args' (t.leads_trans hs₀ hs')
  split
  · next v g =>
    apply Safe.bind (.asFunction (hargs g (by simp)))
    intro s₁ g' hs₁ hg
    apply Safe.bind (.asList ((hargs v (by simp)).mono hs₁))
    rintro s₂ items hs₂ ⟨rfl, hitems⟩
    apply Safe.bind (.mapM lasting_good ?_)
    · intro s₃ results _ hresults
      exact .pure (.list hresults)
    · rintro s₃ hs₃ ⟨item, place⟩ hitem
      have hmem := List.fst_mem_of_mem_zipIdx hitem
      have hs := t.leads_trans hs₂ hs₃
      refine hcall s₃ g' _ (t.leads_trans hs₁ hs) (.item _ g hmem) (hg.mono hs) ?_
      exact allGood_pair ((hitems item hmem).mono hs₃) (.number _)
  · next v g start =>
    apply Safe.bind (.asFunction (hargs g (by simp)))
    intro s₁ g' hs₁ hg
    apply Safe.bind (.asList ((hargs v (by simp)).mono hs₁))
    rintro s₂ items hs₂ ⟨rfl, hitems⟩
    apply Safe.foldlM ((hargs start (by simp)).mono (t.leads_trans hs₁ hs₂))
    intro s₃ sofar hs₃ hsofar item hitem
    have hs := t.leads_trans hs₂ hs₃
    refine hcall s₃ g' _ (t.leads_trans hs₁ hs) (.fold sofar item _ g start) (hg.mono hs) ?_
    exact allGood_pair hsofar ((hitems item hitem).mono hs₃)
  · next v g =>
    apply Safe.bind (.asFunction (hargs g (by simp)))
    intro s₁ g' hs₁ hg
    apply Safe.bind (.asList ((hargs v (by simp)).mono hs₁))
    rintro s₂ items hs₂ ⟨rfl, hitems⟩
    -- whatever is compared is one of the items, and so is whatever comes out
    apply Safe.bind (.mergeSortM (P := (· ∈ items)) ?_ fun _ hitem => hitem)
    · intro s₃ sorted hs₃ hsorted
      exact .pure (.list fun v hv => (hitems v (hsorted v hv)).mono hs₃)
    · intro s₃ hs₃ x y hx hy
      have hs := t.leads_trans hs₂ hs₃
      apply Safe.bind (hcall s₃ g' _ (t.leads_trans hs₁ hs) (.item _ g hx) (hg.mono hs) ?_)
      · intro s₄ order _ _
        apply Safe.bind (.anyConversion _)
        intro s₅ k _ _
        exact .pure trivial
      · exact allGood_pair ((hitems x hx).mono hs₃) ((hitems y hy).mono hs₃)
  · exact h.callPlain (hf.mono hs₀) hargs

/-- Calls, by the nesting of their callbacks. -/
theorem apply {f : Function Value} {args : List Value} (hf : t.Good s (.function f))
    (hargs : t.AllGood s args) : t.Safe s t.Good (ctx.apply f args) := by
  induction args using Context.wellFounded_callback.induction generalizing f s with
  | _ args ih =>
    rw [apply_eq_callWith]
    apply h.callWith hf hargs
    intro s' g args' _ hcallback hg hargs'
    exact ih args' hcallback hg hargs'

/-! #### Special forms -/

theorem bindings {scope : ScopeId} {pairs : List Value} (hpairs : t.AllGood s pairs)
    (hscope : t.there s scope) : t.Safe s t.GoodVars (ctx.bindings scope pairs) := by
  apply Safe.foldlM .nil
  intro s' vars hs hvars pair hpair
  apply Safe.bind (.asList ((hpairs pair hpair).mono hs))
  rintro s₁ items hs₁ ⟨-, hitems⟩
  split
  · next target form =>
    apply Safe.bind (.anyExcept _)
    intro s₂ name hs₂ _
    have hs' := t.leads_trans hs₁ hs₂
    apply Safe.bind (h.evaluate ((hitems form (by simp)).mono hs₂)
      (t.there_mono (t.leads_trans hs hs') hscope))
    intro s₃ v hs₃ hv
    exact .pure ((hvars.mono (t.leads_trans hs' hs₃)).set name hv)
  · exact .throw _

theorem evaluateUntil (stops : Value → Bool) {scope : ScopeId} {start : Value} {forms : List Value}
    (hstart : t.Good s start) (hforms : t.AllGood s forms) (hscope : t.there s scope) :
    t.Safe s t.Good (ctx.evaluateUntil stops scope start forms) := by
  induction forms generalizing s start with
  | nil => exact .pure hstart
  | cons form forms ih =>
    obtain ⟨hform, hforms⟩ := List.forall_mem_cons.mp hforms
    apply Safe.bind (h.evaluate hform hscope)
    intro s' v hs hv
    split
    · exact .pure hv
    · exact ih hv (AllGood.mono hforms hs) (t.there_mono hs hscope)

/-- One case for each special form, with the stage carried through its parts. -/
theorem special (form : SpecialForm) {args : List Value} {scope : ScopeId} (hargs : t.AllGood s args)
    (hscope : t.there s scope) : t.Safe s t.Good (ctx.special form args scope) := by
  unfold Context.special
  -- the cases are in the order of the definition, and the arguments are told apart in most of them
  split
  all_goals try simp only [AllGood, List.forall_mem_cons] at hargs
  · exact .pure hargs.1
  · exact h.fillTemplate hargs.1 hscope
  · obtain ⟨htest, hyes, -⟩ := hargs
    apply Safe.bind (h.evaluate htest hscope)
    intro s' _ hs _
    exact h.evaluate (hyes.mono hs) (t.there_mono hs hscope)
  · obtain ⟨htest, hyes, hno, -⟩ := hargs
    apply Safe.bind (h.evaluate htest hscope)
    intro s' v hs _
    apply h.evaluate _ (t.there_mono hs hscope)
    split
    · exact hyes.mono hs
    · exact hno.mono hs
  · obtain ⟨-, hform, -⟩ := hargs
    apply Safe.bind (.anyExcept _)
    intro s₁ name hs₁ _
    apply Safe.bind (h.evaluate (hform.mono hs₁) (t.there_mono hs₁ hscope))
    intro s₂ v _ hv
    exact .assign scope name hv
  · obtain ⟨-, -, hform, hforms⟩ := hargs
    have hbody : t.AllGood s (_ :: _) := List.forall_mem_cons.mpr ⟨hform, hforms⟩
    apply Safe.bind (.anyExcept _)
    intro s₁ name hs₁ _
    apply Safe.bind (.makeClosure _ _ (List.cons_ne_nil _ _) (hbody.mono hs₁) (t.there_mono hs₁ hscope))
    intro s₂ f _ hf
    exact .assign scope name hf
  · obtain ⟨-, hform, hforms⟩ := hargs
    exact .makeClosure _ _ (List.cons_ne_nil _ _) (List.forall_mem_cons.mpr ⟨hform, hforms⟩) hscope
  · exact h.sequence hargs hscope
  · obtain ⟨hpairs, hform, hforms⟩ := hargs
    have hbody : t.AllGood s (_ :: _) := List.forall_mem_cons.mpr ⟨hform, hforms⟩
    apply Safe.bind (.asList hpairs)
    rintro s₁ pairs hs₁ ⟨-, hpairs⟩
    apply Safe.bind (h.bindings hpairs (t.there_mono hs₁ hscope))
    intro s₂ vars hs₂ hvars
    have hs := t.leads_trans hs₁ hs₂
    exact h.sequenceInNewScope hvars (t.there_mono hs hscope) (hbody.mono hs)
  · exact h.evaluateUntil _ (.boolean true) hargs hscope
  · exact h.evaluateUntil _ (.boolean false) hargs hscope
  · apply Safe.bind (h.evaluate hargs.1 hscope)
    intro s₁ path hs₁ _
    apply Safe.bind (.anyConversion _)
    intro s₂ path hs₂ _
    exact h.require path (t.there_mono (t.leads_trans hs₁ hs₂) hscope)
  · obtain ⟨-, hforms⟩ := hargs
    apply Safe.bind (.anyExcept _)
    intro s₁ name hs₁ _
    apply Safe.bind (.enterNamespace name)
    intro s₂ id hs₂ hid
    exact h.sequence (AllGood.mono hforms (t.leads_trans hs₁ hs₂)) hid
  · exact .throw _

/-- One evaluation is safe if what is nested in it is. -/
theorem step {v : Value} {scope : ScopeId} (hv : t.Good s v) (hscope : t.there s scope) :
    t.Safe s t.Good (ctx.step v scope) := by
  unfold Context.step
  split
  · exact .resolve _ scope
  · next head args =>
    obtain ⟨hhead, hargs⟩ := List.forall_mem_cons.mp (Value.regular_list.mp hv)
    cases specialForm? head with
    | some form => exact h.special form hargs hscope
    | none =>
      apply Safe.bind (h.evaluate hhead hscope)
      intro s₁ f hs₁ hf
      cases f with
      | function f =>
        apply Safe.bind (.mapM lasting_good fun s' hs arg harg =>
          h.evaluate (Good.mono (hargs arg harg) (t.leads_trans hs₁ hs))
            (t.there_mono (t.leads_trans hs₁ hs) hscope))
        intro s₂ values hs₂ hvalues
        exact h.apply (hf.mono hs₂) hvalues
      | _ => exact .throw _
  · exact .pure hv

end Admits

/-- **Evaluation is safe**: by induction on the evaluations left. -/
theorem admits_within (t : Tracking) (depth : Nat) : t.Admits (within t.host.limit depth) := by
  induction depth using depth_induction t.host.limit with
  | atLimit depth hle =>
    constructor
    · intro s v scope _ _ m hm
      rw [evaluate_within_of_le hle]
      exact ⟨s, t.leads_refl s, hm⟩
    · intro s template scope _ _ m hm
      rw [fill_within_of_le hle]
      exact ⟨s, t.leads_refl s, hm⟩
  | below depth hlt hnested =>
    constructor
    · intro s v scope hv hscope m hm
      rw [evaluate_within hlt]
      exact hnested.step hv hscope m hm
    · intro s template scope htemplate hscope m hm
      rw [fill_within hlt]
      exact hnested.fillTemplate htemplate hscope m hm

/-- Whether the values of a job are regular at a stage and its scope is there. -/
def GoodJob (t : Tracking) (s : t.Stage) : Job → Prop
  | .evaluate v scope | .fill v scope | .expand v scope => t.Good s v ∧ t.there s scope
  | .apply f args => t.Good s (.function f) ∧ t.AllGood s args
  | .sequence forms scope => t.AllGood s forms ∧ t.there s scope
  | .require _ scope => t.there s scope

/-- Every job keeps a machine in order and gives a good value, at any depth. -/
theorem safe_job (depth : Nat) {job : Job} (h : t.GoodJob s job) :
    t.Safe s t.Good (job.perform (within t.host.limit depth)) := by
  have hadmits := t.admits_within depth
  cases job with
  | evaluate v scope => exact hadmits.evaluate h.1 h.2
  | fill template scope => exact hadmits.fill h.1 h.2
  | apply f args => exact hadmits.apply h.1 h.2
  | sequence forms scope => exact hadmits.sequence h.1 h.2
  | expand template scope => exact hadmits.fillTemplate h.1 h.2
  | require path scope => exact hadmits.require path h

end Tracking

end SmallLisp
