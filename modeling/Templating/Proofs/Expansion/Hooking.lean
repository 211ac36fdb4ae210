import Templating.Proofs.Expansion.Abstaining
import Templating.Proofs.Expansion.Evaluation

/-!
# Which hooks a render applies

The journal tells which hooks were applied to which nodes. A render of a template that is
found applies those before a run to the content of the template first, and those after a
run to its whole expansion last. In between, hooks are applied by splices that evaluate
templates, and by these only: each evaluation of a template that is found is one pair of
applications, around those of the evaluations within it (`Evaluations`), so that none is
for loading. Entering a template with `apply` applies none.

So hooks are not applied once for each render: they are if and only if no splice evaluates
a template that is found. That is said with a second engine, `refusing`, which gives no
answer where a splice does that: the hooks are applied once if and only if this engine
answers as well (`render_hooks_once_iff`). Splices that abstain from evaluation never make a
difference between the two, so that with nothing else bound the hooks are applied once. The
induction carries that a run of the first engine applies hooks by evaluations only, and that
the second engine answers where none were applied (`Hooking`).
-/

namespace Templating

open Markup (Node)

/-- Applications of hooks by evaluations of templates, one after the other: those before a run,
to the content of a template, then those of evaluations within the run, then those after it. -/
inductive Evaluations (templates : Templates) : List Application → Prop where
  | nil : Evaluations templates []
  | cons {path : Path} {template : Template} {inner rest : List Application} {out : List Node} :
      templates.get? path = some template → Evaluations templates inner →
      Evaluations templates rest →
      Evaluations templates
        (⟨.preRun, template.document.content⟩ :: (inner ++ ⟨.postRun, out⟩ :: rest))

namespace Evaluations

variable {templates : Templates} {applied rest : List Application}

theorem append (h : Evaluations templates applied) (h' : Evaluations templates rest) :
    Evaluations templates (applied ++ rest) := by
  induction h with
  | nil => exact h'
  | cons registered inner _ _ ih => simpa using cons registered inner ih

/-- No evaluation applies the hooks for loading. -/
theorem slot_ne_onLoad (h : Evaluations templates applied) : ∀ a ∈ applied, a.slot ≠ .onLoad := by
  induction h with
  | nil => simp
  | cons _ _ _ ihInner ih =>
    simp only [List.mem_cons, List.mem_append]
    rintro a (rfl | mem | rfl | mem)
    · simp
    · exact ihInner a mem
    · simp
    · exact ih a mem

end Evaluations

/-- From the one stage to the other, the templates have stayed, and hooks were applied by
evaluations of templates only. -/
structure HooksByEvaluation (s t : Stage) : Prop where
  templates : t.state.templates = s.state.templates
  applied : ∃ applied, t.applications = s.applications ++ applied ∧
    Evaluations s.state.templates applied

theorem hooksByEvaluation_of_eq {s t : Stage} (templates : t.state.templates = s.state.templates)
    (applications : t.applications = s.applications) : HooksByEvaluation s t :=
  ⟨templates, [], by rw [applications, List.append_nil], .nil⟩

instance : IsPreorder Stage HooksByEvaluation where
  refl _ := hooksByEvaluation_of_eq rfl rfl
  trans s t u h h' := by
    obtain ⟨templates, xs, hx, evaluations⟩ := h
    obtain ⟨templates', ys, hy, evaluations'⟩ := h'
    refine ⟨templates'.trans templates, xs ++ ys, ?_, evaluations.append (templates ▸ evaluations')⟩
    rw [hy, hx, List.append_assoc]

namespace Run

variable {α β : Type}

/-- The first run applies hooks by evaluations of templates only, and the second one is the
first one where that applies none. -/
def Hooking (r r' : Run α) : Prop :=
  Moves HooksByEvaluation r ∧
    ∀ s a s', r' s = some (a, s') ↔ r s = some (a, s') ∧ s'.applications = s.applications

theorem hooking_of_eq {r : Run α} (h : ∀ s a s', r s = some (a, s') →
    s'.state.templates = s.state.templates ∧ s'.applications = s.applications) : Hooking r r :=
  ⟨fun s a s' hr => hooksByEvaluation_of_eq (h s a s' hr).1 (h s a s' hr).2,
    fun s a s' => ⟨fun hr => ⟨hr, (h s a s' hr).2⟩, And.left⟩⟩

theorem hooking_failure : Hooking (failure : Run α) failure :=
  hooking_of_eq fun _ _ _ h => nomatch h

theorem Hooking.bind {r r' : Run α} {f f' : α → Run β} (hr : Hooking r r')
    (hf : ∀ a, Hooking (f a) (f' a)) : Hooking (r >>= f) (r' >>= f') := by
  refine ⟨hr.1.bind fun a => (hf a).1, fun s b s'' => ?_⟩
  constructor
  · intro h
    obtain ⟨a, t, first, second⟩ := bind_eq_some.mp h
    obtain ⟨first, same⟩ := (hr.2 s a t).mp first
    obtain ⟨second, same'⟩ := ((hf a).2 t b s'').mp second
    exact ⟨bind_eq_some.mpr ⟨a, t, first, second⟩, same'.trans same⟩
  · rintro ⟨h, same⟩
    obtain ⟨a, t, first, second⟩ := bind_eq_some.mp h
    obtain ⟨-, xs, hx, -⟩ := hr.1 s a t first
    obtain ⟨-, ys, hy, -⟩ := (hf a).1 t b s'' second
    -- nothing was applied in the two runs together, so neither of them applied anything
    obtain ⟨rfl, rfl⟩ : xs = [] ∧ ys = [] := by
      rw [hy, hx, List.append_assoc, List.append_right_eq_self] at same
      exact List.append_eq_nil_iff.mp same
    rw [List.append_nil] at hx hy
    exact bind_eq_some.mpr ⟨a, t, (hr.2 s a t).mpr ⟨first, hx⟩, ((hf a).2 t b s'').mpr ⟨second, hy⟩⟩

/-- Putting a part of the state back other than the templates has nothing to do with hooks. -/
theorem Hooking.keeping {r r' k k' : Run α} (h : Hooking r r') (back : Stage → Stage → Stage)
    (hk : ∀ s, k s = (r s).map fun p => (p.1, back s p.2))
    (hk' : ∀ s, k' s = (r' s).map fun p => (p.1, back s p.2))
    (templates : ∀ s t, (back s t).state.templates = t.state.templates)
    (applications : ∀ s t, (back s t).applications = t.applications) : Hooking k k' := by
  constructor
  · intro s a s' hs
    rw [hk, Option.map_eq_some_iff] at hs
    obtain ⟨⟨b, t⟩, hr, eq⟩ := hs
    cases eq
    exact IsTrans.trans s t _ (h.1 s b t hr)
      (hooksByEvaluation_of_eq (templates s t) (applications s t))
  · intro s a s'
    simp only [hk, hk', Option.map_eq_some_iff, Prod.exists, Prod.mk.injEq]
    constructor
    · rintro ⟨b, t, hr, rfl, rfl⟩
      obtain ⟨hr, same⟩ := (h.2 s b t).mp hr
      exact ⟨⟨b, t, hr, rfl, rfl⟩, (applications s t).trans same⟩
    · rintro ⟨⟨b, t, hr, rfl, rfl⟩, same⟩
      exact ⟨b, t, (h.2 s b t).mpr ⟨hr, (applications s t).symm.trans same⟩, rfl, rfl⟩

theorem hooking_unhooked : Unhooked fun _ => Hooking where
  pure a := hooking_of_eq fun s b s' h => by
    cases h
    exact ⟨rfl, rfl⟩
  bind := .bind
  state := hooking_of_eq fun s b s' h => by
    cases h
    exact ⟨rfl, rfl⟩
  change change := hooking_of_eq fun s b s' h => by
    cases h
    cases change <;> exact ⟨rfl, rfl⟩
  record entry := hooking_of_eq fun s b s' h => by
    cases h
    exact ⟨rfl, s.applications_record_of_ne (entry s.state)⟩
  newCell := hooking_of_eq fun s b s' h => by
    cases h
    exact ⟨rfl, rfl⟩
  tick cell := hooking_of_eq fun s b s' h => by
    cases h
    exact ⟨rfl, rfl⟩
  keepingControl h := h.keeping (fun s t => t.withControl s.state.control)
    (keepingControl_apply _) (keepingControl_apply _) (fun _ _ => rfl) fun _ _ => rfl
  keepingSplices h := h.keeping (fun s t => t.withSplices s.state.splices)
    (keepingSplices_apply _) (keepingSplices_apply _) (fun _ _ => rfl) fun _ _ => rfl

end Run

namespace Engine

open Run

/-! ### An engine that evaluates no template for splices -/

/-- Answers for a template that is missing, and gives no answer for one that is found. -/
def refuse (name : String) : Run (Option (List Node)) := do
  if (← Run.state).hasTemplate name then failure else return none

theorem refuse_apply (name : String) (s : Stage) :
    refuse name s = if s.state.hasTemplate name then none else some (none, s) := by
  simp only [refuse, bind_apply, state_apply, Option.bind_some]
  split <;> rfl

/-- The engine with fuel for `n` nested calls that gives no answer where a splice evaluates a
template that is found. -/
def refusing : Nat → Engine
  | 0 => idle
  | n + 1 =>
    { expand := (refusing n).expandNodes
      call := fun splice node => (refusing n).performWith refuse (splice node) }

/-- What a name means is registered. -/
theorem exists_get?_of_lookup {σ : State} {name : String} {template : Template} {directory : Path}
    (h : σ.lookup name = some (template, directory)) :
    ∃ path, σ.templates.get? path = some template := by
  obtain ⟨_, _, _, registered, -⟩ := firstHit_eq_some_iff.mp h
  exact ⟨_, registered⟩

section

variable {e e' : Engine} (h : e.Related (fun _ => Hooking) e')

include h

/-- What an evaluation applies: the hooks before a run to the content of the template, what the
expansion of its body applies, and the hooks after a run to this expansion. -/
theorem applied_of_expand {s t u : Stage} {template : Template} {directory : Path}
    {body out : List Node}
    (before : (s.evaluating template.document.doctype).hooked .preRun template.document.content =
      (body, t))
    (expanded : e.expand body (t.located directory) = some (out, u)) :
    u.state.templates = s.state.templates ∧ ∃ inner, Evaluations s.state.templates inner ∧
      u.applications = t.applications ++ inner ∧
      ((u.withControl s.state.control).hooked .postRun out).2.applications = s.applications ++
        ⟨.preRun, template.document.content⟩ :: (inner ++ [⟨.postRun, out⟩]) := by
  obtain ⟨templates, inner, during, evaluations⟩ := (h.expand body).1 _ out u expanded
  have same : t.state.templates = s.state.templates := congrArg (·.2.state.templates) before.symm
  have first : t.applications = s.applications ++ [⟨.preRun, template.document.content⟩] := by
    have applied := Stage.applications_hooked (s.evaluating template.document.doctype) .preRun
      template.document.content
    rwa [before] at applied
  have middle : (u.withControl s.state.control).applications = t.applications ++ inner := during
  refine ⟨templates.trans same, inner, same ▸ evaluations, during, ?_⟩
  rw [Stage.applications_hooked, middle, first]
  simp

theorem applied_of_found {s s' : Stage} {name : String} {template : Template} {directory : Path}
    (hl : s.state.lookup name = some (template, directory)) {found : Option (List Node)}
    (run : e.evaluate name s = some (found, s')) :
    s'.state.templates = s.state.templates ∧ ∃ inner out, Evaluations s.state.templates inner ∧
      s'.applications = s.applications ++
        ⟨.preRun, template.document.content⟩ :: (inner ++ [⟨.postRun, out⟩]) := by
  obtain ⟨body, t, before⟩ : ∃ body t, (s.evaluating template.document.doctype).hooked .preRun
    template.document.content = (body, t) := ⟨_, _, rfl⟩
  rw [e.evaluate_of_found hl before, Option.map_eq_some_iff] at run
  obtain ⟨⟨out, u⟩, expanded, eq⟩ := run
  obtain ⟨templates, inner, evaluations, -, applied⟩ := applied_of_expand h before expanded
  obtain rfl := congrArg Prod.snd eq
  exact ⟨templates, inner, out, evaluations, applied⟩

/-- Evaluating a template that is found applies hooks, so that refusing it gives up on nothing
that applies none. -/
theorem evaluate_hooking (name : String) : Hooking (e.evaluate name) (refuse name) := by
  constructor
  · intro s a s' run
    cases hl : s.state.lookup name with
    | none =>
      rw [e.evaluate_of_missing hl] at run
      cases run
      exact hooksByEvaluation_of_eq rfl rfl
    | some found =>
      obtain ⟨path, registered⟩ := exists_get?_of_lookup hl
      obtain ⟨templates, inner, out, evaluations, applied⟩ := applied_of_found h hl run
      exact ⟨templates, _, applied, .cons registered evaluations .nil⟩
  · intro s a s'
    rw [refuse_apply, State.hasTemplate]
    cases hl : s.state.lookup name with
    | none =>
      rw [e.evaluate_of_missing hl]
      constructor
      · intro run
        cases run
        exact ⟨rfl, rfl⟩
      · exact And.left
    | some found =>
      constructor
      · exact nofun
      · rintro ⟨run, same⟩
        obtain ⟨-, inner, out, -, applied⟩ := applied_of_found h hl run
        simp [applied] at same

end

theorem ofFuel_hooking : ∀ n, (ofFuel n).Related (fun _ => Hooking) (refusing n)
  | 0 => ⟨fun _ => hooking_failure, fun _ _ => hooking_failure⟩
  | n + 1 =>
    { expand := expandNodes_unhooked hooking_unhooked (ofFuel_hooking n)
      call := fun splice node => by
        change Hooking ((ofFuel n).perform (splice node)) _
        rw [perform_eq]
        exact performWith_plain hooking_unhooked.plain (ofFuel_hooking n)
          (descend_unhooked hooking_unhooked (ofFuel_hooking n))
          (evaluate_hooking (ofFuel_hooking n)) (splice node) }

/-! ### Renders -/

/-- Renders the template of a name, with names bound to texts meanwhile if any are given. -/
def rendering (e : Engine) (name : String) : Option (List (String × String)) → Run (Option Rendered)
  | none => e.render name
  | some args => e.renderWith name args

/-- The stage in which such a render begins. -/
def opened (s : Stage) : Option (List (String × String)) → Stage
  | none => { s with state := s.state.forRender }
  | some args => { s with state := (s.state.bindTexts args).forRender }

theorem opened_applications (s : Stage) (args? : Option (List (String × String))) :
    (opened s args?).applications = s.applications := by
  cases args? <;> rfl

theorem opened_templates (s : Stage) (args? : Option (List (String × String))) :
    (opened s args?).state.templates = s.state.templates := by
  cases args? <;> rfl

theorem opened_abstains {s : Stage} (h : s.state.Abstains)
    (args? : Option (List (String × String))) : (opened s args?).state.Abstains := by
  cases args? with
  | none => exact h
  | some args => exact h.bindTexts args

/-- What such a render of a template gives, from what its body is expanded to. -/
def closed (s : Stage) (args? : Option (List (String × String))) (template : Template)
    (expanded : List Node × Stage) : Option Rendered × Stage :=
  let after :=
    (expanded.2.withControl (opened s args?).state.control).hooked .postRun expanded.1
  (some (Rendered.ofDocument
    { template.document with content := after.1, doctype := after.2.state.doctypes.getLast? }),
    { after.2 with state := s.state })

/-- A render is one evaluation, on a copy of the state. -/
theorem rendering_of_found (e : Engine) {s : Stage} {name : String} {template : Template}
    {directory : Path} (h : s.state.lookup name = some (template, directory))
    (args? : Option (List (String × String))) :
    e.rendering name args? s = (e.evaluate name (opened s args?)).map fun p =>
      (p.1.map fun content => Rendered.ofDocument
        { template.document with content, doctype := p.2.state.doctypes.getLast? },
        { p.2 with state := s.state }) := by
  cases args? with
  | none => exact e.render_of_found h
  | some args =>
    have found : (s.state.bindTexts args).lookup name = some (template, directory) := h
    rw [rendering, renderWith, keepingSplices_apply, bind_apply, modifyState_apply,
      Option.bind_some, render_of_found e (s := { s with state := s.state.bindTexts args }) found,
      Option.map_map]
    rfl

theorem rendering_of_expand (e : Engine) {s t : Stage} {name : String} {template : Template}
    {directory : Path} {body : List Node} (h : s.state.lookup name = some (template, directory))
    {args? : Option (List (String × String))}
    (before : ((opened s args?).evaluating template.document.doctype).hooked .preRun
      template.document.content = (body, t)) :
    e.rendering name args? s =
      (e.expand body (t.located directory)).map (closed s args? template) := by
  have found : (opened s args?).state.lookup name = some (template, directory) := by
    cases args? <;> exact h
  rw [e.rendering_of_found h, e.evaluate_of_found found before, Option.map_map]
  rfl

/-- **The hooks of a render**: those before a run are applied to the content of the template that
is found, before anything else, and those after a run to its whole expansion, after all else. In
between, hooks are applied by evaluations of templates only, and never those for loading. The
hooks are applied once, with nothing in between, if and only if the engine that refuses to
evaluate templates for splices answers as well. So they are where no splice that is bound
evaluates a template, which standard splices do not. -/
theorem render_hooks_once_iff (n : Nat) {s s' : Stage} {name : String} {template : Template}
    {directory : Path} {args? : Option (List (String × String))} {page : Option Rendered}
    (found : s.state.lookup name = some (template, directory))
    (run : (ofFuel n).rendering name args? s = some (page, s')) :
    ∃ body t out u inner,
      ((opened s args?).evaluating template.document.doctype).hooked .preRun
        template.document.content = (body, t) ∧
      (ofFuel n).expand body (t.located directory) = some (out, u) ∧
      (page, s') = closed s args? template (out, u) ∧
      s'.applications = s.applications ++
        ⟨.preRun, template.document.content⟩ :: (inner ++ [⟨.postRun, out⟩]) ∧
      Evaluations s.state.templates inner ∧ (∀ a ∈ inner, a.slot ≠ .onLoad) ∧
      (inner = [] ↔ (refusing n).rendering name args? s = some (page, s')) ∧
      (s.state.Abstains → inner = []) := by
  obtain ⟨body, t, before⟩ : ∃ body t, ((opened s args?).evaluating
    template.document.doctype).hooked .preRun template.document.content = (body, t) := ⟨_, _, rfl⟩
  have rendering (e : Engine) := e.rendering_of_expand found before
  rw [rendering, Option.map_eq_some_iff] at run
  obtain ⟨⟨out, u⟩, expanded, eq⟩ := run
  obtain ⟨-, inner, evaluations, during, applied⟩ :=
    applied_of_expand (ofFuel_hooking n) before expanded
  rw [opened_templates] at evaluations
  rw [opened_applications] at applied
  have refused := ((ofFuel_hooking n).expand body).2 (t.located directory)
  obtain rfl := congrArg Prod.snd eq
  have unhooked (same : u.applications = t.applications) : inner = [] := by
    rwa [during, List.append_right_eq_self] at same
  refine ⟨body, t, out, u, inner, before, expanded, eq.symm, applied, evaluations,
    evaluations.slot_ne_onLoad, ?_, fun abstains => ?_⟩
  · rw [rendering, Option.map_eq_some_iff]
    constructor
    · rintro rfl
      rw [List.append_nil] at during
      exact ⟨(out, u), (refused out u).mpr ⟨expanded, during⟩, eq⟩
    · rintro ⟨⟨out', u'⟩, answer, -⟩
      obtain ⟨answer, same⟩ := (refused out' u').mp answer
      cases expanded.symm.trans answer
      exact unhooked same
  · have same : t.state = ((opened s args?).evaluating template.document.doctype).state :=
      congrArg (·.2.state) before.symm
    have start : (t.located directory).state.Abstains := by
      rw [Stage.located, same]
      exact opened_abstains abstains args?
    exact unhooked ((ofFuel_silent n).expand body _ out u expanded start).2

/-- A page that applies the template `part`, with a splice on it that evaluates the template of
this name. -/
def hookedPage (evaluated : String) : Stage where
  state :=
    ((State.standard.bind "inner" (.evaluation evaluated)).addTemplate "page"
      { format := .html,
        content := [.element "apply" [⟨"template", "part"⟩] [], .element "inner" [] []] })
      |>.addTemplate "part" { format := .html, content := [.text "x"] }

/-- Where the splice evaluates a template that is missing, the hooks are applied once, whatever
`apply` enters. -/
theorem hookedPage_hooks_once :
    ∃ template directory page s',
      (hookedPage "nothing").state.lookup "page" = some (template, directory) ∧
      (ofFuel 6).rendering "page" none (hookedPage "nothing") = some (page, s') ∧
      ∃ out, s'.applications = [⟨.preRun, template.document.content⟩, ⟨.postRun, out⟩] := by
  obtain ⟨template, directory, page, s', found, run, refused⟩ :
      ∃ template directory page s',
        (hookedPage "nothing").state.lookup "page" = some (template, directory) ∧
        (ofFuel 6).rendering "page" none (hookedPage "nothing") = some (page, s') ∧
        (refusing 6).rendering "page" none (hookedPage "nothing") = some (page, s') :=
    ⟨_, _, _, _, rfl, rfl, rfl⟩
  obtain ⟨_, _, out, _, _, _, _, _, applied, _, _, once, _⟩ := render_hooks_once_iff 6 found run
  rw [once.mpr refused] at applied
  exact ⟨template, directory, page, s', found, run, out, applied⟩

/-- Where it evaluates one that is found, the hooks are applied twice in one render. -/
theorem hookedPage_hooks_twice :
    ∃ page s', (ofFuel 6).rendering "page" none (hookedPage "part") = some (page, s') ∧
      s'.applications =
        [⟨.preRun, [.element "apply" [⟨"template", "part"⟩] [], .element "inner" [] []]⟩,
          ⟨.preRun, [.text "x"]⟩, ⟨.postRun, [.text "x"]⟩,
          ⟨.postRun, [.text "x", .text "x"]⟩] :=
  ⟨_, _, rfl, rfl⟩

end Engine

end Templating
