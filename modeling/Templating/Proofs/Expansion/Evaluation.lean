import Templating.Proofs.Expansion.Termination
import Templating.Proofs.Lookup

/-!
# Splices that evaluate templates

A splice may evaluate a template, which expands the content of the template at the depth of
the splice. The depth limit has no say in that: splices that evaluate templates which begin
with elements of their names do so for ever (`circular_never_ends`). The shortest circle is
a page with a splice on it that evaluates the page (`selfEvaluating_never_ends`).

If the splices that evaluate templates can be put in an order such that what one of them
evaluates mentions only lower ones (`State.Layered`), every run ends
(`layered_expansion_ends`). Cycles through `apply`, through bound tags and through the
expansion of what a splice gives may remain, since each round of these goes one level
deeper. So there are two things that decrease: the distance to the depth limit and, where
that stays, the place of the splice in the order.
-/

namespace Templating

open Markup (Node)

/-- The script does nothing but look at the state, count, leave its result unexpanded, and
evaluate templates of these names. -/
inductive Script.Evaluates (names : String → Prop) : Script → Prop where
  | done (nodes : List Node) : Evaluates names (.done nodes)
  | stop {next : Script} : Evaluates names next → Evaluates names (.stop next)
  | look {next : View → Script} : (∀ view, Evaluates names (next view)) →
      Evaluates names (.look next)
  | newCell {next : Nat → Script} : (∀ cell, Evaluates names (next cell)) →
      Evaluates names (.newCell next)
  | tick {cell : Nat} {next : Nat → Script} : (∀ n, Evaluates names (next n)) →
      Evaluates names (.tick cell next)
  | evaluate {name : String} {next : Option (List Node) → Script} : names name →
      (∀ found, Evaluates names (next found)) → Evaluates names (.evaluate name next)
  | evaluateWith {name : String} {args : List (String × String)}
      {next : Option (List Node) → Script} : names name →
      (∀ found, Evaluates names (next found)) → Evaluates names (.evaluateWith name args next)

/-- The template that a script evaluates before it does anything else. -/
def Script.template? : Script → Option String
  | .stop next => next.template?
  | .evaluate name _ => some name
  | _ => none

/-- The splice that gives what a template is expanded to, as it is. -/
def Splice.evaluation (template : String) : Splice := fun _ =>
  .stop (.evaluate template fun found => .done (found.getD []))

theorem Splice.evaluation_evaluates {template : String} {names : String → Prop}
    (h : names template) (node : Node) : (evaluation template node).Evaluates names :=
  .stop (.evaluate h fun _ => .done _)

namespace State

/-- Whether the name is bound to something else than a standard splice. -/
def Hosts (σ : State) (name : String) : Prop :=
  ∃ splice, σ.splices.get? name = some splice ∧ ¬ splice.IsStandard

/-- Besides standard splices, nothing is bound but splices that evaluate templates, and what
they evaluate mentions of such splices only those below. -/
structure Layered (σ : State) (below : String → String → Prop) : Prop where
  wellFounded : WellFounded below
  evaluates : ∀ name splice, σ.splices.get? name = some splice → ¬ splice.IsStandard →
    ∀ node, (splice node).Evaluates fun template => ∀ body, σ.Unfolds template body →
      ∀ other ∈ mentioned body, σ.Hosts other → below other name

/-- The state `τ` has the templates and the hooks of `σ`, and binds nothing but standard
splices where it does not bind what `σ` binds. -/
structure Continues (σ τ : State) : Prop where
  templates : τ.templates = σ.templates
  preRun : τ.preRun = σ.preRun
  splices : ∀ name splice, τ.splices.get? name = some splice →
    splice.IsStandard ∨ σ.splices.get? name = some splice

theorem continues_steady (σ : State) : Steady σ.Continues where
  control h _ _ _ := ⟨h.templates, h.preRun, h.splices⟩
  doctypes h _ := ⟨h.templates, h.preRun, h.splices⟩
  bind h name splice hs := by
    refine ⟨h.templates, h.preRun, fun query found hf => ?_⟩
    obtain ⟨-, rfl⟩ | hf := State.get?_of_bind hf
    · exact .inl hs
    · exact h.splices query found hf
  splices h h' := ⟨h'.templates, h'.preRun, h.splices⟩

theorem Continues.unfolds {σ τ : State} (h : σ.Continues τ) {name : String} {body : List Node}
    (unfolds : τ.Unfolds name body) : σ.Unfolds name body := by
  rwa [Unfolds, h.templates, h.preRun] at unfolds

/-- What is registered behind a template that was added is that, or was registered before. -/
theorem get?_of_addTemplate {σ : State} {name : String} {document : Markup.Document} {path : Path}
    {template : Template}
    (h : (σ.addTemplate name document).templates.get? path = some template) :
    (path = .parse name ∧ template = { document }) ∨ σ.templates.get? path = some template := by
  simp only [addTemplate, Registry.get?_insert] at h
  split at h
  · rename_i eq
    cases h
    exact .inl ⟨Std.LawfulEqCmp.eq_of_compare eq, rfl⟩
  · exact .inr h

/-- Without hooks, what a bare name unfolds to is the content of a template of that name. -/
theorem Unfolds.get? {σ : State} {name : String} {body : List Node} (h : σ.Unfolds name body)
    (preRun : σ.preRun = []) (nonempty : name ≠ "") (bare : '/' ∉ name.toList) :
    ∃ (directory : Path) (template : Template),
      σ.templates.get? (directory.child name) = some template ∧
      body = template.document.content := by
  obtain ⟨context, template, directory, hl, ledger, rfl⟩ := h
  refine ⟨directory, template, get?_of_resolve nonempty bare hl, ?_⟩
  rw [preRun]
  rfl

/-- From wherever the template is looked for, it begins with an element of one of the names. -/
def LeadsTo (σ : State) (names : String → Prop) (template : String) : Prop :=
  ∀ context, ∃ found directory, resolve σ.templates context template = some (found, directory) ∧
    ∃ name cs rest, found.document.content = .element name [] cs :: rest ∧ names name

/-- Without hooks before a run, each of the names is bound to a splice that begins with the
evaluation of a template which begins with an element of one of the names. -/
structure Circular (σ : State) (names : String → Prop) : Prop where
  preRun : σ.preRun = []
  evaluates : ∀ name, names name → ∃ splice, σ.splices.get? name = some splice ∧
    ∀ node, ∃ template, (splice node).template? = some template ∧ σ.LeadsTo names template

end State

namespace Engine

open Run

/-! ### Splices in layers -/

/-- A script that evaluates templates ends if these evaluations do. -/
theorem performs_of_evaluates {Ok : State → Prop} (ok : Steady Ok) {d : Nat}
    {names : String → Prop} (evaluates : ∀ name, names name → EndsAt Ok d (·.evaluate name))
    {script : Script} (h : script.Evaluates names) : Performs Ok d script := by
  induction h with
  | done nodes => exact performs_done nodes
  | stop _ ih => exact ih.stop ok
  | look _ ih => exact performs_look ih
  | newCell _ ih => exact performs_newCell ih
  | tick _ ih => exact performs_tick ih
  | evaluate hn _ ih => exact performs_evaluate (evaluates _ hn) ih
  | evaluateWith hn _ ih =>
    exact performs_evaluateWith (evaluateWith_ends ok _ (evaluates _ hn)) ih

section

variable {σ : State} {below : String → String → Prop} (h : σ.Layered below)

include h

/-- Where everything ends one level deeper, the calls of all names end, by the order of the
splices. -/
theorem layered_callsAt {d : Nat} (deeper : d < depthLimit → ExpandsAt σ.Continues (d + 1))
    (name : String) : CallsAt σ.Continues d name := by
  have ok := σ.continues_steady
  induction name using h.wellFounded.induction with
  | _ name ih =>
    intro s splice continues bound node children
    by_cases standard : splice.IsStandard
    · exact call_ends ok deeper standard node children
    · have original : σ.splices.get? name = some splice :=
        (continues.splices name splice bound).resolve_left standard
      refine Ends.of_succ (performs_of_evaluates ok (fun template lower => ?_)
        (h.evaluates name splice original standard node))
      refine evaluate_ends_of_bodies ok fun t body meets unfolds => Ends.of_succ ?_
      refine expandNodes_ends ok deeper fun other mem => ?_
      by_cases host : σ.Hosts other
      · exact ih other (lower body (meets.1.unfolds unfolds) other mem host)
      · intro u found continues' bound'
        have standard' : found.IsStandard :=
          (continues'.splices other found bound').elim id fun original =>
            Classical.byContradiction fun other => host ⟨found, original, other⟩
        exact call_ends ok deeper standard'

theorem layered_expandsAt (d : Nat) : ExpandsAt σ.Continues d :=
  expandsAt_of_calls σ.continues_steady (fun _ => layered_callsAt h) d

theorem layered_evaluate_ends (d : Nat) (name : String) :
    EndsAt σ.Continues d (·.evaluate name) :=
  evaluate_ends_of_bodies σ.continues_steady fun _ body _ _ => layered_expandsAt h d body

end

/-- **Expansion in layers ends**: where the splices that evaluate templates are layered, with
whatever templates, hooks and depth, every run that expands nodes, fills the placeholders
of a value, or evaluates or renders a template, with or without arguments, has an answer,
and gives it with every amount of fuel from some one on. -/
theorem layered_expansion_ends (s : Stage) (below : String → String → Prop)
    (h : s.state.Layered below) :
    (∀ nodes, ∃ out s', EndsIn (fun n => (ofFuel n).expand nodes) s out s') ∧
    (∀ raw, ∃ value s', EndsIn (fun n => (ofFuel n).substitute raw) s value s') ∧
    (∀ name, ∃ found s', EndsIn (fun n => (ofFuel n).evaluate name) s found s') ∧
    (∀ name args, ∃ found s',
      EndsIn (fun n => (ofFuel n).evaluateWith name args) s found s') ∧
    (∀ name, ∃ rendered s', EndsIn (fun n => (ofFuel n).render name) s rendered s') ∧
    (∀ name args, ∃ rendered s',
      EndsIn (fun n => (ofFuel n).renderWith name args) s rendered s') := by
  have ok := s.state.continues_steady
  have meets : s.Meets s.state.Continues s.state.depth := ⟨⟨rfl, rfl, fun _ _ => .inr⟩, rfl⟩
  have renders (name : String) : EndsAt s.state.Continues s.state.depth (·.render name) :=
    render_ends_of_evaluate ok (layered_evaluate_ends h 0 name)
  refine ⟨fun nodes => ?_, fun raw => ?_, fun name => ?_, fun name args => ?_, fun name => ?_,
    fun name args => ?_⟩
  · obtain ⟨out, s', hout, -⟩ := layered_expandsAt h _ nodes s meets
    exact ⟨out, s', hout⟩
  · have calls := layered_callsAt h fun _ => layered_expandsAt h (s.state.depth + 1)
    have ends : EndsAt s.state.Continues s.state.depth (·.substitute raw) :=
      substitute_ends_of_calls ok fun name _ => calls name
    obtain ⟨value, s', hvalue, -⟩ := ends s meets
    exact ⟨value, s', hvalue⟩
  · obtain ⟨found, s', hfound, -⟩ := layered_evaluate_ends h _ name s meets
    exact ⟨found, s', hfound⟩
  · obtain ⟨found, s', hfound, -⟩ := evaluateWith_ends ok args (layered_evaluate_ends h _ name)
      s meets
    exact ⟨found, s', hfound⟩
  · obtain ⟨rendered, s', hrendered, -⟩ := renders name s meets
    exact ⟨rendered, s', hrendered⟩
  · obtain ⟨rendered, s', hrendered, -⟩ := renderWith_ends ok args (renders name) s meets
    exact ⟨rendered, s', hrendered⟩

/-- A page with a splice on it that evaluates `first`, which has a splice on it that evaluates
`second`. Both of these apply the page: each round goes one level deeper. -/
def roundabout : Stage where
  state :=
    ((((State.standard.bind "a" (.evaluation "first")).bind "b" (.evaluation "second")).addTemplate
      "page" { format := .html, content := [.element "a" [] []] }).addTemplate
      "first" { format := .html, content := [.element "b" [] [], page] }).addTemplate
      "second" { format := .html, content := [page] }
where
  page : Node := .element "apply" [⟨"template", "page"⟩] []

theorem roundabout_unfolds {name : String} {body : List Node} (nonempty : name ≠ "")
    (bare : '/' ∉ name.toList) (unfolds : roundabout.state.Unfolds name body) :
    (name = "second" ∧ body = [roundabout.page]) ∨
      (name = "first" ∧ body = [.element "b" [] [], roundabout.page]) ∨
      (name = "page" ∧ body = [.element "a" [] []]) := by
  obtain ⟨directory, template, registered, rfl⟩ := unfolds.get? rfl nonempty bare
  have same {other : String} (h : directory.child name = .parse other) (nonempty : other ≠ "")
      (bare : '/' ∉ other.toList) : name = other := by
    rw [Path.parse_of_bare nonempty bare] at h
    exact (List.cons.inj (congrArg Path.inward h)).1
  obtain ⟨h, rfl⟩ | registered := State.get?_of_addTemplate registered
  · exact .inl ⟨same h (by decide) (by decide), rfl⟩
  obtain ⟨h, rfl⟩ | registered := State.get?_of_addTemplate registered
  · exact .inr (.inl ⟨same h (by decide) (by decide), rfl⟩)
  obtain ⟨h, rfl⟩ | registered := State.get?_of_addTemplate registered
  · exact .inr (.inr ⟨same h (by decide) (by decide), rfl⟩)
  · cases registered

theorem roundabout_layered :
    roundabout.state.Layered fun lower upper => lower = "b" ∧ upper = "a" where
  wellFounded := ⟨fun x => .intro x fun y hy => .intro y fun z hz =>
    absurd (hz.2.symm.trans hy.1) (by decide)⟩
  evaluates name splice bound host node := by
    have apply : ¬ roundabout.state.Hosts "apply" := fun ⟨_, bound, host⟩ => by
      cases bound
      exact host .apply
    obtain ⟨rfl, rfl⟩ | bound := State.get?_of_bind bound
    · refine Splice.evaluation_evaluates (fun body unfolds other mem hosts => ?_) node
      obtain ⟨-, rfl⟩ | ⟨h, -⟩ | ⟨h, -⟩ := roundabout_unfolds (by decide) (by decide) unfolds
      · obtain rfl := List.mem_singleton.mp (show other ∈ ["apply"] from mem)
        exact absurd hosts apply
      · exact absurd h (by decide)
      · exact absurd h (by decide)
    · obtain ⟨rfl, rfl⟩ | bound := State.get?_of_bind bound
      · refine Splice.evaluation_evaluates (fun body unfolds other mem hosts => ?_) node
        obtain ⟨h, -⟩ | ⟨-, rfl⟩ | ⟨h, -⟩ := roundabout_unfolds (by decide) (by decide) unfolds
        · exact absurd h (by decide)
        · obtain rfl | mem := List.mem_cons.mp (show other ∈ ["b", "apply"] from mem)
          · exact ⟨rfl, rfl⟩
          · obtain rfl := List.mem_singleton.mp mem
            exact absurd hosts apply
        · exact absurd h (by decide)
      · exact absurd (State.standard_isStandard name splice bound) host

theorem roundabout_ends :
    roundabout.state.Layered (fun lower upper => lower = "b" ∧ upper = "a") ∧
      ∃ rendered s', EndsIn (fun n => (ofFuel n).render "page") roundabout rendered s' :=
  ⟨roundabout_layered, (layered_expansion_ends roundabout _ roundabout_layered).2.2.2.2.1 "page"⟩

/-! ### Splices in a circle -/

/-- The engine gives no answer for nodes that begin with an element of one of the names, nor
for a splice that begins with the evaluation of a template which begins so. -/
structure Stuck (names : String → Prop) (e : Engine) : Prop where
  expand : ∀ {s : Stage} {name}, s.state.Circular names → names name → ∀ cs rest,
    e.expand (.element name [] cs :: rest) s = none
  call : ∀ {s : Stage} {template}, s.state.Circular names → s.state.LeadsTo names template →
    ∀ {splice : Splice} {node}, (splice node).template? = some template →
      e.call splice node s = none

section

variable {names : String → Prop} {e : Engine} (stuck : Stuck names e) {s : Stage}
  {template : String}

include stuck

theorem Stuck.evaluate (h : s.state.Circular names) (leads : s.state.LeadsTo names template) :
    e.evaluate template s = none := by
  obtain ⟨found, directory, hl, name, cs, rest, content, mem⟩ := leads s.state.context
  have preRun : (s.evaluating found.document.doctype).state.hooks .preRun = [] := h.preRun
  have unhooked := Stage.hooked_of_nil preRun found.document.content
  rw [e.evaluate_of_found hl unhooked, content, Option.map_eq_none_iff]
  refine stuck.expand ?_ mem cs rest
  exact ⟨h.preRun, h.evaluates⟩

/-- A script does not get beyond the evaluation that it begins with. -/
theorem Stuck.perform (h : s.state.Circular names) (leads : s.state.LeadsTo names template)
    {script : Script} (first : script.template? = some template) : e.perform script s = none := by
  induction script generalizing s with
  | stop next ih =>
    refine ih ?_ leads first
    exact ⟨h.preRun, h.evaluates⟩
  | evaluate name next =>
    cases first
    simp only [Engine.perform, bind_apply, stuck.evaluate h leads, Option.bind_none]
  | _ => cases first

theorem Stuck.expandNodes (h : s.state.Circular names) {name : String} (mem : names name)
    (cs rest : List Node) : e.expandNodes (.element name [] cs :: rest) s = none := by
  obtain ⟨splice, bound, begins⟩ := h.evaluates name mem
  obtain ⟨template, first, leads⟩ := begins (.element name [] cs)
  have entered : (s.entered name).state.Circular names := ⟨h.preRun, h.evaluates⟩
  have called : e.call splice (.element name [] cs) (s.entered name) = none :=
    stuck.call entered leads first
  have invoked : e.expandNode (.element name [] cs) s = none := by
    rw [e.expandNode_of_bound rfl bound, invoke_apply, called]
    rfl
  rw [Engine.expandNodes, bind_apply, invoked]
  rfl

theorem Stuck.next : Stuck names e.next where
  expand h mem cs rest := stuck.expandNodes h mem cs rest
  call h leads _ _ first := stuck.perform h leads first

end

theorem ofFuel_stuck (names : String → Prop) : ∀ n, Stuck names (ofFuel n)
  | 0 => ⟨fun _ _ _ _ => rfl, fun _ _ _ _ _ => rfl⟩
  | n + 1 => (ofFuel_stuck names n).next

/-- **A circle** is never left: where splices begin with the evaluation of templates that
begin with elements of their names, neither the expansion of such an element nor the
evaluation of such a template comes to an end, and neither does rendering it. -/
theorem circular_never_ends {names : String → Prop} {s : Stage} (h : s.state.Circular names) :
    (∀ name, names name → ∀ cs rest out s',
      ¬ EndsIn (fun n => (ofFuel n).expand (.element name [] cs :: rest)) s out s') ∧
    (∀ template, s.state.LeadsTo names template →
      (∀ found s', ¬ EndsIn (fun n => (ofFuel n).evaluate template) s found s') ∧
      (∀ rendered s', ¬ EndsIn (fun n => (ofFuel n).render template) s rendered s')) := by
  refine ⟨fun name mem cs rest out s' => ?_, fun template leads =>
    ⟨fun found s' => ?_, fun rendered s' => ?_⟩⟩
  · exact not_endsIn_of_eq_none fun n => (ofFuel_stuck names n).expand h mem cs rest
  · exact not_endsIn_of_eq_none fun n => (ofFuel_stuck names n).evaluate h leads
  · have copy : s.state.forRender.Circular names := ⟨h.preRun, h.evaluates⟩
    obtain ⟨found, directory, hl, -⟩ := leads s.state.context
    refine not_endsIn_of_eq_none fun n => ?_
    rw [render_of_found _ hl, Option.map_eq_none_iff]
    exact Stuck.evaluate (ofFuel_stuck names n) (s := { s with state := _ }) copy leads

/-- A page with a splice on it that evaluates the page. -/
def selfEvaluating : Stage where
  state :=
    (State.standard.bind "loop" (.evaluation "page")).addTemplate
      "page" { format := .html, content := [.element "loop" [] []] }

theorem selfEvaluating_circular :
    selfEvaluating.state.Circular (· = "loop") ∧
      selfEvaluating.state.LeadsTo (· = "loop") "page" := by
  have page : Path.parse "page" = ⟨["page"]⟩ := Path.parse_of_bare (by decide) (by decide)
  have leads : selfEvaluating.state.LeadsTo (· = "loop") "page" := by
    have holds : selfEvaluating.state.templates.get? (Path.root.child "page") =
        some { document := { format := .html, content := [.element "loop" [] []] } } := by
      simp [selfEvaluating, State.addTemplate, page, Path.child, Path.root]
    refine fun context => ⟨_, .root, resolve_of_root (by decide) (by decide) holds
      fun dir registered => ?_, "loop", [], [], rfl, rfl⟩
    · obtain ⟨template, registered⟩ := Option.ne_none_iff_exists'.mp registered
      obtain ⟨h, -⟩ | registered := State.get?_of_addTemplate registered
      · rw [page] at h
        exact congrArg Path.mk (List.cons.inj (congrArg Path.inward h)).2
      · cases registered
  refine ⟨⟨rfl, fun name loop => ?_⟩, leads⟩
  subst loop
  exact ⟨.evaluation "page", rfl, fun _ => ⟨"page", rfl, leads⟩⟩

theorem selfEvaluating_never_ends :
    (∀ name splice, selfEvaluating.state.splices.get? name = some splice →
      splice.IsStandard ∨ ∀ node, (splice node).Evaluates fun _ => True) ∧
    (∀ out s',
      ¬ EndsIn (fun n => (ofFuel n).expand [.element "loop" [] []]) selfEvaluating out s') ∧
    (∀ found s', ¬ EndsIn (fun n => (ofFuel n).evaluate "page") selfEvaluating found s') ∧
    (∀ rendered s', ¬ EndsIn (fun n => (ofFuel n).render "page") selfEvaluating rendered s') := by
  obtain ⟨circular, leads⟩ := selfEvaluating_circular
  obtain ⟨expansion, evaluation⟩ := circular_never_ends circular
  refine ⟨fun name splice bound => ?_, expansion "loop" rfl [] [], evaluation "page" leads⟩
  obtain ⟨-, rfl⟩ | bound := State.get?_of_bind bound
  · exact .inr (Splice.evaluation_evaluates trivial)
  · exact .inl (State.standard_isStandard name splice bound)

end Engine

end Templating
