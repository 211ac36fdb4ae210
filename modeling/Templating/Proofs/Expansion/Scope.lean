import Templating.Proofs.Expansion.Completeness
import Templating.Proofs.Expansion.Content
import Templating.Proofs.Registry

/-!
# What a run leaves behind

A run changes the state outside of the control state in two ways only: it binds names, and it
records doctypes behind those that are there. The templates and the hooks stay, no doctype is
lost, and no name that was bound becomes unbound (`State.Extends`). Every step that a run is
made of extends the state like that (`extends_frame`), and so every run does, whatever splices
are bound.

Bindings are undone at the end of a scope and nowhere else. A scope that a splice opens, the
arguments of a template and the body that `apply` or a bound tag opens leave the splices exactly
as they were when it began. So of an element that applies a template only two parts can bind
names: the placeholders of its attributes and its children (`runs_extend_state`).
-/

namespace Templating

open Markup (Attribute Node)

/-! ### States that extend a state -/

/-- What a run keeps of a state, the control state apart: `τ` has the templates and hooks of
`σ`, its doctypes and maybe more behind them, and binds every name that `σ` does. -/
structure State.Extends (σ τ : State) : Prop where
  templates : τ.templates = σ.templates
  hooks : τ.hooks = σ.hooks
  doctypes : σ.doctypes <+: τ.doctypes
  bound : ∀ name, σ.Binds name → τ.Binds name

namespace State

theorem Extends.refl (σ : State) : σ.Extends σ := ⟨rfl, rfl, List.prefix_refl _, fun _ h => h⟩

theorem Extends.trans {σ τ υ : State} (h : σ.Extends τ) (h' : τ.Extends υ) : σ.Extends υ where
  templates := h'.templates.trans h.templates
  hooks := h'.hooks.trans h.hooks
  doctypes := h.doctypes.trans h'.doctypes
  bound name hb := h'.bound name (h.bound name hb)

/-- Binding names to texts unbinds nothing. -/
theorem binds_bindTexts {σ : State} {query : String} (args : List (String × String))
    (h : σ.Binds query) : (σ.bindTexts args).Binds query := by
  rw [Binds] at h
  rw [Binds, bindTexts, bindAll, Registry.get?_insertAll, Option.isSome_or, h, Bool.or_true]

/-- Every way in which a run changes the state extends it. -/
theorem extends_change {f : State → State} (h : Change f) (σ : State) : σ.Extends (f σ) := by
  have refl := Extends.refl σ
  cases h with
  | recursing | context | deeper | shallower => exact { refl with }
  | doctypes bodies => exact { refl with doctypes := List.prefix_append _ _ }
  | bind name splice => exact { refl with bound := fun _ => binds_bind splice }
  | bindTexts args => exact { refl with bound := fun _ => binds_bindTexts args }

end State

/-- The state of the second stage extends that of the first one. -/
def Stage.Extends (s t : Stage) : Prop := s.state.Extends t.state

instance : IsPreorder Stage Stage.Extends where
  refl s := State.Extends.refl s.state
  trans _ _ _ h h' := State.Extends.trans h h'

theorem extends_frame : Frame Stage.Extends where
  change h s := State.extends_change h s.state
  record s _ := State.Extends.refl s.state
  counts s _ := State.Extends.refl s.state
  control h := { h with }
  splices h := { h with bound := fun _ hb => hb }

theorem Run.extends_congruence : Congruence fun _ r _ => Moves Stage.Extends r :=
  moves_congruence extends_frame

namespace Engine

open Run

/-! ### Scopes -/

section

variable {e : Engine} {s s' : Stage}

/-- What runs in a scope changes no splices outside of it. -/
theorem perform_scope {inner : Script} {next : List Node → Script} {out : List Node}
    (run : e.perform (.scope inner next) s = some (out, s')) :
    ∃ given t, e.perform inner s = some (given, t) ∧
      e.perform (next given) (t.withSplices s.state.splices) = some (out, s') := by
  rw [perform, bind_eq_some] at run
  obtain ⟨given, u, kept, rest⟩ := run
  rw [keepingSplices_apply, Option.map_eq_some_iff] at kept
  obtain ⟨⟨given', t⟩, inside, same⟩ := kept
  cases same
  exact ⟨_, t, inside, rest⟩

/-- The arguments of a template are bound while it is expanded only. -/
theorem evaluateWith_splices {name : String} {args : List (String × String)}
    {found : Option (List Node)} (run : e.evaluateWith name args s = some (found, s')) :
    s'.state.splices = s.state.splices := by
  rw [evaluateWith, keepingSplices_apply, Option.map_eq_some_iff] at run
  obtain ⟨⟨found', t⟩, -, same⟩ := run
  cases same
  rfl

variable (keeps : ∀ nodes, Moves SameControl (e.expand nodes))

include keeps

/-- A body leaves the splices as they were, and whether the result is expanded. -/
theorem expandBody_keeps {context : Path} {body content out : List Node}
    (run : e.perform (Splice.expandBody context body content) s = some (out, s')) :
    s'.state.splices = s.state.splices ∧ s'.state.recursing = s.state.recursing := by
  rw [Splice.expandBody, perform, bind_eq_some] at run
  obtain ⟨⟨⟩, t, moved, run⟩ := run
  cases moved
  obtain ⟨given, u, inside, rest⟩ := perform_scope run
  cases rest
  rw [perform, bind_eq_some] at inside
  obtain ⟨⟨⟩, v, bound, inside⟩ := inside
  cases bound
  rw [perform, bind_eq_some] at inside
  obtain ⟨given', w, expanded, rest⟩ := inside
  cases rest
  exact ⟨rfl, congrArg Control.recursing (e.descend_moves keeps body _ _ _ expanded)⟩

/-- The splice that applies a template leaves the splices that the children of its element
leave, whether or not there is such a template, and its result is not expanded again. -/
theorem perform_apply_keeps {node : Node} {out : List Node}
    (named : node.attribute? "template" ≠ none)
    (run : e.perform (Splice.apply node) s = some (out, s')) :
    ∃ content t, e.expand node.children s.stopped = some (content, t) ∧
      s'.state.splices = t.state.splices ∧ s'.state.recursing = false := by
  obtain ⟨name, hn⟩ := Option.ne_none_iff_exists'.mp named
  rw [Splice.apply, hn, perform, bind_eq_some] at run
  obtain ⟨⟨⟩, t₀, stopped, run⟩ := run
  cases stopped
  rw [perform, bind_eq_some] at run
  obtain ⟨content, t, children, run⟩ := run
  refine ⟨content, t, children, ?_⟩
  have still : t.state.recursing = false :=
    congrArg Control.recursing (keeps node.children _ content t children)
  rw [perform, bind_eq_some] at run
  obtain ⟨σ, t', looked, run⟩ := run
  cases looked
  split at run
  · cases run
    exact ⟨rfl, still⟩
  · rw [perform_recordDoctype] at run
    obtain ⟨splices, recursing⟩ := expandBody_keeps keeps run
    exact ⟨splices, recursing.trans still⟩

omit keeps in
/-- Filling placeholders changes values, no names. -/
theorem attributes_names : ∀ {as as' : List Attribute} {s t : Stage},
    e.attributes as s = some (as', t) → as'.map (·.name) = as.map (·.name)
  | [], as', s, t, run => by
    cases run
    rfl
  | a :: as, as', s, t, run => by
    rw [attributes, bind_eq_some] at run
    obtain ⟨value, u, -, run⟩ := run
    rw [bind_eq_some] at run
    obtain ⟨rest, v, filled, run⟩ := run
    cases run
    rw [List.map_cons, List.map_cons, attributes_names filled]

/-- **An element that applies a template** leaves the splices that its children leave, which are
expanded behind its attributes. -/
theorem expandNode_of_apply {name : String} {as as' : List Attribute} {cs out : List Node}
    {t : Stage} (filled : e.next.attributes as s = some (as', t))
    (bound : t.state.splices.get? name = some Splice.apply)
    (named : "template" ∈ as.map (·.name))
    (run : e.next.expandNode (.element name as cs) s = some (out, s')) :
    ∃ content u, e.expand cs (t.entered name).stopped = some (content, u) ∧
      s'.state.splices = u.state.splices := by
  have present : (Node.element name as' cs).attribute? "template" ≠ none := by
    rw [← attributes_names filled, List.mem_map] at named
    obtain ⟨a, mem, ha⟩ := named
    rw [Node.attribute?, Attribute.find, ne_eq, Option.map_eq_none_iff, List.find?_eq_none]
    exact fun h => h a mem (decide_eq_true ha)
  rw [expandNode_of_bound _ filled bound, invoke_apply, Option.map_eq_some_iff] at run
  obtain ⟨⟨out', v⟩, called, same⟩ := run
  cases same
  obtain ⟨⟨result, w⟩, performed, expanded⟩ := Option.bind_eq_some_iff.mp called
  obtain ⟨content, u, children, splices, stopped⟩ :=
    perform_apply_keeps keeps present performed
  rw [expandResult_of_stopped _ result stopped] at expanded
  cases expanded
  exact ⟨content, u, children, splices⟩

end

/-! ### Runs -/

/-- **What a run leaves behind**: with any amount of fuel and whatever splices are bound, a run
that expands nodes, expands them one level deeper, fills the placeholders of a value or
evaluates a template, with or without arguments, extends the state that it finds. After a scope,
after a template with arguments and after the body that an applied template or a bound tag opens,
the splices are those from before. And an element that applies a template leaves the splices
that are left by filling its attributes and expanding its children. -/
theorem runs_extend_state (n : Nat) (s s' : Stage) :
    (∀ nodes out, (ofFuel n).expand nodes s = some (out, s') → s.state.Extends s'.state) ∧
    (∀ nodes out, (ofFuel n).descend nodes s = some (out, s') → s.state.Extends s'.state) ∧
    (∀ raw value, (ofFuel n).substitute raw s = some (value, s') → s.state.Extends s'.state) ∧
    (∀ name found, (ofFuel n).evaluate name s = some (found, s') → s.state.Extends s'.state) ∧
    (∀ name args found, (ofFuel n).evaluateWith name args s = some (found, s') →
      s.state.Extends s'.state ∧ s'.state.splices = s.state.splices) ∧
    (∀ inner next out, (ofFuel n).perform (.scope inner next) s = some (out, s') →
      ∃ given t, (ofFuel n).perform inner s = some (given, t) ∧
        (ofFuel n).perform (next given) (t.withSplices s.state.splices) = some (out, s')) ∧
    (∀ context body content out,
      (ofFuel n).perform (Splice.expandBody context body content) s = some (out, s') →
        s'.state.splices = s.state.splices) ∧
    ∀ name as as' cs out t, (ofFuel (n + 1)).attributes as s = some (as', t) →
      t.state.splices.get? name = some Splice.apply → "template" ∈ as.map (·.name) →
        (ofFuel (n + 1)).expandNode (.element name as cs) s = some (out, s') →
          ∃ content u, (ofFuel n).expand cs (t.entered name).stopped = some (content, u) ∧
            s'.state.splices = u.state.splices := by
  have c := extends_congruence
  have frame := ofFuel_moves extends_frame n
  have keeps := ofFuel_expand_moves n
  refine ⟨fun nodes out run => ?_, fun nodes out run => ?_, fun raw value run => ?_,
    fun name found run => ?_, fun name args found run => ⟨?_, ?_⟩, fun inner next out run => ?_,
    fun context body content out run => ?_, fun name as as' cs out t filled bound named run => ?_⟩
  · exact frame.expand nodes s out s' run
  · exact descend_related c frame nodes s out s' run
  · exact substitute_related c frame raw s value s' run
  · exact evaluate_related c frame name s found s' run
  · exact evaluateWith_level c.level frame name args s found s' run
  · exact evaluateWith_splices run
  · exact perform_scope run
  · exact (expandBody_keeps keeps run).1
  · exact expandNode_of_apply keeps filled bound named run

/-- A stage with a template that has a doctype and binds a tag. -/
def layoutWithTag : Stage where
  state :=
    State.standard.addTemplate "layout"
      { format := .html
        doctype := some "html"
        content := [.element "bind" [⟨"tag", "inside"⟩] [], .element "content" [] []] }

theorem layoutWithTag_applied :
    let use : Node :=
      .element "apply" [⟨"template", "layout"⟩] [.element "bind" [⟨"tag", "outside"⟩] [], .text "x"]
    ∃ s', (ofFuel 5).expand [use] layoutWithTag = some ([.text "x"], s') ∧
      layoutWithTag.state.Extends s'.state ∧ s'.state.doctypes = ["html"] ∧
      s'.state.spliceNames = ["apply", "bind", "ignore", "outside"] ∧
      ∃ u, (ofFuel 3).expand use.children (layoutWithTag.entered "apply").stopped =
          some ([.text "x"], u) ∧ s'.state.splices = u.state.splices := by
  intro use
  obtain ⟨s', run, node, doctypes, names⟩ : ∃ s',
      (ofFuel 5).expand [use] layoutWithTag = some ([.text "x"], s') ∧
      (ofFuel 4).expandNode use layoutWithTag = some ([.text "x"], s') ∧
      s'.state.doctypes = ["html"] ∧
      s'.state.spliceNames = ["apply", "bind", "ignore", "outside"] := ⟨_, rfl, rfl, rfl, rfl⟩
  obtain ⟨expanded, -⟩ := runs_extend_state 5 layoutWithTag s'
  obtain ⟨-, -, -, -, -, -, -, applied⟩ := runs_extend_state 3 layoutWithTag s'
  obtain ⟨content, u, children, splices⟩ :=
    applied "apply" _ _ use.children _ layoutWithTag rfl rfl (by decide) node
  have given : content = [.text "x"] := by
    have same : (ofFuel 3).expand use.children (layoutWithTag.entered "apply").stopped =
        some ([.text "x"], _) := rfl
    rw [same] at children
    cases children
    rfl
  exact ⟨s', run, expanded _ _ run, doctypes, names, u, given ▸ children, splices⟩

end Engine

end Templating
