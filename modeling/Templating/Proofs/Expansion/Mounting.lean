import Mathlib.Data.Option.Basic
import Templating.Proofs.Expansion.Congruence
import Templating.Proofs.Expansion.Termination
import Templating.Proofs.Lookup

/-!
# Mounting a site

A site can be moved below a directory: where the templates are stored below it, bound tags
look for templates below it, and a run begins below it, everything comes out as before
(`mounted_alike`). What a run looks for is then looked for below the directory, and, if it
is not found there, in the directories above, where nothing is (`resolve_mount`).

Two stages are in step if the one is the other, mounted (`Mounted`). The runs of an
operation on stages in step answer the same, if they answer, and leave stages in step
(`Alike`). This holds of every operation if it holds of the calls of the engine, and so of
every amount of fuel. The two runs do not do the same, as congruences of runs have it: a
splice that was bound by `bind` captured another directory, and `apply` enters another
one. So what is read from the two states is related, not equal, and the splices that are
called are related too (`Splice.Moved`).
-/

namespace Templating

open Markup (Attribute Node)

/-! ### Stages in step -/

/-- A standard splice, and the same with the directory that it captured moved below `p`. -/
inductive Splice.Moved (p : Path) : Splice → Splice → Prop where
  | text (value : String) : Moved p (text value) (text value)
  | nodes (ns : List Node) : Moved p (nodes ns) (nodes ns)
  | apply : Moved p apply apply
  | bind : Moved p bind bind
  | ignore : Moved p ignore ignore
  | boundTag (context : Path) (body : List Node) :
      Moved p (boundTag context body) (boundTag (p.nest context) body)

theorem Splice.Moved.isStandard {p : Path} {f g : Splice} (h : Moved p f g) :
    f.IsStandard ∧ g.IsStandard := by
  cases h with
  | text value => exact ⟨.text value, .text value⟩
  | nodes ns => exact ⟨.nodes ns, .nodes ns⟩
  | apply => exact ⟨.apply, .apply⟩
  | bind => exact ⟨.bind, .bind⟩
  | ignore => exact ⟨.ignore, .ignore⟩
  | boundTag context body => exact ⟨.boundTag context body, .boundTag (p.nest context) body⟩

/-- The same names are bound, to standard splices moved below `p`. -/
def Splices.Moved (p : Path) (splices moved : Splices) : Prop :=
  ∀ name, Option.Rel (Splice.Moved p) (splices.get? name) (moved.get? name)

theorem Splices.Moved.insert {p : Path} {splices moved : Splices} (h : Splices.Moved p splices moved)
    (name : String) {f g : Splice} (hf : f.Moved p g) :
    Splices.Moved p (splices.insert name f) (moved.insert name g) := by
  intro query
  rw [Registry.get?_insert, Registry.get?_insert]
  split
  · exact .some hf
  · exact h query

/-- The state `τ` is the state `σ`, mounted below the directory `p`. -/
structure State.Mounted (p : Path) (σ τ : State) : Prop where
  named : σ.templates.get? .root = none
  templates : τ.templates = mount p σ.templates
  context : τ.context = p.nest σ.context
  splices : Splices.Moved p σ.splices τ.splices
  recursing : τ.recursing = σ.recursing
  depth : τ.depth = σ.depth
  doctypes : τ.doctypes = σ.doctypes
  hooks : τ.hooks = σ.hooks

namespace State.Mounted

variable {p : Path} {σ τ : State}

theorem resolve (h : σ.Mounted p τ) (context : Path) (name : String) :
    Templating.resolve τ.templates (p.nest context) name =
      (Templating.resolve σ.templates context name).map fun found => (found.1, p.nest found.2) := by
  rw [h.templates, resolve_mount h.named]

theorem lookup (h : σ.Mounted p τ) (name : String) :
    τ.lookup name = (σ.lookup name).map fun found => (found.1, p.nest found.2) := by
  rw [State.lookup, h.context, h.resolve]
  rfl

theorem bind (h : σ.Mounted p τ) (name : String) {f g : Splice} (hf : f.Moved p g) :
    (σ.bind name f).Mounted p (τ.bind name g) :=
  { h with splices := h.splices.insert name hf }

theorem bindTexts (h : σ.Mounted p τ) (args : List (String × String)) :
    (σ.bindTexts args).Mounted p (τ.bindTexts args) := by
  induction args generalizing σ τ with
  | nil => exact h
  | cons arg args ih => exact ih (h.bind arg.1 (.text arg.2))

theorem isStandard (h : σ.Mounted p τ) : σ.IsStandard ∧ τ.IsStandard := by
  refine ⟨fun name f hf => ?_, fun name g hg => ?_⟩
  · have bound := h.splices name
    rw [hf] at bound
    generalize τ.splices.get? name = y at bound
    cases bound with
    | some moved => exact moved.isStandard.1
  · have bound := h.splices name
    rw [hg] at bound
    generalize σ.splices.get? name = x at bound
    cases bound with
    | some moved => exact moved.isStandard.2

end State.Mounted

/-- The states are mounted below the directory, and the ledgers are the same. -/
structure Stage.Mounted (p : Path) (s t : Stage) : Prop where
  state : s.state.Mounted p t.state
  ledger : t.ledger = s.ledger

namespace Stage.Mounted

variable {p : Path} {s t s' t' : Stage}

theorem withControl (h : s.Mounted p t) (h' : s'.Mounted p t') :
    (s'.withControl s.state.control).Mounted p (t'.withControl t.state.control) where
  state := { h'.state with
    context := h.state.context, recursing := h.state.recursing, depth := h.state.depth }
  ledger := h'.ledger

theorem withSplices (h : s.Mounted p t) (h' : s'.Mounted p t') :
    (s'.withSplices s.state.splices).Mounted p (t'.withSplices t.state.splices) where
  state := { h'.state with splices := h.state.splices }
  ledger := h'.ledger

end Stage.Mounted

/-! ### Runs in step -/

section

variable {α α' β β' : Type} {R : α → α' → Prop} {S : β → β' → Prop} {x : Option α} {y : Option α'}

theorem rel_bind {f : α → Option β} {g : α' → Option β'} (h : Option.Rel R x y)
    (hf : ∀ a b, R a b → Option.Rel S (f a) (g b)) : Option.Rel S (x.bind f) (y.bind g) := by
  cases h with
  | none => exact .none
  | some related => exact hf _ _ related

theorem rel_map {f : α → β} {g : α' → β'} (h : Option.Rel R x y)
    (hf : ∀ a b, R a b → S (f a) (g b)) : Option.Rel S (x.map f) (y.map g) := by
  cases h with
  | none => exact .none
  | some related => exact .some (hf _ _ related)

end

namespace Run

variable {p : Path} {α α' β β' : Type} {V : α → α' → Prop} {W : β → β' → Prop}

/-- On stages in step the runs give related answers and leave stages in step, or both give
none. -/
def Alike (p : Path) (V : α → α' → Prop) (r : Run α) (r' : Run α') : Prop :=
  ∀ s t, Stage.Mounted p s t →
    Option.Rel (fun x y => V x.1 y.1 ∧ Stage.Mounted p x.2 y.2) (r s) (r' t)

theorem alike_pure {a : α} {b : α'} (h : V a b) : Alike p V (pure a) (pure b) :=
  fun _ _ hs => .some ⟨h, hs⟩

theorem alike_failure : Alike p V failure failure := fun _ _ _ => .none

theorem Alike.bind {r : Run α} {r' : Run α'} {f : α → Run β} {f' : α' → Run β'}
    (hr : Alike p V r r') (hf : ∀ a b, V a b → Alike p W (f a) (f' b)) :
    Alike p W (r >>= f) (r' >>= f') :=
  fun s t hs => rel_bind (hr s t hs) fun x y related => hf x.1 y.1 related.1 x.2 y.2 related.2

theorem alike_chaining : Chaining fun _ r r' => Alike p (· = ·) r r' where
  pure _ := alike_pure rfl
  bind hr hf := hr.bind fun a _ same => same ▸ hf a

theorem alike_state : Alike p (State.Mounted p) state state := fun _ _ hs => .some ⟨hs.state, hs⟩

theorem alike_modifyState {f g : State → State}
    (h : ∀ σ τ, State.Mounted p σ τ → (f σ).Mounted p (g τ)) :
    Alike p (· = ·) (modifyState f) (modifyState g) :=
  fun _ _ hs => .some ⟨rfl, h _ _ hs.state, hs.ledger⟩

theorem alike_setContext (context : Path) :
    Alike p (· = ·) (modifyState fun σ => { σ with context })
      (modifyState fun σ => { σ with context := p.nest context }) :=
  alike_modifyState fun _ _ m => { m with context := rfl }

theorem alike_setRecursing (recursing : Bool) :
    Alike p (· = ·) (modifyState fun σ => { σ with recursing })
      (modifyState fun σ => { σ with recursing }) :=
  alike_modifyState fun _ _ m => { m with recursing := rfl }

theorem alike_changeDepth (f : Nat → Nat) :
    Alike p (· = ·) (modifyState fun σ => { σ with depth := f σ.depth })
      (modifyState fun σ => { σ with depth := f σ.depth }) :=
  alike_modifyState fun _ _ m => { m with depth := congrArg f m.depth }

theorem alike_addDoctypes (bodies : List String) :
    Alike p (· = ·) (modifyState fun σ => { σ with doctypes := σ.doctypes ++ bodies })
      (modifyState fun σ => { σ with doctypes := σ.doctypes ++ bodies }) :=
  alike_modifyState fun _ _ m => { m with doctypes := congrArg (· ++ bodies) m.doctypes }

theorem alike_record {entry : State → Entry}
    (h : ∀ σ τ, State.Mounted p σ τ → entry τ = entry σ) :
    Alike p (· = ·) (record entry) (record entry) := by
  intro s t hs
  have same : t.ledger.record (entry t.state) = s.ledger.record (entry s.state) := by
    rw [h _ _ hs.state, hs.ledger]
  exact .some ⟨rfl, hs.state, same⟩

theorem alike_applyHooks (slot : HookSlot) (nodes : List Node) :
    Alike p (· = ·) (applyHooks slot nodes) (applyHooks slot nodes) := by
  refine (alike_record fun _ _ _ => rfl).bind fun _ _ _ => ?_
  intro s t hs
  have same : s.ledger.applyHooks (s.state.hooks slot) nodes =
      t.ledger.applyHooks (t.state.hooks slot) nodes := by rw [hs.ledger, hs.state.hooks]
  have out := congrArg Prod.fst same
  exact .some ⟨out, hs.state, (congrArg Prod.snd same).symm⟩

theorem Alike.keepingControl {r : Run α} {r' : Run α'} (h : Alike p V r r') :
    Alike p V (keepingControl r) (keepingControl r') := by
  intro s t hs
  rw [keepingControl_apply, keepingControl_apply]
  exact rel_map (h s t hs) fun _ _ related => ⟨related.1, hs.withControl related.2⟩

theorem Alike.keepingSplices {r : Run α} {r' : Run α'} (h : Alike p V r r') :
    Alike p V (keepingSplices r) (keepingSplices r') := by
  intro s t hs
  rw [keepingSplices_apply, keepingSplices_apply]
  exact rel_map (h s t hs) fun _ _ related => ⟨related.1, hs.withSplices related.2⟩

end Run

namespace Engine

open Run

/-- The calls of the engine are in step. -/
structure KeepsStep (p : Path) (e : Engine) : Prop where
  expand : ∀ nodes, Alike p (· = ·) (e.expand nodes) (e.expand nodes)
  call : ∀ {f g : Splice}, f.Moved p g → ∀ node,
    Alike p (· = ·) (e.call f node) (e.call g node)

section

variable {p : Path} {e : Engine} (h : KeepsStep p e)

theorem enter_alike (name : String) : Alike p (· = ·) (enter name) (enter name) :=
  (alike_record fun _ _ m => by rw [m.depth]).bind fun _ _ _ => alike_setRecursing true

include h

/-! ### Placeholders -/

theorem placeholder_alike (name : String) :
    Alike p (· = ·) (e.placeholder name) (e.placeholder name) := by
  refine alike_state.bind fun σ τ m => ?_
  have bound := m.splices name
  generalize σ.splices.get? name = x at bound
  generalize τ.splices.get? name = y at bound
  cases bound with
  | none => exact alike_pure rfl
  | some moved =>
    refine ((enter_alike name).bind fun _ _ _ =>
      (h.call moved _).bind fun out out' same => ?_).keepingControl
    exact alike_pure (congrArg some same)

/-! ### Elements -/

theorem expandResult_alike (result : List Node) :
    Alike p (· = ·) (e.expandResult result) (e.expandResult result) := by
  refine alike_state.bind fun σ τ m => ?_
  rw [m.recursing, m.depth]
  split
  · exact alike_pure rfl
  · split
    · exact (alike_record fun _ _ m => by rw [m.depth]).bind fun _ _ _ => alike_pure rfl
    · refine (alike_record fun _ _ m => by rw [m.depth]).bind fun _ _ _ => ?_
      exact (alike_changeDepth (· + 1)).bind fun _ _ _ => h.expand result

theorem invoke_alike (name : String) {f g : Splice} (moved : f.Moved p g) (node : Node) :
    Alike p (· = ·) (e.invoke name f node) (e.invoke name g node) :=
  ((enter_alike name).bind fun _ _ _ => (h.call moved node).bind fun _ _ same =>
    same ▸ expandResult_alike h _).keepingControl

/-- What takes the place of an element is what its splice makes of it, which was moved. -/
theorem replace_alike (name : String) (node : Node) {r r' : Run (List Node)}
    (rebuilt : Alike p (· = ·) r r') :
    Alike p (· = ·) (e.replace name node r) (e.replace name node r') := by
  refine alike_state.bind fun σ τ m => ?_
  have bound := m.splices name
  generalize σ.splices.get? name = x at bound
  generalize τ.splices.get? name = y at bound
  cases bound with
  | none => exact rebuilt
  | some moved => exact invoke_alike h name moved node

theorem expandNodes_alike (nodes : List Node) :
    Alike p (· = ·) (e.expandNodes nodes) (e.expandNodes nodes) :=
  expandNodes_walk alike_chaining (placeholder_alike h) (replace_alike h) nodes

/-! ### Splices -/

theorem descend_alike (nodes : List Node) :
    Alike p (· = ·) (e.descend nodes) (e.descend nodes) := by
  refine alike_state.bind fun σ τ m => ?_
  rw [m.depth]
  split
  · exact (alike_record fun _ _ m => by rw [m.depth]).bind fun _ _ _ => alike_pure rfl
  · refine (alike_record fun _ _ m => by rw [m.depth]).bind fun _ _ _ => ?_
    refine (alike_changeDepth (· + 1)).bind fun _ _ _ => (h.expand nodes).bind fun _ _ same => ?_
    refine (alike_record fun _ _ m => by rw [m.depth]).bind fun _ _ _ => ?_
    exact (alike_changeDepth (· - 1)).bind fun _ _ _ => alike_pure same

theorem expandBody_alike (context : Path) (body content : List Node) :
    Alike p (· = ·) (e.perform (Splice.expandBody context body content))
      (e.perform (Splice.expandBody (p.nest context) body content)) := by
  refine (alike_setContext context).bind fun _ _ _ => ?_
  refine Alike.bind (Alike.keepingSplices ?_) fun _ _ same => alike_pure same
  refine (alike_modifyState fun _ _ m => m.bind _ (.nodes content)).bind fun _ _ _ => ?_
  exact (descend_alike h body).bind fun _ _ same => alike_pure same

/-- What a standard splice does, it does below the directory if it was moved there. -/
theorem perform_alike {f g : Splice} (moved : f.Moved p g) (node : Node) :
    Alike p (· = ·) (e.perform (f node)) (e.perform (g node)) := by
  have stop {script script' : Script}
      (next : Alike p (· = ·) (e.perform script) (e.perform script')) :
      Alike p (· = ·) (e.perform (.stop script)) (e.perform (.stop script')) :=
    (alike_setRecursing false).bind fun _ _ _ => next
  cases moved with
  | text value => exact alike_pure rfl
  | nodes ns => exact alike_pure rfl
  | ignore => exact alike_pure rfl
  | boundTag context body =>
    refine stop ((h.expand node.children).bind fun content _ same => ?_)
    subst same
    exact expandBody_alike h context body content
  | bind =>
    refine stop ?_
    cases node.attribute? "tag" with
    | none => exact alike_pure rfl
    | some tag =>
      refine alike_state.bind fun σ τ m => ?_
      refine (alike_modifyState fun _ _ m' => m'.bind tag ?_).bind fun _ _ _ => alike_pure rfl
      have context : τ.view.context = p.nest σ.view.context := m.context
      rw [context]
      exact .boundTag σ.view.context node.children
  | apply =>
    refine stop ?_
    cases node.attribute? "template" with
    | none => exact alike_pure rfl
    | some name =>
      refine (h.expand node.children).bind fun content _ same => ?_
      subst same
      refine alike_state.bind fun σ τ m => ?_
      have found : resolve τ.view.templates τ.view.context name =
          (resolve σ.view.templates σ.view.context name).map fun found =>
            (found.1, p.nest found.2) := m.lookup name
      simp only [found]
      cases resolve σ.view.templates σ.view.context name with
      | none => exact alike_pure rfl
      | some found =>
        obtain ⟨template, directory⟩ := found
        have body := expandBody_alike h directory template.document.content content
        cases hd : template.document.doctype with
        | none =>
          simp only [Option.map_some, hd]
          exact body
        | some doctype =>
          simp only [Option.map_some, hd]
          exact (alike_addDoctypes [doctype]).bind fun _ _ _ => body

/-! ### Templates -/

theorem evaluate_alike (name : String) :
    Alike p (· = ·) (e.evaluate name) (e.evaluate name) := by
  refine alike_state.bind fun σ τ m => ?_
  rw [m.lookup name]
  cases σ.lookup name with
  | none => exact alike_pure rfl
  | some found =>
    obtain ⟨template, directory⟩ := found
    refine (alike_addDoctypes _).bind fun _ _ _ => ?_
    refine (alike_applyHooks .preRun _).bind fun body _ same => ?_
    subst same
    have expanded := (alike_setContext directory).bind fun _ _ _ => h.expand body
    refine expanded.keepingControl.bind fun out _ same => ?_
    subst same
    exact (alike_applyHooks .postRun out).bind fun _ _ same => alike_pure (congrArg some same)

theorem evaluateWith_alike (name : String) (args : List (String × String)) :
    Alike p (· = ·) (e.evaluateWith name args) (e.evaluateWith name args) :=
  ((alike_modifyState fun _ _ m => m.bindTexts args).bind fun _ _ _ =>
    evaluate_alike h name).keepingSplices

theorem render_alike (name : String) : Alike p (· = ·) (e.render name) (e.render name) := by
  refine alike_state.bind fun σ τ m => ?_
  rw [m.lookup name]
  cases σ.lookup name with
  | none => exact alike_pure rfl
  | some found =>
    obtain ⟨template, directory⟩ := found
    have copy : Alike p (· = ·) (modifyState State.forRender) (modifyState State.forRender) :=
      alike_modifyState fun _ _ m => { m with recursing := rfl, depth := rfl, doctypes := rfl }
    refine copy.bind fun _ _ _ => (evaluate_alike h name).bind fun content _ same => ?_
    subst same
    refine alike_state.bind fun σ' τ' m' => ?_
    refine (alike_modifyState fun _ _ _ => m).bind fun _ _ _ => alike_pure ?_
    rw [m'.doctypes]

theorem renderWith_alike (name : String) (args : List (String × String)) :
    Alike p (· = ·) (e.renderWith name args) (e.renderWith name args) :=
  ((alike_modifyState fun _ _ m => m.bindTexts args).bind fun _ _ _ =>
    render_alike h name).keepingSplices

theorem KeepsStep.next : KeepsStep p e.next where
  expand := expandNodes_alike h
  call := perform_alike h

end

theorem ofFuel_keepsStep (p : Path) : ∀ n, KeepsStep p (ofFuel n)
  | 0 => ⟨fun _ => alike_failure, fun _ _ => alike_failure⟩
  | n + 1 => (ofFuel_keepsStep p n).next

/-! ### The mounted site -/

/-- On stages of standard splices in step, a run ends in the same answer. -/
theorem ends_alike {p : Path} {s t : Stage} (hs : s.Mounted p t) {α : Type} {r : Engine → Run α}
    (ends : ∀ d, EndsAt State.IsStandard d r)
    (alike : ∀ e, KeepsStep p e → Alike p (· = ·) (r e) (r e)) :
    ∃ a s' t', EndsIn (fun n => r (ofFuel n)) s a s' ∧ EndsIn (fun n => r (ofFuel n)) t a t' ∧
      s'.Mounted p t' := by
  obtain ⟨standard, standard'⟩ := hs.state.isStandard
  obtain ⟨a, s', ha, -⟩ := ends _ s ⟨standard, rfl⟩
  obtain ⟨b, t', hb, -⟩ := ends _ t ⟨standard', rfl⟩
  obtain ⟨n, hn⟩ := ha
  obtain ⟨k, hk⟩ := hb
  have left : r (ofFuel (max n k)) s = some (a, s') := hn _ (Nat.le_max_left n k)
  have right : r (ofFuel (max n k)) t = some (b, t') := hk _ (Nat.le_max_right n k)
  have answers := alike _ (ofFuel_keepsStep p (max n k)) s t hs
  rw [left, right] at answers
  cases answers with
  | some related =>
    obtain ⟨rfl, mounted⟩ := related
    exact ⟨a, s', t', ⟨n, hn⟩, ⟨k, hk⟩, mounted⟩

end Engine

/-- The state mounted below the directory, with splices that were moved there. -/
def State.mount (σ : State) (p : Path) (moved : Splices) : State :=
  { σ with
    templates := Templating.mount p σ.templates, context := p.nest σ.context, splices := moved }

namespace Engine

open Run

/-- **A mounted site** is the site: if no template is without a name, and the splices are
standard ones, mounted below the directory `p` the site evaluates and renders every name
from below `p`, with or without arguments, just as it does where it was. -/
theorem mounted_alike (p : Path) (σ : State) (moved : Splices) (ledger : Ledger)
    (named : ∀ key ∈ σ.templates.keys, key ≠ .root) (standard : Splices.Moved p σ.splices moved) :
    (∀ name, ∃ found s t, EndsIn (fun n => (ofFuel n).evaluate name) ⟨σ, ledger⟩ found s ∧
      EndsIn (fun n => (ofFuel n).evaluate name) ⟨σ.mount p moved, ledger⟩ found t ∧
      t.state.doctypes = s.state.doctypes) ∧
    (∀ name args, ∃ found s t,
      EndsIn (fun n => (ofFuel n).evaluateWith name args) ⟨σ, ledger⟩ found s ∧
      EndsIn (fun n => (ofFuel n).evaluateWith name args) ⟨σ.mount p moved, ledger⟩ found t ∧
      t.state.doctypes = s.state.doctypes) ∧
    (∀ name, ∃ rendered s t, EndsIn (fun n => (ofFuel n).render name) ⟨σ, ledger⟩ rendered s ∧
      EndsIn (fun n => (ofFuel n).render name) ⟨σ.mount p moved, ledger⟩ rendered t) ∧
    (∀ name args, ∃ rendered s t,
      EndsIn (fun n => (ofFuel n).renderWith name args) ⟨σ, ledger⟩ rendered s ∧
      EndsIn (fun n => (ofFuel n).renderWith name args) ⟨σ.mount p moved, ledger⟩ rendered t) := by
  have unnamed : σ.templates.get? .root = none :=
    Classical.byContradiction fun found => named .root (Registry.mem_keys_iff.mpr found) rfl
  have step : Stage.Mounted p ⟨σ, ledger⟩ ⟨σ.mount p moved, ledger⟩ :=
    ⟨⟨unnamed, rfl, rfl, standard, rfl, rfl, rfl, rfl⟩, rfl⟩
  refine ⟨fun name => ?_, fun name args => ?_, fun name => ?_, fun name args => ?_⟩
  · obtain ⟨found, s, t, hs, ht, after⟩ :=
      ends_alike (r := (·.evaluate name)) step (evaluate_ends · name) fun _ h => evaluate_alike h name
    exact ⟨found, s, t, hs, ht, after.state.doctypes⟩
  · obtain ⟨found, s, t, hs, ht, after⟩ :=
      ends_alike step (fun d => evaluateWith_ends isStandard_steady args (evaluate_ends d name))
        fun _ h => evaluateWith_alike h name args
    exact ⟨found, s, t, hs, ht, after.state.doctypes⟩
  · obtain ⟨rendered, s, t, hs, ht, -⟩ :=
      ends_alike (r := (·.render name)) step (render_ends · name) fun _ h => render_alike h name
    exact ⟨rendered, s, t, hs, ht⟩
  · obtain ⟨rendered, s, t, hs, ht, -⟩ :=
      ends_alike step (fun d => renderWith_ends isStandard_steady args (render_ends d name))
        fun _ h => renderWith_alike h name args
    exact ⟨rendered, s, t, hs, ht⟩

/-- A page whose tag was bound in `parts`, and looks for its frame from there. -/
def framed : State :=
  ((State.standard.bind "box" (.boundTag (.parse "parts") frame)).addTemplate "page"
    { format := .html, content := [.element "box" [] [.text "T"]] }).addTemplate "parts/frame"
    { format := .html, content := [.element "main" [] [.element "content" [] []]] }
where
  frame : List Node := [.element "apply" [⟨"template", "frame"⟩] [.element "content" [] []]]

/-- The splices of the page below another directory. -/
def framedBelow (p : Path) : Splices :=
  State.standard.splices.insert "box" (.boundTag (p.nest (.parse "parts")) framed.frame)

theorem framed_moved (p : Path) : Splices.Moved p framed.splices (framedBelow p) := by
  have nothing : Splices.Moved p ∅ ∅ := fun _ => .none
  have standard : Splices.Moved p State.standard.splices State.standard.splices :=
    ((nothing.insert "apply" .apply).insert "bind" .bind).insert "ignore" .ignore
  exact standard.insert "box" (.boundTag (.parse "parts") framed.frame)

theorem framed_mounted_alike :
    ∃ rendered s t, EndsIn (fun n => (ofFuel n).render "page") ⟨framed, {}⟩ rendered s ∧
      EndsIn (fun n => (ofFuel n).render "page")
        ⟨framed.mount (.parse "site/docs") (framedBelow (.parse "site/docs")), {}⟩ rendered t :=
  (mounted_alike (.parse "site/docs") framed _ {} (by decide +kernel) (framed_moved _)).2.2.1 "page"

end Engine

end Templating
