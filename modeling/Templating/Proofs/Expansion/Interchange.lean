import Templating.Proofs.Expansion.Content
import Templating.Proofs.Expansion.Scope

/-!
# Applying a template and using a tag

Where a tag is bound to the content of a template, in the directory of that template, an element
of the tag comes to the same as one that applies the template: the nodes are the same, and so is
the state afterwards (`apply_agrees_with_bound_tag`). This holds at every depth, and whatever the
children do.

Both splices expand the children where the element stands, and then the body one level deeper.
But `bind` looked at the directory when it bound the tag, and `apply` looks for the template when
the children have been expanded. They may have bound names, recorded doctypes or run any splice
meanwhile. What the search reads, which is the templates and the directory, is still there
(`perform_apply_eq_boundTag`).

The two runs are not the same, since the journal tells which splice was invoked. But nothing reads
the journal (`ofFuel_unread`), so this shows nowhere else.
-/

namespace Templating

open Markup (Attribute Node)

/-! ### The journal is not read -/

/-- The stage with other entries written before those in its journal. -/
def Stage.following (s : Stage) (earlier : List Entry) : Stage :=
  { s with ledger := { s.ledger with journal := s.ledger.journal ++ earlier } }

/-- The stage when a splice begins, without a journal. -/
def Stage.begun (s : Stage) : Stage where
  state := { s.state with recursing := true }
  ledger := { s.ledger with journal := [] }

/-- Hooks do not read the journal. -/
theorem Ledger.applyHooks_following (earlier : List Entry) :
    ∀ (hooks : List Hook) (l : Ledger) (nodes : List Node),
      Ledger.applyHooks { l with journal := l.journal ++ earlier } hooks nodes =
        ((l.applyHooks hooks nodes).1,
          { (l.applyHooks hooks nodes).2 with
            journal := (l.applyHooks hooks nodes).2.journal ++ earlier })
  | [], _, _ => rfl
  | hook :: hooks, l, nodes =>
    applyHooks_following earlier hooks (l.tick hook.cell).2 (hook.run (l.tick hook.cell).1 nodes)

namespace Run

variable {α β : Type}

/-- The run does not read the journal: what was written before makes no difference to it. -/
def Unread (r : Run α) : Prop :=
  ∀ s earlier, r (s.following earlier) = (r s).map fun p => (p.1, p.2.following earlier)

theorem Unread.bind {r : Run α} {f : α → Run β} (hr : Unread r) (hf : ∀ a, Unread (f a)) :
    Unread (r >>= f) := by
  intro s earlier
  rw [bind_apply, bind_apply, hr]
  cases r s with
  | none => rfl
  | some p => exact hf p.1 p.2 earlier

theorem unread_congruence : Congruence fun _ r _ => Unread r where
  pure _ _ _ := rfl
  bind := .bind
  state _ _ := rfl
  change _ _ _ := rfl
  record _ _ _ := rfl
  newCell _ _ := rfl
  tick _ _ _ := rfl
  applyHooks slot nodes := by
    refine Unread.bind (fun _ _ => rfl) fun _ s earlier => ?_
    have applied := Ledger.applyHooks_following earlier (s.state.hooks slot) s.ledger nodes
    exact congrArg (fun p => some (p.1, { s with ledger := p.2 })) applied
  keepingControl h := Unread.bind (fun _ _ => rfl) fun _ => h.bind fun _ _ _ => rfl
  keepingSplices h := Unread.bind (fun _ _ => rfl) fun _ => h.bind fun _ _ _ => rfl

/-- What can be seen of a run: the answer, the state and the counters, but not the journal. -/
def outcome (answer : Option (α × Stage)) : Option (α × State × Array Nat) :=
  answer.map fun p => (p.1, p.2.state, p.2.ledger.counts)

end Run

namespace Engine

open Run

/-- **Nothing reads the journal**, with any amount of fuel. -/
theorem ofFuel_unread (n : Nat) : (ofFuel n).Related (fun _ r _ => Unread r) (ofFuel n) :=
  ofFuel_related unread_congruence (fun _ _ _ => rfl) n

/-- By which name an invocation goes shows in the journal only. -/
theorem invoke_outcome {e : Engine} (unread : e.Related (fun _ r _ => Unread r) e) {s : Stage}
    {splice other : Splice} {node use : Node}
    (same : e.call splice node s.begun = e.call other use s.begun) (name query : String) :
    outcome (e.invoke name splice node s) = outcome (e.invoke query other use s) := by
  have apart (name : String) (splice : Splice) (node : Node) :
      outcome (e.invoke name splice node s) =
        ((e.call splice node s.begun).bind fun p => e.expandResult p.1 p.2).map fun p =>
          (p.1, (p.2.withControl s.state.control).state, p.2.ledger.counts) := by
    have body : Unread (e.call splice node >>= e.expandResult) :=
      (unread.call splice node).bind fun result =>
        expandResult_related unread_congruence unread result
    have entered : s.entered name =
        s.begun.following (.invoked name s.state.depth :: s.ledger.journal) := rfl
    have moved := body s.begun (.invoked name s.state.depth :: s.ledger.journal)
    rw [bind_apply, bind_apply] at moved
    rw [outcome, e.invoke_apply, entered, moved, Option.map_map, Option.map_map]
    rfl
  rw [apart name, apart query, same]

/-! ### Applying a template and using a tag -/

section

variable {e : Engine} {s : Stage} {template : Template} {directory : Path} {name : String}

/-- Expanding nodes does not change what a name means. -/
theorem lookup_of_expand {t : Stage} {nodes out : List Node}
    (keeps : Moves SameControl (e.expand nodes)) (extended : Moves Stage.Extends (e.expand nodes))
    (run : e.expand nodes s = some (out, t)) (name : String) :
    t.state.lookup name = s.state.lookup name := by
  have templates : t.state.templates = s.state.templates := (extended s out t run).templates
  have context : t.state.context = s.state.context :=
    congrArg Control.context (keeps s out t run)
  rw [State.lookup, State.lookup, templates, context]

/-- Applying a template without a doctype does what a tag does that is bound to its content. -/
theorem perform_apply_eq_boundTag (keeps : ∀ nodes, Moves SameControl (e.expand nodes))
    (extended : ∀ nodes, Moves Stage.Extends (e.expand nodes)) {use tagged : Node}
    (named : use.attribute? "template" = some name)
    (found : s.state.lookup name = some (template, directory))
    (bare : template.document.doctype = none) (children : tagged.children = use.children) :
    e.perform (Splice.apply use) s =
      e.perform (Splice.boundTag directory template.document.content tagged) s := by
  rw [Splice.apply, Splice.boundTag, named, children]
  simp only [perform, bind_apply, modifyState_apply, Option.bind_some]
  change (e.expand use.children s.stopped).bind _ = (e.expand use.children s.stopped).bind _
  cases run : e.expand use.children s.stopped with
  | none => rfl
  | some p =>
    obtain ⟨content, t⟩ := p
    -- `apply` looks for the template here, behind the children.
    have still : resolve t.state.view.templates t.state.view.context name =
        some (template, directory) :=
      (lookup_of_expand (keeps _) (extended _) run name).trans found
    simp only [Option.bind_some, state_apply, still, bare, Splice.recordDoctype]

end

/-- **A template and a tag agree.** Where a tag is bound to the content of a template without a
doctype, in the directory where the template is found, expanding an element of the tag and
expanding one that applies the template, with the same children, come to the same with any amount
of fuel: to the same nodes, the same state and the same counts of hooks and splices, or to no
end. -/
theorem apply_agrees_with_bound_tag (n : Nat) (s : Stage) {tag name : String} {template : Template}
    {directory : Path}
    (tagged : s.state.splices.get? tag =
      some (Splice.boundTag directory template.document.content))
    (applies : s.state.splices.get? "apply" = some Splice.apply)
    (plain : Interpolation.mentionsPlaceholder name.toList = false)
    (found : s.state.lookup name = some (template, directory))
    (bare : template.document.doctype = none) (children : List Node) :
    outcome ((ofFuel n).expand [.element tag [] children] s) =
      outcome ((ofFuel n).expand [.element "apply" [⟨"template", name⟩] children] s) := by
  cases n with
  | zero => rfl
  | succ n =>
    have alone {as : List Attribute} {name : String} {splice : Splice}
        (filled : (ofFuel n).attributes as s = some (as, s))
        (bound : s.state.splices.get? name = some splice) :
        (ofFuel (n + 1)).expand [.element name as children] s =
          (ofFuel n).invoke name splice (.element name as children) s := by
      change (ofFuel n).expandNodes [.element name as children] s = _
      simp only [expandNodes, bind_apply, expandNode_of_bound _ filled bound]
      cases (ofFuel n).invoke name splice (.element name as children) s <;> simp
    have filled : (ofFuel n).attributes [⟨"template", name⟩] s = some ([⟨"template", name⟩], s) :=
      (ofFuel n).attributes_of_plain fun a mem => by rwa [List.mem_singleton.mp mem]
    rw [alone rfl tagged, alone filled applies]
    refine invoke_outcome (ofFuel_unread n) ?_ _ _
    cases n with
    | zero => rfl
    | succ n =>
      have named : (Node.element "apply" [⟨"template", name⟩] children).attribute? "template" =
          some name := rfl
      have same : (ofFuel n).perform (Splice.apply (.element "apply" [⟨"template", name⟩] children))
            s.begun =
          (ofFuel n).perform (Splice.boundTag directory template.document.content
            (.element tag [] children)) s.begun :=
        perform_apply_eq_boundTag (ofFuel_expand_moves n) (ofFuel_moves extends_frame n).expand
          named found bare rfl
      exact same.symm

/-- Gives its count, and leaves it as it is. -/
def counting : Splice := fun _ => .stop <| .tick 0 fun count => .done [.text (toString count)]

/-- The body of a frame, with a counter in it. -/
def frameBody : List Node :=
  [.element "main" [] [.element "count" [] [], .element "content" [] []]]

/-- A stage one level above the depth limit, in a directory of `q`, where a frame is stored and
where a tag was bound to the same body. -/
def frameStage : Stage where
  state :=
    { ((State.standard.bind "count" counting).bind "frame"
        (Splice.boundTag (.parse "q") frameBody)).addTemplate "q/frame"
          { format := .html, content := frameBody } with
      context := .parse "q/r", depth := 49 }
  ledger := { counts := #[0] }

theorem frameStage_agrees :
    let children : List Node :=
      [.element "bind" [⟨"tag", "x"⟩] [.text "X"], .element "count" [] [], .element "x" [] []]
    let expanded := (ofFuel 9).expand [.element "frame" [] children] frameStage
    let applied := (ofFuel 9).expand [.element "apply" [⟨"template", "frame"⟩] children] frameStage
    expanded.map Prod.fst =
        some [.element "main" [] [.text "2", .text "1", .text "X"]] ∧
      outcome expanded = outcome applied := by
  intro children expanded applied
  let template : Template := { document := { format := .html, content := frameBody } }
  have tagged : frameStage.state.splices.get? "frame" =
      some (Splice.boundTag (.parse "q") template.document.content) := rfl
  have found : frameStage.state.lookup "frame" = some (template, .parse "q") := rfl
  have agree : outcome expanded = outcome applied :=
    apply_agrees_with_bound_tag 9 frameStage tagged rfl (by decide) found rfl children
  exact ⟨by decide +kernel, agree⟩

end Engine

end Templating
