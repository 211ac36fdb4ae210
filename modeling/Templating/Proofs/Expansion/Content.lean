import Templating.Proofs.Expansion.Control
import Templating.Proofs.Expansion.Fuel
import Templating.Proofs.Expansion.Inert

/-!
# What `content` stands for

`apply` and the tags that `bind` binds open a body for their element: the children are
expanded where the element stands, and `content` is bound to the result `N` while the
body is expanded (`invoke_of_opens`). But `content` is bound as any nodes are: what it
gives is expanded again, under the bindings in force where it stands. So it gives
exactly `N`, with nothing more done, if and only if `N` is inert there
(`content_verbatim_iff_inert`). Where `N` has an element that is bound inside the body,
that element is replaced; a value in which a backslash has kept a placeholder apart
loses the placeholder; and what a splice has given with recursion stopped is expanded
after all (`stopped_content_expanded`).
-/

namespace Templating

open Markup (Attribute Node)

/-- The body that a splice opens for its element. -/
structure Opening where
  /-- The directory in which the body is expanded. -/
  directory : Path
  body : List Node
  /-- The doctype that is recorded first. -/
  doctype : Option String := none

/-- The splices that open a body, and the one they open in a state: that of the template
that is applied, or that of the tag. -/
inductive Opens (σ : State) : Splice → Node → Opening → Prop where
  | apply {use : Node} {name : String} {template : Template} {directory : Path}
      (named : use.attribute? "template" = some name)
      (found : σ.lookup name = some (template, directory)) :
      Opens σ Splice.apply use ⟨directory, template.document.content, template.document.doctype⟩
  | boundTag (use : Node) (directory : Path) (body : List Node) :
      Opens σ (Splice.boundTag directory body) use { directory, body }

namespace Stage

/-- The stage after recursion has been stopped. -/
def stopped (s : Stage) : Stage := { s with state := { s.state with recursing := false } }

/-- The stage in which an opened body is expanded. -/
def opened (s : Stage) (o : Opening) (content : List Node) : Stage :=
  descended
    { s with
      state :=
        { s.state with
          context := o.directory
          doctypes := s.state.doctypes ++ o.doctype.toList
          splices := s.state.splices.insert Splice.contentName (Splice.nodes content) } }

@[simp] theorem opened_content (s : Stage) (o : Opening) (content : List Node) :
    (s.opened o content).state.splices.get? Splice.contentName = some (Splice.nodes content) := by
  simp [opened]

end Stage

namespace Engine

open Run

/-! ### Opening a body -/

section

variable {e : Engine} {s s₁ : Stage} {splice : Splice} {use : Node} {content : List Node}
  {o : Opening}

theorem perform_recordDoctype (e : Engine) (doctype : Option String) (next : Script) (s : Stage) :
    e.perform (Splice.recordDoctype doctype next) s =
      e.perform next
        { s with state := { s.state with doctypes := s.state.doctypes ++ doctype.toList } } := by
  cases doctype with
  | none => rw [Splice.recordDoctype, Option.toList_none, List.append_nil]
  | some body => rfl

/-- A body is expanded one level deeper with `content` bound, and the splices are put back. -/
theorem expandBody_apply (e : Engine) (s : Stage) (content : List Node) (o : Opening)
    (depth : s.state.depth < depthLimit) :
    e.perform (Splice.expandBody o.directory o.body content)
        { s with state := { s.state with doctypes := s.state.doctypes ++ o.doctype.toList } } =
      (e.expand o.body (s.opened o content)).map fun p =>
        (p.1, p.2.ascended.withSplices s.state.splices) := by
  let bound : Stage :=
    { s with
      state :=
        { s.state with
          context := o.directory
          doctypes := s.state.doctypes ++ o.doctype.toList
          splices := s.state.splices.insert Splice.contentName (Splice.nodes content) } }
  have deeper : e.descend o.body bound =
      (e.expand o.body (s.opened o content)).map fun p => (p.1, p.2.ascended) :=
    e.descend_of_lt o.body depth
  simp only [Splice.expandBody, perform, bind_apply, modifyState_apply, Option.bind_some,
    keepingSplices_apply, State.bind]
  change Option.bind (Option.map _ (Option.bind (e.descend o.body bound) _)) _ = _
  rw [deeper]
  cases e.expand o.body (s.opened o content) <;> rfl

/-- What a splice does that opens a body. -/
theorem perform_of_opens
    (children : e.expand use.children s.stopped = some (content, s₁))
    (opens : Opens s₁.state splice use o) (depth : s₁.state.depth < depthLimit) :
    e.perform (splice use) s =
      (e.expand o.body (s₁.opened o content)).map fun p =>
        (p.1, p.2.ascended.withSplices s₁.state.splices) := by
  rw [← e.expandBody_apply s₁ content o depth]
  cases opens with
  | boundTag use directory body =>
    simp only [Splice.boundTag, perform, bind_apply, modifyState_apply, Option.bind_some]
    change Option.bind (e.expand use.children s.stopped) _ = _
    rw [children, Option.bind_some, Option.toList_none, List.append_nil]
  | @apply _ name template directory named found =>
    simp only [Splice.apply, named, perform, bind_apply, modifyState_apply, Option.bind_some]
    change Option.bind (e.expand use.children s.stopped) _ = _
    rw [children, Option.bind_some, state_apply, Option.bind_some]
    have found : resolve s₁.state.view.templates s₁.state.view.context name =
        some (template, directory) := found
    rw [found]
    exact e.perform_recordDoctype _ _ s₁

/-- **An opened body** takes the place of the element: it is expanded with `content` bound
to the expanded children, and not expanded again. -/
theorem invoke_of_opens (keeps : ∀ nodes, Moves SameControl (e.expand nodes)) {tag : String}
    (children : e.expand use.children (s.entered tag).stopped = some (content, s₁))
    (opens : Opens s₁.state splice use o) (depth : s.state.depth < depthLimit) :
    e.next.invoke tag splice use s =
      (e.expand o.body (s₁.opened o content)).map fun p =>
        (p.1, (p.2.ascended.withSplices s₁.state.splices).withControl s.state.control) := by
  have same : s₁.state.control = (s.entered tag).stopped.state.control :=
    keeps use.children _ content s₁ children
  have depth₁ : s₁.state.depth < depthLimit := by
    rw [show s₁.state.depth = s.state.depth from congrArg Control.depth same]
    exact depth
  rw [invoke_apply]
  change Option.map _ (Option.bind (e.perform (splice use) (s.entered tag)) _) = _
  rw [perform_of_opens children opens depth₁]
  cases hb : e.expand o.body (s₁.opened o content) with
  | none => rfl
  | some p =>
    -- Recursion is still stopped when the body has been expanded.
    have kept : p.2.state.control = (s₁.opened o content).state.control :=
      keeps o.body _ p.1 p.2 hb
    have stopped : (p.2.ascended.withSplices s₁.state.splices).state.recursing = false :=
      (congrArg Control.recursing kept).trans (congrArg Control.recursing same)
    rw [Option.map_some, Option.bind_some, expandResult_of_stopped _ _ stopped]
    rfl

end

/-! ### Where `content` stands -/

/-- Nodes that a name is bound to are expanded again where it stands. -/
theorem expandNode_of_nodes (e : Engine) {name : String} {as as' : List Attribute}
    (cs : List Node) {content : List Node} {r t : Stage}
    (attributes : e.next.attributes as r = some (as', t))
    (bound : t.state.splices.get? name = some (Splice.nodes content))
    (depth : t.state.depth < depthLimit) :
    e.next.expandNode (.element name as cs) r =
      (e.expandNodes content (t.entered name).descended).map fun p =>
        (p.1, p.2.withControl t.state.control) := by
  rw [e.next.expandNode_of_bound attributes bound, invoke_apply]
  change Option.map _ (e.next.expandResult content (t.entered name)) = _
  rw [e.next.expandResult_of_lt (s := t.entered name) content rfl depth]
  rfl

/-- **Content stands as it is** exactly where it is inert. If the children of a call are
expanded to `N` where the call stands, the opened body is expanded with `content` bound
to `N`; and wherever `content` stands for `N`, it gives `N` with nothing more invoked or
expanded if and only if no element of `N` is bound there and no value of `N` mentions a
placeholder. -/
theorem content_verbatim_iff_inert {n : Nat} {s s₁ : Stage} {tag : String} {splice : Splice}
    {use : Node} {N : List Node} {o : Opening}
    (children : (ofFuel n).expand use.children (s.entered tag).stopped = some (N, s₁))
    (opens : Opens s₁.state splice use o) (depth : s.state.depth < depthLimit) :
    (∀ m, n ≤ m →
      (ofFuel (m + 1)).invoke tag splice use s =
        ((ofFuel m).expand o.body (s₁.opened o N)).map fun p =>
          (p.1, (p.2.ascended.withSplices s₁.state.splices).withControl s.state.control)) ∧
    (s₁.opened o N).state.splices.get? Splice.contentName = some (Splice.nodes N) ∧
    ∀ m as cs r as' t, (ofFuel (m + 1)).attributes as r = some (as', t) →
      t.state.splices.get? Splice.contentName = some (Splice.nodes N) →
      t.state.depth < depthLimit →
      ((∃ r', (ofFuel (m + 1)).expandNode (.element Splice.contentName as cs) r = some (N, r') ∧
          r'.ledger.journal =
            .descended t.state.depth :: .invoked Splice.contentName t.state.depth ::
              t.ledger.journal) ↔
        Inert t.state.splices N) := by
  refine ⟨fun m hm => ?_, s₁.opened_content o N, ?_⟩
  · have children := (ofFuel_below hm).expand use.children _ _ children
    exact invoke_of_opens (ofFuel_expand_moves m) children opens depth
  · intro m as cs r as' t attributes bound depth
    have stands := (ofFuel m).expandNode_of_nodes cs attributes bound depth
    rw [ofFuel_succ, stands]
    constructor
    · rintro ⟨r', given, quiet⟩
      rw [Option.map_eq_some_iff] at given
      obtain ⟨⟨N', t'⟩, run, given⟩ := given
      cases given
      exact (expandNodes_quiet (ofFuel_moves journalGrows_frame m) run quiet).2 rfl
    · intro inert
      have run : (ofFuel m).expandNodes N (t.entered Splice.contentName).descended =
          some (N, (t.entered Splice.contentName).descended) :=
        (ofFuel m).expandNodes_of_inert inert
      rw [run]
      exact ⟨_, rfl, rfl⟩

/-- A stage where `b` is bound to a text, `raw` gives a node with recursion stopped, and the
template `layout` as well as the tag `frame` are their content alone. -/
def layoutStage (raw : Node) : Stage where
  state :=
    (((State.standard.bind "b" (Splice.text "B")).bind "raw" fun _ => .stop <| .done [raw]).bind
      "frame" (Splice.boundTag .root [.element "content" [] []])).addTemplate
        "layout" { format := .html, content := [.element "content" [] []] }

theorem unbound_content_verbatim :
    let given : List Node := [.element "i" [⟨"class", "x"⟩] [], .text "B"]
    let frame : Opening := { directory := .root, body := [.element "content" [] []] }
    ∃ s₁ r', (ofFuel 3).expand [.element "raw" [] [], .element "b" [] []]
        ((layoutStage (.element "i" [⟨"class", "x"⟩] [])).entered "frame").stopped =
          some (given, s₁) ∧
      (ofFuel 4).expandNode (.element "content" [] []) (s₁.opened frame given) =
        some (given, r') := by
  intro given frame
  let use : Node := .element "frame" [] [.element "raw" [] [], .element "b" [] []]
  obtain ⟨s₁, children, depth, splices⟩ : ∃ s₁, (ofFuel 3).expand use.children
      ((layoutStage (.element "i" [⟨"class", "x"⟩] [])).entered "frame").stopped =
        some (given, s₁) ∧ s₁.state.depth = 0 ∧
      s₁.state.splices = (layoutStage (.element "i" [⟨"class", "x"⟩] [])).state.splices :=
    ⟨_, rfl, rfl, rfl⟩
  have inert : Inert (s₁.opened frame given).state.splices given := by
    simp only [Stage.opened, Stage.descended_splices, splices]
    exact ⟨⟨rfl, by decide, trivial⟩, trivial, trivial⟩
  have stands := (content_verbatim_iff_inert children (.boundTag use .root frame.body)
    (by decide)).2.2 3 [] [] (s₁.opened frame given) [] (s₁.opened frame given) rfl
      (s₁.opened_content frame given) (by simp [Stage.opened, depth, depthLimit])
  obtain ⟨r', run, -⟩ := stands.mpr inert
  exact ⟨s₁, r', children, run⟩

/-- What was given with recursion stopped is replaced after all where `content` stands. -/
theorem stopped_content_expanded :
    (∃ s₁, (ofFuel 3).expand [.element "raw" [] []]
      ((layoutStage (.element "b" [] [])).entered "apply").stopped =
        some ([.element "b" [] []], s₁)) ∧
    ∃ s', (ofFuel 6).expand
        [.element "apply" [⟨"template", "layout"⟩] [.element "raw" [] []]]
        (layoutStage (.element "b" [] [])) =
      some ([.text "B"], s') :=
  ⟨⟨_, rfl⟩, ⟨_, rfl⟩⟩

end Engine

end Templating
