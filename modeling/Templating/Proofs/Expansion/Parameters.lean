import Templating.Proofs.Expansion.Fuel
import Templating.Proofs.Expansion.Step
import Templating.Proofs.Registry

/-!
# Filling templates

Where nothing but texts is bound, expansion is filling: every element of a bound name
becomes the text of that name, every placeholder in the values of the other elements is
replaced by it, and the rest stays as it is (`expandNodes_gives`). The texts are not
expanded themselves, since nothing in a text is, so that the depth does not matter, not
even at its limit (`texts_expand_by_filling`). So a render ends, and its page is the
template filled (`render_fills`).
-/

namespace Templating

open Markup (Attribute Document Node)

/-! ### Filling -/

/-- The names that are bound to texts, with these texts. -/
abbrev Parameters := String → Option String

namespace Parameters

/-- The names, each bound to its value. -/
def of (names : List String) (value : String → String) : Parameters :=
  fun name => if name ∈ names then some (value name) else none

variable (params : Parameters)

/-- What the placeholder of a name stands for. -/
def placeholder (name : String) : Option (List Node) := (params name).map fun value => [.text value]

/-- A value with its placeholders filled. -/
def fillValue (raw : String) : String := Interpolation.substitute (m := Id) params.placeholder raw

/-- An attribute with the placeholders of its value filled. -/
def fillAttribute (a : Attribute) : Attribute := ⟨a.name, params.fillValue a.value⟩

mutual

/-- A node filled: the text of its name, if that is bound. -/
def fillNode : Node → Node
  | .element name as cs =>
    match params name with
    | some value => .text value
    | none => .element name (as.map params.fillAttribute) (fillNodes cs)
  | leaf => leaf

/-- Nodes filled, in order. -/
def fillNodes : List Node → List Node
  | [] => []
  | node :: nodes => fillNode node :: fillNodes nodes

end

/-- A document filled. -/
def fill (doc : Document) : Document := { doc with content := params.fillNodes doc.content }

end Parameters

/-- Nothing is bound but the parameters, to their texts. -/
def State.BindsOnly (σ : State) (params : Parameters) : Prop :=
  ∀ name, σ.splices.get? name = (params name).map Splice.text

/-- Names bound to texts in a state without splices. -/
theorem State.bindTexts_bindsOnly {σ : State} (h : σ.splices = ∅) (names : List String)
    (value : String → String) :
    (σ.bindTexts (names.map fun name => (name, value name))).BindsOnly (.of names value) := by
  intro name
  have bindings : (names.map fun name => (name, value name)).map (fun x => (x.1, Splice.text x.2)) =
      names.map fun name => (name, Splice.text (value name)) := by
    rw [List.map_map]
    rfl
  rw [bindTexts, bindAll, h, bindings, Registry.get?_insertAll, Registry.last?_map, Parameters.of]
  split <;> rfl

/-- Nothing is bound but texts if and only if it is parameters. -/
theorem State.exists_bindsOnly_iff {σ : State} :
    (∃ params, σ.BindsOnly params) ↔
      ∀ name splice, σ.splices.get? name = some splice → ∃ value, splice = Splice.text value := by
  constructor
  · rintro ⟨params, binds⟩ name splice bound
    rw [binds name, Option.map_eq_some_iff] at bound
    obtain ⟨value, -, rfl⟩ := bound
    exact ⟨value, rfl⟩
  · intro texts
    have each : ∀ name, ∃ value? : Option String, σ.splices.get? name = value?.map Splice.text := by
      intro name
      cases bound : σ.splices.get? name with
      | none => exact ⟨none, rfl⟩
      | some splice =>
        obtain ⟨value, rfl⟩ := texts name splice bound
        exact ⟨some value, rfl⟩
    exact Classical.skolem.mp each

namespace Run

variable {α β : Type} {σ : State}

/-- On a stage in the state, the run answers `a`, and changes nothing but the ledger. -/
def Gives (σ : State) (r : Run α) (a : α) : Prop :=
  ∀ s : Stage, s.state = σ → ∃ s', r s = some (a, s') ∧ s'.state = σ

theorem gives_pure (a : α) : Gives σ (pure a) a := fun s hs => ⟨s, rfl, hs⟩

theorem gives_state : Gives σ state σ := fun s hs => ⟨s, by rw [state_apply, hs], hs⟩

theorem Gives.bind {r : Run α} {f : α → Run β} {a : α} {b : β} (hr : Gives σ r a)
    (hf : Gives σ (f a) b) : Gives σ (r >>= f) b := by
  intro s hs
  obtain ⟨s', h, hs'⟩ := hr s hs
  obtain ⟨s'', h', hs''⟩ := hf s' hs'
  exact ⟨s'', bind_eq_some.mpr ⟨a, s', h, h'⟩, hs''⟩

end Run

namespace Engine

open Run

/-! ### Expanding -/

/-- The engine gives texts as they are, called or expanded. -/
structure Speaks (e : Engine) : Prop where
  call : ∀ value node s, e.call (.text value) node s = some ([.text value], s)
  expand : ∀ value s, e.expand [.text value] s = some ([.text value], s)

theorem ofFuel_speaks (n : Nat) : (ofFuel (n + 1)).Speaks where
  call _ _ _ := rfl
  expand _ _ := rfl

section

variable {e : Engine} (he : e.Speaks) {σ : State} {params : Parameters}
  (h : σ.BindsOnly params)

include he h

theorem placeholder_gives (name : String) :
    Gives σ (e.placeholder name) (params.placeholder name) := by
  intro s hs
  have bound := h name
  rw [← hs] at bound
  cases hp : params name with
  | none =>
    rw [hp] at bound
    rw [e.placeholder_of_unbound bound, Parameters.placeholder, hp]
    exact ⟨s, rfl, hs⟩
  | some value =>
    rw [hp] at bound
    rw [e.placeholder_of_bound bound, he.call, Parameters.placeholder, hp]
    exact ⟨_, rfl, hs⟩

theorem fill_gives : ∀ pieces, Gives σ (Interpolation.fill e.placeholder pieces)
    (Interpolation.fill (m := Id) params.placeholder pieces)
  | [] => gives_pure _
  | .literal _ :: pieces => (fill_gives pieces).bind (gives_pure _)
  | .placeholder name :: pieces =>
    (placeholder_gives he h name).bind ((fill_gives pieces).bind (gives_pure _))

theorem substitute_gives (raw : String) : Gives σ (e.substitute raw) (params.fillValue raw) := by
  rw [substitute, Parameters.fillValue, Interpolation.substitute, Interpolation.substitute]
  split
  · split
    · exact gives_pure _
    · exact fill_gives he h _
  · exact gives_pure _

theorem attributes_gives : ∀ as, Gives σ (e.attributes as) (as.map params.fillAttribute)
  | [] => gives_pure _
  | a :: as =>
    (substitute_gives he h a.value).bind ((attributes_gives as).bind (gives_pure _))

omit h in
/-- A text in the place of an element stays, at any depth. -/
theorem invoke_gives (name value : String) (node : Node) :
    Gives σ (e.invoke name (.text value) node) [.text value] := by
  intro s hs
  rw [e.invoke_apply, he.call, Option.bind_some]
  by_cases deep : depthLimit ≤ s.state.depth
  · have refused := e.expandResult_of_le (s := s.entered name) [.text value] rfl deep
    rw [refused]
    exact ⟨_, rfl, hs⟩
  · have descended := e.expandResult_of_lt (s := s.entered name) [.text value] rfl
      (Nat.lt_of_not_le deep)
    rw [descended, he.expand]
    exact ⟨_, rfl, hs⟩

end

mutual

theorem expandNode_gives {e : Engine} (he : e.Speaks) {σ : State} {params : Parameters}
    (h : σ.BindsOnly params) : ∀ node, Gives σ (e.expandNode node) [params.fillNode node]
  | .element name as cs => by
    refine (attributes_gives he h as).bind (gives_state.bind ?_)
    rw [h name, Parameters.fillNode]
    cases params name with
    | none => exact (expandNodes_gives he h cs).bind (gives_pure _)
    | some value => exact invoke_gives he name value _
  | .text _ | .comment _ | .cdata _ | .instruction _ => gives_pure _

/-- **Expanding nodes** where nothing but texts is bound fills them. -/
theorem expandNodes_gives {e : Engine} (he : e.Speaks) {σ : State} {params : Parameters}
    (h : σ.BindsOnly params) : ∀ nodes, Gives σ (e.expandNodes nodes) (params.fillNodes nodes)
  | [] => gives_pure _
  | node :: nodes =>
    (expandNode_gives he h node).bind ((expandNodes_gives he h nodes).bind (gives_pure _))

end

/-- **Where nothing but texts is bound**, expansion is one pass: in any directory, at any depth
and whatever the flag says, it ends in the nodes filled and leaves the state as it was. The
depth limit, which leaves a text at the limit as it is given, does not show. -/
theorem texts_expand_by_filling (s : Stage) (nodes : List Node)
    (texts : ∀ name splice, s.state.splices.get? name = some splice →
      ∃ value, splice = Splice.text value) :
    ∃ params : Parameters, s.state.BindsOnly params ∧
      ∀ c : Control, ∃ s', EndsIn (fun n => (ofFuel n).expand nodes) (s.withControl c)
          (params.fillNodes nodes) s' ∧
        s'.state = (s.withControl c).state := by
  obtain ⟨params, binds⟩ := State.exists_bindsOnly_iff.mpr texts
  refine ⟨params, binds, fun c => ?_⟩
  have bound : (s.withControl c).state.BindsOnly params := binds
  obtain ⟨s', run, state⟩ := expandNodes_gives (ofFuel_speaks 0) bound nodes (s.withControl c) rfl
  have run : (ofFuel 2).expand nodes (s.withControl c) = some (params.fillNodes nodes, s') := run
  exact ⟨s', expand_endsIn run, state⟩

/-- Nodes in which names of texts stand inside each other and inside values. -/
def letterNodes : List Node :=
  [.element "p" [⟨"title", "to $(who), \\$(who)$(no)"⟩]
      [.element "who" [⟨"x", "$(who)"⟩] [.element "who" [] []], .comment "$(who)"],
    .element "tag" [] [.text "who"]]

/-- A stage where `who` and `tag` are bound to texts that look like a placeholder and a tag. -/
def letterStage : Stage where
  state := State.empty.bindTexts
    (["who", "tag"].map fun name => (name, if name = "who" then "$(tag)" else "<who/>"))

theorem letter_expands_by_filling :
    let limit : Control := ⟨.parse "q", false, depthLimit⟩
    (∀ name splice, letterStage.state.splices.get? name = some splice →
        ∃ value, splice = Splice.text value) ∧
      ∃ params : Parameters, params.fillNodes letterNodes =
          [.element "p" [⟨"title", "to $(tag), $(who)"⟩] [.text "$(tag)", .comment "$(who)"],
            .text "<who/>"] ∧
        ∃ s', EndsIn (fun n => (ofFuel n).expand letterNodes) (letterStage.withControl limit)
            (params.fillNodes letterNodes) s' ∧
          s'.state = (letterStage.withControl limit).state := by
  intro limit
  have texts := State.exists_bindsOnly_iff.mp
    ⟨_, State.bindTexts_bindsOnly (σ := .empty) rfl ["who", "tag"]
      fun name => if name = "who" then "$(tag)" else "<who/>"⟩
  obtain ⟨params, -, filled⟩ := texts_expand_by_filling letterStage letterNodes texts
  obtain ⟨s', run, state⟩ := filled limit
  have direct : ((ofFuel 2).expand letterNodes (letterStage.withControl limit)).map Prod.fst =
      some [.element "p" [⟨"title", "to $(tag), $(who)"⟩] [.text "$(tag)", .comment "$(who)"],
        .text "<who/>"] := by
    decide +kernel
  obtain ⟨⟨out, t⟩, direct, rfl⟩ := Option.map_eq_some_iff.mp direct
  exact ⟨texts, params, (run.unique (expand_endsIn direct)).1, s', run, state⟩

/-! ### Rendering -/

section

variable {s : Stage} {params : Parameters} (h : s.state.BindsOnly params)
  (before : s.state.preRun = []) (after : s.state.postRun = []) {name : String}
  {template : Template} {directory : Path}
  (hl : s.state.lookup name = some (template, directory))

include h before after hl

/-- The evaluation of a template fills its content, and records its doctype. -/
theorem evaluate_fills : ∃ s',
    (ofFuel 2).evaluate name s = some (some (params.fillNodes template.document.content), s') ∧
      s'.state = (s.evaluating template.document.doctype).state := by
  let evaluating := s.evaluating template.document.doctype
  have unhooked : evaluating.state.hooks .preRun = [] := before
  have first := Stage.hooked_of_nil unhooked template.document.content
  let begun : Stage :=
    { evaluating with
      ledger := evaluating.ledger.record (.hooked .preRun template.document.content) }
  have bound : (begun.located directory).state.BindsOnly params := h
  obtain ⟨t, run, ht⟩ := expandNodes_gives (ofFuel_speaks 0) bound template.document.content
    (begun.located directory) rfl
  have run : (ofFuel 2).expand template.document.content (begun.located directory) =
      some (params.fillNodes template.document.content, t) := run
  have kept : (t.withControl s.state.control).state = evaluating.state := by
    rw [Stage.withControl, ht]
    rfl
  have unhooked : (t.withControl s.state.control).state.hooks .postRun = [] := by
    rw [kept]
    exact after
  have last := Stage.hooked_of_nil unhooked (params.fillNodes template.document.content)
  rw [evaluate_of_found _ hl first, run, Option.map_some]
  simp only [last]
  exact ⟨_, rfl, kept⟩

/-- **A template** is rendered to what it is when it is filled, where nothing but texts is
bound and no hooks are there. -/
theorem render_fills : ∃ s', EndsIn (fun n => (ofFuel n).render name) s
    (some (Rendered.ofDocument (params.fill template.document))) s' := by
  let copy : Stage := { s with state := s.state.forRender }
  obtain ⟨t, run, ht⟩ := evaluate_fills (s := copy) h before after hl
  have doctype : t.state.doctypes.getLast? = template.document.doctype := by
    rw [ht]
    change ([] ++ template.document.doctype.toList).getLast? = template.document.doctype
    cases template.document.doctype <;> rfl
  have rendered := render_of_found (ofFuel 2) hl
  rw [run, Option.map_some, doctype] at rendered
  exact ⟨_, render_endsIn rendered⟩

end

end Engine

end Templating
