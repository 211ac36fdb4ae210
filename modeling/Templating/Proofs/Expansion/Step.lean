import Templating.Proofs.Expansion.Run

/-!
# The steps of expansion

What each operation of expansion answers, in terms of the engine that it goes on with,
and one equation for each of its cases. The stages that a step passes through have
names here: `entered` by a splice, `descended` one level, `ascended` one level,
`refused` by the depth limit.
-/

namespace Templating

open Markup (Attribute Node)

namespace Stage

/-- The stage when the splice of a name begins. -/
def entered (s : Stage) (name : String) : Stage where
  state := { s.state with recursing := true }
  ledger := s.ledger.record (.invoked name s.state.depth)

/-- The stage one level deeper. -/
def descended (s : Stage) : Stage where
  state := { s.state with depth := s.state.depth + 1 }
  ledger := s.ledger.record (.descended s.state.depth)

/-- The stage one level less deep. -/
def ascended (s : Stage) : Stage where
  state := { s.state with depth := s.state.depth - 1 }
  ledger := s.ledger.record (.ascended s.state.depth)

/-- The stage when the depth limit has held expansion back. -/
def refused (s : Stage) : Stage where
  state := s.state
  ledger := s.ledger.record (.refused s.state.depth)

@[simp] theorem descended_splices (s : Stage) : s.descended.state.splices = s.state.splices := rfl

@[simp] theorem descended_depth (s : Stage) : s.descended.state.depth = s.state.depth + 1 := rfl

/-- What the hooks of a slot make of nodes, and the stage after them. -/
def hooked (s : Stage) (slot : HookSlot) (nodes : List Node) : List Node × Stage :=
  let applied := (s.ledger.record (.hooked slot nodes)).applyHooks (s.state.hooks slot) nodes
  (applied.1, { s with ledger := applied.2 })

/-- Without hooks, nodes stay as they are. -/
theorem hooked_of_nil {s : Stage} {slot : HookSlot} (h : s.state.hooks slot = [])
    (nodes : List Node) :
    s.hooked slot nodes = (nodes, { s with ledger := s.ledger.record (.hooked slot nodes) }) := by
  rw [hooked, h]
  rfl

/-- The stage when a template with this doctype is evaluated. -/
def evaluating (s : Stage) (doctype : Option String) : Stage :=
  { s with state := { s.state with doctypes := s.state.doctypes ++ doctype.toList } }

/-- The stage in another directory. -/
def located (s : Stage) (context : Path) : Stage := { s with state := { s.state with context } }

/-- Going down and coming back restores the control state. -/
theorem ascended_control {s t : Stage} (h : t.state.control = s.descended.state.control) :
    t.ascended.state.control = s.state.control := by
  simp only [State.control, Control.mk.injEq] at h ⊢
  obtain ⟨hc, hr, hd⟩ := h
  exact ⟨hc, hr, by simp [ascended, hd]⟩

end Stage

namespace Engine

variable (e : Engine) {s t : Stage} {name : String} {splice : Splice} {as as' : List Attribute}
  {cs : List Node}

theorem enter_apply (name : String) (s : Stage) : enter name s = some ((), s.entered name) := rfl

theorem placeholder_of_unbound (h : s.state.splices.get? name = none) :
    e.placeholder name s = some (none, s) := by
  simp [placeholder, h]

theorem placeholder_of_bound (h : s.state.splices.get? name = some splice) :
    e.placeholder name s = (e.call splice (.text "") (s.entered name)).map fun p =>
      (some p.1, p.2.withControl s.state.control) := by
  simp only [placeholder, Run.bind_apply, Run.state_apply, Option.bind_some, h,
    Run.keepingControl_apply, enter_apply]
  cases e.call splice (.text "") (s.entered name) <;> rfl

theorem expandResult_of_stopped (result : List Node) (h : s.state.recursing = false) :
    e.expandResult result s = some (result, s) := by
  simp [expandResult, h]

theorem expandResult_of_le (result : List Node) (h : s.state.recursing = true)
    (hd : depthLimit ≤ s.state.depth) : e.expandResult result s = some (result, s.refused) := by
  simp [expandResult, h, hd, Stage.refused]

theorem expandResult_of_lt (result : List Node) (h : s.state.recursing = true)
    (hd : s.state.depth < depthLimit) :
    e.expandResult result s = e.expand result s.descended := by
  simp [expandResult, h, Nat.not_le.mpr hd, Stage.descended]

theorem invoke_apply (name : String) (splice : Splice) (node : Node) (s : Stage) :
    e.invoke name splice node s =
      ((e.call splice node (s.entered name)).bind fun p => e.expandResult p.1 p.2).map fun p =>
        (p.1, p.2.withControl s.state.control) := by
  simp [invoke, enter_apply]

theorem expandNode_of_bound (ha : e.attributes as s = some (as', t))
    (h : t.state.splices.get? name = some splice) :
    e.expandNode (.element name as cs) s = e.invoke name splice (.element name as' cs) t := by
  simp [expandNode, ha, h]

theorem expandNode_of_unbound (ha : e.attributes as s = some (as', t))
    (h : t.state.splices.get? name = none) :
    e.expandNode (.element name as cs) s =
      (e.expandNodes cs t).map fun p => ([.element name as' p.1], p.2) := by
  simp [expandNode, ha, h]

theorem descend_of_le (nodes : List Node) (h : depthLimit ≤ s.state.depth) :
    e.descend nodes s = some (nodes, s.refused) := by
  simp [descend, h, Stage.refused]

theorem descend_of_lt (nodes : List Node) (h : s.state.depth < depthLimit) :
    e.descend nodes s = (e.expand nodes s.descended).map fun p => (p.1, p.2.ascended) := by
  simp only [descend, Run.bind_apply, Run.state_apply, Option.bind_some, ge_iff_le,
    Nat.not_le.mpr h, if_false, Run.record_apply, Run.modifyState_apply]
  change (e.expand nodes s.descended).bind _ = _
  cases e.expand nodes s.descended <;> rfl

theorem applyHooks_eq (slot : HookSlot) (nodes : List Node) (s : Stage) :
    Run.applyHooks slot nodes s = some (s.hooked slot nodes) := rfl

theorem evaluate_of_missing (h : s.state.lookup name = none) :
    e.evaluate name s = some (none, s) := by
  simp [evaluate, h]

/-- A template is expanded in its directory, between the hooks for a run. -/
theorem evaluate_of_found {template : Template} {directory : Path} {body : List Node}
    (h : s.state.lookup name = some (template, directory))
    (before : (s.evaluating template.document.doctype).hooked .preRun template.document.content =
      (body, t)) :
    e.evaluate name s = (e.expand body (t.located directory)).map fun p =>
      let after := (p.2.withControl s.state.control).hooked .postRun p.1
      (some after.1, after.2) := by
  obtain rfl := congrArg Prod.fst before
  obtain rfl := congrArg Prod.snd before
  let hooked := (s.evaluating template.document.doctype).hooked .preRun template.document.content
  simp only [evaluate, Run.bind_apply, Run.state_apply, Option.bind_some, h,
    Run.modifyState_apply, applyHooks_eq, Run.keepingControl_apply]
  change Option.bind (Option.map _ (e.expand hooked.1 (hooked.2.located directory))) _ =
    Option.map _ (e.expand hooked.1 (hooked.2.located directory))
  cases e.expand hooked.1 (hooked.2.located directory) <;> rfl

/-- The template that is found is evaluated. -/
theorem isSome_of_evaluate {s' : Stage} {template : Template} {directory : Path}
    {found : Option (List Node)}
    (h : s.state.lookup name = some (template, directory))
    (run : e.evaluate name s = some (found, s')) : ∃ out, found = some out := by
  rw [e.evaluate_of_found h rfl, Option.map_eq_some_iff] at run
  obtain ⟨p, -, hp⟩ := run
  cases hp
  exact ⟨_, rfl⟩

/-- A render evaluates its template on a copy of the state. -/
theorem render_of_found {template : Template} {directory : Path}
    (h : s.state.lookup name = some (template, directory)) :
    e.render name s =
      (e.evaluate name { s with state := s.state.forRender }).map fun p =>
        (p.1.map fun content => Rendered.ofDocument
          { template.document with content, doctype := p.2.state.doctypes.getLast? },
          { p.2 with state := s.state }) := by
  simp only [render, Run.bind_apply, Run.state_apply, Option.bind_some, h, Run.modifyState_apply]
  cases e.evaluate name { s with state := s.state.forRender } <;> rfl

end Engine

end Templating
