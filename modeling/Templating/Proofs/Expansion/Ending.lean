import Templating.Proofs.Expansion.Step

/-!
# When expansion ends

Whether expansion ends is decided by the calls of splices. At one depth the names that are
called are those that the nodes mention (`mentioned`), as elements or in placeholders;
what splices and templates add to them is expanded one level deeper. So if everything
ends one level deeper, and at this level the calls of all names that the nodes mention
do, expanding the nodes ends (`expandNodes_ends`). If calls end at every level where
everything ends one level deeper, everything ends (`expandsAt_of_calls`): what decreases is
the distance to the depth limit.

All this is relative to a condition on states that runs keep up (`Steady`). The standard
splices and the tags that `bind` binds are shown to end under any such condition
(`call_ends`): at their own depth they expand no more than the children of the node that
invokes them. That every run restores the depth is part of what is shown, since what comes
after a run has to be as far from the limit as what came before it.
-/

namespace Templating

open Markup (Attribute Node)

/-! ### The names that nodes mention -/

/-- The names of the placeholders in a value. -/
def Interpolation.placeholders (raw : String) : List String :=
  ((parse? raw).getD []).filterMap fun
    | .placeholder name => some name
    | .literal _ => none

mutual

/-- The names of the elements of a node and of the placeholders in their attributes. -/
def mentionedIn : Node → List String
  | .element name as cs =>
    name :: as.flatMap (fun a => Interpolation.placeholders a.value) ++ mentioned cs
  | _ => []

/-- The names that nodes mention. -/
def mentioned : List Node → List String
  | [] => []
  | node :: nodes => mentionedIn node ++ mentioned nodes

end

/-! ### Conditions that runs keep up -/

/-- A condition on states that runs keep up as long as they bind standard splices only. -/
structure Steady (Ok : State → Prop) : Prop where
  control : ∀ {σ}, Ok σ → ∀ context recursing depth, Ok { σ with context, recursing, depth }
  doctypes : ∀ {σ}, Ok σ → ∀ doctypes, Ok { σ with doctypes }
  bind : ∀ {σ}, Ok σ → ∀ name {splice : Splice}, splice.IsStandard → Ok (σ.bind name splice)
  splices : ∀ {σ τ}, Ok σ → Ok τ → Ok { τ with splices := σ.splices }

theorem Steady.bindTexts {Ok : State → Prop} (ok : Steady Ok) {σ : State} (h : Ok σ)
    (args : List (String × String)) : Ok (σ.bindTexts args) := by
  induction args generalizing σ with
  | nil => exact h
  | cons arg args ih => exact ih (ok.bind h arg.1 (.text arg.2))

/-- A stage whose state meets the condition, at a depth. -/
def Stage.Meets (Ok : State → Prop) (d : Nat) (s : Stage) : Prop := Ok s.state ∧ s.state.depth = d

section

variable {Ok : State → Prop} (ok : Steady Ok) {d d' : Nat} {s t : Stage}

include ok

theorem Stage.Meets.withControl (hs : s.Meets Ok d) (ht : Ok t.state) :
    (t.withControl s.state.control).Meets Ok d := ⟨ok.control ht _ _ _, hs.2⟩

theorem Stage.Meets.withSplices (hs : s.Meets Ok d) (ht : t.Meets Ok d') :
    (t.withSplices s.state.splices).Meets Ok d' := ⟨ok.splices hs.1 ht.1, ht.2⟩

theorem Stage.Meets.entered (hs : s.Meets Ok d) (name : String) : (s.entered name).Meets Ok d :=
  ⟨ok.control hs.1 s.state.context true s.state.depth, hs.2⟩

theorem Stage.Meets.descended (hs : s.Meets Ok d) : s.descended.Meets Ok (d + 1) :=
  ⟨ok.control hs.1 s.state.context s.state.recursing _, congrArg (· + 1) hs.2⟩

theorem Stage.Meets.ascended (hs : s.Meets Ok (d + 1)) : s.ascended.Meets Ok d :=
  ⟨ok.control hs.1 s.state.context s.state.recursing _, congrArg (· - 1) hs.2⟩

end

/-! ### Runs that end -/

namespace Run

variable {α β : Type} {I J K : Stage → Prop}

/-- From every stage in `I` the runs end, with a stage in `J`. -/
def Ends (I J : Stage → Prop) (r : Nat → Run α) : Prop :=
  ∀ s, I s → ∃ a s', EndsIn r s a s' ∧ J s'

theorem ends_pure (a : α) : Ends I I fun _ => (pure a : Run α) :=
  fun s hs => ⟨a, s, endsIn_of_eq fun _ => rfl, hs⟩

theorem Ends.bind {r : Nat → Run α} {f : Nat → α → Run β} (hr : Ends I J r)
    (hf : ∀ a, Ends J K (f · a)) : Ends I K fun n => r n >>= f n := by
  intro s hs
  obtain ⟨a, s', ha, hs'⟩ := hr s hs
  obtain ⟨b, s'', hb, hs''⟩ := hf a s' hs'
  exact ⟨b, s'', ha.bind hb, hs''⟩

/-- Runs that begin with a step which always answers end if what follows it does. -/
theorem Ends.after {r r' : Nat → Run α} (h : Ends J K r') (step : Stage → Stage)
    (hstep : ∀ s, I s → J (step s)) (eq : ∀ n s, r n s = r' n (step s)) : Ends I K r := by
  intro s hs
  obtain ⟨a, s', ha, hs'⟩ := h (step s) (hstep s hs)
  exact ⟨a, s', ha.congr fun n => eq n s, hs'⟩

theorem Ends.of_succ {r : Nat → Run α} (h : Ends I J fun n => r (n + 1)) : Ends I J r := by
  intro s hs
  obtain ⟨a, s', ha, hs'⟩ := h s hs
  exact ⟨a, s', ha.of_succ, hs'⟩

theorem Ends.keepingSplices {Ok : State → Prop} (ok : Steady Ok) {r : Nat → Run α} {d d' : Nat}
    (h : Ends (Stage.Meets Ok d) (Stage.Meets Ok d') r) :
    Ends (Stage.Meets Ok d) (Stage.Meets Ok d') fun n => keepingSplices (r n) := by
  intro s hs
  obtain ⟨a, t, ha, ht⟩ := h s hs
  exact ⟨a, t.withSplices s.state.splices,
    ha.map (fun p => (p.1, p.2.withSplices s.state.splices)) fun n => keepingSplices_apply (r n) s,
    hs.withSplices ok ht⟩

end Run

namespace Engine

open Run

variable {Ok : State → Prop} {d : Nat}

/-- At this depth the runs end, and leave the depth. -/
abbrev EndsAt {α : Type} (Ok : State → Prop) (d : Nat) (r : Engine → Run α) : Prop :=
  Ends (Stage.Meets Ok d) (Stage.Meets Ok d) fun n => r (ofFuel n)

/-- Expanding any nodes at a depth ends. -/
def ExpandsAt (Ok : State → Prop) (d : Nat) : Prop := ∀ nodes, EndsAt Ok d (·.expand nodes)

/-- What the name is bound to ends at this depth, if expanding the children of the node does
with which it is called. -/
def CallsAt (Ok : State → Prop) (d : Nat) (name : String) : Prop :=
  ∀ (s : Stage) splice, Ok s.state → s.state.splices.get? name = some splice → ∀ node : Node,
    EndsAt Ok d (·.expand node.children) → EndsAt Ok d (·.call splice node)

/-! ### Scripts -/

section

variable (ok : Steady Ok) {next : Script}

/-- Performing a script at a depth ends, and leaves the depth. -/
def Performs (Ok : State → Prop) (d : Nat) (script : Script) : Prop :=
  EndsAt Ok d (·.perform script)

theorem performs_done (nodes : List Node) : Performs Ok d (.done nodes) := ends_pure nodes

theorem performs_look {next : View → Script} (h : ∀ view, Performs Ok d (next view)) :
    Performs Ok d (.look next) := by
  intro s hs
  obtain ⟨out, s', hout, hs'⟩ := h s.state.view s hs
  exact ⟨out, s', hout.congr fun _ => rfl, hs'⟩

theorem performs_newCell {next : Nat → Script} (h : ∀ cell, Performs Ok d (next cell)) :
    Performs Ok d (.newCell next) := by
  intro s hs
  obtain ⟨out, s', hout, hs'⟩ := h s.ledger.newCell.1 { s with ledger := s.ledger.newCell.2 } hs
  exact ⟨out, s', hout.congr fun _ => rfl, hs'⟩

theorem performs_tick {cell : Nat} {next : Nat → Script} (h : ∀ n, Performs Ok d (next n)) :
    Performs Ok d (.tick cell next) := by
  intro s hs
  obtain ⟨out, s', hout, hs'⟩ :=
    h (s.ledger.tick cell).1 { s with ledger := (s.ledger.tick cell).2 } hs
  exact ⟨out, s', hout.congr fun _ => rfl, hs'⟩

theorem performs_expand {nodes : List Node} {next : List Node → Script}
    (he : EndsAt Ok d (·.expand nodes)) (h : ∀ out, Performs Ok d (next out)) :
    Performs Ok d (.expand nodes next) := he.bind h

theorem performs_descend {nodes : List Node} {next : List Node → Script}
    (he : EndsAt Ok d (·.descend nodes)) (h : ∀ out, Performs Ok d (next out)) :
    Performs Ok d (.descend nodes next) := he.bind h

theorem performs_evaluate {name : String} {next : Option (List Node) → Script}
    (he : EndsAt Ok d (·.evaluate name)) (h : ∀ found, Performs Ok d (next found)) :
    Performs Ok d (.evaluate name next) := he.bind h

theorem performs_evaluateWith {name : String} {args : List (String × String)}
    {next : Option (List Node) → Script} (he : EndsAt Ok d (·.evaluateWith name args))
    (h : ∀ found, Performs Ok d (next found)) : Performs Ok d (.evaluateWith name args next) :=
  he.bind h

include ok

theorem Performs.stop (h : Performs Ok d next) : Performs Ok d (.stop next) :=
  h.after (fun s => { s with state := { s.state with recursing := false } })
    (fun s hs => ⟨ok.control hs.1 s.state.context false s.state.depth, hs.2⟩) fun _ _ => rfl

theorem Performs.setContext (h : Performs Ok d next) (context : Path) :
    Performs Ok d (.setContext context next) :=
  h.after (fun s => { s with state := { s.state with context } })
    (fun s hs => ⟨ok.control hs.1 context s.state.recursing s.state.depth, hs.2⟩) fun _ _ => rfl

theorem Performs.addDoctype (h : Performs Ok d next) (body : String) :
    Performs Ok d (.addDoctype body next) :=
  h.after (fun s => { s with state := { s.state with doctypes := s.state.doctypes ++ [body] } })
    (fun _ hs => ⟨ok.doctypes hs.1 _, hs.2⟩) fun _ _ => rfl

theorem Performs.bind (h : Performs Ok d next) (name : String) {splice : Splice}
    (hs : splice.IsStandard) : Performs Ok d (.bind name splice next) :=
  h.after (fun s => { s with state := s.state.bind name splice })
    (fun _ meets => ⟨ok.bind meets.1 name hs, meets.2⟩) fun _ _ => rfl

theorem performs_scope {inner : Script} {next : List Node → Script} (hi : Performs Ok d inner)
    (h : ∀ out, Performs Ok d (next out)) : Performs Ok d (.scope inner next) :=
  (Ends.keepingSplices ok hi).bind h

end

/-! ### One depth, given the next

Throughout, what is expanded one level deeper ends, unless the limit forbids to go there. -/

section

variable (ok : Steady Ok) (deeper : d < depthLimit → ExpandsAt Ok (d + 1))

include ok deeper

theorem descend_ends (nodes : List Node) : EndsAt Ok d (·.descend nodes) := by
  intro s hs
  by_cases hd : d < depthLimit
  · obtain ⟨out, t, hout, ht⟩ := deeper hd nodes s.descended (hs.descended ok)
    exact ⟨out, t.ascended,
      hout.map (fun p => (p.1, p.2.ascended)) fun n => descend_of_lt _ nodes (hs.2 ▸ hd),
      ht.ascended ok⟩
  · have hd : depthLimit ≤ s.state.depth := hs.2 ▸ Nat.not_lt.mp hd
    exact ⟨nodes, s.refused, endsIn_of_eq fun n => (ofFuel n).descend_of_le nodes hd, hs⟩

theorem expandBody_performs (context : Path) (body content : List Node) :
    Performs Ok d (Splice.expandBody context body content) := by
  refine Performs.setContext ok (performs_scope ok ?_ performs_done) context
  exact (performs_descend (descend_ends ok deeper body) performs_done).bind ok _ (.nodes content)

/-- What a standard splice does ends if expanding the children of its node does. -/
theorem standard_performs {splice : Splice} (h : splice.IsStandard) (node : Node)
    (children : EndsAt Ok d (·.expand node.children)) : Performs Ok d (splice node) := by
  cases h with
  | text value => exact performs_done _
  | nodes ns => exact performs_done _
  | ignore => exact performs_done _
  | boundTag context body =>
    refine Performs.stop ok (performs_expand children fun content => ?_)
    exact expandBody_performs ok deeper context body content
  | bind =>
    refine Performs.stop ok ?_
    cases node.attribute? "tag" with
    | none => exact performs_done _
    | some tag =>
      exact performs_look fun view =>
        (performs_done []).bind ok tag (.boundTag view.context _)
  | apply =>
    refine Performs.stop ok ?_
    cases node.attribute? "template" with
    | none => exact performs_done _
    | some name =>
      refine performs_expand children fun content => performs_look fun view => ?_
      split
      · exact performs_done _
      · rename_i template directory _
        have body := expandBody_performs ok deeper directory template.document.content content
        cases template.document.doctype with
        | none => exact body
        | some doctype => exact body.addDoctype ok doctype

theorem call_ends {splice : Splice} (h : splice.IsStandard) (node : Node)
    (children : EndsAt Ok d (·.expand node.children)) : EndsAt Ok d (·.call splice node) :=
  Ends.of_succ (standard_performs ok deeper h node children)

omit deeper

/-! ### Placeholders -/

theorem placeholder_ends {name : String} (calls : CallsAt Ok d name) :
    EndsAt Ok d (·.placeholder name) := by
  intro s hs
  cases hb : s.state.splices.get? name with
  | none => exact ⟨none, s, endsIn_of_eq fun n => placeholder_of_unbound _ hb, hs⟩
  | some splice =>
    -- The invoking node is an empty text, which has no children.
    have children : EndsAt Ok d (·.expand (.text "" : Node).children) := Ends.of_succ (ends_pure [])
    obtain ⟨out, t, hout, ht⟩ := calls s splice hs.1 hb _ children (s.entered name)
      (hs.entered ok name)
    exact ⟨some out, t.withControl s.state.control,
      hout.map (fun p => (some p.1, p.2.withControl s.state.control))
        fun n => placeholder_of_bound _ hb, hs.withControl ok ht.1⟩

theorem fill_ends : ∀ {pieces : List Interpolation.Piece},
    (∀ name, .placeholder name ∈ pieces → CallsAt Ok d name) →
      EndsAt Ok d fun e => Interpolation.fill e.placeholder pieces
  | [], _ => ends_pure _
  | .literal _ :: _, calls =>
    (fill_ends fun name mem => calls name (List.mem_cons_of_mem _ mem)).bind fun _ => ends_pure _
  | .placeholder name :: _, calls =>
    (placeholder_ends ok (calls name List.mem_cons_self)).bind fun _ =>
      (fill_ends fun name mem => calls name (List.mem_cons_of_mem _ mem)).bind fun _ => ends_pure _

theorem substitute_ends_of_calls {raw : String}
    (calls : ∀ name ∈ Interpolation.placeholders raw, CallsAt Ok d name) :
    EndsAt Ok d (·.substitute raw) := by
  unfold Engine.substitute Interpolation.substitute
  split
  · split
    · exact ends_pure _
    · rename_i pieces parsed
      refine fill_ends ok fun name mem => calls name ?_
      rw [Interpolation.placeholders, parsed]
      exact List.mem_filterMap.mpr ⟨_, mem, rfl⟩
  · exact ends_pure _

theorem attributes_ends : ∀ {as : List Attribute},
    (∀ a ∈ as, ∀ name ∈ Interpolation.placeholders a.value, CallsAt Ok d name) →
      EndsAt Ok d (·.attributes as)
  | [], _ => ends_pure _
  | a :: _, calls =>
    (substitute_ends_of_calls ok (calls a List.mem_cons_self)).bind fun _ =>
      (attributes_ends fun a mem => calls a (List.mem_cons_of_mem _ mem)).bind fun _ => ends_pure _

include deeper

/-! ### Elements -/

/-- The result of a splice is expanded one level deeper, if at all. -/
theorem expandResult_ends (result : List Node) :
    Ends (Stage.Meets Ok d) (fun s => Ok s.state) fun n => (ofFuel n).expandResult result := by
  intro s hs
  cases hr : s.state.recursing with
  | false => exact ⟨result, s, endsIn_of_eq fun n => expandResult_of_stopped _ result hr, hs.1⟩
  | true =>
    by_cases hd : d < depthLimit
    · obtain ⟨out, t, hout, ht⟩ := deeper hd result s.descended (hs.descended ok)
      exact ⟨out, t, hout.congr fun n => expandResult_of_lt _ result hr (hs.2 ▸ hd), ht.1⟩
    · have hd : depthLimit ≤ s.state.depth := hs.2 ▸ Nat.not_lt.mp hd
      exact ⟨result, s.refused, endsIn_of_eq fun n => expandResult_of_le _ result hr hd, hs.1⟩

theorem invoke_ends (name : String) {splice : Splice} {node : Node}
    (call : EndsAt Ok d (·.call splice node)) : EndsAt Ok d (·.invoke name splice node) := by
  intro s hs
  obtain ⟨out, t, hout, ht⟩ := (Ends.bind call (expandResult_ends ok deeper)) (s.entered name)
    (hs.entered ok name)
  exact ⟨out, t.withControl s.state.control,
    hout.map (fun p => (p.1, p.2.withControl s.state.control))
      fun n => invoke_apply _ name splice node s, hs.withControl ok ht⟩

end

mutual

theorem expandNode_ends {Ok : State → Prop} (ok : Steady Ok) {d : Nat}
    (deeper : d < depthLimit → ExpandsAt Ok (d + 1)) : ∀ {node : Node},
      (∀ name ∈ mentionedIn node, CallsAt Ok d name) → EndsAt Ok d (·.expandNode node)
  | .element name as cs, calls => by
    simp only [mentionedIn, List.cons_append, List.mem_cons, List.mem_append, List.mem_flatMap]
      at calls
    have children := expandNodes_ends ok deeper fun other mem => calls other (.inr (.inr mem))
    refine (attributes_ends ok fun a ha other mem => calls other (.inr (.inl ⟨a, ha, mem⟩))).bind
      fun as' => ?_
    intro t ht
    cases hb : t.state.splices.get? name with
    | none =>
      obtain ⟨cs', t', hcs', ht'⟩ := children t ht
      exact ⟨[.element name as' cs'], t',
        hcs'.map (fun p => ([Node.element name as' p.1], p.2)) fun n => by simp [hb], ht'⟩
    | some splice =>
      have call := calls name (.inl rfl) t splice ht.1 hb (.element name as' cs)
        (Ends.of_succ children)
      obtain ⟨out, t', hout, ht'⟩ := invoke_ends ok deeper name call t ht
      exact ⟨out, t', hout.congr fun n => by simp [hb], ht'⟩
  | .text _, _ | .comment _, _ | .cdata _, _ | .instruction _, _ => ends_pure _

/-- Expanding nodes ends if the calls of the names that they mention do. -/
theorem expandNodes_ends {Ok : State → Prop} (ok : Steady Ok) {d : Nat}
    (deeper : d < depthLimit → ExpandsAt Ok (d + 1)) : ∀ {nodes : List Node},
      (∀ name ∈ mentioned nodes, CallsAt Ok d name) → EndsAt Ok d (·.expandNodes nodes)
  | [], _ => ends_pure _
  | node :: nodes, calls => by
    simp only [mentioned, List.mem_append] at calls
    have first := expandNode_ends ok deeper fun name mem => calls name (.inl mem)
    have rest := expandNodes_ends ok deeper fun name mem => calls name (.inr mem)
    exact first.bind fun _ => rest.bind fun _ => ends_pure _

end

/-! ### Every depth -/

/-- Expanding nodes ends at every depth, by the distance to the limit, if calls end wherever
all ends one level deeper. -/
theorem expandsAt_of_calls (ok : Steady Ok)
    (calls : ∀ d, (d < depthLimit → ExpandsAt Ok (d + 1)) → ∀ name, CallsAt Ok d name) (d : Nat) :
    ExpandsAt Ok d := by
  induction h : depthLimit - d generalizing d with
  | zero =>
    have deeper : d < depthLimit → ExpandsAt Ok (d + 1) := fun hd => absurd h (by omega)
    exact fun nodes => Ends.of_succ (expandNodes_ends ok deeper fun name _ => calls d deeper name)
  | succ k ih =>
    have deeper : d < depthLimit → ExpandsAt Ok (d + 1) := fun _ => ih (d + 1) (by omega)
    exact fun nodes => Ends.of_succ (expandNodes_ends ok deeper fun name _ => calls d deeper name)

end Engine

/-! ### Templates -/

/-- Evaluating the template of the name may be expanding these nodes: they are what the
hooks before a run make of a template that the name means in some directory. -/
def State.Unfolds (σ : State) (name : String) (body : List Node) : Prop :=
  ∃ context template directory, resolve σ.templates context name = some (template, directory) ∧
    ∃ ledger : Ledger, body = (ledger.applyHooks σ.preRun template.document.content).1

namespace Engine

open Run

variable {Ok : State → Prop} (ok : Steady Ok) {d : Nat} {name : String}

include ok

/-- The evaluation of a template ends if the expansion of what it unfolds to does. -/
theorem evaluate_ends_of_bodies
    (bodies : ∀ (s : Stage) body, s.Meets Ok d → s.state.Unfolds name body →
      EndsAt Ok d (·.expand body)) : EndsAt Ok d (·.evaluate name) := by
  intro s hs
  cases hl : s.state.lookup name with
  | none => exact ⟨none, s, endsIn_of_eq fun n => evaluate_of_missing _ hl, hs⟩
  | some found =>
    obtain ⟨template, directory⟩ := found
    let before :=
      (s.evaluating template.document.doctype).hooked .preRun template.document.content
    have unfolds : s.state.Unfolds name before.1 :=
      ⟨s.state.context, template, directory, hl, _, rfl⟩
    have located : (before.2.located directory).Meets Ok d :=
      ⟨ok.control (ok.doctypes hs.1 _) directory s.state.recursing s.state.depth, hs.2⟩
    obtain ⟨out, t, hout, ht⟩ := bodies s before.1 hs unfolds _ located
    exact ⟨_, _, hout.map (fun p =>
      let after := (p.2.withControl s.state.control).hooked .postRun p.1
      (some after.1, after.2)) fun n => evaluate_of_found _ hl rfl, hs.withControl ok ht.1⟩

theorem evaluateWith_ends (args : List (String × String)) (h : EndsAt Ok d (·.evaluate name)) :
    EndsAt Ok d (·.evaluateWith name args) :=
  Ends.keepingSplices ok <|
    h.after (fun s => { s with state := s.state.bindTexts args })
      (fun _ hs => ⟨ok.bindTexts hs.1 args, hs.2⟩) fun _ _ => rfl

/-- A render evaluates its template at depth zero. -/
theorem render_ends_of_evaluate (h : EndsAt Ok 0 (·.evaluate name)) :
    EndsAt Ok d (·.render name) := by
  intro s hs
  cases hl : s.state.lookup name with
  | none => exact ⟨none, s, endsIn_of_eq fun n => by simp [render, hl], hs⟩
  | some found =>
    obtain ⟨template, directory⟩ := found
    obtain ⟨content, t, hout, -⟩ := h { s with state := s.state.forRender }
      ⟨ok.doctypes (ok.control hs.1 s.state.context true 0) [], rfl⟩
    exact ⟨_, _, hout.map (fun p => (p.1.map fun content => Rendered.ofDocument
      { template.document with content, doctype := p.2.state.doctypes.getLast? },
      { p.2 with state := s.state })) fun n => render_of_found _ hl, hs⟩

theorem renderWith_ends (args : List (String × String)) (h : EndsAt Ok d (·.render name)) :
    EndsAt Ok d (·.renderWith name args) :=
  Ends.keepingSplices ok <|
    h.after (fun s => { s with state := s.state.bindTexts args })
      (fun _ hs => ⟨ok.bindTexts hs.1 args, hs.2⟩) fun _ _ => rfl

end Engine

end Templating
