import Mathlib.Tactic.Choose
import Templating.Proofs.Expansion.Scope
import Templating.Proofs.Expansion.Shifting
import Templating.Proofs.Expansion.Stopping

/-!
# Siblings

What nodes can leave to the siblings behind them is what they bind and the doctypes they record,
since a run keeps the rest of the state. The standard splices do not look at the doctypes. So what
is left is what they bind: `bind` binds for good, while `apply` and a bound tag bind in a scope
only. Where `bind` itself is not bound to any name, nothing binds for good then
(`ofFuel_bindsNothing`), and a run changes nothing of the state but the doctypes.

Hence siblings are independent (`siblings_independent`): each of them gives the nodes, and records
the doctypes, that it gives and records alone.
-/

namespace Templating

open Markup (Attribute Document Node)

/-! ### States in which nothing binds -/

/-- Nothing but standard splices is bound in the state, and `bind` is not one of them. -/
structure State.IsBindless (σ : State) : Prop where
  standard : σ.IsStandard
  bindless : ∀ name, σ.splices.get? name ≠ some Splice.bind

theorem State.IsBindless.of_bound {σ : State} (h : σ.IsBindless) {name : String} {splice : Splice}
    (bound : σ.splices.get? name = some splice) : splice.IsStandard ∧ splice ≠ Splice.bind :=
  ⟨h.standard name splice bound, fun same => h.bindless name (same ▸ bound)⟩

theorem State.IsBindless.bind {σ : State} (h : σ.IsBindless) (name : String) {splice : Splice}
    (hs : splice.IsStandard) (hb : splice ≠ Splice.bind) : (σ.bind name splice).IsBindless where
  standard := h.standard.bind name hs
  bindless query found := by
    obtain ⟨-, same⟩ | before := State.get?_of_bind found
    · exact hb same.symm
    · exact h.bindless query before

/-- If nothing binds in the first stage, the same splices are bound in the second one. -/
def KeepsSplices (s s' : Stage) : Prop :=
  s.state.IsBindless → s'.state.splices = s.state.splices

instance : IsPreorder Stage KeepsSplices where
  refl _ _ := rfl
  trans s t u h h' bindless := by
    have first := h bindless
    -- Nothing binds in the second stage either, since the same splices are bound in it.
    refine (h' ⟨fun name splice found => ?_, fun name found => ?_⟩).trans first
    · exact bindless.standard name splice (first ▸ found)
    · exact bindless.bindless name (first ▸ found)

namespace Run

variable {α : Type} {r : Run α}

/-- What a run binds in a scope is undone, whatever it is. -/
theorem moves_keepingSplices (r : Run α) : Moves KeepsSplices (keepingSplices r) := by
  intro s a s' run _
  rw [keepingSplices_apply, Option.map_eq_some_iff] at run
  obtain ⟨⟨_, t⟩, -, same⟩ := run
  cases same
  rfl

theorem Moves.keepsSplices_keepingControl (h : Moves KeepsSplices r) :
    Moves KeepsSplices (keepingControl r) := by
  intro s a s' run bindless
  rw [keepingControl_apply, Option.map_eq_some_iff] at run
  obtain ⟨⟨_, t⟩, run, same⟩ := run
  cases same
  exact h s _ t run bindless

end Run

namespace Engine

open Run

/-! ### Runs that bind nothing -/

/-- The engine binds nothing for good, if nothing binds in the stage that it finds. -/
structure BindsNothing (e : Engine) : Prop where
  expand : ∀ nodes, Moves KeepsSplices (e.expand nodes)
  call : ∀ {splice : Splice}, splice.IsStandard → splice ≠ Splice.bind → ∀ node,
    Moves KeepsSplices (e.call splice node)

theorem enter_keepsSplices (name : String) : Moves KeepsSplices (enter name) :=
  (moves_record fun _ _ => rfl).bind fun _ => moves_modifyState fun _ _ => rfl

theorem expandBody_keepsSplices (e : Engine) (context : Path) (body content : List Node) :
    Moves KeepsSplices (e.perform (Splice.expandBody context body content)) :=
  (moves_modifyState fun _ _ => rfl).bind fun _ =>
    (moves_keepingSplices _).bind fun _ => moves_pure _

section

variable {e : Engine} (b : BindsNothing e)

include b

/-- A standard splice binds nothing for good, unless it is `bind`. -/
theorem perform_keepsSplices {splice : Splice} (h : splice.IsStandard) (hb : splice ≠ Splice.bind)
    (node : Node) : Moves KeepsSplices (e.perform (splice node)) := by
  have stop {script : Script} (next : Moves KeepsSplices (e.perform script)) :
      Moves KeepsSplices (e.perform (.stop script)) :=
    (moves_modifyState fun _ _ => rfl).bind fun _ => next
  have look {next : View → Script} (each : ∀ view, Moves KeepsSplices (e.perform (next view))) :
      Moves KeepsSplices (e.perform (.look next)) := moves_state.bind fun σ => each σ.view
  cases h with
  | text value => exact moves_pure _
  | nodes ns => exact moves_pure _
  | ignore => exact moves_pure _
  | bind => exact absurd rfl hb
  | boundTag context body =>
    exact stop ((b.expand _).bind fun content => expandBody_keepsSplices e context body content)
  | apply =>
    refine stop ?_
    cases node.attribute? "template" with
    | none => exact moves_pure _
    | some name =>
      refine (b.expand _).bind fun content => look fun view => ?_
      split
      · exact moves_pure _
      · rename_i template directory _
        have body := expandBody_keepsSplices e directory template.document.content content
        cases template.document.doctype with
        | none => exact body
        | some doctype => exact (moves_modifyState fun _ _ => rfl).bind fun _ => body

theorem placeholder_keepsSplices (name : String) : Moves KeepsSplices (e.placeholder name) := by
  intro s found s' run bindless
  cases bound : s.state.splices.get? name with
  | none =>
    rw [e.placeholder_of_unbound bound] at run
    cases run
    rfl
  | some splice =>
    rw [e.placeholder_of_bound bound, Option.map_eq_some_iff] at run
    obtain ⟨⟨out, u⟩, run, same⟩ := run
    cases same
    obtain ⟨standard, other⟩ := bindless.of_bound bound
    exact b.call standard other _ (s.entered name) out u run ⟨bindless.standard, bindless.bindless⟩

theorem expandResult_keepsSplices (result : List Node) :
    Moves KeepsSplices (e.expandResult result) := by
  refine moves_state.bind fun σ => ?_
  split
  · exact moves_pure _
  · split
    · exact (moves_record fun _ _ => rfl).bind fun _ => moves_pure _
    · exact (moves_record fun _ _ => rfl).bind fun _ =>
        (moves_modifyState fun _ _ => rfl).bind fun _ => b.expand result

theorem replace_keepsSplices (name : String) (node : Node) {rebuilt : Run (List Node)}
    (h : Moves KeepsSplices rebuilt) : Moves KeepsSplices (e.replace name node rebuilt) := by
  intro s out s' run bindless
  rw [replace_apply] at run
  cases bound : s.state.splices.get? name with
  | none =>
    rw [bound] at run
    exact h s out s' run bindless
  | some splice =>
    rw [bound] at run
    obtain ⟨standard, other⟩ := bindless.of_bound bound
    have called := b.call standard other node
    have invoked : Moves KeepsSplices (e.invoke name splice node) :=
      ((enter_keepsSplices name).bind fun _ => called.bind fun result =>
        expandResult_keepsSplices b result).keepsSplices_keepingControl
    exact invoked s out s' run bindless

theorem BindsNothing.next : BindsNothing e.next where
  expand := @expandNodes_walk _ moves_sequential.chaining e e (placeholder_keepsSplices b)
    fun name node _ _ h => replace_keepsSplices b name node h
  call h hb node := perform_keepsSplices b h hb node

end

theorem ofFuel_bindsNothing : ∀ n, BindsNothing (ofFuel n)
  | 0 => ⟨fun _ => moves_failure, fun _ _ _ => moves_failure⟩
  | n + 1 => (ofFuel_bindsNothing n).next

/-- Where nothing binds, a run changes nothing of the state but the doctypes. -/
theorem expand_bindless {s s' : Stage} {nodes out : List Node} (bindless : s.state.IsBindless)
    (ends : EndsIn (fun n => (ofFuel n).expand nodes) s out s') :
    ∃ bodies, s'.state = { s.state with doctypes := s.state.doctypes ++ bodies } := by
  have control := control_of_expand ends
  obtain ⟨n, hn⟩ := ends
  have run := hn n (Nat.le_refl n)
  have extends' : s.state.Extends s'.state :=
    (ofFuel_moves extends_frame n).expand nodes s out s' run
  have splices := (ofFuel_bindsNothing n).expand nodes s out s' run bindless
  obtain ⟨bodies, doctypes⟩ := extends'.doctypes
  refine ⟨bodies, ?_⟩
  rw [State.eq_of_parts extends'.templates splices extends'.hooks (congrArg Control.context control)
    (congrArg Control.recursing control), doctypes,
    show s'.state.depth = s.state.depth from congrArg Control.depth control]

/-! ### Siblings one after the other -/

/-- On every stage with this state, whatever doctypes are recorded in it, expanding the nodes ends
in `out` and records the doctypes `bodies`. -/
def Settles (σ : State) (nodes out : List Node) (bodies : List String) : Prop :=
  ∀ t : Stage, t.state = { σ with doctypes := t.state.doctypes } →
    ∃ t', EndsIn (fun n => (ofFuel n).expand nodes) t out t' ∧
      t'.state = { σ with doctypes := t.state.doctypes ++ bodies }

section

variable {σ : State}

theorem exists_settles (bindless : σ.IsBindless) (nodes : List Node) :
    ∃ out bodies, Settles σ nodes out bodies := by
  let s : Stage := { state := σ }
  obtain ⟨out, s', ends, -⟩ := expandsAt σ.depth nodes s ⟨bindless.standard, rfl⟩
  obtain ⟨bodies, state⟩ := expand_bindless bindless ends
  refine ⟨out, bodies, fun t ht => ?_⟩
  let Δ : Shift := ⟨0, σ.doctypes, t.state.doctypes⟩
  have start : s.Shifted Δ σ.depth t :=
    { standard := bindless.standard
      templates := (congrArg State.templates ht :)
      splices := (congrArg State.splices ht :)
      context := (congrArg State.context ht :)
      recursing := (congrArg State.recursing ht :)
      hooks := (congrArg State.hooks ht :)
      depth := rfl
      levels := (congrArg State.depth ht :)
      doctypes := ⟨[], (List.append_nil _).symm, (List.append_nil _).symm⟩ }
  obtain ⟨t', ends', after⟩ := expand_endsIn_shifted start (.inl rfl) ends (.inl rfl)
  obtain ⟨later, here, there⟩ := after.doctypes
  have recorded : σ.doctypes ++ later = σ.doctypes ++ bodies :=
    here.symm.trans (congrArg State.doctypes state)
  refine ⟨t', ends', ?_⟩
  have depth : t'.state.depth = σ.depth := after.levels
  rw [after.eq, depth, there, state, List.append_cancel_left recorded]

theorem settles_nil (σ : State) : Settles σ [] [] [] := by
  refine fun t ht => ⟨t, (endsIn_of_eq fun _ => rfl).of_succ, ?_⟩
  rw [List.append_nil]
  exact ht

/-- What comes behind a node is expanded as if the node were not there. -/
theorem Settles.cons {node : Node} {nodes first rest : List Node} {bodies later : List String}
    (h : Settles σ [node] first bodies) (h' : Settles σ nodes rest later) :
    Settles σ (node :: nodes) (first ++ rest) (bodies ++ later) := by
  intro t ht
  obtain ⟨u, here, hu⟩ := h t ht
  have recorded : u.state.doctypes = t.state.doctypes ++ bodies := congrArg State.doctypes hu
  obtain ⟨t', behind, ht'⟩ := h' u (recorded ▸ hu)
  have control := control_of_expand here
  refine ⟨t', expand_cons_endsIn.mpr ⟨first, u, rest, here, control, behind, rfl⟩, ?_⟩
  rw [ht', recorded, List.append_assoc]

theorem settles_flatMap {output : Node → List Node} {recorded : Node → List String}
    (h : ∀ node, Settles σ [node] (output node) (recorded node)) (nodes : List Node) :
    Settles σ nodes (nodes.flatMap output) (nodes.flatMap recorded) := by
  induction nodes with
  | nil => exact settles_nil σ
  | cons node nodes ih => exact (h node).cons ih

end

/-- **Siblings are independent** where nothing binds: expanding nodes gives one after the other
what each of them gives alone, and changes nothing of the state but that it records the doctypes
that each of them records alone. So siblings in another order give the same in that order. -/
theorem siblings_independent (s : Stage) (bindless : s.state.IsBindless) :
    ∃ (output : Node → List Node) (recorded : Node → List String),
      (∀ node, ∃ s', EndsIn (fun n => (ofFuel n).expand [node]) s (output node) s' ∧
        s'.state = { s.state with doctypes := s.state.doctypes ++ recorded node }) ∧
      (∀ nodes, ∃ s', EndsIn (fun n => (ofFuel n).expand nodes) s (nodes.flatMap output) s' ∧
        s'.state = { s.state with doctypes := s.state.doctypes ++ nodes.flatMap recorded }) ∧
      ∀ nodes others, nodes.Perm others → ∀ out out' s' t',
        EndsIn (fun n => (ofFuel n).expand nodes) s out s' →
          EndsIn (fun n => (ofFuel n).expand others) s out' t' →
            out.Perm out' ∧ s'.state.doctypes.Perm t'.state.doctypes := by
  choose output recorded alone using fun node => exists_settles bindless [node]
  have together := settles_flatMap alone
  refine ⟨output, recorded, fun node => alone node s rfl, fun nodes => together nodes s rfl, ?_⟩
  intro nodes others perm out out' s' t' ends ends'
  obtain ⟨u, here, hu⟩ := together nodes s rfl
  obtain ⟨v, there, hv⟩ := together others s rfl
  obtain ⟨rfl, rfl⟩ := ends.unique here
  obtain ⟨rfl, rfl⟩ := ends'.unique there
  refine ⟨perm.flatMap_right output, ?_⟩
  rw [hu, hv]
  exact (perm.flatMap_right recorded).append_left _

/-- A stage with a template, a title and a note, in which nothing binds. -/
def cardStage : Stage where
  state :=
    (((State.empty.addTemplate "frame"
        { format := .html
          doctype := some "html"
          content := [.element "title" [] [], .element "content" [] []] }).bind
      "apply" Splice.apply).bind "title" (Splice.text "T")).bind "note"
        (Splice.boundTag .root [.element "b" [] [.element "content" [] []]])

theorem cards_in_either_order :
    let framed : Node := .element "apply" [⟨"template", "frame"⟩] [.text "x"]
    let note : Node := .element "note" [] [.element "title" [] []]
    cardStage.state.IsBindless ∧ ∃ s' t',
      EndsIn (fun n => (ofFuel n).expand [framed, note]) cardStage
        [.text "T", .text "x", .element "b" [] [.text "T"]] s' ∧
      EndsIn (fun n => (ofFuel n).expand [note, framed]) cardStage
        [.element "b" [] [.text "T"], .text "T", .text "x"] t' ∧
      s'.state = { cardStage.state with doctypes := ["html"] } ∧ t'.state = s'.state := by
  intro framed note
  have bindless : cardStage.state.IsBindless := by
    have frame (document : Document) : (State.empty.addTemplate "frame" document).IsBindless :=
      ⟨State.empty_isStandard, fun _ => nofun⟩
    refine (((frame _).bind "apply" .apply fun same => ?_).bind "title" (.text "T")
      fun same => ?_).bind "note" (.boundTag _ _) fun same => ?_
    · cases congrFun same (.element "x" [⟨"tag", "x"⟩] [])
    · cases congrFun same (.text "")
    · cases congrFun same (.text "")
  obtain ⟨output, recorded, alone, together, -⟩ := siblings_independent cardStage bindless
  have settle (node : Node) (out : List Node) (bodies : List String)
      (direct : ((ofFuel 9).expand [node] cardStage).map (fun p => (p.1, p.2.state.doctypes)) =
        some (out, bodies)) : output node = out ∧ recorded node = bodies := by
    obtain ⟨⟨_, t⟩, run, same⟩ := Option.map_eq_some_iff.mp direct
    obtain ⟨rfl, rfl⟩ := Prod.mk.inj same
    obtain ⟨s', ends, state⟩ := alone node
    obtain ⟨given, rfl⟩ := ends.unique (expand_endsIn run)
    exact ⟨given, (congrArg State.doctypes state).symm⟩
  obtain ⟨framedOut, framedBodies⟩ := settle framed [.text "T", .text "x"] ["html"]
    (by decide +kernel)
  obtain ⟨noteOut, noteBodies⟩ := settle note [.element "b" [] [.text "T"]] []
    (by decide +kernel)
  obtain ⟨s', here, hs'⟩ := together [framed, note]
  obtain ⟨t', there, ht'⟩ := together [note, framed]
  simp only [List.flatMap_cons, List.flatMap_nil, framedOut, framedBodies, noteOut, noteBodies]
    at here hs' there ht'
  exact ⟨bindless, s', t', here, there, hs', ht'.trans hs'.symm⟩

end Engine

end Templating
