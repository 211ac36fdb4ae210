import Templating.Proofs.Expansion.Frame
import Templating.Proofs.Expansion.Termination

/-!
# Runs that apply no hooks

The journal tells which hooks were applied to which nodes (`Stage.applications`). During a run
nothing applies them but the evaluation of templates, which splices alone bring about. So where
no splice that is bound evaluates a template, expansion applies no hooks, whatever it enters
with `apply` or through bound tags (`Engine.ofFuel_silent`).

A splice that evaluates nothing may still bind one that does. Therefore scripts that abstain
from evaluation bind only splices that abstain from it too (`Script.Abstains`), and with them
that all that is bound abstains is an invariant of runs. The standard splices, texts and nodes
abstain.
-/

namespace Templating

open Markup (Attribute Node)

/-! ### Applications of hooks -/

/-- The hooks of a slot, applied to nodes. -/
structure Application where
  slot : HookSlot
  nodes : List Node
  deriving DecidableEq

/-- The application of hooks that an entry tells of. -/
def Entry.application? : Entry → Option Application
  | .hooked slot nodes => some ⟨slot, nodes⟩
  | _ => none

theorem Entry.application?_of_ne {entry : Entry}
    (h : ∀ slot nodes, entry ≠ .hooked slot nodes) : entry.application? = none := by
  cases entry with
  | hooked slot nodes => exact absurd rfl (h slot nodes)
  | _ => rfl

namespace Stage

/-- The applications of hooks so far, the oldest first. -/
def applications (s : Stage) : List Application :=
  (s.ledger.journal.filterMap Entry.application?).reverse

theorem applications_record (s : Stage) (entry : Entry) :
    applications { s with ledger := s.ledger.record entry } =
      s.applications ++ entry.application?.toList := by
  simp only [applications, Ledger.record, List.filterMap_cons]
  cases entry.application? <;> simp

theorem applications_record_of_ne (s : Stage) {entry : Entry}
    (h : ∀ slot nodes, entry ≠ .hooked slot nodes) :
    applications { s with ledger := s.ledger.record entry } = s.applications := by
  rw [applications_record, Entry.application?_of_ne h, Option.toList_none, List.append_nil]

/-- Whatever hooks do, they are one application. -/
theorem applications_hooked (s : Stage) (slot : HookSlot) (nodes : List Node) :
    (s.hooked slot nodes).2.applications = s.applications ++ [⟨slot, nodes⟩] := by
  obtain ⟨counts, hc⟩ :=
    (s.ledger.record (.hooked slot nodes)).exists_applyHooks (s.state.hooks slot) nodes
  rw [hooked, hc]
  exact s.applications_record (.hooked slot nodes)

end Stage

/-! ### Splices that evaluate no template -/

/-- The script evaluates no template, and binds no splice that does. -/
inductive Script.Abstains : Script → Prop where
  | done (nodes : List Node) : Abstains (.done nodes)
  | stop {next : Script} : Abstains next → Abstains (.stop next)
  | setContext (context : Path) {next : Script} : Abstains next →
      Abstains (.setContext context next)
  | addDoctype (body : String) {next : Script} : Abstains next → Abstains (.addDoctype body next)
  | bind (name : String) {splice : Splice} {next : Script} : (∀ node, Abstains (splice node)) →
      Abstains next → Abstains (.bind name splice next)
  | look {next : View → Script} : (∀ view, Abstains (next view)) → Abstains (.look next)
  | newCell {next : Nat → Script} : (∀ cell, Abstains (next cell)) → Abstains (.newCell next)
  | tick (cell : Nat) {next : Nat → Script} : (∀ n, Abstains (next n)) →
      Abstains (.tick cell next)
  | expand (nodes : List Node) {next : List Node → Script} : (∀ out, Abstains (next out)) →
      Abstains (.expand nodes next)
  | descend (nodes : List Node) {next : List Node → Script} : (∀ out, Abstains (next out)) →
      Abstains (.descend nodes next)
  | substitute (raw : String) {next : String → Script} : (∀ value, Abstains (next value)) →
      Abstains (.substitute raw next)
  | call (name : String) (node : Node) {next : Option (List Node) → Script} :
      (∀ found, Abstains (next found)) → Abstains (.call name node next)
  | scope {inner : Script} {next : List Node → Script} : Abstains inner →
      (∀ out, Abstains (next out)) → Abstains (.scope inner next)

/-- The splice evaluates no template, whatever invokes it. -/
def Splice.Abstains (splice : Splice) : Prop := ∀ node, (splice node).Abstains

namespace Splice

theorem expandBody_abstains (context : Path) (body content : List Node) :
    (expandBody context body content).Abstains :=
  .setContext context <|
    .scope (.bind contentName (fun _ => .done content) (.descend body .done)) .done

theorem boundTag_abstains (context : Path) (body : List Node) : (boundTag context body).Abstains :=
  fun _ => .stop (.expand _ fun _ => expandBody_abstains context body _)

/-- Even `apply` evaluates no template: it enters one by expanding its content. -/
theorem IsStandard.abstains {splice : Splice} (h : splice.IsStandard) : splice.Abstains := by
  intro node
  cases h with
  | text | nodes | ignore => exact .done _
  | boundTag context body => exact boundTag_abstains context body node
  | bind =>
    refine .stop ?_
    cases node.attribute? "tag" with
    | none => exact .done _
    | some tag =>
      exact .look fun view => .bind tag (boundTag_abstains view.context node.children) (.done _)
  | apply =>
    refine .stop ?_
    cases node.attribute? "template" with
    | none => exact .done _
    | some name =>
      refine .expand _ fun content => .look fun view => ?_
      split
      · exact .done _
      · rename_i template directory _
        have body := expandBody_abstains directory template.document.content content
        cases template.document.doctype with
        | none => exact body
        | some doctype => exact .addDoctype doctype body

end Splice

namespace State

variable {σ : State}

/-- No splice that is bound evaluates a template. -/
def Abstains (σ : State) : Prop :=
  ∀ name splice, σ.splices.get? name = some splice → splice.Abstains

theorem Abstains.bind (h : σ.Abstains) (name : String) {splice : Splice}
    (hs : splice.Abstains) : (σ.bind name splice).Abstains := by
  intro query found hf
  obtain ⟨-, rfl⟩ | hf := get?_of_bind hf
  · exact hs
  · exact h query found hf

theorem Abstains.bindTexts (h : σ.Abstains) (args : List (String × String)) :
    (σ.bindTexts args).Abstains := by
  induction args generalizing σ with
  | nil => exact h
  | cons arg args ih => exact ih (h.bind arg.1 (Splice.IsStandard.text arg.2).abstains)

end State

/-! ### Silent runs -/

/-- If no splice that is bound evaluates a template, then so it stays, and no hooks are applied. -/
def Stage.Silent (s t : Stage) : Prop :=
  s.state.Abstains → t.state.Abstains ∧ t.applications = s.applications

theorem Stage.silent_of_eq {s t : Stage} (splices : t.state.splices = s.state.splices)
    (applications : t.applications = s.applications) : s.Silent t := by
  intro abstains
  rw [State.Abstains, splices]
  exact ⟨abstains, applications⟩

instance : IsPreorder Stage Stage.Silent where
  refl _ := Stage.silent_of_eq rfl rfl
  trans s t u h h' := by
    intro abstains
    obtain ⟨abstains, same⟩ := h abstains
    obtain ⟨abstains, same'⟩ := h' abstains
    exact ⟨abstains, same'.trans same⟩

namespace Run

open Stage (Silent silent_of_eq)

variable {α : Type}

theorem modifyState_silent {f : State → State} (h : ∀ σ, (f σ).splices = σ.splices) :
    Moves Silent (modifyState f) :=
  moves_modifyState fun s => silent_of_eq (h s.state) rfl

theorem bind_silent (name : String) {splice : Splice} (h : splice.Abstains) :
    Moves Silent (modifyState (·.bind name splice)) :=
  moves_modifyState fun _ abstains => ⟨abstains.bind name h, rfl⟩

theorem record_silent {entry : State → Entry} (h : ∀ σ slot nodes, entry σ ≠ .hooked slot nodes) :
    Moves Silent (record entry) :=
  moves_record fun s => silent_of_eq rfl (s.applications_record_of_ne (h s.state))

theorem newCell_silent : Moves Silent newCell := by
  intro s cell s' h
  cases h
  exact silent_of_eq rfl rfl

theorem tick_silent (cell : Nat) : Moves Silent (tick cell) := by
  intro s n s' h
  cases h
  exact silent_of_eq rfl rfl

/-- What a run does with what it finds bound may count on that to evaluate no template. -/
theorem state_bind_silent {f : State → Run α} (h : ∀ σ, σ.Abstains → Moves Silent (f σ)) :
    Moves Silent (state >>= f) :=
  fun s a s' run abstains => h s.state abstains s a s' run abstains

theorem keepingControl_silent {r : Run α} (h : Moves Silent r) :
    Moves Silent (keepingControl r) := by
  intro s a s' run
  rw [keepingControl_apply, Option.map_eq_some_iff] at run
  obtain ⟨⟨b, t⟩, run, eq⟩ := run
  cases eq
  exact IsTrans.trans s t _ (h s b t run) (silent_of_eq rfl rfl)

theorem keepingSplices_silent {r : Run α} (h : Moves Silent r) :
    Moves Silent (keepingSplices r) := by
  intro s a s' run abstains
  rw [keepingSplices_apply, Option.map_eq_some_iff] at run
  obtain ⟨⟨b, t⟩, run, eq⟩ := run
  cases eq
  exact ⟨abstains, (h s b t run abstains).2⟩

end Run

namespace Engine

open Run
open Stage (Silent)

-- Silence is no congruence, since it does not respect binding just any splice. So the
-- operations are gone through here with the splices that abstain.

/-- The calls of the engine are silent, for splices that evaluate no template. -/
structure IsSilent (e : Engine) : Prop where
  expand : ∀ nodes, Moves Silent (e.expand nodes)
  call : ∀ {splice : Splice}, splice.Abstains → ∀ node, Moves Silent (e.call splice node)

theorem enter_silent (name : String) : Moves Silent (enter name) :=
  Moves.bind (record_silent fun _ _ _ => nofun) fun _ => modifyState_silent fun _ => rfl

section

variable {e : Engine} (silent : e.IsSilent)

include silent

theorem placeholder_silent (name : String) : Moves Silent (e.placeholder name) := by
  refine state_bind_silent fun σ abstains => ?_
  cases bound : σ.splices.get? name with
  | none => exact moves_pure _
  | some splice =>
    exact keepingControl_silent <| (enter_silent name).bind fun _ =>
      (silent.call (abstains name splice bound) _).bind fun _ => moves_pure _

theorem callBound_silent (name : String) (node : Node) : Moves Silent (e.callBound name node) := by
  refine state_bind_silent fun σ abstains => ?_
  cases bound : σ.splices.get? name with
  | none => exact moves_pure _
  | some splice =>
    exact Moves.bind (record_silent fun _ _ _ => nofun) fun _ =>
      (silent.call (abstains name splice bound) node).bind fun _ => moves_pure _

theorem expandResult_silent (result : List Node) : Moves Silent (e.expandResult result) := by
  refine moves_state.bind fun σ => ?_
  split
  · exact moves_pure _
  · split
    · exact Moves.bind (record_silent fun _ _ _ => nofun) fun _ => moves_pure _
    · refine Moves.bind (record_silent fun _ _ _ => nofun) fun _ => ?_
      exact Moves.bind (modifyState_silent fun _ => rfl) fun _ => silent.expand result

theorem invoke_silent (name : String) {splice : Splice} (h : splice.Abstains) (node : Node) :
    Moves Silent (e.invoke name splice node) :=
  keepingControl_silent <| (enter_silent name).bind fun _ =>
    (silent.call h node).bind fun _ => expandResult_silent silent _

theorem descend_silent (nodes : List Node) : Moves Silent (e.descend nodes) := by
  refine moves_state.bind fun σ => ?_
  split
  · exact Moves.bind (record_silent fun _ _ _ => nofun) fun _ => moves_pure _
  · refine Moves.bind (record_silent fun _ _ _ => nofun) fun _ => ?_
    refine Moves.bind (modifyState_silent fun _ => rfl) fun _ => ?_
    refine (silent.expand nodes).bind fun _ => ?_
    refine Moves.bind (record_silent fun _ _ _ => nofun) fun _ => ?_
    exact Moves.bind (modifyState_silent fun _ => rfl) fun _ => moves_pure _

theorem perform_silent {script : Script} (h : script.Abstains) :
    Moves Silent (e.perform script) := by
  induction h with
  | done nodes => exact moves_pure nodes
  | stop _ ih | setContext _ _ ih | addDoctype _ _ ih =>
    exact Moves.bind (modifyState_silent fun _ => rfl) fun _ => ih
  | bind name abstains _ _ ih => exact (bind_silent name abstains).bind fun _ => ih
  | look _ ih => exact moves_state.bind fun σ => ih σ.view
  | newCell _ ih => exact newCell_silent.bind ih
  | tick cell _ ih => exact (tick_silent cell).bind ih
  | expand nodes _ ih => exact (silent.expand nodes).bind ih
  | descend nodes _ ih => exact (descend_silent silent nodes).bind ih
  | substitute raw _ ih =>
    have filled := @substitute_walk _ moves_sequential.chaining e e (placeholder_silent silent) raw
    exact filled.bind ih
  | call name node _ ih => exact (callBound_silent silent name node).bind ih
  | scope _ _ ihInner ih => exact (keepingSplices_silent ihInner).bind ih

end

mutual

theorem expandNode_silent {e : Engine} (silent : e.IsSilent) :
    ∀ node, Moves Silent (e.expandNode node)
  | .element name as cs => by
    have filled := @attributes_walk _ moves_sequential.chaining e e (placeholder_silent silent) as
    refine filled.bind fun as => state_bind_silent fun σ abstains => ?_
    cases bound : σ.splices.get? name with
    | none => exact (expandNodes_silent silent cs).bind fun _ => moves_pure _
    | some splice => exact invoke_silent silent name (abstains name splice bound) _
  | .text _ | .comment _ | .cdata _ | .instruction _ => moves_pure _

theorem expandNodes_silent {e : Engine} (silent : e.IsSilent) :
    ∀ nodes, Moves Silent (e.expandNodes nodes)
  | [] => moves_pure _
  | node :: nodes =>
    (expandNode_silent silent node).bind fun _ =>
      (expandNodes_silent silent nodes).bind fun _ => moves_pure _

end

/-- With any fuel, expansion applies no hooks where no splice evaluates a template. -/
theorem ofFuel_silent : ∀ n, (ofFuel n).IsSilent
  | 0 => ⟨fun _ => moves_failure, fun _ _ => moves_failure⟩
  | n + 1 =>
    { expand := expandNodes_silent (ofFuel_silent n)
      call := fun abstains node => perform_silent (ofFuel_silent n) (abstains node) }

end Engine

end Templating
