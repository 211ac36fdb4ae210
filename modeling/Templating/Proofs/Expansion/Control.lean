import Templating.Proofs.Expansion.Congruence
import Templating.Proofs.Expansion.Step

/-!
# What a run puts back

The directory, whether the result of the current splice is expanded, and the depth are
the control state. Splices may change all three, at any time and in any nesting, and
yet a run of expansion leaves them as it found them (`expansion_restores_control`).

Three mechanisms see to that. The invocation of a splice and the expansion of a
template take a copy and put it back (`moves_keepingControl`), so that nothing needs to
be known of what happens in between: filling placeholders, expanding nodes and
evaluating a template restore the control state over any engine. Expanding one level
deeper counts up and down again, which restores the depth only because what is
expanded in between does.
-/

namespace Templating

open Markup (Attribute Node)

/-- Two stages with the same control state. -/
def SameControl (s s' : Stage) : Prop := s'.state.control = s.state.control

instance : IsPreorder Stage SameControl where
  refl _ := rfl
  trans _ _ _ h h' := Eq.trans h' h

namespace Run

variable {α : Type}

/-- Whatever the body does, the control state is put back. -/
theorem moves_keepingControl (r : Run α) : Moves SameControl (keepingControl r) := by
  intro s a s' h
  rw [keepingControl_apply, Option.map_eq_some_iff] at h
  obtain ⟨⟨a', t⟩, -, ht⟩ := h
  cases ht
  rfl

theorem Moves.keepingSplices {r : Run α} (h : Moves SameControl r) :
    Moves SameControl (keepingSplices r) := by
  intro s a s' hr
  rw [keepingSplices_apply, Option.map_eq_some_iff] at hr
  obtain ⟨⟨a', t⟩, hr, ht⟩ := hr
  cases ht
  exact h s _ t hr

end Run

namespace Engine

open Run

variable (e : Engine)

theorem placeholder_moves (name : String) : Moves SameControl (e.placeholder name) := by
  refine moves_state.bind fun σ => ?_
  cases σ.splices.get? name with
  | none => exact moves_pure _
  | some splice => exact moves_keepingControl _

theorem substitute_moves (raw : String) : Moves SameControl (e.substitute raw) :=
  @substitute_walk _ moves_sequential.chaining e e e.placeholder_moves raw

theorem attributes_moves (as : List Attribute) : Moves SameControl (e.attributes as) :=
  @attributes_walk _ moves_sequential.chaining e e e.placeholder_moves as

theorem invoke_moves (name : String) (splice : Splice) (node : Node) :
    Moves SameControl (e.invoke name splice node) := moves_keepingControl _

/-- Expanding nodes restores the control state, whatever the engine does. -/
theorem expandNodes_moves (nodes : List Node) : Moves SameControl (e.expandNodes nodes) :=
  @expandNodes_walk _ moves_sequential.chaining e e e.placeholder_moves
    (@replace_related _ moves_sequential e e e.invoke_moves) nodes

theorem ofFuel_expand_moves : ∀ n nodes, Moves SameControl ((ofFuel n).expand nodes)
  | 0, _ => moves_failure
  | n + 1, nodes => (ofFuel n).expandNodes_moves nodes

/-- What expanding nodes ends in has the control state from before it. -/
theorem control_of_expand {nodes out : List Node} {s s' : Stage}
    (ends : EndsIn (fun n => (ofFuel n).expand nodes) s out s') :
    s'.state.control = s.state.control := by
  obtain ⟨n, hn⟩ := ends
  exact ofFuel_expand_moves n nodes s out s' (hn n (Nat.le_refl n))

theorem evaluate_moves (name : String) : Moves SameControl (e.evaluate name) := by
  refine moves_state.bind fun σ => ?_
  split
  · exact moves_pure _
  · refine Moves.bind (moves_modifyState fun _ => rfl) fun _ => ?_
    refine (moves_applyHooks fun _ _ => rfl).bind fun body => ?_
    refine (moves_keepingControl _).bind fun out => ?_
    exact (moves_applyHooks fun _ _ => rfl).bind fun _ => moves_pure _

theorem evaluateWith_moves (name : String) (args : List (String × String)) :
    Moves SameControl (e.evaluateWith name args) :=
  .keepingSplices (Moves.bind (moves_modifyState fun _ => rfl) fun _ => e.evaluate_moves name)

/-- One level deeper and back is the same depth, if what is expanded there restores it. -/
theorem descend_moves (h : ∀ nodes, Moves SameControl (e.expand nodes)) (nodes : List Node) :
    Moves SameControl (e.descend nodes) := by
  intro s out s' hr
  by_cases hd : s.state.depth < depthLimit
  · rw [e.descend_of_lt nodes hd, Option.map_eq_some_iff] at hr
    obtain ⟨⟨inner, t⟩, ht, hr⟩ := hr
    cases hr
    exact Stage.ascended_control (h nodes _ inner t ht)
  · rw [e.descend_of_le nodes (Nat.not_lt.mp hd)] at hr
    cases hr
    rfl

/-- **The control state is restored**: a run that expands nodes, expands them one level
deeper, fills the placeholders of a value or evaluates a template, with or without
arguments, leaves the directory, the flag and the depth as they were. What splices do is
up to the engine `e`, which may do anything to the stage; over `ofFuel n` they perform
their scripts, and `(ofFuel n).next` is `ofFuel (n + 1)`. -/
theorem expansion_restores_control (e : Engine) (s s' : Stage) :
    (∀ nodes out, e.next.expand nodes s = some (out, s') →
      s'.state.control = s.state.control) ∧
    (∀ nodes out, e.next.descend nodes s = some (out, s') →
      s'.state.control = s.state.control) ∧
    (∀ raw value, e.next.substitute raw s = some (value, s') →
      s'.state.control = s.state.control) ∧
    (∀ name found, e.next.evaluate name s = some (found, s') →
      s'.state.control = s.state.control) ∧
    (∀ name args found, e.next.evaluateWith name args s = some (found, s') →
      s'.state.control = s.state.control) := by
  refine ⟨fun nodes out h => ?_, fun nodes out h => ?_, fun raw value h => ?_,
    fun name found h => ?_, fun name args found h => ?_⟩
  · exact e.expandNodes_moves nodes s out s' h
  · exact e.next.descend_moves e.expandNodes_moves nodes s out s' h
  · exact e.next.substitute_moves raw s value s' h
  · exact e.next.evaluate_moves name s found s' h
  · exact e.next.evaluateWith_moves name args s found s' h

/-- A splice that leaves the directory, stops recursion, binds a tag, expands it one level
deeper and evaluates a template. -/
def wandering : Splice := fun _ =>
  .setContext (.parse "elsewhere") <| .stop <| .bind "y" (Splice.text "Y") <|
    .descend [.element "y" [] []] fun deeper =>
      .evaluate "t" fun found => .done (deeper ++ found.getD [])

/-- A stage seven levels deep in the directory `q`, where `x` is bound to that splice. -/
def wanderingStage : Stage where
  state :=
    { (State.empty.bind "x" wandering).addTemplate "t"
        { format := .html, content := [.element "y" [] []] } with
      context := .parse "q", depth := 7 }

theorem wandering_restores_control :
    ∃ s', (ofFuel 4).expand [.element "x" [] []] wanderingStage =
        some ([.text "Y", .text "Y"], s') ∧
      s'.state.control = ⟨.parse "q", true, 7⟩ := by
  obtain ⟨s', run⟩ : ∃ s', (ofFuel 4).expand [.element "x" [] []] wanderingStage =
      some ([.text "Y", .text "Y"], s') := ⟨_, rfl⟩
  exact ⟨s', run, (expansion_restores_control (ofFuel 3) wanderingStage s').1 _ _ run⟩

end Engine

end Templating
