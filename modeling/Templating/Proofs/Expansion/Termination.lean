import Templating.Proofs.Expansion.Ending

/-!
# Standard expansion ends

Where nothing but texts, nodes, the standard splices and the tags that `bind` binds is
bound, every run comes to its end (`standard_expansion_ends`), however templates and
bound tags use each other and themselves.

That nothing else is bound is a condition that runs keep up (`isStandard_steady`), so that
the calls of all names end wherever all ends one level deeper. The standard splices expand
at their own depth only the children of the node that invokes them; the body of a template
or a bound tag, and the result of a splice, are expanded one level deeper, whatever their
size. A placeholder has no children, so that what it invokes goes deeper at once.
-/

namespace Templating

open Markup (Attribute Node)

/-- Nothing is bound but splices whose behaviour is fixed. -/
def State.IsStandard (σ : State) : Prop :=
  ∀ name splice, σ.splices.get? name = some splice → splice.IsStandard

/-- Behind a binding, what is bound is the splice that was bound, or was bound before. -/
theorem State.get?_of_bind {σ : State} {name query : String} {splice found : Splice}
    (h : (σ.bind name splice).splices.get? query = some found) :
    (query = name ∧ found = splice) ∨ σ.splices.get? query = some found := by
  simp only [State.bind, Registry.get?_insert] at h
  split at h
  · rename_i eq
    cases h
    exact .inl ⟨Std.LawfulEqCmp.eq_of_compare eq, rfl⟩
  · exact .inr h

theorem State.IsStandard.bind {σ : State} (h : σ.IsStandard) (name : String) {splice : Splice}
    (hs : splice.IsStandard) : (σ.bind name splice).IsStandard := by
  intro query found hf
  obtain ⟨-, rfl⟩ | hf := State.get?_of_bind hf
  · exact hs
  · exact h query found hf

theorem State.empty_isStandard : State.empty.IsStandard := fun _ _ h => nomatch h

theorem State.standard_isStandard : State.standard.IsStandard :=
  ((empty_isStandard.bind "apply" .apply).bind "bind" .bind).bind "ignore" .ignore

theorem isStandard_steady : Steady State.IsStandard where
  control h _ _ _ := h
  doctypes h _ := h
  bind h name _ hs := h.bind name hs
  splices h _ := h

/-- A stage of standard splices at a depth. -/
def Ready (d : Nat) (s : Stage) : Prop := s.state.IsStandard ∧ s.state.depth = d

namespace Engine

open Run

theorem standard_callsAt {d : Nat}
    (deeper : d < depthLimit → ExpandsAt State.IsStandard (d + 1)) (name : String) :
    CallsAt State.IsStandard d name := fun _ splice h hb node =>
  call_ends isStandard_steady deeper (h name splice hb) node

/-- Expanding nodes ends at every depth. -/
theorem expandsAt (d : Nat) : ExpandsAt State.IsStandard d :=
  expandsAt_of_calls isStandard_steady (fun _ => standard_callsAt) d

theorem substitute_ends {d : Nat} (deeper : d < depthLimit → ExpandsAt State.IsStandard (d + 1))
    (raw : String) : Ends (Ready d) (Ready d) fun n => (ofFuel n).substitute raw :=
  substitute_ends_of_calls isStandard_steady fun name _ => standard_callsAt deeper name

theorem evaluate_ends (d : Nat) (name : String) :
    Ends (Ready d) (Ready d) fun n => (ofFuel n).evaluate name :=
  evaluate_ends_of_bodies isStandard_steady fun _ body _ _ => expandsAt d body

theorem render_ends (d : Nat) (name : String) :
    Ends (Ready d) (Ready d) fun n => (ofFuel n).render name :=
  render_ends_of_evaluate isStandard_steady (evaluate_ends 0 name)

/-- **Standard expansion ends**: over texts, nodes, `apply`, `bind`, `ignore` and bound tags,
with whatever templates, hooks and depth, every run that expands nodes, fills the
placeholders of a value, evaluates a template or renders one has an answer, and gives it
with every amount of fuel from some one on. -/
theorem standard_expansion_ends (s : Stage) (h : s.state.IsStandard) :
    (∀ nodes, ∃ out s', EndsIn (fun n => (ofFuel n).expand nodes) s out s') ∧
    (∀ raw, ∃ value s', EndsIn (fun n => (ofFuel n).substitute raw) s value s') ∧
    (∀ name, ∃ found s', EndsIn (fun n => (ofFuel n).evaluate name) s found s') ∧
    (∀ name, ∃ rendered s', EndsIn (fun n => (ofFuel n).render name) s rendered s') := by
  have ready : Ready s.state.depth s := ⟨h, rfl⟩
  refine ⟨fun nodes => ?_, fun raw => ?_, fun name => ?_, fun name => ?_⟩
  · obtain ⟨out, s', hout, -⟩ := expandsAt _ nodes s ready
    exact ⟨out, s', hout⟩
  · obtain ⟨value, s', hvalue, -⟩ := substitute_ends (fun _ => expandsAt _) raw s ready
    exact ⟨value, s', hvalue⟩
  · obtain ⟨found, s', hfound, -⟩ := evaluate_ends _ name s ready
    exact ⟨found, s', hfound⟩
  · obtain ⟨rendered, s', hrendered, -⟩ := render_ends _ name s ready
    exact ⟨rendered, s', hrendered⟩

/-- A template that applies itself, with a tag that it binds to itself: in the body, in a
placeholder and in the children of the use. -/
def selfApplying : Stage where
  state := State.standard.addTemplate "again"
    { format := .html
      content :=
        [.element "bind" [⟨"tag", "t"⟩]
            [.element "t" [⟨"a", "$(t)"⟩] [.element "content" [] [], .element "t" [] []]],
          .element "t" [] [.element "t" [] []],
          .element "apply" [⟨"template", "again"⟩] [.element "content" [] []]] }

theorem selfApplying_ends :
    selfApplying.state.IsStandard ∧
      ∃ rendered s', EndsIn (fun n => (ofFuel n).render "again") selfApplying rendered s' :=
  have h : selfApplying.state.IsStandard := State.standard_isStandard
  ⟨h, (standard_expansion_ends selfApplying h).2.2.2 "again"⟩

end Engine

end Templating
