import Templating.Proofs.Expansion.Congruence

/-!
# What a run changes

A run changes the stage by the few steps it is made of. So a preorder on stages that
has room for each of these steps (`Frame`) relates every stage to the ones that runs
lead to, whatever is bound (`Engine.ofFuel_moves`). Two cases: the journal only grows, and
the hooks stay the same.
-/

namespace Templating

open Markup (Node)

/-- A preorder on stages with room for every step that a run is made of. -/
structure Frame (R : Stage → Stage → Prop) [IsPreorder Stage R] : Prop where
  change : ∀ {f : State → State}, Change f → ∀ s, R s { s with state := f s.state }
  record : ∀ (s : Stage) entry, R s { s with ledger := s.ledger.record entry }
  counts : ∀ (s : Stage) counts, R s { s with ledger := { s.ledger with counts } }
  control : ∀ {s t : Stage}, R s t → R s (t.withControl s.state.control)
  splices : ∀ {s t : Stage}, R s t → R s (t.withSplices s.state.splices)

/-- Hooks change no more of the ledger than the counts. -/
theorem Ledger.exists_applyHooks (l : Ledger) (hooks : List Hook) (nodes : List Node) :
    ∃ counts, (l.applyHooks hooks nodes).2 = { l with counts } := by
  induction hooks generalizing l nodes with
  | nil => exact ⟨l.counts, rfl⟩
  | cons hook hooks ih =>
    obtain ⟨counts, hc⟩ := ih (l.tick hook.cell).2 (hook.run (l.tick hook.cell).1 nodes)
    exact ⟨counts, hc⟩

namespace Run

theorem moves_congruence {R : Stage → Stage → Prop} [IsPreorder Stage R] (frame : Frame R) :
    Congruence fun _ r _ => Moves R r where
  toSequential := moves_sequential
  change h := moves_modifyState (frame.change h)
  record entry := moves_record fun s => frame.record s (entry s.state)
  newCell := fun s _ _ h => by
    cases h
    exact frame.counts s _
  tick cell := fun s _ _ h => by
    cases h
    exact frame.counts s _
  applyHooks slot nodes := by
    refine (moves_record fun s => frame.record s _).bind fun _ => ?_
    intro s out s' h
    cases h
    obtain ⟨counts, hc⟩ := s.ledger.exists_applyHooks (s.state.hooks slot) nodes
    rw [hc]
    exact frame.counts s counts
  keepingControl h := by
    intro s a s' hr
    rw [keepingControl_apply, Option.map_eq_some_iff] at hr
    obtain ⟨⟨a', t⟩, hr, ht⟩ := hr
    cases ht
    exact frame.control (h s _ t hr)
  keepingSplices h := by
    intro s a s' hr
    rw [keepingSplices_apply, Option.map_eq_some_iff] at hr
    obtain ⟨⟨a', t⟩, hr, ht⟩ := hr
    cases ht
    exact frame.splices (h s _ t hr)

end Run

/-- **Every run moves by a frame**, with any amount of fuel. -/
theorem Engine.ofFuel_moves {R : Stage → Stage → Prop} [IsPreorder Stage R] (frame : Frame R)
    (n : Nat) : (ofFuel n).Related (fun _ r _ => Run.Moves R r) (ofFuel n) :=
  ofFuel_related (Run.moves_congruence frame) (fun _ => Run.moves_failure) n

/-- The journal of the second stage is that of the first one and what was written since. -/
def JournalGrows (s t : Stage) : Prop := s.ledger.journal <:+ t.ledger.journal

instance : IsPreorder Stage JournalGrows where
  refl _ := List.suffix_refl _
  trans _ _ _ h h' := h.trans h'

theorem journalGrows_frame : Frame JournalGrows where
  change _ _ := List.suffix_refl _
  record _ entry := List.suffix_cons entry _
  counts _ _ := List.suffix_refl _
  control h := h
  splices h := h

theorem Run.journalGrows_congruence : Congruence fun _ r _ => Moves JournalGrows r :=
  moves_congruence journalGrows_frame

/-- The hooks of the second stage are those of the first one. -/
def SameHooks (s t : Stage) : Prop := t.state.hooks = s.state.hooks

instance : IsPreorder Stage SameHooks where
  refl _ := rfl
  trans _ _ _ h h' := Eq.trans h' h

theorem sameHooks_frame : Frame SameHooks where
  change h _ := by cases h <;> rfl
  record _ _ := rfl
  counts _ _ := rfl
  control h := h
  splices h := h

end Templating
