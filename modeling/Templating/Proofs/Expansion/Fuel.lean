import Templating.Proofs.Expansion.Congruence

/-!
# Fuel

Fuel decides whether a run comes to its end and nothing else: a run that answers with
some fuel answers the same with more (`ofFuel_below`). So what a run ends in does not
depend on how much fuel it was given, and one amount with which it answers shows that
it ends (`expand_endsIn`).
-/

namespace Templating

namespace Run

variable {α β : Type}

/-- Wherever `r` answers, `r'` answers the same. -/
def Below (r r' : Run α) : Prop := ∀ s x, r s = some x → r' s = some x

theorem Below.refl (r : Run α) : Below r r := fun _ _ h => h

theorem Below.bind {r r' : Run α} {f f' : α → Run β} (hr : Below r r')
    (hf : ∀ a, Below (f a) (f' a)) : Below (r >>= f) (r' >>= f') := by
  intro s x h
  obtain ⟨a, s', h₁, h₂⟩ := bind_eq_some.mp h
  exact bind_eq_some.mpr ⟨a, s', hr s _ h₁, hf a s' _ h₂⟩

theorem below_congruence : Congruence fun _ => Below where
  pure _ := .refl _
  bind := .bind
  state := .refl _
  change _ := .refl _
  record _ := .refl _
  newCell := .refl _
  tick _ := .refl _
  applyHooks _ _ := .refl _
  keepingControl h := Below.bind (.refl _) fun _ => h.bind fun _ => .refl _
  keepingSplices h := Below.bind (.refl _) fun _ => h.bind fun _ => .refl _

/-- Runs of which none loses an answer by more fuel end in any answer that one of them
gives. -/
theorem endsIn_of_below {r : Nat → Run α} (grow : ∀ {n m}, n ≤ m → Below (r n) (r m)) {n : Nat}
    {s s' : Stage} {a : α} (h : r n s = some (a, s')) : EndsIn r s a s' :=
  ⟨n, fun _ hm => grow hm s _ h⟩

/-- One run after the other ends where the second one ends from where the first one ends. -/
theorem endsIn_bind_iff {r : Nat → Run α} {f : Nat → α → Run β}
    (growRun : ∀ {n m}, n ≤ m → Below (r n) (r m))
    (growRest : ∀ {n m}, n ≤ m → ∀ a, Below (f n a) (f m a)) {s s'' : Stage} {b : β} :
    EndsIn (fun n => r n >>= f n) s b s'' ↔
      ∃ a s', EndsIn r s a s' ∧ EndsIn (f · a) s' b s'' := by
  constructor
  · rintro ⟨n, hn⟩
    obtain ⟨a, s', here, rest⟩ := bind_eq_some.mp (hn n (Nat.le_refl n))
    exact ⟨a, s', endsIn_of_below growRun here, endsIn_of_below (fun more => growRest more a) rest⟩
  · rintro ⟨a, s', here, rest⟩
    exact here.bind rest

end Run

namespace Engine

open Run

theorem ofFuel_below_succ : ∀ n, (ofFuel n).Related (fun _ => Below) (ofFuel (n + 1))
  | 0 => ⟨fun _ _ _ h => (nomatch h), fun _ _ _ _ h => (nomatch h)⟩
  | n + 1 => Related.next below_congruence (ofFuel_below_succ n)

/-- **More fuel** changes no answer. -/
theorem ofFuel_below {n m : Nat} (h : n ≤ m) :
    (ofFuel n).Related (fun _ => Below) (ofFuel m) := by
  induction h with
  | refl => exact ⟨fun _ => .refl _, fun _ _ => .refl _⟩
  | @step m _ ih =>
    have last := ofFuel_below_succ m
    exact ⟨fun nodes s x hx => last.expand nodes s x (ih.expand nodes s x hx),
      fun splice node s x hx => last.call splice node s x (ih.call splice node s x hx)⟩

/-- What expanding nodes answers with some fuel is what it ends in. -/
theorem expand_endsIn {n : Nat} {nodes out : List Markup.Node} {s s' : Stage}
    (h : (ofFuel n).expand nodes s = some (out, s')) :
    EndsIn (fun n => (ofFuel n).expand nodes) s out s' :=
  endsIn_of_below (fun more => (ofFuel_below more).expand nodes) h

/-- What performing a script answers with some fuel is what it ends in. -/
theorem perform_endsIn {n : Nat} {script : Script} {out : List Markup.Node} {s s' : Stage}
    (h : (ofFuel n).perform script s = some (out, s')) :
    EndsIn (fun n => (ofFuel n).perform script) s out s' :=
  endsIn_of_below (fun more => perform_related below_congruence (ofFuel_below more) script) h

theorem Related.render {e e' : Engine} (h : e.Related (fun _ => Below) e') (name : String) :
    Below (e.render name) (e'.render name) := by
  refine Below.bind (.refl _) fun σ => ?_
  split
  · exact .refl _
  · refine Below.bind (.refl _) fun _ => ?_
    exact (evaluate_related below_congruence h name).bind fun _ => .refl _

theorem render_below {n m : Nat} (h : n ≤ m) (name : String) :
    Below ((ofFuel n).render name) ((ofFuel m).render name) := (ofFuel_below h).render name

/-- What a render answers with some fuel is what it ends in. -/
theorem render_endsIn {n : Nat} {name : String} {rendered : Option Rendered} {s s' : Stage}
    (h : (ofFuel n).render name s = some (rendered, s')) :
    EndsIn (fun n => (ofFuel n).render name) s rendered s' :=
  endsIn_of_below (fun more => render_below more name) h

end Engine

end Templating
