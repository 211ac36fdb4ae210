import Mathlib.Order.Defs.Unbundled
import Templating.Rendering

/-!
# What runs answer

A run takes a stage to an answer and a stage, or gives none. Here is what the basic
runs answer, and two ways to speak of all answers of a run:

* `Moves R r` — wherever `r` answers, the stage it leaves stands in the relation `R`
  to the one it found. Where `R` is a preorder, a run that is put together from runs
  that move by `R` moves by `R`.
* `EndsIn r s a s'` — of runs `r n` that are given more and more fuel, all from some
  one on answer `a` on the stage `s` and leave `s'`.
-/

namespace Templating

/-- What a splice may change for the time of its invocation. -/
structure Control where
  context : Path
  recursing : Bool
  depth : Nat
  deriving DecidableEq

/-- The control state. -/
def State.control (σ : State) : Control := ⟨σ.context, σ.recursing, σ.depth⟩

namespace Stage

/-- The stage with another control state. -/
def withControl (s : Stage) (c : Control) : Stage :=
  { s with
    state := { s.state with context := c.context, recursing := c.recursing, depth := c.depth } }

/-- The stage with other splices. -/
def withSplices (s : Stage) (splices : Splices) : Stage :=
  { s with state := { s.state with splices } }

end Stage

namespace Run

variable {α β : Type}

/-! ### Basic runs -/

@[simp] theorem pure_apply (a : α) (s : Stage) : (pure a : Run α) s = some (a, s) := rfl

@[simp] theorem bind_apply (r : Run α) (f : α → Run β) (s : Stage) :
    (r >>= f) s = (r s).bind fun p => f p.1 p.2 := rfl

@[simp] theorem map_apply (f : α → β) (r : Run α) (s : Stage) :
    (f <$> r) s = (r s).map fun p => (f p.1, p.2) := by
  rw [← bind_pure_comp, bind_apply]
  cases r s <;> rfl

@[simp] theorem state_apply (s : Stage) : state s = some (s.state, s) := rfl

@[simp] theorem modifyState_apply (f : State → State) (s : Stage) :
    modifyState f s = some ((), { s with state := f s.state }) := rfl

@[simp] theorem record_apply (entry : State → Entry) (s : Stage) :
    record entry s = some ((), { s with ledger := s.ledger.record (entry s.state) }) := rfl

theorem bind_eq_some {r : Run α} {f : α → Run β} {s s'' : Stage} {b : β} :
    (r >>= f) s = some (b, s'') ↔ ∃ a s', r s = some (a, s') ∧ f a s' = some (b, s'') := by
  simp [Option.bind_eq_some_iff]

theorem applyHooks_apply (slot : HookSlot) (nodes : List Markup.Node) (s : Stage) :
    ∃ out ledger, applyHooks slot nodes s = some (out, { s with ledger }) := ⟨_, _, rfl⟩

@[simp] theorem keepingControl_apply (r : Run α) (s : Stage) :
    keepingControl r s = (r s).map fun p => (p.1, p.2.withControl s.state.control) := by
  simp only [keepingControl, bind_apply, state_apply, Option.bind_some]
  cases r s <;> rfl

@[simp] theorem keepingSplices_apply (r : Run α) (s : Stage) :
    keepingSplices r s = (r s).map fun p => (p.1, p.2.withSplices s.state.splices) := by
  simp only [keepingSplices, bind_apply, state_apply, Option.bind_some]
  cases r s <;> rfl

/-! ### How runs move the stage -/

/-- Wherever the run answers, it leaves a stage that stands in the relation `R` to the
one it found. -/
def Moves (R : Stage → Stage → Prop) (r : Run α) : Prop := ∀ s a s', r s = some (a, s') → R s s'

section Moves

variable {R : Stage → Stage → Prop}

theorem moves_failure : Moves R (failure : Run α) := fun _ _ _ h => nomatch h

theorem moves_modifyState {f : State → State} (h : ∀ s, R s { s with state := f s.state }) :
    Moves R (modifyState f) := by
  intro s a s' hr
  cases hr
  exact h s

theorem moves_record {entry : State → Entry}
    (h : ∀ s : Stage, R s { s with ledger := s.ledger.record (entry s.state) }) :
    Moves R (record entry) := by
  intro s a s' hr
  cases hr
  exact h s

theorem moves_applyHooks {slot : HookSlot} {nodes : List Markup.Node}
    (h : ∀ (s : Stage) ledger, R s { s with ledger }) : Moves R (applyHooks slot nodes) := by
  intro s a s' hr
  obtain ⟨out, ledger, ho⟩ := applyHooks_apply slot nodes s
  rw [ho] at hr
  cases hr
  exact h s ledger

theorem Moves.imp {R' : Stage → Stage → Prop} {r : Run α} (h : Moves R r)
    (weaken : ∀ {s s'}, R s s' → R' s s') : Moves R' r := fun s a s' run => weaken (h s a s' run)

variable [IsPreorder Stage R]

theorem moves_pure (a : α) : Moves R (pure a : Run α) := by
  intro s a s' hr
  cases hr
  exact Std.Refl.refl s

theorem moves_state : Moves R state := by
  intro s a s' hr
  cases hr
  exact Std.Refl.refl s

theorem Moves.bind {r : Run α} {f : α → Run β} (hr : Moves R r) (hf : ∀ a, Moves R (f a)) :
    Moves R (r >>= f) := by
  intro s b s'' h
  obtain ⟨a, s', h₁, h₂⟩ := bind_eq_some.mp h
  exact IsTrans.trans s s' s'' (hr s a s' h₁) (hf a s' b s'' h₂)

end Moves

/-! ### Runs with more and more fuel -/

/-- With enough fuel the runs answer `a` on the stage `s`, and leave the stage `s'`. -/
def EndsIn (r : Nat → Run α) (s : Stage) (a : α) (s' : Stage) : Prop :=
  ∃ n, ∀ m, n ≤ m → r m s = some (a, s')

theorem endsIn_of_eq {r : Nat → Run α} {s s' : Stage} {a : α} (h : ∀ n, r n s = some (a, s')) :
    EndsIn r s a s' := ⟨0, fun m _ => h m⟩

theorem not_endsIn_of_eq_none {r : Nat → Run α} {s s' : Stage} {a : α} (h : ∀ n, r n s = none) :
    ¬ EndsIn r s a s' := by
  rintro ⟨n, hn⟩
  have answer := hn n (Nat.le_refl n)
  rw [h n] at answer
  cases answer

/-- Runs end in one way only. -/
theorem EndsIn.unique {r : Nat → Run α} {s s' t : Stage} {a b : α} (h : EndsIn r s a s')
    (h' : EndsIn r s b t) : a = b ∧ s' = t := by
  obtain ⟨n, hn⟩ := h
  obtain ⟨k, hk⟩ := h'
  have same := (hn (max n k) (Nat.le_max_left n k)).symm.trans (hk _ (Nat.le_max_right n k))
  cases same
  exact ⟨rfl, rfl⟩

theorem EndsIn.bind {r : Nat → Run α} {f : Nat → α → Run β} {s s' s'' : Stage} {a : α} {b : β}
    (hr : EndsIn r s a s') (hf : EndsIn (f · a) s' b s'') :
    EndsIn (fun n => r n >>= f n) s b s'' := by
  obtain ⟨n, hn⟩ := hr
  obtain ⟨k, hk⟩ := hf
  refine ⟨max n k, fun m hm => bind_eq_some.mpr ⟨a, s', hn m ?_, hk m ?_⟩⟩ <;> omega

theorem EndsIn.congr {r r' : Nat → Run α} {s t s' : Stage} {a : α} (h : EndsIn r' t a s')
    (eq : ∀ n, r n s = r' n t) : EndsIn r s a s' := by
  obtain ⟨n, hn⟩ := h
  exact ⟨n, fun m hm => (eq m).trans (hn m hm)⟩

theorem EndsIn.map {r : Nat → Run α} {r' : Nat → Run β} {s t s' : Stage} {a : α}
    (h : EndsIn r t a s') (f : α × Stage → β × Stage) (eq : ∀ n, r' n s = (r n t).map f) :
    EndsIn r' s (f (a, s')).1 (f (a, s')).2 := by
  obtain ⟨n, hn⟩ := h
  refine ⟨n, fun m hm => ?_⟩
  rw [eq m, hn m hm]
  rfl

/-- A run that ends with some fuel is one that ends one call further up. -/
theorem EndsIn.of_succ {r : Nat → Run α} {s s' : Stage} {a : α}
    (h : EndsIn (fun n => r (n + 1)) s a s') : EndsIn r s a s' := by
  obtain ⟨n, hn⟩ := h
  refine ⟨n + 1, fun m hm => ?_⟩
  obtain ⟨k, rfl⟩ : ∃ k, m = k + 1 := ⟨m - 1, by omega⟩
  exact hn k (by omega)

end Run

end Templating
