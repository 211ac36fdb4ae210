/-!
# Results that may be faults

Steps in sequence have a result if each of them has one (`exists_of_bind_eq_ok`), and a fault of
the sequence is a fault of one of them (`error_of_bind`). It is the same with the results of a
list, of which there are all or none (`exists_of_mapM_eq_ok`, `exists_of_mapM_eq_error`).
-/

namespace Templating

section

variable {ε ε' α β : Type} {x : Except ε α} {b : β} {e : ε}

theorem exists_of_bind_eq_ok {f : α → Except ε β} (h : x.bind f = .ok b) :
    ∃ a, x = .ok a ∧ f a = .ok b := by
  cases x with
  | error e => cases h
  | ok a => exact ⟨a, rfl, h⟩

theorem error_of_bind {f : α → Except ε β} (h : x.bind f = .error e) :
    x = .error e ∨ ∃ a, x = .ok a ∧ f a = .error e := by
  cases x with
  | error e' => exact .inl (congrArg Except.error (Except.error.inj h))
  | ok a => exact .inr ⟨a, rfl, h⟩

theorem exists_of_map_eq_ok {f : α → β} (h : x.map f = .ok b) : ∃ a, x = .ok a ∧ f a = b := by
  cases x with
  | error e => cases h
  | ok a => exact ⟨a, rfl, Except.ok.inj h⟩

theorem error_of_map {f : α → β} (h : x.map f = .error e) : x = .error e := by
  cases x with
  | error e' => exact congrArg Except.error (Except.error.inj h)
  | ok a => cases h

theorem mapError_eq_ok_iff {f : ε → ε'} {a : α} : x.mapError f = .ok a ↔ x = .ok a := by
  cases x with
  | error e => exact iff_of_false nofun nofun
  | ok a' => exact ⟨fun h => congrArg Except.ok (Except.ok.inj h),
      fun h => congrArg Except.ok (Except.ok.inj h)⟩

theorem exists_of_mapError_eq_error {f : ε → ε'} {e : ε'} (h : x.mapError f = .error e) :
    ∃ e', x = .error e' ∧ f e' = e := by
  cases x with
  | error e' => exact ⟨e', rfl, Except.error.inj h⟩
  | ok a => cases h

end

/-! ### Lists of results -/

section

variable {ε ε' α β : Type} {f : α → Except ε β} {xs : List α}

theorem mapM_cons_eq (x : α) (xs : List α) :
    (x :: xs).mapM f = (f x).bind fun y => (xs.mapM f).map (y :: ·) := by
  rw [List.mapM_cons]
  cases f x with
  | error e => rfl
  | ok y => cases xs.mapM f <;> rfl

theorem mapM_mapError (g : ε → ε') (xs : List α) :
    (xs.mapM fun x => (f x).mapError g) = (xs.mapM f).mapError g := by
  induction xs with
  | nil => rfl
  | cons x xs ih =>
    rw [mapM_cons_eq, mapM_cons_eq, ih]
    cases f x with
    | error e => rfl
    | ok y => cases xs.mapM f <;> rfl

/-- A fault of a list is one of something in it. -/
theorem exists_of_mapM_eq_error {e : ε} (h : xs.mapM f = .error e) : ∃ x ∈ xs, f x = .error e := by
  induction xs with
  | nil => cases h
  | cons x xs ih =>
    rw [mapM_cons_eq] at h
    rcases error_of_bind h with first | ⟨y, -, rest⟩
    · exact ⟨x, List.mem_cons_self, first⟩
    · obtain ⟨x', mem, failed⟩ := ih (error_of_map rest)
      exact ⟨x', List.mem_cons_of_mem _ mem, failed⟩

/-- A list with a result has one of everything in it. -/
theorem exists_of_mapM_eq_ok {ys : List β} (h : xs.mapM f = .ok ys) {x : α} (mem : x ∈ xs) :
    ∃ y, f x = .ok y := by
  induction xs generalizing ys with
  | nil => cases mem
  | cons x' xs ih =>
    rw [mapM_cons_eq] at h
    obtain ⟨y, first, rest⟩ := exists_of_bind_eq_ok h
    obtain ⟨ys', others, -⟩ := exists_of_map_eq_ok rest
    rcases List.mem_cons.mp mem with rfl | mem
    · exact ⟨y, first⟩
    · exact ih others mem

end

end Templating
