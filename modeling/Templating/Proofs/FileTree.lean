import Templating.FileTree
import Templating.Proofs.Result

/-!
# Writing files

Only directories lead further along a path, so that a path leads to the same place in every
tree that has the same directories (`locate_of_directories`). A file is written where no
directory is. So what was written at a path is read back there, and every other place holds
what it held (`rewritten_of_write`).
-/

namespace Templating.FileTree

variable {t u : FileTree} {place place' : List String} {path name : String} {bytes : List UInt8}

/-! ### Following paths -/

/-- A step is taken from a directory. -/
theorem directory_of_step (h : t.step place name = .ok place') :
    t.entry? place = some .directory := by
  rw [step] at h
  split at h
  · cases h
  · cases h
  · assumption

theorem step_of_directories
    (keeps : ∀ place, t.entry? place = some .directory → u.entry? place = some .directory)
    (h : t.step place name = .ok place') : u.step place name = .ok place' := by
  have here := directory_of_step h
  rw [step, here] at h
  rw [step, keeps place here]
  exact h

/-- **A path** leads where it led if no directory is lost. -/
theorem locate_of_directories
    (keeps : ∀ place, t.entry? place = some .directory → u.entry? place = some .directory)
    (h : t.locate path = .ok place) : u.locate path = .ok place := by
  have walk : ∀ (names : List String) (start : List String),
      names.foldlM t.step start = .ok place → names.foldlM u.step start = .ok place := by
    intro names
    induction names with
    | nil => exact fun _ h => h
    | cons name names ih =>
      intro start h
      rw [List.foldlM_cons] at h ⊢
      obtain ⟨next, stepped, rest⟩ := exists_of_bind_eq_ok h
      rw [step_of_directories keeps stepped]
      exact ih next rest
  rw [locate] at h ⊢
  split at h
  · cases h
  · rename_i named
    rw [if_neg named]
    exact walk _ _ h

/-! ### Writing -/

/-- The trees differ in no more than the file at a path, which holds these bytes in the second. -/
structure Rewritten (t : FileTree) (path : String) (bytes : List UInt8) (u : FileTree) : Prop where
  holds : u.read path = .ok bytes
  others : ∃ place, t.locate path = .ok place ∧
    ∀ other, other ≠ place → u.entry? other = t.entry? other

theorem entryAt_insert (nonempty : place ≠ []) (entry : FileEntry) (query : List String) :
    FileTree.entry? ⟨t.entries.insert place entry⟩ query =
      if query = place then some entry else t.entry? query := by
  by_cases same : query = place
  · rw [if_pos same, same, entry?, if_neg nonempty]
    exact Registry.get?_insert_self _ _ _
  · rw [if_neg same, entry?, entry?, Registry.get?_insert_of_ne _ _ same]

/-- A file is written where a path leads that does not end at a directory. -/
theorem of_write (h : t.write path bytes = .ok u) :
    ∃ place, t.locate path = .ok place ∧ t.entry? place ≠ some .directory ∧
      endsOpen path = false ∧ u = ⟨t.entries.insert place (.file bytes)⟩ := by
  rw [write] at h
  cases located : t.locate path with
  | error fault =>
    rw [located] at h
    cases h
  | ok place =>
    simp only [located] at h
    have unlessOpen {fault : Fault} {written : FileTree}
        (h : (if endsOpen path then .error fault else .ok written) = Except.ok u) :
        endsOpen path = false ∧ u = written := by
      split at h
      · cases h
      · rename_i closed
        cases h
        exact ⟨eq_false_of_ne_true closed, rfl⟩
    refine ⟨place, rfl, ?_⟩
    split at h
    · cases h
    · rename_i held
      exact ⟨held ▸ nofun, unlessOpen h⟩
    · rename_i held
      exact ⟨held ▸ nofun, unlessOpen h⟩

/-- **Writing a file** changes nothing else. -/
theorem rewritten_of_write (h : t.write path bytes = .ok u) : t.Rewritten path bytes u := by
  obtain ⟨place, located, noDirectory, closed, rfl⟩ := of_write h
  have nonempty : place ≠ [] := fun empty => noDirectory (by rw [empty, entry?, if_pos rfl])
  have others : ∀ other, other ≠ place →
      FileTree.entry? ⟨t.entries.insert place (.file bytes)⟩ other = t.entry? other := by
    intro other apart
    rw [entryAt_insert nonempty, if_neg apart]
  refine ⟨?_, place, located, others⟩
  have again := locate_of_directories (u := ⟨t.entries.insert place (.file bytes)⟩)
    (fun other directory => by
      rw [others other fun same => noDirectory (same ▸ directory), directory]) located
  rw [read, find, again]
  simp only [entryAt_insert nonempty, if_true, closed]
  rfl

end Templating.FileTree
