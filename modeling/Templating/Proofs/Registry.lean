import Templating.Registry

/-!
# What a registry holds

The keys of a registry are those with a value (`mem_keys_iff`). Of entries that are inserted
one after the other, the last one of a key counts (`get?_insertAll`). So inserting the
entries of a registry is inserting what it was made of (`insertAll_ofList`).
-/

namespace Templating.Registry

universe u v

variable {κ : Type u} {ν : Type v} [Ord κ]

/-! ### Keys -/

theorem mem_of_find_eq_some [Std.LawfulEqOrd κ] {key : κ} {value : ν} :
    ∀ {entries : List (κ × ν)}, find key entries = some value → (key, value) ∈ entries
  | (k, v) :: rest, h => by
    rw [find] at h
    split at h
    · rename_i eq
      obtain rfl := Std.LawfulEqCmp.eq_of_compare eq
      cases h
      exact List.mem_cons_self
    · exact List.mem_cons_of_mem _ (mem_of_find_eq_some h)

theorem find_ne_none_of_mem [Std.TransOrd κ] {key : κ} {value : ν} :
    ∀ {entries : List (κ × ν)}, (key, value) ∈ entries → find key entries ≠ none
  | (k, v) :: rest, mem => by
    rw [find]
    split
    · exact Option.some_ne_none v
    · rename_i other
      rcases List.mem_cons.mp mem with same | mem
      · cases same
        exact absurd Std.ReflCmp.compare_self other
      · exact find_ne_none_of_mem mem

theorem find_eq_some_of_mem [Std.TransOrd κ] {key : κ} {value : ν} :
    ∀ {entries : List (κ × ν)}, Ascending entries → (key, value) ∈ entries →
      find key entries = some value
  | (k, v) :: rest, h, mem => by
    obtain ⟨below, ascending⟩ := List.pairwise_cons.mp h
    rcases List.mem_cons.mp mem with same | mem
    · cases same
      rw [find, if_pos Std.ReflCmp.compare_self]
    · have greater : compare k key = .lt := below _ mem
      have other : compare key k ≠ .eq := fun eq => by
        rw [Std.OrientedCmp.eq_symm eq] at greater
        cases greater
      rw [find, if_neg other]
      exact find_eq_some_of_mem ascending mem

theorem get?_eq_some_iff [Std.TransOrd κ] [Std.LawfulEqOrd κ] {r : Registry κ ν} {key : κ}
    {value : ν} : r.get? key = some value ↔ (key, value) ∈ r.entries :=
  ⟨mem_of_find_eq_some, find_eq_some_of_mem r.ascending⟩

/-- **The keys** are what has a value. -/
theorem mem_keys_iff [Std.TransOrd κ] [Std.LawfulEqOrd κ] {r : Registry κ ν} {key : κ} :
    key ∈ r.keys ↔ r.get? key ≠ none := by
  rw [Option.ne_none_iff_exists', keys, List.mem_map]
  constructor
  · rintro ⟨⟨k, v⟩, mem, rfl⟩
    exact ⟨v, get?_eq_some_iff.mpr mem⟩
  · rintro ⟨value, h⟩
    exact ⟨(key, value), get?_eq_some_iff.mp h, rfl⟩

/-! ### Inserting entries -/

/-- The value of `key` in the last of `entries` that has one. -/
def last? (key : κ) (entries : List (κ × ν)) : Option ν := find key entries.reverse

theorem find_append (key : κ) (xs ys : List (κ × ν)) :
    find key (xs ++ ys) = (find key xs).or (find key ys) := by
  induction xs with
  | nil => rfl
  | cons e xs ih =>
    obtain ⟨k, v⟩ := e
    rw [List.cons_append, find, find]
    split
    · rfl
    · exact ih

theorem find_map [Std.TransOrd κ] [Std.LawfulEqOrd κ] [DecidableEq κ] (key : κ) (value : κ → ν) :
    ∀ keys : List κ, find key (keys.map fun k => (k, value k)) =
      if key ∈ keys then some (value key) else none
  | [] => rfl
  | k :: keys => by
    rw [List.map_cons, find]
    split
    · rename_i eq
      obtain rfl := Std.LawfulEqCmp.eq_of_compare eq
      rw [if_pos List.mem_cons_self]
    · rename_i other
      have ne : key ≠ k := fun eq => other (eq ▸ Std.ReflCmp.compare_self)
      rw [find_map key value keys]
      simp only [List.mem_cons, ne, false_or]

/-- Where every key has one value, it does not matter which entry is the last one. -/
theorem last?_map [Std.TransOrd κ] [Std.LawfulEqOrd κ] [DecidableEq κ] (key : κ) (value : κ → ν)
    (keys : List κ) : last? key (keys.map fun k => (k, value k)) =
      if key ∈ keys then some (value key) else none := by
  rw [last?, ← List.map_reverse, find_map]
  simp only [List.mem_reverse]

/-- **The last entry** of a key counts among those inserted, and what was there before
counts where there is none. -/
theorem get?_insertAll [Std.TransOrd κ] (r : Registry κ ν) (entries : List (κ × ν)) (key : κ) :
    (r.insertAll entries).get? key = (last? key entries).or (r.get? key) := by
  induction entries generalizing r with
  | nil => rfl
  | cons e entries ih =>
    have inserted : (r.insert e.1 e.2).get? key = (find key [e]).or (r.get? key) := by
      rw [get?_insert, find, find]
      split <;> rfl
    have all : r.insertAll (e :: entries) = (r.insert e.1 e.2).insertAll entries := rfl
    have last : last? key (e :: entries) = (last? key entries).or (find key [e]) := by
      rw [last?, List.reverse_cons, find_append]
      rfl
    rw [all, ih, inserted, last, Option.or_assoc]

/-- Where no key stands twice, its last entry is the only one. -/
theorem last?_entries [Std.TransOrd κ] [Std.LawfulEqOrd κ] (r : Registry κ ν) (key : κ) :
    last? key r.entries = r.get? key := by
  cases hl : last? key r.entries with
  | some value => exact (get?_eq_some_iff.mpr (List.mem_reverse.mp (mem_of_find_eq_some hl))).symm
  | none =>
    cases hg : r.get? key with
    | none => rfl
    | some value =>
      have mem := List.mem_reverse.mpr (mem_of_find_eq_some hg)
      exact absurd hl (find_ne_none_of_mem mem)

/-- Inserting the entries of a registry is inserting what it was made of. -/
theorem insertAll_ofList [Std.TransOrd κ] [Std.LawfulEqOrd κ] (r : Registry κ ν)
    (entries : List (κ × ν)) : r.insertAll (ofList entries).entries = r.insertAll entries := by
  refine ext_get? fun key => ?_
  rw [get?_insertAll, get?_insertAll, last?_entries, ofList, get?_insertAll, get?_empty,
    Option.or_none]

/-! ### Renaming keys -/

section

variable {f : κ → κ}

theorem find_mapKeys [Std.LawfulEqOrd κ] (injective : Function.Injective f) (key : κ) :
    ∀ entries : List (κ × ν), find (f key) (entries.map fun e => (f e.1, e.2)) = find key entries
  | [] => rfl
  | (k, v) :: entries => by
    have same : compare (f key) (f k) = .eq ↔ compare key k = .eq := by
      rw [Std.LawfulEqCmp.compare_eq_iff_eq, Std.LawfulEqCmp.compare_eq_iff_eq, injective.eq_iff]
    simp only [List.map_cons, find, same, find_mapKeys injective key entries]

/-- A key that nothing is renamed to has no value. -/
theorem find_mapKeys_of_ne [Std.LawfulEqOrd κ] {key : κ} : ∀ {entries : List (κ × ν)},
    (∀ e ∈ entries, f e.1 ≠ key) → find key (entries.map fun e => (f e.1, e.2)) = none
  | [], _ => rfl
  | (k, v) :: entries, h => by
    have other : compare key (f k) ≠ .eq := fun eq =>
      h _ List.mem_cons_self (Std.LawfulEqCmp.eq_of_compare eq).symm
    rw [List.map_cons, find, if_neg other]
    exact find_mapKeys_of_ne fun e mem => h e (List.mem_cons_of_mem _ mem)

variable [Std.TransOrd κ]

/-- The registry with its keys renamed. -/
def mapKeys (f : κ → κ) (r : Registry κ ν) : Registry κ ν :=
  ofList (r.entries.map fun e => (f e.1, e.2))

variable [Std.LawfulEqOrd κ]

/-- **Renamed keys** have the values that they had. -/
theorem get?_mapKeys (injective : Function.Injective f) (r : Registry κ ν) (key : κ) :
    (r.mapKeys f).get? (f key) = r.get? key := by
  rw [mapKeys, ofList, get?_insertAll, get?_empty, Option.or_none, last?, ← List.map_reverse,
    find_mapKeys injective]
  exact last?_entries r key

theorem get?_mapKeys_of_ne {r : Registry κ ν} {key : κ} (h : ∀ k ∈ r.keys, f k ≠ key) :
    (r.mapKeys f).get? key = none := by
  rw [mapKeys, ofList, get?_insertAll, get?_empty, Option.or_none, last?, ← List.map_reverse]
  refine find_mapKeys_of_ne fun e mem => h e.1 ?_
  exact List.mem_map_of_mem (List.mem_reverse.mp mem)

end

end Templating.Registry
