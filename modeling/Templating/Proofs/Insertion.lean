import Mathlib.Data.List.Dedup
import Templating.Proofs.Registry

/-!
# Which of the entries that are inserted count

Of entries with the same key the last one counts. So all of them count if and only if no key
stands twice among them (`last?_eq_iff_nodup`), and a registry grows by the number of keys
that are new to it, each counted once (`size_insertAll`).
-/

namespace Templating.Registry

universe u v

variable {κ : Type u} {ν : Type v} [Ord κ]

theorem last?_map_snd {ω : Type v} (g : ν → ω) (key : κ) (entries : List (κ × ν)) :
    last? key (entries.map fun e => (e.1, g e.2)) = (last? key entries).map g := by
  rw [last?, last?, ← List.map_reverse]
  induction entries.reverse with
  | nil => rfl
  | cons e rest ih =>
    rw [List.map_cons, find, find, ih]
    split <;> rfl

variable [Std.TransOrd κ]

/-- No key is listed twice. -/
theorem keys_nodup (r : Registry κ ν) : r.keys.Nodup :=
  r.keys_ascending.imp fun {a b} below same => by
    have level : compare b b = .eq := Std.ReflCmp.compare_self
    rw [same, level] at below
    cases below

variable [Std.LawfulEqOrd κ]

theorem last?_eq_none_iff {key : κ} {entries : List (κ × ν)} :
    last? key entries = none ↔ key ∉ entries.map (·.1) := by
  rw [last?, ← not_iff_not, not_not, List.mem_map]
  constructor
  · intro some
    obtain ⟨value, h⟩ := Option.ne_none_iff_exists'.mp some
    exact ⟨(key, value), List.mem_reverse.mp (mem_of_find_eq_some h), rfl⟩
  · rintro ⟨⟨k, value⟩, mem, rfl⟩
    exact find_ne_none_of_mem (List.mem_reverse.mpr mem)

/-- **Every entry counts** if and only if no key stands twice, where no value does. -/
theorem last?_eq_iff_nodup {α : Type*} {key : α → κ} {value : α → ν} {xs : List α}
    (distinct : (xs.map value).Nodup) :
    (∀ x ∈ xs, last? (key x) (xs.map fun x => (key x, value x)) = some (value x)) ↔
      (xs.map key).Nodup := by
  constructor
  · intro counts
    refine distinct.of_map.map_on fun x hx y hy same => ?_
    have values := counts x hx
    rw [same, counts y hy] at values
    exact (List.inj_on_of_nodup_map distinct hy hx (Option.some.inj values)).symm
  · intro nodup x hx
    cases last : last? (key x) (xs.map fun x => (key x, value x)) with
    | none =>
      refine absurd ?_ (last?_eq_none_iff.mp last)
      rw [List.map_map]
      exact List.mem_map_of_mem hx
    | some v =>
      obtain ⟨y, hy, entry⟩ := List.mem_map.mp (List.mem_reverse.mp (mem_of_find_eq_some last))
      obtain ⟨keys, rfl⟩ := Prod.mk.inj entry
      rw [List.inj_on_of_nodup_map nodup hy hx keys]

theorem mem_keys_insertAll {r : Registry κ ν} {entries : List (κ × ν)} {key : κ} :
    key ∈ (r.insertAll entries).keys ↔ key ∈ r.keys ∨ key ∈ entries.map (·.1) := by
  rw [mem_keys_iff, get?_insertAll, ne_eq, Option.or_eq_none_iff, last?_eq_none_iff, mem_keys_iff]
  tauto

/-- A registry grows by the number of keys that are new to it. -/
theorem size_insertAll [DecidableEq κ] {r : Registry κ ν} {entries : List (κ × ν)}
    (new : ∀ e ∈ entries, r.get? e.1 = none) :
    (r.insertAll entries).size = r.size + (entries.map (·.1)).dedup.length := by
  have apart : ∀ k ∈ r.keys, ∀ k' ∈ (entries.map (·.1)).dedup, k ≠ k' := by
    rintro k held k' inserted rfl
    obtain ⟨e, mem, rfl⟩ := List.mem_map.mp (List.mem_dedup.mp inserted)
    exact mem_keys_iff.mp held (new e mem)
  have keys : (r.insertAll entries).keys.Perm (r.keys ++ (entries.map (·.1)).dedup) := by
    refine (List.perm_ext_iff_of_nodup (keys_nodup _) ?_).mpr fun key => ?_
    · exact List.nodup_append.mpr ⟨r.keys_nodup, List.nodup_dedup _, apart⟩
    · rw [mem_keys_insertAll, List.mem_append, List.mem_dedup]
  simpa [Registry.keys, size] using keys.length_eq

end Templating.Registry
