/-!
# Registries

A registry maps keys to values. Its entries stand in strictly ascending order
of their keys, so that listing a registry lists it in order, and two registries
with the same lookups are the same.

## What is proved

* `get?_insert` — writing a key changes the lookup of that key only.
* `keys_ascending` — the listed keys strictly ascend, so none is listed twice.
* `ext_get?` — registries with the same lookups are the same.
-/

namespace Templating

universe u v

/-- Entries in strictly ascending order of their keys. -/
def Ascending {κ : Type u} {ν : Type v} [Ord κ] (entries : List (κ × ν)) : Prop :=
  entries.Pairwise fun a b => compare a.1 b.1 = .lt

/-- A finite map, kept in ascending order of its keys. -/
structure Registry (κ : Type u) (ν : Type v) [Ord κ] where
  /-- The keys with their values. -/
  entries : List (κ × ν)
  ascending : Ascending entries

namespace Registry

variable {κ : Type u} {ν : Type v} [Ord κ]

/-- The registry without entries. -/
def empty : Registry κ ν := ⟨[], .nil⟩

instance : EmptyCollection (Registry κ ν) := ⟨empty⟩

instance : Inhabited (Registry κ ν) := ⟨empty⟩

/-- The value of `key` among `entries`. -/
def find (key : κ) : List (κ × ν) → Option ν
  | [] => none
  | (k, v) :: rest => if compare key k = .eq then some v else find key rest

/-- `entries` with `value` under `key`: before the first greater key, or in the
place of the equal one. -/
def place (key : κ) (value : ν) : List (κ × ν) → List (κ × ν)
  | [] => [(key, value)]
  | (k, v) :: rest =>
    match compare key k with
    | .lt => (key, value) :: (k, v) :: rest
    | .eq => (key, value) :: rest
    | .gt => (k, v) :: place key value rest

/-- The value of `key`. -/
def get? (r : Registry κ ν) (key : κ) : Option ν := find key r.entries

/-- Whether `key` has a value. -/
def contains (r : Registry κ ν) (key : κ) : Bool := (r.get? key).isSome

/-- The keys, in ascending order. -/
def keys (r : Registry κ ν) : List κ := r.entries.map (·.1)

/-- The number of keys. -/
def size (r : Registry κ ν) : Nat := r.entries.length

theorem mem_place {key : κ} {value : ν} {entries : List (κ × ν)} {e : κ × ν}
    (h : e ∈ place key value entries) : e = (key, value) ∨ e ∈ entries := by
  induction entries with
  | nil => exact .inl (List.mem_singleton.mp h)
  | cons e' rest ih =>
    obtain ⟨k, v⟩ := e'
    simp only [place] at h
    split at h
    · exact List.mem_cons.mp h
    · exact (List.mem_cons.mp h).imp_right (List.mem_cons_of_mem _)
    · rcases List.mem_cons.mp h with h | h
      · exact .inr (h ▸ List.mem_cons_self)
      · exact (ih h).imp_right (List.mem_cons_of_mem _)

section Lawful

variable [Std.TransOrd κ]

/-- Writing an entry keeps the order. -/
theorem ascending_place (key : κ) (value : ν) {entries : List (κ × ν)} (h : Ascending entries) :
    Ascending (place key value entries) := by
  induction entries with
  | nil => exact List.pairwise_singleton _ _
  | cons e rest ih =>
    obtain ⟨k, v⟩ := e
    have ⟨below, rest_ascending⟩ := List.pairwise_cons.mp h
    simp only [place]
    split
    · rename_i lt
      refine List.pairwise_cons.mpr ⟨fun e he => ?_, h⟩
      rcases List.mem_cons.mp he with rfl | he
      · exact lt
      · exact Std.TransCmp.lt_trans lt (below e he)
    · rename_i eq
      exact List.pairwise_cons.mpr
        ⟨fun e he => Std.TransCmp.lt_of_eq_of_lt eq (below e he), rest_ascending⟩
    · rename_i gt
      refine List.pairwise_cons.mpr ⟨fun e he => ?_, ih rest_ascending⟩
      rcases mem_place he with rfl | he
      · exact Std.OrientedCmp.gt_iff_lt.mp gt
      · exact below e he

/-- The registry with `value` under `key`, which replaces an earlier value. -/
def insert (r : Registry κ ν) (key : κ) (value : ν) : Registry κ ν :=
  ⟨place key value r.entries, ascending_place key value r.ascending⟩

/-- The registry with each of `entries` inserted, in order: the last one of a key wins. -/
def insertAll (r : Registry κ ν) (entries : List (κ × ν)) : Registry κ ν :=
  entries.foldl (fun r e => r.insert e.1 e.2) r

/-- The registry of `entries`, the last one of a key winning. -/
def ofList (entries : List (κ × ν)) : Registry κ ν := empty.insertAll entries

end Lawful

/-! ### Lookups -/

@[simp] theorem get?_empty (key : κ) : (empty : Registry κ ν).get? key = none := rfl

theorem find_place [Std.TransOrd κ] (key query : κ) (value : ν) (entries : List (κ × ν)) :
    find query (place key value entries) =
      if compare query key = .eq then some value else find query entries := by
  induction entries with
  | nil => rfl
  | cons e rest ih =>
    obtain ⟨k, v⟩ := e
    simp only [place]
    split
    · rfl
    · rename_i eq
      simp only [find]
      have : compare query key = compare query k := Std.TransCmp.congr_right eq
      rw [this]
      split <;> rfl
    · rename_i gt
      simp only [find, ih]
      split
      · rename_i hk
        split
        · rename_i hq
          have : compare key k = .eq := Std.TransCmp.eq_trans (Std.OrientedCmp.eq_symm hq) hk
          rw [this] at gt
          exact absurd gt (by decide)
        · rfl
      · rfl

/-- **Writing a key** changes the lookup of that key only. -/
theorem get?_insert [Std.TransOrd κ] (r : Registry κ ν) (key query : κ) (value : ν) :
    (r.insert key value).get? query =
      if compare query key = .eq then some value else r.get? query :=
  find_place key query value r.entries

@[simp] theorem get?_insert_self [Std.TransOrd κ] (r : Registry κ ν) (key : κ) (value : ν) :
    (r.insert key value).get? key = some value := by
  rw [get?_insert, if_pos Std.ReflCmp.compare_self]

theorem get?_insert_of_ne [Std.TransOrd κ] [Std.LawfulEqOrd κ] (r : Registry κ ν) {key query : κ}
    (value : ν) (h : query ≠ key) : (r.insert key value).get? query = r.get? query := by
  rw [get?_insert, if_neg fun heq => h (Std.LawfulEqCmp.eq_of_compare heq)]

/-- **The listed keys** strictly ascend. -/
theorem keys_ascending (r : Registry κ ν) : r.keys.Pairwise fun a b => compare a b = .lt :=
  List.pairwise_map.mpr r.ascending

theorem find_eq_none_of_lt {key : κ} {entries : List (κ × ν)}
    (h : ∀ e ∈ entries, compare key e.1 = .lt) : find key entries = none := by
  induction entries with
  | nil => rfl
  | cons e rest ih =>
    obtain ⟨k, v⟩ := e
    have lt : compare key k = .lt := h (k, v) List.mem_cons_self
    simp only [find, lt]
    exact ih fun e he => h e (List.mem_cons_of_mem _ he)

theorem eq_of_find_eq [Std.TransOrd κ] [Std.LawfulEqOrd κ] :
    ∀ {xs ys : List (κ × ν)}, Ascending xs → Ascending ys →
      (∀ key, find key xs = find key ys) → xs = ys
  | [], [], _, _, _ => rfl
  | [], (k, v) :: _, _, _, h => by
    have := h k
    simp [find, Std.ReflCmp.compare_self] at this
  | (k, v) :: _, [], _, _, h => by
    have := h k
    simp [find, Std.ReflCmp.compare_self] at this
  | (k, v) :: xs, (k', v') :: ys, hx, hy, h => by
    have ⟨belowx, hx'⟩ := List.pairwise_cons.mp hx
    have ⟨belowy, hy'⟩ := List.pairwise_cons.mp hy
    have same : compare k k' = .eq := by
      cases hc : compare k k' with
      | eq => rfl
      | lt =>
        have none : find k ((k', v') :: ys) = none := find_eq_none_of_lt fun e he => by
          rcases List.mem_cons.mp he with rfl | he
          · exact hc
          · exact Std.TransCmp.lt_trans hc (belowy e he)
        have := h k
        rw [none] at this
        simp [find, Std.ReflCmp.compare_self] at this
      | gt =>
        have hc := Std.OrientedCmp.gt_iff_lt.mp hc
        have none : find k' ((k, v) :: xs) = none := find_eq_none_of_lt fun e he => by
          rcases List.mem_cons.mp he with rfl | he
          · exact hc
          · exact Std.TransCmp.lt_trans hc (belowx e he)
        have := h k'
        rw [none] at this
        simp [find, Std.ReflCmp.compare_self] at this
    obtain rfl := Std.LawfulEqCmp.eq_of_compare same
    have hv := h k
    simp only [find, Std.ReflCmp.compare_self, if_true, Option.some.injEq] at hv
    subst hv
    refine congrArg _ (eq_of_find_eq hx' hy' fun key => ?_)
    by_cases hk : compare key k = .eq
    · obtain rfl := Std.LawfulEqCmp.eq_of_compare hk
      rw [find_eq_none_of_lt belowx, find_eq_none_of_lt belowy]
    · simpa [find, hk] using h key

/-- **Registries with the same lookups** are the same. -/
theorem ext_get? [Std.TransOrd κ] [Std.LawfulEqOrd κ] {r s : Registry κ ν}
    (h : ∀ key, r.get? key = s.get? key) : r = s := by
  obtain ⟨xs, hx⟩ := r
  obtain ⟨ys, hy⟩ := s
  obtain rfl := eq_of_find_eq hx hy h
  rfl

end Registry

end Templating
