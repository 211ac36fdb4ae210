import Templating.Interpolation

/-!
# Pieces of values

How long the literal text of a value is. A value without the opening of a placeholder
is left as it is; one with it loses characters, the backslash before the dollar sign or
the placeholder itself, unless a lookup puts others in their place.
-/

namespace Templating.Interpolation

/-- The number of characters in the literal pieces. -/
def literalLength : List Piece → Nat
  | [] => 0
  | .literal text :: pieces => text.length + literalLength pieces
  | .placeholder _ :: pieces => literalLength pieces

theorem literalLength_append (xs ys : List Piece) :
    literalLength (xs ++ ys) = literalLength xs + literalLength ys := by
  induction xs with
  | nil => simp [literalLength]
  | cons x xs ih => cases x <;> simp [literalLength, ih, Nat.add_assoc]

theorem literalLength_flush (read : List Char) : literalLength (flush read) = read.length := by
  unfold flush
  split
  · rename_i h
    simp [h, literalLength]
  · simp [literalLength]

theorem piecesFrom_of_parse? {raw : String} {pieces : List Piece} (h : parse? raw = some pieces) :
    piecesFrom [] none raw.toList = some pieces := by
  unfold parse? at h
  split at h
  · cases h
  · exact h

/-- Literal text has no more characters than what it was read from. -/
theorem literalLength_le {read : List Char} {name : Option (List Char)} {cs : List Char}
    {pieces : List Piece} (h : piecesFrom read name cs = some pieces) :
    literalLength pieces ≤ read.length + cs.length := by
  fun_induction piecesFrom read name cs generalizing pieces with
  | case1 => cases h
  | case2 read name cs ih =>
    obtain ⟨rest, hr, rfl⟩ := Option.map_eq_some_iff.mp h
    have := ih hr
    simp only [literalLength, List.length_cons, List.length_nil] at this ⊢
    omega
  | case3 read name c cs _ ih =>
    have := ih h
    simp only [List.length_cons] at this ⊢
    omega
  | case4 read =>
    cases h
    simp [literalLength_flush]
  | case5 => cases h
  | case6 read c cs ih =>
    have := ih h
    simp only [List.length_cons] at this ⊢
    omega
  | case7 read cs ih =>
    obtain ⟨rest, hr, rfl⟩ := Option.map_eq_some_iff.mp h
    have := ih hr
    simp only [literalLength_append, literalLength_flush, List.length_cons,
      List.length_nil] at this ⊢
    omega
  | case8 read c cs _ _ _ ih =>
    have := ih h
    simp only [List.length_cons] at this ⊢
    omega

/-- Where a placeholder is mentioned, characters are lost. -/
theorem literalLength_lt {read : List Char} {name : Option (List Char)} {cs : List Char}
    {pieces : List Piece} (h : piecesFrom read name cs = some pieces) (hn : name = none)
    (hm : mentionsPlaceholder cs = true) : literalLength pieces < read.length + cs.length := by
  fun_induction piecesFrom read name cs generalizing pieces with
  | case1 => cases hn
  | case2 => cases hn
  | case3 => cases hn
  | case4 => cases hm
  | case5 => cases h
  | case6 read c cs =>
    -- The backslash itself is lost, whatever stands behind it.
    have := literalLength_le h
    simp only [List.length_cons] at this ⊢
    omega
  | case7 read cs =>
    obtain ⟨rest, hr, rfl⟩ := Option.map_eq_some_iff.mp h
    have := literalLength_le hr
    simp only [literalLength_append, literalLength_flush, List.length_cons,
      List.length_nil] at this ⊢
    omega
  | case8 read c cs _ _ plain ih =>
    rw [mentionsPlaceholder] at hm
    · have := ih h rfl hm
      simp only [List.length_cons] at this ⊢
      omega
    · exact plain

end Templating.Interpolation
