/-!
# Measuring and cutting text

Positions in a source count the bytes of its UTF-8 form. `byteSize` measures text
that way and `dropBytes` cuts it at such a position, which fails when the position
lies inside a character or behind the end. `breakOn` cuts text at the first
occurrence of a mark.

## What is proved

* `dropBytes_append` — cutting behind a piece of text gives what follows it.
* `append_of_breakOn` — the parts around a mark and the mark make up the text.
* `not_occurs_of_breakOn` — the part before the mark is the shortest one.
-/

namespace Templating.Text

/-- The bytes that `cs` takes in UTF-8. -/
def byteSize : List Char → Nat
  | [] => 0
  | c :: cs => c.utf8Size + byteSize cs

@[simp] theorem byteSize_nil : byteSize [] = 0 := rfl

@[simp] theorem byteSize_cons (c : Char) (cs : List Char) :
    byteSize (c :: cs) = c.utf8Size + byteSize cs := rfl

@[simp] theorem byteSize_append (xs ys : List Char) :
    byteSize (xs ++ ys) = byteSize xs + byteSize ys := by
  induction xs with
  | nil => simp
  | cons c cs ih => simp [ih, Nat.add_assoc]

/-- What follows the first `n` bytes of the text, unless they end inside a character. -/
def dropBytes : Nat → List Char → Option (List Char)
  | 0, cs => some cs
  | _ + 1, [] => none
  | n + 1, c :: cs => if c.utf8Size ≤ n + 1 then dropBytes (n + 1 - c.utf8Size) cs else none

@[simp] theorem dropBytes_zero (cs : List Char) : dropBytes 0 cs = some cs := by
  cases cs <;> rfl

/-- Cutting behind a piece of text gives what follows it. -/
@[simp] theorem dropBytes_append (xs ys : List Char) :
    dropBytes (byteSize xs) (xs ++ ys) = some ys := by
  induction xs with
  | nil => simp
  | cons c cs ih =>
    have pos := c.utf8Size_pos
    obtain ⟨n, hn⟩ : ∃ n, c.utf8Size + byteSize cs = n + 1 :=
      ⟨c.utf8Size + byteSize cs - 1, by omega⟩
    have rest : n + 1 - c.utf8Size = byteSize cs := by omega
    rw [byteSize_cons, hn, List.cons_append, dropBytes, if_pos (by omega), rest, ih]

theorem length_dropBytes {n : Nat} {cs rest : List Char} (h : dropBytes n cs = some rest) :
    rest.length ≤ cs.length := by
  fun_induction dropBytes n cs with
  | case1 => simp_all
  | case2 => simp at h
  | case3 n c cs hle ih => exact Nat.le_trans (ih h) (by simp)
  | case4 => simp at h

theorem length_dropBytes_lt {n : Nat} {cs rest : List Char} (hn : 0 < n)
    (h : dropBytes n cs = some rest) : rest.length < cs.length := by
  obtain ⟨m, rfl⟩ : ∃ m, n = m + 1 := ⟨n - 1, by omega⟩
  cases cs with
  | nil => simp [dropBytes] at h
  | cons c cs =>
    rw [dropBytes] at h
    split at h
    · exact Nat.lt_of_le_of_lt (length_dropBytes h) (by simp)
    · simp at h

/-- The text before and after the first occurrence of `mark`. -/
def breakOn (mark : List Char) : List Char → Option (List Char × List Char)
  | [] => if mark = [] then some ([], []) else none
  | c :: cs =>
    if mark.isPrefixOf (c :: cs) then some ([], (c :: cs).drop mark.length)
    else (breakOn mark cs).map fun (before, after) => (c :: before, after)

/-- The parts around a mark and the mark make up the text. -/
theorem append_of_breakOn {mark cs before after : List Char}
    (h : breakOn mark cs = some (before, after)) : cs = before ++ mark ++ after := by
  induction cs generalizing before with
  | nil =>
    simp only [breakOn] at h
    split at h
    · simp_all
    · simp at h
  | cons c cs ih =>
    simp only [breakOn] at h
    split at h
    · rename_i hp
      obtain ⟨t, ht⟩ := List.isPrefixOf_iff_prefix.mp hp
      simp only [Option.some.injEq, Prod.mk.injEq] at h
      obtain ⟨rfl, rfl⟩ := h
      simp [← ht]
    · obtain ⟨⟨b, a⟩, hb, he⟩ := Option.map_eq_some_iff.mp h
      simp only [Prod.mk.injEq] at he
      obtain ⟨rfl, rfl⟩ := he
      simp [ih hb]

/-- A text that ends before the mark does is not the one before its first occurrence. -/
theorem not_occurs_of_breakOn {mark cs before after : List Char}
    (h : breakOn mark cs = some (before, after)) {short tail : List Char}
    (hs : cs = short ++ mark ++ tail) : before.length ≤ short.length := by
  induction cs generalizing before short with
  | nil =>
    simp only [breakOn] at h
    split at h
    · simp_all
    · simp at h
  | cons c cs ih =>
    simp only [breakOn] at h
    split at h
    · simp only [Option.some.injEq, Prod.mk.injEq] at h
      simp [← h.1]
    · rename_i hp
      obtain ⟨⟨b, a⟩, hb, he⟩ := Option.map_eq_some_iff.mp h
      simp only [Prod.mk.injEq] at he
      obtain ⟨rfl, rfl⟩ := he
      cases short with
      | nil =>
        refine absurd (List.isPrefixOf_iff_prefix.mpr ⟨tail, ?_⟩) hp
        simpa using hs.symm
      | cons d short =>
        simp only [List.cons_append, List.cons.injEq] at hs
        simpa using ih hb hs.2

theorem length_dropWhile_le (p : Char → Bool) (cs : List Char) :
    (cs.dropWhile p).length ≤ cs.length :=
  (List.dropWhile_sublist p).length_le

theorem length_of_breakOn {mark cs before after : List Char}
    (h : breakOn mark cs = some (before, after)) : after.length ≤ cs.length := by
  rw [append_of_breakOn h]
  simp only [List.length_append]
  omega

end Templating.Text
