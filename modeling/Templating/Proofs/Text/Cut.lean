import Mathlib.Data.List.DropRight
import Templating.Text.Blank
import Templating.Text.Cut

/-!
# Cutting what was put together

Text that was put together from parts is cut where they meet: by a kind of characters
(`span_append`), at a position (`dropBytes_add_append`), and at a closing mark
(`breakOn_append`). A mark that the first part does not contain does not begin inside it
either, if no proper part of the mark ends like the mark. The positions at which a text can be
cut are its boundaries (`isBoundary_iff`).

The other way round, no mark is left in what was cut at its first occurrence
(`not_infix_of_breakOn`), and no blank at the ends of what was trimmed (`trim_trim`).
-/

namespace Templating.Text

/-- Text is cut where its first part ends, if the next character is not of its kind. -/
theorem span_append (p : Char → Bool) (cs rest : List Char) (h : ∀ c ∈ cs, p c = true)
    (stop : ∀ c ∈ rest.head?, p c = false) :
    (cs ++ rest).takeWhile p = cs ∧ (cs ++ rest).dropWhile p = rest := by
  rw [List.takeWhile_append_of_pos h, List.dropWhile_append_of_pos h]
  cases rest with
  | nil => exact ⟨List.append_nil _, rfl⟩
  | cons c cs =>
    have stop := stop c rfl
    simp [stop]

/-- Cutting behind a piece of text and more cuts what follows the piece. -/
theorem dropBytes_add_append (n : Nat) (xs ys : List Char) :
    dropBytes (byteSize xs + n) (xs ++ ys) = dropBytes n ys := by
  induction xs with
  | nil => rw [byteSize_nil, Nat.zero_add, List.nil_append]
  | cons c cs ih =>
    have pos := c.utf8Size_pos
    obtain ⟨m, hm⟩ : ∃ m, c.utf8Size + byteSize cs + n = m + 1 :=
      ⟨c.utf8Size + byteSize cs + n - 1, by omega⟩
    have rest : m + 1 - c.utf8Size = byteSize cs + n := by omega
    rw [byteSize_cons, hm, List.cons_append, dropBytes, if_pos (by omega), rest, ih]

/-- Cutting gives what follows a piece of that many bytes. -/
theorem dropBytes_eq_some_iff {n : Nat} {cs rest : List Char} :
    dropBytes n cs = some rest ↔ ∃ before, cs = before ++ rest ∧ byteSize before = n := by
  constructor
  · intro h
    fun_induction dropBytes n cs with
    | case1 cs =>
      cases h
      exact ⟨[], rfl, rfl⟩
    | case2 => cases h
    | case3 n c cs fits ih =>
      obtain ⟨before, rfl, size⟩ := ih h
      exact ⟨c :: before, rfl, by rw [byteSize_cons]; omega⟩
    | case4 => cases h
  · rintro ⟨before, rfl, rfl⟩
    exact dropBytes_append before rest

/-- The position is one between two characters of the text, or at one of its ends. -/
def IsBoundary (cs : List Char) (n : Nat) : Prop :=
  ∃ before behind, cs = before ++ behind ∧ byteSize before = n

theorem IsBoundary.of_initial {cs before : List Char} (h : before <+: cs) :
    IsBoundary cs (byteSize before) := by
  obtain ⟨behind, parts⟩ := h
  exact ⟨before, behind, parts.symm, rfl⟩

theorem isBoundary_iff {cs : List Char} {n : Nat} : IsBoundary cs n ↔ dropBytes n cs ≠ none := by
  rw [Option.ne_none_iff_exists']
  constructor
  · rintro ⟨before, behind, parts, size⟩
    exact ⟨behind, dropBytes_eq_some_iff.mpr ⟨before, parts, size⟩⟩
  · rintro ⟨behind, cut⟩
    obtain ⟨before, parts, size⟩ := dropBytes_eq_some_iff.mp cut
    exact ⟨before, behind, parts, size⟩

instance (cs : List Char) (n : Nat) : Decidable (IsBoundary cs n) :=
  decidable_of_iff _ isBoundary_iff.symm

theorem isBoundary_add_append_iff (n : Nat) (xs ys : List Char) :
    IsBoundary (xs ++ ys) (byteSize xs + n) ↔ IsBoundary ys n := by
  rw [isBoundary_iff, isBoundary_iff, dropBytes_add_append]

/-- A boundary of the first part is one of the whole, and there are no others within it. -/
theorem isBoundary_append_iff {n : Nat} {xs : List Char} (h : n ≤ byteSize xs) (ys : List Char) :
    IsBoundary (xs ++ ys) n ↔ IsBoundary xs n := by
  constructor
  · rintro ⟨before, behind, parts, size⟩
    rcases List.append_eq_append_iff.mp parts with ⟨more, rfl, rfl⟩ | ⟨more, rfl, -⟩
    · rw [byteSize_append] at size
      cases more with
      | nil => exact ⟨xs, [], (List.append_nil xs).symm, by simpa using size⟩
      | cons c more =>
        have := c.utf8Size_pos
        simp only [byteSize_cons] at size
        omega
    · exact ⟨before, more, rfl, size⟩
  · rintro ⟨before, behind, rfl, size⟩
    exact ⟨before, behind ++ ys, List.append_assoc .., size⟩

/-- A mark does not begin inside a text that does not contain it, if the last character of
the mark stands nowhere else in it. -/
theorem not_prefix_append {m body rest : List Char} {e : Char} (hm : e ∉ m) (nonempty : body ≠ [])
    (h : ¬ m ++ [e] <:+: body) : ¬ m ++ [e] <+: body ++ (m ++ [e] ++ rest) := by
  intro inner
  rcases List.prefix_or_prefix_of_prefix inner (List.prefix_append body _) with within | ⟨u, hu⟩
  · exact h within.isInfix
  · rcases List.eq_nil_or_concat u with rfl | ⟨v, last, rfl⟩
    · rw [List.append_nil] at hu
      exact h (hu ▸ List.infix_refl _)
    · rw [List.concat_eq_append, ← List.append_assoc] at hu
      obtain ⟨hv, hl⟩ := List.append_inj' hu rfl
      cases hl
      have longer : (v ++ [e]).length ≤ m.length := by
        have := List.length_pos_iff.mpr nonempty
        rw [← hv, List.length_append, List.length_append, List.length_singleton]
        omega
      have shifted : v ++ [e] <+: m ++ ([e] ++ rest) := by
        rw [← List.prefix_append_right_inj body, ← List.append_assoc, hu, ← List.append_assoc m]
        exact inner
      have part := List.prefix_of_prefix_length_le shifted (List.prefix_append m _) longer
      exact hm (part.subset (List.mem_append_right v (List.mem_singleton_self e)))

/-- **The first mark** behind a text that does not contain it is the one written there. -/
theorem breakOn_append {m : List Char} {e : Char} (hm : e ∉ m) (rest : List Char) :
    ∀ {body : List Char}, ¬ m ++ [e] <:+: body →
      breakOn (m ++ [e]) (body ++ (m ++ [e] ++ rest)) = some (body, rest)
  | [], _ => by
    have here : (m ++ [e]).isPrefixOf (m ++ [e] ++ rest) = true :=
      List.isPrefixOf_iff_prefix.mpr (List.prefix_append _ _)
    have behind : (m ++ [e] ++ rest).drop (m ++ [e]).length = rest := List.drop_left
    cases hc : m ++ [e] ++ rest with
    | nil => exact absurd hc (by simp)
    | cons c cs =>
      rw [hc] at here behind
      rw [List.nil_append, breakOn, if_pos here, behind]
  | c :: body, h => by
    have later : (m ++ [e]).isPrefixOf (c :: (body ++ (m ++ [e] ++ rest))) = false :=
      Bool.eq_false_iff.mpr fun inner =>
        not_prefix_append hm (List.cons_ne_nil c body) h (List.isPrefixOf_iff_prefix.mp inner)
    have ih := breakOn_append hm rest fun inner : m ++ [e] <:+: body =>
      h (inner.trans (List.suffix_cons c body).isInfix)
    rw [List.cons_append, breakOn, later, ih]
    rfl

theorem mem_head?_of_starts {cs ds : List Char} (h : cs <+: ds) {c : Char} (hc : c ∈ cs.head?) :
    c ∈ ds.head? := by
  obtain ⟨rest, rfl⟩ := h
  obtain ⟨tail, rfl⟩ := List.head?_eq_some_iff.mp hc
  rfl

theorem not_infix_of_breakOn {mark cs before after : List Char} (nonempty : mark ≠ [])
    (h : breakOn mark cs = some (before, after)) : ¬ mark <:+: before := by
  rintro ⟨front, back, rfl⟩
  have parts : cs = front ++ mark ++ (back ++ mark ++ after) := by
    rw [append_of_breakOn h]
    simp only [List.append_assoc]
  have first := not_occurs_of_breakOn h parts
  have := List.length_pos_iff.mpr nonempty
  simp only [List.length_append] at first
  omega

/-! ### Trimming -/

theorem trim_eq (cs : List Char) : trim cs = (cs.dropWhile isBlank).rdropWhile isBlank := rfl

/-- Trimming takes away nothing but blanks, in front and behind. -/
theorem exists_trim (cs : List Char) :
    ∃ front back, cs = front ++ (trim cs ++ back) ∧
      (∀ c ∈ front, isBlank c = true) ∧ ∀ c ∈ back, isBlank c = true := by
  refine ⟨cs.takeWhile isBlank, (cs.dropWhile isBlank).rtakeWhile isBlank, ?_,
    fun c => List.mem_takeWhile_imp, fun c => List.mem_rtakeWhile_imp⟩
  rw [trim_eq, List.rdropWhile_append_rtakeWhile, List.takeWhile_append_dropWhile]

theorem trim_trim (cs : List Char) : trim (trim cs) = trim cs := by
  have start : (trim cs).dropWhile isBlank = trim cs := by
    obtain ⟨back, hb⟩ : trim cs <+: cs.dropWhile isBlank := List.rdropWhile_prefix ..
    cases ht : trim cs with
    | nil => rfl
    | cons c t =>
      rw [ht, List.cons_append] at hb
      have first := List.head?_dropWhile_not isBlank cs
      rw [← hb] at first
      exact List.dropWhile_cons_of_neg (by simpa using first)
  rw [trim_eq (trim cs), start, trim_eq, List.rdropWhile_idempotent]

end Templating.Text
