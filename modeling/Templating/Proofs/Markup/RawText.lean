import Templating.Proofs.Markup.WellFormed
import Templating.Proofs.Text.Cut

/-!
# Cutting raw text

Raw text that is written with its end tag behind it is cut there (`splitRaw_append`),
whatever follows: an end tag is recognised by no more than its own length, so that what
follows cannot make one begin earlier. What was cut can be written like that
(`isRawText_splitRaw`), also where the source ended without an end tag.
-/

namespace Templating.Markup

open Text

/-- Whether an end tag begins is decided by the length of one. -/
theorem startsEndTag_append {name cs : List Char} (h : name.length + 3 ≤ cs.length)
    (rest : List Char) : startsEndTag name (cs ++ rest) = startsEndTag name cs := by
  match cs, h with
  | [], h => simp at h
  | [_], h => simp at h
  | a :: b :: cs, h =>
    simp only [List.length_cons] at h
    have name? : (cs ++ rest).take name.length = cs.take name.length :=
      List.take_append_of_le_length (by omega)
    have next? : ((cs ++ rest).drop name.length).head? = (cs.drop name.length).head? := by
      have more : cs.drop name.length ≠ [] := fun empty => by
        have := List.drop_eq_nil_iff.mp empty
        omega
      obtain ⟨d, ds, hd⟩ := List.exists_cons_of_ne_nil more
      rw [List.drop_append_of_le_length (by omega), hd]
      rfl
    by_cases opens : a = '<' ∧ b = '/'
    · obtain ⟨rfl, rfl⟩ := opens
      simp only [List.cons_append, startsEndTag, name?, next?]
    · have closed : ∀ ds, startsEndTag name (a :: b :: ds) = false := by
        intro ds
        unfold startsEndTag
        split
        · rename_i h
          cases h
          exact absurd ⟨rfl, rfl⟩ opens
        · rfl
      rw [List.cons_append, List.cons_append, closed, closed]

theorem startsEndTag_endTagOf (name rest : List Char) :
    startsEndTag name (endTagOf name ++ rest) = true := by
  simp [endTagOf, startsEndTag]

/-- **Raw text** is cut at its end tag. -/
theorem splitRaw_append {name : List Char} (hn : '>' ∉ name) (rest : List Char) :
    ∀ {body : List Char}, IsRawText name body →
      splitRaw name (body ++ (endTagOf name ++ rest)) = (body, rest)
  | [], _ => by
    have here := startsEndTag_endTagOf name rest
    have inside : ∀ d ∈ '<' :: '/' :: name, (d != '>') = true := by
      intro d hd
      rw [bne_iff_ne]
      rintro rfl
      rcases List.mem_cons.mp hd with hd | hd
      · exact absurd hd (by decide)
      · rcases List.mem_cons.mp hd with hd | hd
        · exact absurd hd (by decide)
        · exact hn hd
    have tag := (span_append (· != '>') ('<' :: '/' :: name) ('>' :: rest) inside (by
      rintro d ⟨rfl⟩
      rfl)).2
    have written : endTagOf name ++ rest = '<' :: '/' :: name ++ '>' :: rest := by simp [endTagOf]
    rw [written] at here
    rw [List.nil_append, written, List.cons_append, splitRaw, ← List.cons_append, if_pos here, tag]
    rfl
  | c :: body, h => by
    have first := h 0 (Nat.succ_pos _)
    have later : startsEndTag name (c :: (body ++ (endTagOf name ++ rest))) = false := by
      rw [← List.append_assoc, ← List.cons_append, startsEndTag_append]
      · exact first
      · simp [endTagOf]
        omega
    have inner : IsRawText name body := fun i hi => h (i + 1) (Nat.succ_lt_succ hi)
    rw [List.cons_append, splitRaw, later, splitRaw_append hn rest inner]
    rfl

/-! ### What was cut -/

/-- No letter has a bracket as its lower case. -/
theorem eq_of_toLower {c : Char} (h : c.toLower = '<') : c = '<' := by
  unfold Char.toLower at h
  split at h
  · rename_i upper
    have value := congrArg (fun d : Char => d.val.toNat) h
    have low : 65 ≤ c.toNat := UInt32.le_iff_toNat_le.mp upper.1
    have high : c.toNat ≤ 90 := UInt32.le_iff_toNat_le.mp upper.2
    simp at value
    omega
  · exact h

/-- An end tag that begins in a text with the end tag of a name behind it is all in that text. -/
theorem le_length_of_startsEndTag {name s : List Char} (hn : '<' ∉ name) (nonempty : s ≠ [])
    (h : startsEndTag name (s ++ endTagOf name) = true) : name.length + 3 ≤ s.length := by
  match s, nonempty with
  | [a], _ =>
    unfold startsEndTag at h
    split at h
    · rename_i heq
      cases heq
    · cases h
  | a :: b :: t, _ =>
    rw [List.cons_append, List.cons_append] at h
    unfold startsEndTag at h
    split at h
    · rename_i cs heq
      simp only [List.cons.injEq] at heq
      obtain ⟨-, -, rfl⟩ := heq
      rw [Bool.and_eq_true, beq_iff_eq] at h
      obtain ⟨same, stop⟩ := h
      simp only [List.length_cons]
      rcases Nat.lt_trichotomy t.length name.length with short | equal | long
      · have bracket : '<' ∈ (t ++ endTagOf name).take name.length := by
          refine List.mem_take_iff_getElem.mpr ⟨t.length, ?_, ?_⟩
          · rw [List.length_append]
            exact Nat.lt_min.mpr ⟨short, Nat.lt_add_of_pos_right (Nat.succ_pos _)⟩
          · simp [endTagOf]
        have lower : '<' ∈ name.map Char.toLower := by
          rw [← same]
          exact List.mem_map.mpr ⟨'<', bracket, rfl⟩
        obtain ⟨c, hc, low⟩ := List.mem_map.mp lower
        exact absurd (eq_of_toLower low ▸ hc) hn
      · rw [← equal, List.drop_left] at stop
        cases stop
      · omega
    · cases h

/-- Raw text is a piece of its source in which no end tag begins. -/
theorem append_of_splitRaw (name cs : List Char) :
    ∃ tail, cs = (splitRaw name cs).1 ++ tail ∧
      ∀ i < (splitRaw name cs).1.length, startsEndTag name (cs.drop i) = false := by
  induction cs with
  | nil => exact ⟨[], rfl, fun i hi => absurd hi (Nat.not_lt_zero i)⟩
  | cons c cs ih =>
    rw [splitRaw]
    split
    · exact ⟨c :: cs, rfl, fun i hi => absurd hi (Nat.not_lt_zero i)⟩
    · rename_i no
      obtain ⟨tail, parts, before⟩ := ih
      refine ⟨tail, congrArg (c :: ·) parts, fun i hi => ?_⟩
      cases i with
      | zero => exact eq_false_of_ne_true no
      | succ i => exact before i (Nat.lt_of_succ_lt_succ hi)

/-- Raw text, its end tag if there is one, and what follows make up the text that was cut. -/
theorem exists_append_of_splitRaw (name cs : List Char) :
    ∃ tag, cs = (splitRaw name cs).1 ++ (tag ++ (splitRaw name cs).2) := by
  induction cs with
  | nil => exact ⟨[], rfl⟩
  | cons c cs ih =>
    rw [splitRaw]
    split
    · have rest : (((c :: cs).dropWhile (· != '>')).drop 1) <:+ c :: cs :=
        (List.drop_suffix _ _).trans (List.dropWhile_suffix _)
      obtain ⟨tag, parts⟩ := rest
      exact ⟨tag, parts.symm⟩
    · obtain ⟨tag, parts⟩ := ih
      exact ⟨tag, congrArg (c :: ·) parts⟩

/-- **Raw text that was cut** is cut there again when it is written with its end tag. -/
theorem isRawText_splitRaw {name : List Char} (hn : '<' ∉ name) (cs : List Char) :
    IsRawText name (splitRaw name cs).1 := by
  intro i hi
  obtain ⟨tail, parts, before⟩ := append_of_splitRaw name cs
  refine eq_false_of_ne_true fun starts => ?_
  rw [List.drop_append_of_le_length (Nat.le_of_lt hi)] at starts
  have nonempty : (splitRaw name cs).1.drop i ≠ [] := fun empty =>
    Nat.not_le_of_lt hi (List.drop_eq_nil_iff.mp empty)
  have long := le_length_of_startsEndTag hn nonempty starts
  have earlier := before i hi
  rw [parts, List.drop_append_of_le_length (Nat.le_of_lt hi), startsEndTag_append long,
    ← startsEndTag_append long (endTagOf name), starts] at earlier
  cases earlier

end Templating.Markup
