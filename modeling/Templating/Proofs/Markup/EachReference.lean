import Mathlib.Data.List.Forall2
import Mathlib.Data.List.Infix
import Templating.Markup.Parse
import Templating.Markup.Print
import Templating.Proofs.Markup.GenuineToken

/-!
# References one by one

A reference stands for its character wherever it stands. `decodeEach` replaces every reference
that is known, and leaves all other ampersands as they are written. HTML does not decode like
that: one ampersand that begins no known reference, and the whole run stays as it is written,
with the references in it. So a run is decoded reference by reference if and only if all of its
ampersands begin known references, or none does (`decoded_each_iff`), and where it is not, the
references in it are escaped once more when the page is written (`strayAmpersand_undecoded`).

Decoding in one pass and decoding each reference go on in step up to the first ampersand that
begins no known reference (`decodeFrom_of_allKnown`, `decodeFrom_of_stray`), by induction on the
text, where a known reference is taken as a whole.
-/

namespace Templating.Markup

open Text

namespace Reference

/-! ### Each reference on its own -/

/-- Whether a character can stand in a reference, between its ampersand and its semicolon. -/
def inBody (c : Char) : Bool := c != ';' && c != '&'

/-- The character that a reference stands for, and what follows it, where `cs` follows an
ampersand; none where no known reference begins. -/
def known? (cs : List Char) : Option (Char × List Char) :=
  match cs.dropWhile inBody with
  | ';' :: rest =>
    match resolve 0 (cs.takeWhile inBody) with
    | .ok d => some (d, rest)
    | .error _ => none
  | _ => none

theorem known?_eq_some_iff {cs rest : List Char} {d : Char} :
    known? cs = some (d, rest) ↔
      ∃ body, cs = body ++ ';' :: rest ∧ (∀ c ∈ body, inBody c = true) ∧
        resolve 0 body = .ok d := by
  constructor
  · intro h
    unfold known? at h
    split at h
    · rename_i behind
      split at h
      · rename_i resolved
        cases h
        refine ⟨cs.takeWhile inBody, ?_, fun c mem => List.mem_takeWhile_imp mem, resolved⟩
        rw [← behind, List.takeWhile_append_dropWhile]
      · cases h
    · cases h
  · rintro ⟨body, rfl, clean, resolved⟩
    obtain ⟨taken, left⟩ := span_append inBody body (';' :: rest) clean (by
      rintro c ⟨rfl⟩
      rfl)
    rw [known?, left, taken]
    simp only [resolved]

theorem length_of_known? {cs rest : List Char} {d : Char} (h : known? cs = some (d, rest)) :
    rest.length < cs.length := by
  obtain ⟨body, rfl, -, -⟩ := known?_eq_some_iff.mp h
  simp only [List.length_append, List.length_cons]
  omega

/-- The text with every known reference replaced by its character, and all else as written. -/
def decodeEach : List Char → List Char
  | [] => []
  | c :: cs =>
    if c = '&' then
      match _h : known? cs with
      | some (d, rest) => d :: decodeEach rest
      | none => c :: decodeEach cs
    else c :: decodeEach cs
termination_by cs => cs.length
decreasing_by
  · exact Nat.lt_succ_of_lt (length_of_known? _h)
  all_goals exact Nat.lt_succ_self _

/-- Every ampersand of the text begins a known reference. -/
def AllKnown (cs : List Char) : Prop := ∀ after, '&' :: after <:+ cs → (known? after).isSome

/-- No ampersand of the text begins a known reference. -/
def NoneKnown (cs : List Char) : Prop := ∀ after, '&' :: after <:+ cs → known? after = none

section

variable {c d : Char} {cs rest : List Char}

theorem forall_ampersand_iff {p : List Char → Prop} :
    (∀ t ∈ cs.tails, t.head? = some '&' → p t.tail) ↔ ∀ after, '&' :: after <:+ cs → p after := by
  constructor
  · intro h after behind
    exact h _ ((List.mem_tails _ _).mpr behind) rfl
  · intro h t mem first
    obtain ⟨after, rfl⟩ := List.head?_eq_some_iff.mp first
    exact h after ((List.mem_tails _ _).mp mem)

instance (cs : List Char) : Decidable (AllKnown cs) :=
  decidable_of_iff _ (forall_ampersand_iff (p := fun after => (known? after).isSome))

instance (cs : List Char) : Decidable (NoneKnown cs) :=
  decidable_of_iff _ (forall_ampersand_iff (p := fun after => known? after = none))

/-- Ampersands are found behind a character that is none. -/
theorem suffix_of_ne (other : c ≠ '&') (after : List Char) :
    '&' :: after <:+ c :: cs ↔ '&' :: after <:+ cs := by
  rw [List.suffix_cons_iff]
  refine or_iff_right fun same => ?_
  cases same
  exact other rfl

/-- Ampersands are found behind a text that has none. -/
theorem suffix_of_notMem {body : List Char} (none : '&' ∉ body) (after : List Char) :
    '&' :: after <:+ body ++ cs ↔ '&' :: after <:+ cs := by
  induction body with
  | nil => rfl
  | cons b body ih =>
    rw [List.mem_cons, not_or] at none
    rw [List.cons_append, suffix_of_ne (Ne.symm none.1), ih none.2]

/-- Inside of a known reference no ampersand is found. -/
theorem suffix_of_known? (h : known? cs = some (d, rest)) (after : List Char) :
    '&' :: after <:+ cs ↔ '&' :: after <:+ rest := by
  obtain ⟨body, rfl, clean, -⟩ := known?_eq_some_iff.mp h
  have none : '&' ∉ body := fun mem => Bool.false_ne_true (clean '&' mem)
  rw [suffix_of_notMem none, suffix_of_ne (by decide)]

theorem allKnown_of_ne (other : c ≠ '&') : AllKnown (c :: cs) ↔ AllKnown cs :=
  forall_congr' fun after => imp_congr_left (suffix_of_ne other after)

theorem allKnown_of_known? (h : known? cs = some (d, rest)) :
    AllKnown ('&' :: cs) ↔ AllKnown rest := by
  constructor
  · intro all after behind
    exact all after (((suffix_of_known? h after).mpr behind).trans (List.suffix_cons _ _))
  · intro all after behind
    rcases List.suffix_cons_iff.mp behind with same | behind
    · cases same
      rw [h]
      rfl
    · exact all after ((suffix_of_known? h after).mp behind)

theorem not_allKnown_of_stray (h : known? cs = none) : ¬ AllKnown ('&' :: cs) := by
  intro all
  have known := all cs (List.suffix_refl _)
  rw [h] at known
  cases known

end

/-! ### All references of a run -/

/-- What a reference stands for does not depend on where it stands. -/
theorem resolve_eq_ok_iff (i : Nat) (body : List Char) (d : Char) :
    resolve i body = .ok d ↔ resolve 0 body = .ok d := by
  unfold resolve
  split
  · rfl
  · rfl
  · split
    · rfl
    · exact iff_of_false nofun nofun

section

variable (stop start i : Nat) (read : List Char) {body : List Char}
  (clean : ∀ c ∈ body, inBody c = true)

include clean

/-- A reference is read up to its semicolon. -/
theorem decodeFrom_closed (rest : List Char) :
    decodeFrom stop i (some ⟨start, read⟩) (body ++ ';' :: rest) =
      (resolve (start + 1) (read.reverse ++ body)).bind fun d =>
        (decodeFrom stop (i + byteSize body + 1) none rest).map (d :: ·) := by
  induction body generalizing i read with
  | nil =>
    rw [List.nil_append, decodeFrom, if_pos rfl, List.append_nil]
    cases resolve (start + 1) read.reverse <;> rfl
  | cons c body ih =>
    obtain ⟨first, clean⟩ := List.forall_mem_cons.mp clean
    obtain ⟨noEnd, noStart⟩ := Bool.and_eq_true_iff.mp first
    rw [List.cons_append, decodeFrom, if_neg (bne_iff_ne.mp noEnd), if_neg (bne_iff_ne.mp noStart),
      ih _ _ clean]
    simp [Nat.add_assoc]

/-- A reference is broken if the text or another one comes before its semicolon. -/
theorem decodeFrom_unclosed {tail : List Char} (ends : ∀ c ∈ tail.head?, c = '&') :
    decodeFrom stop i (some ⟨start, read⟩) (body ++ tail) = .error (.unterminated start stop) := by
  induction body generalizing i read with
  | nil =>
    cases tail with
    | nil => rfl
    | cons c tail =>
      obtain rfl := ends c rfl
      rfl
  | cons c body ih =>
    obtain ⟨first, clean⟩ := List.forall_mem_cons.mp clean
    obtain ⟨noEnd, noStart⟩ := Bool.and_eq_true_iff.mp first
    rw [List.cons_append, decodeFrom, if_neg (bne_iff_ne.mp noEnd), if_neg (bne_iff_ne.mp noStart),
      ih _ _ clean]

end

section

variable (stop i : Nat) {cs rest : List Char} {d : Char}

/-- A known reference is replaced. -/
theorem decodeFrom_of_known? (h : known? cs = some (d, rest)) :
    ∃ j, decodeFrom stop i none ('&' :: cs) = (decodeFrom stop j none rest).map (d :: ·) := by
  obtain ⟨body, rfl, clean, resolved⟩ := known?_eq_some_iff.mp h
  have resolved := (resolve_eq_ok_iff (i + 1) body d).mpr resolved
  refine ⟨i + 1 + byteSize body + 1, ?_⟩
  rw [decodeFrom, if_pos rfl, decodeFrom_closed stop i (i + 1) [] clean, List.reverse_nil,
    List.nil_append, resolved]
  rfl

/-- An ampersand that begins no known reference is a fault. -/
theorem decodeFrom_of_stray (h : known? cs = none) :
    ∃ fault, decodeFrom stop i none ('&' :: cs) = .error fault := by
  have clean : ∀ c ∈ cs.takeWhile inBody, inBody c = true := fun c => List.mem_takeWhile_imp
  rw [decodeFrom, if_pos rfl, ← List.takeWhile_append_dropWhile (p := inBody) (l := cs)]
  unfold known? at h
  split at h
  · rename_i rest behind
    rw [behind, decodeFrom_closed stop i (i + 1) [] clean, List.reverse_nil, List.nil_append]
    cases resolved : resolve (i + 1) (cs.takeWhile inBody) with
    | error fault => exact ⟨fault, rfl⟩
    | ok d =>
      rw [(resolve_eq_ok_iff _ _ d).mp resolved] at h
      cases h
  · rename_i noEnd
    refine ⟨_, decodeFrom_unclosed stop i (i + 1) [] clean fun c first => ?_⟩
    obtain ⟨tail, behind⟩ := List.head?_eq_some_iff.mp first
    have outside : inBody c = false := by
      have := List.head?_dropWhile_not inBody cs
      rw [first] at this
      simpa using this
    rw [inBody, Bool.and_eq_false_iff, bne_eq_false_iff_eq, bne_eq_false_iff_eq] at outside
    rcases outside with rfl | rfl
    · exact absurd behind (noEnd tail)
    · rfl

/-- Where all references are known, decoding the run is decoding each of them. -/
theorem decodeFrom_of_allKnown (all : AllKnown cs) :
    decodeFrom stop i none cs = .ok (decodeEach cs) := by
  fun_induction decodeEach cs generalizing i with
  | case1 => rfl
  | case2 cs d rest known ih =>
    obtain ⟨j, decoded⟩ := decodeFrom_of_known? stop i known
    rw [decoded, ih j ((allKnown_of_known? known).mp all)]
    rfl
  | case3 cs stray => exact absurd all (not_allKnown_of_stray stray)
  | case4 c cs other ih =>
    rw [decodeFrom, if_neg other, ih _ ((allKnown_of_ne other).mp all)]
    rfl

/-- Where one is not, decoding the run fails. -/
theorem decodeFrom_of_not_allKnown (some : ¬ AllKnown cs) :
    ∃ fault, decodeFrom stop i none cs = .error fault := by
  fun_induction decodeEach cs generalizing i with
  | case1 => exact absurd (fun _ behind => nomatch List.suffix_nil.mp behind) some
  | case2 cs d rest known ih =>
    obtain ⟨j, decoded⟩ := decodeFrom_of_known? stop i known
    obtain ⟨fault, failed⟩ := ih j (mt (allKnown_of_known? known).mpr some)
    exact ⟨fault, by rw [decoded, failed]; rfl⟩
  | case3 cs stray => exact decodeFrom_of_stray stop i stray
  | case4 c cs other ih =>
    obtain ⟨fault, failed⟩ := ih (i + c.utf8Size) (mt (allKnown_of_ne other).mpr some)
    exact ⟨fault, by rw [decodeFrom, if_neg other, failed]; rfl⟩

end

section

variable {cs : List Char}

theorem decodeOrKeep_of_allKnown (all : AllKnown cs) : decodeOrKeep cs = decodeEach cs := by
  rw [decodeOrKeep, decode, decodeFrom_of_allKnown _ _ all]

theorem decodeOrKeep_of_not_allKnown (some : ¬ AllKnown cs) : decodeOrKeep cs = cs := by
  obtain ⟨fault, failed⟩ := decodeFrom_of_not_allKnown (byteSize cs) 0 some
  rw [decodeOrKeep, decode, failed]

theorem length_decodeEach_le (cs : List Char) : (decodeEach cs).length ≤ cs.length := by
  fun_induction decodeEach cs with
  | case1 => exact Nat.le_refl _
  | case2 cs d rest known ih =>
    have := length_of_known? known
    simp only [List.length_cons]
    omega
  | case3 cs stray ih | case4 c cs other ih => exact Nat.succ_le_succ ih

/-- A text stays as it is if and only if no reference in it is known: a known one takes more room
than its character. -/
theorem decodeEach_eq_self_iff : decodeEach cs = cs ↔ NoneKnown cs := by
  fun_induction decodeEach cs with
  | case1 => exact iff_of_true rfl fun _ behind => nomatch List.suffix_nil.mp behind
  | case2 cs d rest known ih =>
    refine iff_of_false (fun same => ?_) fun none => ?_
    · have longer := length_of_known? known
      have shorter := length_decodeEach_le rest
      have length := congrArg List.length same
      simp only [List.length_cons] at length
      omega
    · rw [none cs (List.suffix_refl _)] at known
      cases known
  | case3 cs stray ih =>
    rw [List.cons.injEq, and_iff_right rfl, ih]
    refine ⟨fun none after behind => ?_, fun none after behind =>
      none after (behind.trans (List.suffix_cons _ _))⟩
    rcases List.suffix_cons_iff.mp behind with same | behind
    · cases same
      exact stray
    · exact none after behind
  | case4 c cs other ih =>
    rw [List.cons.injEq, and_iff_right rfl, ih]
    exact forall_congr' fun after => (imp_congr_left (suffix_of_ne other after)).symm

/-- What HTML makes of a run of text or a value: all of its references are decoded, or none is. -/
structure DecodedWhole (raw decoded : List Char) : Prop where
  decodes : AllKnown raw → decoded = decodeEach raw
  keeps : ¬ AllKnown raw → decoded = raw
  each_iff : decoded = decodeEach raw ↔ AllKnown raw ∨ NoneKnown raw

theorem decodedWhole_decodeOrKeep (raw : List Char) : DecodedWhole raw (decodeOrKeep raw) where
  decodes := decodeOrKeep_of_allKnown
  keeps := decodeOrKeep_of_not_allKnown
  each_iff := by
    by_cases all : AllKnown raw
    · exact iff_of_true (decodeOrKeep_of_allKnown all) (.inl all)
    · rw [decodeOrKeep_of_not_allKnown all, or_iff_right all, eq_comm, decodeEach_eq_self_iff]

end

end Reference

open Reference

/-- The values of a tag are decoded one by one. -/
theorem Event.values_decodeAttributes {stop : Nat} {fault : Option Tag.Fault}
    {pairs : List (List Char × List Char)} {as : List Attribute}
    (h : decodeAttributes .html stop fault pairs = .ok as) :
    List.Forall₂ (fun pair a => a.value = String.ofList (decodeOrKeep pair.2)) pairs as := by
  induction pairs generalizing as with
  | nil =>
    rw [decodeAttributes.eq_def] at h
    cases fault with
    | none =>
      cases h
      exact .nil
    | some fault => cases h
  | cons pair pairs ih =>
    rw [decodeAttributes_cons] at h
    obtain ⟨rest, decoded, rfl⟩ := exists_of_map_eq_ok h
    exact .cons rfl (ih decoded)

/-- **When references are decoded one by one.** A run of text is decoded if all of its ampersands
begin known references, and stays as it is written if one does not. So it is the text with every
known reference replaced and all else as written if and only if all of its ampersands begin known
references, or none does. The same holds of each value of a tag. -/
theorem decoded_each_iff (stop : Nat) (raw inside : List Char) :
    (∃ decoded,
      Event.ofToken? .html stop (.text raw) = .ok (some (.text (String.ofList decoded))) ∧
        DecodedWhole raw decoded) ∧
    ∀ name as, Event.decodeTag .html stop inside = .ok (name, as) →
      List.Forall₂ (fun pair a => DecodedWhole pair.2 a.value.toList)
        (Tag.attributes .html inside).pairs as := by
  refine ⟨⟨_, rfl, decodedWhole_decodeOrKeep raw⟩, fun name as h => ?_⟩
  obtain ⟨list, decoded, same⟩ := exists_of_map_eq_ok h
  cases same
  refine (Event.values_decodeAttributes decoded).imp fun pair a value => ?_
  rw [value, String.toList_ofList]
  exact decodedWhole_decodeOrKeep pair.2

/-- A tag with a value in which all references are known, and one in which none is. -/
def linkTag : List Char := "a title='&lt;&#xe9;&amp;amp;' href=\"/?x&lt=1&y;&\"".toList

theorem linkTag_decoded_each :
    Event.decodeTag .html 50 linkTag =
        .ok ("a", [⟨"title", "<é&amp;"⟩, ⟨"href", "/?x&lt=1&y;&"⟩]) ∧
      List.Forall₂ (fun pair (a : Attribute) => DecodedWhole pair.2 a.value.toList)
        (Tag.attributes .html linkTag).pairs [⟨"title", "<é&amp;"⟩, ⟨"href", "/?x&lt=1&y;&"⟩] := by
  have decoded : Event.decodeTag .html 50 linkTag =
      .ok ("a", [⟨"title", "<é&amp;"⟩, ⟨"href", "/?x&lt=1&y;&"⟩]) := by
    decide +kernel
  exact ⟨decoded, (decoded_each_iff 50 [] linkTag).2 "a" _ decoded⟩

/-- A page on which known references stand beside an ampersand and beside an unknown one. -/
def strayAmpersand : List Char := "<p title='x &y; &lt;'>a & b &amp; c</p>".toList

-- Its text has an ampersand of either kind.
example : ¬ AllKnown "a & b &amp; c".toList ∧ ¬ NoneKnown "a & b &amp; c".toList := by
  decide +kernel

/-- None of its references is decoded, so that they are escaped once more when the page is written.
One by one they would be decoded. -/
theorem strayAmpersand_undecoded :
    (parseText .html strayAmpersand).map (·.content) =
        .ok [.element "p" [⟨"title", "x &y; &lt;"⟩] [.text "a & b &amp; c"]] ∧
      (parseText .html strayAmpersand).map (·.bytes) =
        .ok (Utf8.encode
          "<p title=\"x &amp;y; &amp;lt;\">a &amp; b &amp;amp; c</p>".toList) ∧
      String.ofList (decodeEach "x &y; &lt;".toList) = "x &y; <" ∧
      String.ofList (decodeEach "a & b &amp; c".toList) = "a & b & c" := by
  decide +kernel

end Templating.Markup
