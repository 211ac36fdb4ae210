import Templating.Proofs.Markup.PrintedTag

/-!
# Reading constructs back

What is written of a node begins with a token of which nothing is lost: a tag with its
inside, and a text, a comment, a section, an instruction or a declaration with its body.
-/

namespace Templating.Markup

open Text

namespace Token

/-! ### Bodies -/

theorem next?_comment {body : List Char} (h : ¬ ['-', '-', '>'] <:+: body) (rest : List Char) :
    next? ('<' :: '!' :: '-' :: '-' :: (body ++ '-' :: '-' :: '>' :: rest)) =
      some (.ok (.comment body, rest)) := by
  have ends := breakOn_append (m := ['-', '-']) (e := '>') (by decide) rest h
  simp only [List.cons_append, List.nil_append] at ends
  rw [next?, readMarkup, readComment, ends]

theorem next?_cdata {body : List Char} (h : ¬ [']', ']', '>'] <:+: body) (rest : List Char) :
    next? ('<' :: '!' :: '[' :: 'C' :: 'D' :: 'A' :: 'T' :: 'A' :: '[' ::
      (body ++ ']' :: ']' :: '>' :: rest)) = some (.ok (.cdata body, rest)) := by
  have ends := breakOn_append (m := [']', ']']) (e := '>') (by decide) rest h
  simp only [List.cons_append, List.nil_append] at ends
  rw [next?, readMarkup, readCdata, ends]

/-- A construct between question marks: an instruction or a declaration, by its body. -/
theorem next?_questionMarks {body : List Char} (start : body.head? ≠ some '>')
    (h : ¬ ['?', '>'] <:+: body) (rest : List Char) :
    next? ('<' :: '?' :: (body ++ '?' :: '>' :: rest)) =
      some (.ok (if isDeclaration body then .declaration body else .instruction body, rest)) := by
  have ends := breakOn_append (m := ['?']) (e := '>') (by decide) rest h
  simp only [List.cons_append, List.nil_append] at ends
  have first : (body ++ '?' :: '>' :: rest).head? ≠ some '>' := by
    cases body with
    | nil => simp
    | cons c cs => exact start
  rw [next?, readMarkup, readInstruction, if_neg first, ends]

/-- Through this text a doctype declaration goes on, from one number of open brackets in it to
another. -/
def Leads (depth depth' : Nat) (cs : List Char) : Prop :=
  ∀ rest, splitBalanced depth (cs ++ rest) =
    (splitBalanced depth' rest).map fun (inside, rest) => (cs ++ inside, rest)

/-- The brackets in this text are in pairs. -/
abbrev Balanced (cs : List Char) : Prop := Leads 0 0 cs

theorem Leads.nil (depth : Nat) : Leads depth depth [] := by
  intro rest
  cases h : splitBalanced depth rest <;> simp [h]

theorem Leads.cons {depth depth' depth'' : Nat} {c : Char} {cs : List Char}
    (first : Leads depth depth' [c]) (h : Leads depth' depth'' cs) :
    Leads depth depth'' (c :: cs) := by
  intro rest
  have step := first (cs ++ rest)
  rw [List.singleton_append] at step
  rw [List.cons_append, step, h]
  cases splitBalanced depth'' rest <;> rfl

theorem leads_plain (depth : Nat) : ∀ {cs : List Char}, (∀ c ∈ cs, c ≠ '<' ∧ c ≠ '>') →
    Leads depth depth cs
  | [], _ => Leads.nil depth
  | c :: cs, h => by
    obtain ⟨lt, gt⟩ := h c List.mem_cons_self
    have others := leads_plain depth fun d hd => h d (List.mem_cons_of_mem c hd)
    refine Leads.cons (fun rest => ?_) others
    rw [List.singleton_append, splitBalanced.eq_def]
    simp only [lt, gt, if_false]
    rfl

theorem balanced_plain {cs : List Char} (noOpening : '<' ∉ cs) (noClosing : '>' ∉ cs) :
    Balanced cs :=
  leads_plain 0 fun _ hc => ⟨ne_of_mem_of_not_mem hc noOpening, ne_of_mem_of_not_mem hc noClosing⟩

theorem splitBalanced_of_balanced {cs : List Char} (h : Balanced cs) (rest : List Char) :
    splitBalanced 0 (cs ++ '>' :: rest) = some (cs, rest) := by
  rw [h, splitBalanced]
  simp

theorem next?_doctype {body : List Char} (balanced : Balanced body)
    (visible : allBlank body = false) (rest : List Char) :
    next? ('<' :: '!' :: 'D' :: 'O' :: 'C' :: 'T' :: 'Y' :: 'P' :: 'E' :: ' ' ::
      (body ++ '>' :: rest)) = some (.ok (.doctype (' ' :: body), rest)) := by
  have space : Leads 0 0 [' '] := leads_plain 0 (List.forall_mem_singleton.mpr (by decide))
  have declared := splitBalanced_of_balanced (Leads.cons space balanced) rest
  have keyword : stripKeyword? ['d', 'o', 'c', 't', 'y', 'p', 'e']
      ('D' :: 'O' :: 'C' :: 'T' :: 'Y' :: 'P' :: 'E' :: ' ' :: (body ++ '>' :: rest)) =
        some (' ' :: (body ++ '>' :: rest)) := rfl
  have named : (' ' :: body).all isSeparator = false := by
    refine Bool.eq_false_iff.mpr fun blank => Bool.eq_false_iff.mp visible ?_
    refine List.all_eq_true.mpr fun c hc => ?_
    exact isAsciiBlank_isBlank (isSeparator_isAsciiBlank
      (List.all_eq_true.mp blank c (List.mem_cons_of_mem _ hc)))
  rw [next?, readMarkup, readDoctype, keyword]
  simp only [← List.cons_append, declared, named]
  rfl

/-- Text goes on to the next bracket, or to the end. -/
theorem next?_text {raw rest : List Char} (nonempty : raw ≠ []) (h : ∀ c ∈ raw, c ≠ '<')
    (stop : ∀ c ∈ rest.head?, c = '<') :
    next? (raw ++ rest) = some (.ok (.text raw, rest)) := by
  obtain ⟨c, cs, rfl⟩ := List.exists_cons_of_ne_nil nonempty
  have parts := span_append (· != '<') cs rest
    (fun d hd => bne_iff_ne.mpr (h d (List.mem_cons_of_mem c hd)))
    (fun d hd => by rw [stop d hd]; rfl)
  rw [List.cons_append, next?, parts.1, parts.2]
  exact fun hc => absurd hc (h c List.mem_cons_self)

/-! ### Tags -/

/-- A construct that begins like no other is a tag. -/
theorem readMarkup_tag {cs : List Char} (h : ∀ c ∈ cs.head?, c ≠ '!' ∧ c ≠ '?' ∧ c ≠ '/') :
    readMarkup cs = readStartTag cs := by
  unfold readMarkup
  split <;> simp_all

theorem readMarkup_inside {name : String} {as : List Attribute} (h : IsTag name as)
    {rest : List Char}
    (start : inside name as = [] → ∀ c ∈ rest.head?, c ≠ '!' ∧ c ≠ '?' ∧ c ≠ '/') :
    readMarkup (inside name as ++ rest) = readStartTag (inside name as ++ rest) := by
  refine readMarkup_tag fun c hc => ?_
  cases hn : name.toList with
  | cons d ds =>
    rw [inside, hn] at hc
    exact h.start c (by rw [hn]; exact hc)
  | nil =>
    cases as with
    | nil =>
      rw [inside, hn] at hc
      exact start (by rw [inside, hn]; rfl) c hc
    -- The space before the first attribute.
    | cons a as =>
      rw [inside, hn] at hc
      cases hc
      decide

section

variable {name : String} {as : List Attribute}

theorem next?_startTag (h : HasTags name as) (rest : List Char) :
    next? ('<' :: (inside name as ++ '>' :: rest)) =
      some (.ok (.startTag (inside name as), rest)) := by
  have start : ∀ c ∈ ('>' :: rest).head?, c ≠ '!' ∧ c ≠ '?' ∧ c ≠ '/' := by
    rintro c ⟨rfl⟩
    decide
  rw [next?, readMarkup_inside h.toIsTag fun _ => start, readStartTag,
    splitTag_of_inTag (inTag_of_closes h.closes)]
  simp only [h.unslashed, if_false]

theorem next?_emptyTag (h : IsTag name as) (closes : Closes (inside name as))
    (nonempty : inside name as ≠ []) (rest : List Char) :
    next? ('<' :: (inside name as ++ '/' :: '>' :: rest)) =
      some (.ok (.emptyTag (inside name as), rest)) := by
  have slash : InTag ['/'] := inTag_char (by decide)
  have split := splitTag_of_inTag ((inTag_of_closes closes).append slash) rest
  rw [List.append_assoc, List.singleton_append] at split
  rw [next?, readMarkup_inside h fun empty => absurd empty nonempty, readStartTag, split]
  simp

theorem next?_endTag {name : List Char} (closes : Closes name) (rest : List Char) :
    next? ('<' :: '/' :: (name ++ '>' :: rest)) = some (.ok (.endTag name, rest)) := by
  rw [next?, readMarkup, readEndTag, splitTag_of_inTag (inTag_of_closes closes)]

end

end Token

end Templating.Markup
