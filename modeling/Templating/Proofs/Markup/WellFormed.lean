import Templating.Markup.Forest
import Templating.Proofs.Markup.Encoding

/-!
# Well-formed documents

The documents that can be read back from what is written of them. Text and attribute
values are escaped and may be anything, but what is written as it is must not end its
construct early, and what is written next to each other must stay apart: two texts side
by side would be read as one, and blank text before the first node as none.

Escaping does not help a text that begins with `U+FEFF`, which is skipped where reading
begins.
-/

namespace Templating.Markup

open Text

/-! ### Names and attributes -/

/-- A character of a name. -/
def isNameChar (c : Char) : Bool := c.isAlphanum || c = '-' || c = '_' || c = '.' || c = ':'

/-- The name of an element or an attribute. -/
def IsName (name : String) : Prop := name ≠ "" ∧ name.toList.all isNameChar = true

instance (name : String) : Decidable (IsName name) := inferInstanceAs (Decidable (_ ∧ _))

/-- Attributes with names, no two of which are the same. -/
structure AreAttributes (as : List Attribute) : Prop where
  named : ∀ a ∈ as, IsName a.name
  distinct : (as.map (·.name)).Nodup

theorem isNameChar_ne {c d : Char} (h : isNameChar c = true) (hd : isNameChar d = false) :
    c ≠ d := by
  rintro rfl
  rw [h] at hd
  cases hd

theorem isSeparator_of_isNameChar {c : Char} (h : isNameChar c = true) : isSeparator c = false := by
  simp only [isSeparator, Bool.or_eq_false_iff, decide_eq_false_iff_not]
  exact ⟨⟨⟨isNameChar_ne h (by decide), isNameChar_ne h (by decide)⟩,
    isNameChar_ne h (by decide)⟩, isNameChar_ne h (by decide)⟩

theorem IsName.isNameChar {name : String} (h : IsName name) {c : Char} (hc : c ∈ name.toList) :
    isNameChar c = true := List.all_eq_true.mp h.2 c hc

/-- A name begins with a character of a name. -/
theorem IsName.exists_cons {name : String} (h : IsName name) :
    ∃ c cs, name.toList = c :: cs ∧ Markup.isNameChar c = true := by
  cases hn : name.toList with
  | nil => exact absurd (String.toList_eq_nil_iff.mp hn) h.1
  | cons c cs =>
    refine ⟨c, cs, rfl, h.isNameChar ?_⟩
    rw [hn]
    exact List.mem_cons_self

/-! ### Nodes -/

/-- The end tag of an element. -/
def endTagOf (name : List Char) : List Char := '<' :: '/' :: (name ++ ['>'])

/-- Raw text with the end tag behind it, where no end tag of that name begins earlier. -/
def IsRawText (name body : List Char) : Prop :=
  ∀ i < body.length, startsEndTag name ((body ++ endTagOf name).drop i) = false

instance (name body : List Char) : Decidable (IsRawText name body) :=
  inferInstanceAs (Decidable (∀ i < body.length, _ = false))

/-- The body of a processing instruction. -/
structure IsInstruction (body : List Char) : Prop where
  start : body.head? ≠ some '>'
  unclosed : ¬ ['?', '>'] <:+: body
  not_declaration : Token.isDeclaration body = false

/-- The body of a doctype declaration. -/
structure IsDoctype (body : List Char) : Prop where
  nonempty : body ≠ []
  noOpening : '<' ∉ body
  noClosing : '>' ∉ body
  trimmed : trim body = body

theorem IsDoctype.visible {body : List Char} (h : IsDoctype body) : allBlank body = false :=
  eq_false_of_ne_true fun blank => h.nonempty (h.trimmed.symm.trans (trim_of_all_blank blank))

namespace Node

/-- Whether the node is text. -/
def isText : Node → Bool
  | text _ => true
  | _ => false

theorem eq_text_of_isText {n : Node} (h : n.isText = true) : ∃ content, n = text content := by
  cases n with
  | text content => exact ⟨content, rfl⟩
  | element _ _ _ => cases h
  | comment _ => cases h
  | cdata _ => cases h
  | instruction _ => cases h

mutual

/-- The node can be read back. -/
def WellFormed (format : Format) : Node → Prop
  | element name as cs =>
    IsName name ∧ AreAttributes as ∧
      match format with
      | .xml => AllWellFormed .xml cs
      | .html =>
        if isVoid name then cs = []
        else if isRawText name then
          cs = [] ∨ ∃ body, cs = [text body] ∧ body ≠ "" ∧ IsRawText name.toList body.toList
        else AllWellFormed .html cs
  | text content => content ≠ "" ∧ Unmarked content.toList
  | comment body => ¬ ['-', '-', '>'] <:+: body.toList
  | cdata body => ¬ [']', ']', '>'] <:+: body.toList
  | instruction body => IsInstruction body.toList

/-- The nodes can be read back, and no two texts are side by side. -/
def AllWellFormed (format : Format) : List Node → Prop
  | [] => True
  | n :: ns =>
    WellFormed format n ∧ (n.isText = true → ∀ m ∈ ns.head?, m.isText = false) ∧
      AllWellFormed format ns

end

end Node

/-! ### Documents -/

/-- The document can be read back. -/
structure Document.WellFormed (doc : Document) : Prop where
  content : Node.AllWellFormed doc.format doc.content
  doctype : ∀ body ∈ doc.doctype, IsDoctype body.toList
  /-- Text at the beginning is not blank, and stands behind no declaration. -/
  start : ∀ text nodes, doc.content = .text text :: nodes →
    doc.format = .html ∧ doc.doctype = none ∧ allBlank text.toList = false

end Templating.Markup
