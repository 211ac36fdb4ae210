import Templating.Proofs.Markup.Legible

/-!
# Documents that can be written

A document with well-formed names is legible, unless a byte order mark is among the characters
of a text, and so what is written of it is read back up to its texts (`parse_settles`).
-/

namespace Templating.Markup

open Text

/-! ### Nodes -/

namespace Node

mutual

/-- What is written of the node is read as the node again, texts apart. -/
def Writable (format : Format) : Node → Prop
  | element name as cs =>
    IsName name ∧ AreAttributes as ∧
      match format with
      | .xml => AllWritable .xml cs
      | .html =>
        if isVoid name then cs = []
        else if isRawText name then
          cs = [] ∨ ∃ body, cs = [text body] ∧ IsRawText name.toList body.toList
        else AllWritable .html cs
  | text content => '\uFEFF' ∉ content.toList
  | comment body => ¬ ['-', '-', '>'] <:+: body.toList
  | cdata body => ¬ [']', ']', '>'] <:+: body.toList
  | instruction body => IsInstruction body.toList

/-- All of the nodes are read as they are written, texts apart. -/
def AllWritable (format : Format) : List Node → Prop
  | [] => True
  | n :: ns => Writable format n ∧ AllWritable format ns

end

end Node

theorem unmarked_of_not_mem {cs : List Char} (h : '\uFEFF' ∉ cs) : Unmarked cs :=
  fun mark => h (List.mem_of_mem_head? mark)

theorem unmarked_writable {format : Format} {rest : List Char} (behind : Unmarked rest) :
    ∀ {ns : List Node}, Node.AllWritable format ns →
      Unmarked ((Print.nodes format ns).toList ++ rest)
  | [], _ => behind
  | n :: ns, h => by
    rw [Node.AllWritable] at h
    obtain ⟨writable, others⟩ := h
    rw [Print.nodes, String.toList_append, List.append_assoc]
    by_cases text : n.isText = true
    · obtain ⟨content, rfl⟩ := Node.eq_text_of_isText text
      rw [Node.Writable] at writable
      rw [Print.node, String.toList_ofList]
      exact unmarked_escapeText (unmarked_of_not_mem writable) (unmarked_writable behind others)
    · obtain ⟨cs, hcs⟩ := toList_node_bracket format (eq_false_of_ne_true text)
      rw [hcs]
      exact unmarked_bracket _

mutual

theorem Node.Writable.legible {format : Format} : ∀ {n : Node}, n.Writable format →
    n.Legible format
  | .text _, _ => trivial
  | .comment _, h | .cdata _, h | .instruction _, h => h
  | .element name as cs, h => by
    cases format with
    | xml =>
      rw [Node.Writable] at h
      rw [Node.Legible]
      obtain ⟨hn, ha, content⟩ := h
      have tags := hn.hasTags ha
      split
      · exact ⟨tags.toIsTag, tags.closes, inside_ne_nil hn as⟩
      · exact ⟨tags, Node.AllWritable.legible content⟩
    | html =>
      rw [Node.Writable] at h
      rw [Node.Legible]
      obtain ⟨hn, ha, content⟩ := h
      refine ⟨hn.hasTags ha, ?_⟩
      by_cases void : isVoid name = true
      · rw [if_pos void] at content ⊢
        exact content
      by_cases raw : isRawText name = true
      · rw [if_neg void, if_pos raw] at content ⊢
        exact content
      · rw [if_neg void, if_neg raw] at content ⊢
        exact Node.AllWritable.legible content

/-- Nodes that can be written are legible. -/
theorem Node.AllWritable.legible {format : Format} : ∀ {ns : List Node},
    Node.AllWritable format ns → Node.AllLegible format ns
  | [], _ => trivial
  | n :: ns, h => by
    rw [Node.AllWritable] at h
    have unmarked := unmarked_writable bounded_nil.unmarked h.2
    rw [List.append_nil] at unmarked
    exact ⟨Node.Writable.legible h.1, fun _ => unmarked, Node.AllWritable.legible h.2⟩

end

/-! ### Documents -/

namespace Document

/-- What is written of the document is read as it again, texts apart. -/
structure Writable (doc : Document) : Prop where
  content : Node.AllWritable doc.format doc.content
  noOpening : ∀ body ∈ doc.doctype, '<' ∉ body.toList
  noClosing : ∀ body ∈ doc.doctype, '>' ∉ body.toList
  visible : ∀ body ∈ doc.doctype, allBlank body.toList = false

namespace Writable

variable {doc : Document} (h : doc.Writable)

include h

theorem unmarked_body :
    Unmarked (Reference.escapeText (lineEnd doc.format doc.doctype).toList ++
      (Print.nodes doc.format doc.content).toList) := by
  have nodes := unmarked_writable bounded_nil.unmarked h.content
  rw [List.append_nil] at nodes
  refine unmarked_escapeText ?_ nodes
  rw [lineEnd]
  split <;> decide

theorem unmarked_text : Unmarked (Print.documentText doc).toList := by
  have body := h.unmarked_body
  rw [toList_documentText_head]
  obtain ⟨format, content, encoding, doctype⟩ := doc
  cases format with
  | html =>
    cases doctype with
    | none => exact body
    | some body => exact unmarked_bracket _
  | xml => cases doctype <;> exact unmarked_bracket _

theorem legible : doc.Legible where
  content := Node.AllWritable.legible h.content
  balanced body hb := Token.balanced_plain (h.noOpening body hb) (h.noClosing body hb)
  visible := h.visible
  unmarked := h.unmarked_text

end Writable

/-- **What is written** of a document is read as the document with its texts settled, if
nothing that is written as it is ends its construct early. -/
theorem parse_settles {doc : Document} (h : doc.Writable) :
    parse doc.format doc.bytes = .ok doc.settled := parse_legible h.legible

end Document

end Templating.Markup
