import Templating.Proofs.Markup.RoundTrip
import Templating.Proofs.Markup.Settled

/-!
# Reading documents back up to their texts

What is written of a document is read as the document with settled texts (`parse_legible`), as
long as nothing that is written as it is ends its construct early and nothing that is written
where reading begins is a byte order mark.

The induction is on the nodes behind a text that has not been read yet (`adds_joined`): what
is written of it and of a text that follows is what is written of both together. An element
whose content is lost still has both of its tags, where one without content may have a single
one; so it is not the events that are compared but what they add to a builder (`Adds`).
-/

namespace Templating.Markup

open Text

/-! ### Legible nodes -/

namespace Node

/-- Whether reading begins anew behind the node. -/
def restarts (format : Format) : Node → Bool
  | element name _ _ => format = .html && isRawText name
  | _ => false

mutual

/-- What is written of the node is read as the node again, texts apart. Of names no more is asked
than that the tags end where they are meant to end. -/
def Legible (format : Format) : Node → Prop
  | element name as cs =>
    match format with
    | .xml =>
      if cs = [] then IsTag name as ∧ Closes (inside name as) ∧ inside name as ≠ []
      else HasTags name as ∧ AllLegible .xml cs
    | .html =>
      HasTags name as ∧
        if isVoid name then cs = []
        else if isRawText name then
          cs = [] ∨ ∃ body, cs = [text body] ∧ IsRawText name.toList body.toList
        else AllLegible .html cs
  | text _ => True
  | comment body => ¬ ['-', '-', '>'] <:+: body.toList
  | cdata body => ¬ [']', ']', '>'] <:+: body.toList
  | instruction body => IsInstruction body.toList

/-- All of the nodes are read as they are written, texts apart, and no byte order mark stands
where reading begins anew. -/
def AllLegible (format : Format) : List Node → Prop
  | [] => True
  | n :: ns =>
    Legible format n ∧ (n.restarts format = true → Unmarked (Print.nodes format ns).toList) ∧
      AllLegible format ns

end

end Node

/-! ### Adding nodes -/

namespace Builder

/-- The builder with a node more, where text may be lost. -/
def add (b : Builder) : Node → Builder
  | .text content => b.pushText content
  | node => b.push node

/-- The builder with nodes more, in order, where text may be lost. -/
def addAll (b : Builder) (nodes : List Node) : Builder := nodes.foldl add b

theorem addAll_append (b : Builder) (ns ms : List Node) :
    b.addAll (ns ++ ms) = (b.addAll ns).addAll ms := List.foldl_append

theorem add_of_keeps {b : Builder} {n : Node} (nonempty : n ≠ .text "")
    (keeps : ∀ content, n = .text content → b.Keeps content) : b.add n = b.push n := by
  cases n with
  | text content =>
    exact pushText_of_keeps (fun empty => nonempty (congrArg Node.text empty)) (keeps content rfl)
  | _ => rfl

/-- Settled nodes are added as they are, if the first one is. -/
theorem addAll_of_keeps {ns : List Node} (b : Builder) (settled : Node.Settled ns)
    (keeps : ∀ content nodes, ns = .text content :: nodes → b.Keeps content) :
    b.addAll ns = b.pushAll ns := by
  induction ns generalizing b with
  | nil => rfl
  | cons n ns ih =>
    obtain ⟨nonempty, -, rest⟩ := settled
    have first : b.add n = b.push n :=
      add_of_keeps nonempty fun content text => keeps content ns (by rw [text])
    rw [addAll, List.foldl_cons, first]
    refine ih (b.push n) rest fun content nodes _ => ?_
    rw [Keeps, isFresh_push]
    rfl

/-- Settled nodes are added to a builder to which none has come yet, but no blanks. -/
theorem addAll_of_fresh {ns : List Node} {b : Builder} (fresh : b.isFresh = true)
    (settled : Node.Settled ns) : b.addAll ns = b.pushAll (Node.trimStart ns) := by
  rcases Node.head_cases ns with ⟨content, rest, rfl⟩ | head
  · by_cases blank : allBlank content.toList = true
    · obtain ⟨-, apart, others⟩ := settled
      have lost : b.add (.text content) = b := by
        simp [add, pushText, fresh, blank]
      rw [addAll, List.foldl_cons, lost, Node.trimStart, if_pos blank]
      refine b.addAll_of_keeps others fun next nodes text => ?_
      cases apart rfl (.text next) (by rw [text]; rfl)
    · rw [Node.trimStart, if_neg blank]
      refine b.addAll_of_keeps settled fun next nodes text => ?_
      cases text
      rw [Keeps, eq_false_of_ne_true blank, Bool.and_false]
  · rw [Node.trimStart_of_head head]
    refine b.addAll_of_keeps settled fun content nodes text => ?_
    cases head (.text content) (by rw [text]; rfl)

end Builder

/-- In front of `rest`, `cs` is read as these nodes: what it says adds them to any builder. -/
def Adds (format : Format) (cs rest : List Char) (nodes : List Node) : Prop :=
  ∃ events, Reads format cs rest events ∧
    ∀ b : Builder, b.run format events = .ok (b.addAll nodes)

section

variable {format : Format} {cs ds rest : List Char} {ns ms : List Node}

theorem Adds.nil : Adds format [] rest [] := ⟨[], Reads.nil, fun _ => rfl⟩

theorem Adds.append (h : Adds format cs (ds ++ rest) ns) (h' : Adds format ds rest ms) :
    Adds format (cs ++ ds) rest (ns ++ ms) := by
  obtain ⟨events, reads, builds⟩ := h
  obtain ⟨more, reads', builds'⟩ := h'
  refine ⟨events ++ more, reads.append reads', fun b => ?_⟩
  rw [b.run_append, builds, Builder.addAll_append]
  exact builds' _

theorem Reads.adds {n : Node} (h : Reads format cs rest [.node n]) (notText : n.isText = false) :
    Adds format cs rest [n] := by
  refine ⟨[.node n], h, fun b => ?_⟩
  have added : b.add n = b.push n := by
    cases n with
    | text content => cases notText
    | _ => rfl
  rw [Builder.addAll, List.foldl_cons, added]
  rfl

theorem adds_text {content : String} (bounded : Bounded rest) :
    Adds format (Reference.escapeText content.toList) rest (Node.joinText content []) := by
  by_cases empty : content = ""
  · rw [empty]
    exact Adds.nil
  · rw [Node.joinText_nil, if_neg empty]
    exact ⟨[.text content], reads_text empty bounded, fun b => rfl⟩

theorem adds_enclosed {name : String} {as : List Attribute} {body : List Char}
    {children : List Node} (tags : HasTags name as)
    (void : ¬ (format = .html ∧ isVoid name = true))
    (raw : ¬ (format = .html ∧ isRawText name = true))
    (content : Adds format body (endTagOf name.toList ++ rest) children)
    (settled : Node.Settled children) :
    Adds format ('<' :: (inside name as ++ '>' :: (body ++ endTagOf name.toList))) rest
      [.element name as children] := by
  obtain ⟨events, reads, builds⟩ := content
  refine ⟨_, reads_enclosed tags void raw reads, fun b => ?_⟩
  have opened : (b.opened name as).addAll children = (b.opened name as).pushAll children :=
    Builder.addAll_of_keeps _ settled fun _ _ _ => rfl
  exact b.run_enclosed void ((builds _).trans (congrArg _ opened))

end

/-! ### Reading nodes -/

theorem Unmarked.append {cs ds : List Char} (h : Unmarked cs) (h' : Unmarked ds) :
    Unmarked (cs ++ ds) := by
  cases cs with
  | nil => exact h'
  | cons c cs => exact h

/-- In front of nodes there may be no text at all. -/
theorem Adds.of_joined {format : Format} {cs rest : List Char} {ns : List Node}
    (h : Adds format (Reference.escapeText "".toList ++ cs) rest (Node.joinText "" ns)) :
    Adds format cs rest ns := by
  rw [Node.joinText_empty] at h
  exact h

/-- A raw text element is read with its text, if that is not empty. -/
theorem adds_rawNode {name : String} {as : List Attribute} {cs : List Node} {rest : List Char}
    (tags : HasTags name as) (behind : Unmarked rest) (void : isVoid name = false)
    (raw : isRawText name = true)
    (content : cs = [] ∨ ∃ body, cs = [.text body] ∧ IsRawText name.toList body.toList) :
    Adds .html (Print.node .html (.element name as cs)).toList rest
      [.element name as (Node.settleAll cs)] := by
  have written : (Print.node .html (.element name as cs)).toList =
      (Print.node .html (.element name as (Node.settleAll cs))).toList := by
    rw [toList_rawElement name as cs void raw, toList_rawElement name as _ void raw,
      Node.textOfAll_settleAll]
  rw [written]
  refine (reads_rawNode tags behind void raw ?_).adds rfl
  rcases content with rfl | ⟨body, rfl, h⟩
  · exact .inl rfl
  · have settled : Node.settleAll [.text body] = Node.joinText body [] := rfl
    rw [settled, Node.joinText_nil]
    by_cases empty : body = ""
    · exact .inl (if_pos empty)
    · exact .inr ⟨body, if_neg empty, empty, h⟩

mutual

theorem adds_node (format : Format) : ∀ {n : Node} {rest : List Char}, n.Legible format →
    n.isText = false → (n.restarts format = true → Unmarked rest) →
      Adds format (Print.node format n).toList rest [n.settle]
  | .comment body, rest, h, _, _ => by
    rw [Node.Legible] at h
    have reads : Reads format _ rest [.node (.comment body)] := reads_comment h
    exact Reads.adds (by simpa [Print.node, Node.settle] using reads) rfl
  | .cdata body, rest, h, _, _ => by
    rw [Node.Legible] at h
    have reads : Reads format _ rest [.node (.cdata body)] := reads_cdata h
    exact Reads.adds (by simpa [Print.node, Node.settle] using reads) rfl
  | .instruction body, rest, h, _, _ => by
    rw [Node.Legible] at h
    have reads : Reads format _ rest [.node (.instruction body)] := reads_instruction h
    exact Reads.adds (by simpa [Print.node, Node.settle] using reads) rfl
  | .element name as cs, rest, h, _, restarts => by
    have bounded : Bounded (endTagOf name.toList ++ rest) := bounded_bracket _
    have children : Node.AllLegible format cs →
        Adds format (Print.nodes format cs).toList (endTagOf name.toList ++ rest)
          (Node.settleAll cs) :=
      fun content => Adds.of_joined (adds_joined format content bounded)
    rw [Node.settle]
    cases format with
    | xml =>
      rw [Node.Legible] at h
      by_cases empty : cs = []
      · rw [if_pos empty] at h
        obtain ⟨tag, closes, nonempty⟩ := h
        rw [empty, toList_emptyElement]
        exact (reads_emptyTag tag closes nonempty).adds rfl
      · rw [if_neg empty] at h
        obtain ⟨tags, content⟩ := h
        rw [toList_xmlElement name as cs empty]
        exact adds_enclosed tags (fun h => nomatch h.1) (fun h => nomatch h.1) (children content)
          (Node.settled_settleAll cs)
    | html =>
      rw [Node.Legible] at h
      obtain ⟨tags, content⟩ := h
      by_cases void : isVoid name = true
      · rw [if_pos void] at content
        rw [content, toList_voidElement name as void]
        exact (reads_voidTag tags void).adds rfl
      rw [if_neg void] at content
      have void : isVoid name = false := eq_false_of_ne_true void
      by_cases raw : isRawText name = true
      · rw [if_pos raw] at content
        exact adds_rawNode tags (restarts raw) void raw content
      · rw [if_neg raw] at content
        have raw : isRawText name = false := eq_false_of_ne_true raw
        rw [toList_htmlElement name as cs void raw]
        exact adds_enclosed tags (by simp [void]) (by simp [raw]) (children content)
          (Node.settled_settleAll cs)

/-- **What is written of nodes** behind a text is read as the nodes settled, with this text in
front of them. -/
theorem adds_joined (format : Format) : ∀ {ns : List Node} {rest : List Char} {content : String},
    Node.AllLegible format ns → Bounded rest →
      Adds format (Reference.escapeText content.toList ++ (Print.nodes format ns).toList) rest
        (Node.joinText content (Node.settleAll ns))
  | [], rest, content, _, bounded => by
    rw [Print.nodes, Node.settleAll, String.toList_empty, List.append_nil]
    exact adds_text bounded
  | n :: ns, rest, content, h, bounded => by
    rw [Node.AllLegible] at h
    obtain ⟨legible, restarts, others⟩ := h
    rw [Print.nodes, String.toList_append, Node.settleAll]
    by_cases text : n.isText = true
    -- Neither text is a token of its own, so both go on to the rest as one.
    · obtain ⟨next, rfl⟩ := Node.eq_text_of_isText text
      have both : Adds format
          (Reference.escapeText (content ++ next).toList ++ (Print.nodes format ns).toList) rest
          (Node.joinText (content ++ next) (Node.settleAll ns)) := adds_joined format others bounded
      rw [escapeText_append, List.append_assoc] at both
      have settled : (Node.text next).settle = .text next := rfl
      rw [Print.node, String.toList_ofList, settled, Node.attach, Node.joinText_joinText]
      exact both
    · have notText : n.isText = false := eq_false_of_ne_true text
      have node := adds_node format legible notText fun raw =>
        (restarts raw).append bounded.unmarked
      have nodes := Adds.of_joined (adds_joined format others bounded)
      have front : Bounded ((Print.nodes format (n :: ns)).toList ++ rest) := by
        refine bounded_nodes (fun m hm => ?_) bounded
        cases hm
        exact notText
      rw [Print.nodes, String.toList_append] at front
      have settled : n.settle.isText = false := (Node.isText_settle n).trans notText
      rw [Node.attach_of_not_text settled, Node.joinText_cons content settled]
      exact (adds_text front).append (node.append nodes)

end

/-! ### Documents -/

namespace Document

/-- The text between the head of a document and its nodes: the end of a line, if there is a
head. -/
def lineEnd (format : Format) (doctype : Option String) : String :=
  if format = .html ∧ doctype = none then "" else "\n"

/-- The document as it is read back: its texts settled, without blanks at the beginning and
around the doctype. -/
def settled (doc : Document) : Document where
  format := doc.format
  content := Node.trimStart
    (Node.joinText (lineEnd doc.format doc.doctype) (Node.settleAll doc.content))
  encoding := doc.encoding
  doctype := doc.doctype.map fun body => String.ofList (trim body.toList)

/-- What is written of a doctype without its line. -/
def doctypeTag (body : String) : List Char :=
  '<' :: '!' :: 'D' :: 'O' :: 'C' :: 'T' :: 'Y' :: 'P' :: 'E' :: ' ' :: (body.toList ++ ['>'])

/-- What is written of an XML declaration without its line. -/
def declarationTag (encoding : Encoding) : List Char :=
  '<' :: '?' :: (declarationBody encoding ++ ['?', '>'])

/-- What is written in front of the nodes, without the end of its last line. -/
def head (encoding : Encoding) : Format → Option String → List Char
  | .html, none => []
  | .html, some body => doctypeTag body
  | .xml, none => declarationTag encoding
  | .xml, some body => declarationTag encoding ++ ('\n' :: doctypeTag body)

/-- What is said in front of the nodes, without the end of its last line. -/
def headEvents : Format → Option String → List Event
  | _, none => []
  | .html, some body => [.doctype body]
  | .xml, some body => [.text "\n", .doctype body]

theorem toList_doctypeLine (body : String) :
    (Print.doctypeLine (some body)).toList = doctypeTag body ++ ['\n'] := by
  simp [Print.doctypeLine, doctypeTag]

theorem toList_documentText_head (doc : Document) :
    (Print.documentText doc).toList =
      head doc.encoding doc.format doc.doctype ++
        (Reference.escapeText (lineEnd doc.format doc.doctype).toList ++
          (Print.nodes doc.format doc.content).toList) := by
  have newline : Reference.escapeText ['\n'] = ['\n'] := rfl
  rw [toList_documentText, opening]
  obtain ⟨format, content, encoding, doctype⟩ := doc
  cases format with
  | html =>
    cases doctype with
    | none => rfl
    | some body => simp [head, lineEnd, newline, toList_doctypeLine]
  | xml =>
    rw [toList_declaration]
    cases doctype with
    | none => simp [head, lineEnd, declarationTag, newline, Print.doctypeLine]
    | some body => simp [head, lineEnd, declarationTag, newline, toList_doctypeLine]

theorem run_head (format : Format) (doctype : Option String) (events : List Event) :
    Builder.run format {} (headEvents format doctype ++ events) =
      Builder.run format { doctype } events := by
  cases format <;> cases doctype <;> rfl

/-- What is written of the document is read as it again, texts apart. -/
structure Legible (doc : Document) : Prop where
  content : Node.AllLegible doc.format doc.content
  balanced : ∀ body ∈ doc.doctype, Token.Balanced body.toList
  visible : ∀ body ∈ doc.doctype, allBlank body.toList = false
  unmarked : Unmarked (Print.documentText doc).toList

namespace Legible

variable {doc : Document} (h : doc.Legible)

include h

theorem reads_head {rest : List Char} :
    Reads doc.format (head doc.encoding doc.format doc.doctype) rest
      (headEvents doc.format doc.settled.doctype) := by
  have tag : ∀ body ∈ doc.doctype, Reads doc.format (doctypeTag body) rest
      [.doctype (String.ofList (trim body.toList))] := fun body hb =>
    reads_doctype (h.balanced body hb) (h.visible body hb)
  obtain ⟨format, content, encoding, doctype⟩ := doc
  cases format with
  | html =>
    cases doctype with
    | none => exact Reads.nil
    | some body => exact tag body rfl
  | xml =>
    cases doctype with
    | none => exact reads_declaring encoding
    | some body =>
      have line : Reads .xml ['\n'] (doctypeTag body ++ rest) [.text "\n"] :=
        reads_newline (bounded_bracket _)
      have doctype : Reads .xml (['\n'] ++ doctypeTag body) rest _ := line.append (tag body rfl)
      exact Reads.append (reads_declaring encoding) doctype

/-- The text of a document is read back, its encoding apart. -/
theorem parseText_settles :
    parseText doc.format (Print.documentText doc).toList =
      .ok { doc.settled with encoding := .standard } := by
  obtain ⟨events, reads, builds⟩ : Adds doc.format
      (Reference.escapeText (lineEnd doc.format doc.doctype).toList ++
        (Print.nodes doc.format doc.content).toList) []
      (Node.joinText (lineEnd doc.format doc.doctype) (Node.settleAll doc.content)) :=
    adds_joined doc.format h.content bounded_nil
  have stream := (h.reads_head.append reads) 0
  rw [List.append_nil, ← toList_documentText_head] at stream
  have settled := Node.settled_joinText (lineEnd doc.format doc.doctype)
    (Node.settled_settleAll doc.content)
  let last : Builder :=
    { top := doc.settled.content.reverse, doctype := doc.settled.doctype }
  have built : Builder.run doc.format { doctype := doc.settled.doctype } events = .ok last := by
    rw [builds, Builder.addAll_of_fresh rfl settled, Builder.pushAll_top, List.append_nil]
    rfl
  have finished : ∀ format, last.finish format = .ok last := by
    intro format
    cases format <;> rfl
  rw [parseText, Stream.ofSource, streamFrom_of_unmarked _ _ h.unmarked, stream, readOn_nil,
    Stream.build]
  simp only [Stream.after, List.append_nil, run_head, built, finished, Except.map, Builder.content]
  rw [List.reverse_reverse]
  rfl

end Legible

/-- **What is written** of a document is read as the document with its texts settled, if
nothing that is written as it is ends its construct early. -/
theorem parse_legible {doc : Document} (h : doc.Legible) :
    parse doc.format doc.bytes = .ok doc.settled := by
  rw [parse, Document.bytes, Encoding.decode_encode _ h.unmarked]
  simp only [h.parseText_settles]
  rfl

end Document

end Templating.Markup
