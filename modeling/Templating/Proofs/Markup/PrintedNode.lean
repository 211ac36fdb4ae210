import Templating.Proofs.Markup.PrintedToken
import Templating.Proofs.Markup.RawText
import Templating.Proofs.Markup.Reading

/-!
# Reading nodes back

What is written of well-formed nodes says exactly what they are: an element is entered,
its children come, and it is left (`reads_nodes`). The induction is on the tree, in front
of any text that the last node can be told apart from: one that begins with a bracket,
or none.
-/

namespace Templating.Markup

open Text

/-! ### The events of nodes -/

namespace Node

mutual

/-- What is said of a node. -/
def events (format : Format) : Node → List Event
  | element name as cs =>
    match format with
    | .xml =>
      if cs.isEmpty then [.node (element name as [])]
      else .enter name as :: (allEvents .xml cs ++ [.leave name])
    | .html =>
      if isVoid name || isRawText name then [.node (element name as cs)]
      else .enter name as :: (allEvents .html cs ++ [.leave name])
  | text content => [.text content]
  | leaf => [.node leaf]

/-- What is said of nodes, in order. -/
def allEvents (format : Format) : List Node → List Event
  | [] => []
  | n :: ns => n.events format ++ allEvents format ns

end

end Node

/-! ### What follows a node -/

/-- The text is empty or begins with a bracket. -/
def Bounded (rest : List Char) : Prop := ∀ c ∈ rest.head?, c = '<'

theorem bounded_nil : Bounded [] := nofun

theorem bounded_bracket (cs : List Char) : Bounded ('<' :: cs) := by
  rintro c ⟨rfl⟩
  rfl

theorem Bounded.unmarked {rest : List Char} (h : Bounded rest) : Unmarked rest := by
  intro mark
  exact absurd (h _ mark) (by decide)

theorem unmarked_bracket (cs : List Char) : Unmarked ('<' :: cs) := (bounded_bracket cs).unmarked

/-! ### Leaves -/

section

variable {format : Format} {rest : List Char}

theorem unmarked_escapeText {cs : List Char} (h : Unmarked cs) (behind : Unmarked rest) :
    Unmarked (Reference.escapeText cs ++ rest) := by
  cases cs with
  | nil => exact behind
  | cons c cs =>
    obtain ⟨d, ds, hd⟩ : ∃ d ds, Reference.escapeTextChar c = d :: ds := by
      unfold Reference.escapeTextChar
      split <;> exact ⟨_, _, rfl⟩
    have mem : d ∈ Reference.escapeTextChar c := by
      rw [hd]
      exact List.mem_cons_self
    rw [Reference.escapeText, List.flatMap_cons, hd, Unmarked]
    rcases mem_escapeTextChar mem with char | ⟨rfl, -⟩
    · intro mark
      cases mark
      exact absurd char (by decide)
    · exact h

theorem escapeText_ne_nil {cs : List Char} (h : cs ≠ []) : Reference.escapeText cs ≠ [] := by
  intro empty
  have back := Reference.decode_escapeText cs
  rw [empty] at back
  cases back
  exact h rfl

theorem reads_text {content : String} (nonempty : content ≠ "") (bounded : Bounded rest) :
    Reads format (Reference.escapeText content.toList) rest [.text content] := by
  have written : Reference.escapeText content.toList ≠ [] :=
    escapeText_ne_nil fun empty => nonempty (String.toList_eq_nil_iff.mp empty)
  refine reads_token (Token.next?_text written (fun c hc => (mem_escapeText hc).1) bounded)
    (fun stop => ?_) rfl
  have decoded : Event.decodeText format stop (Reference.escapeText content.toList) =
      .ok content.toList := by
    cases format with
    | html => rw [Event.decodeText, Reference.decodeOrKeep, Reference.decode_escapeText]
    | xml =>
      rw [Event.decodeText, Reference.decode_escapeText]
      rfl
  rw [Event.ofToken?, decoded]
  simp only [Except.map, String.ofList_toList]

theorem reads_comment {body : String} (h : ¬ ['-', '-', '>'] <:+: body.toList) :
    Reads format ('<' :: '!' :: '-' :: '-' :: (body.toList ++ ['-', '-', '>'])) rest
      [.node (.comment body)] := by
  have token := Token.next?_comment h rest
  refine reads_token (t := .comment body.toList) (by simpa using token) (fun stop => ?_) rfl
  rw [Event.ofToken?, String.ofList_toList]

theorem reads_cdata {body : String} (h : ¬ [']', ']', '>'] <:+: body.toList) :
    Reads format
      ('<' :: '!' :: '[' :: 'C' :: 'D' :: 'A' :: 'T' :: 'A' :: '[' :: (body.toList ++ [']', ']', '>']))
      rest [.node (.cdata body)] := by
  have token := Token.next?_cdata h rest
  refine reads_token (t := .cdata body.toList) (by simpa using token) (fun stop => ?_) rfl
  rw [Event.ofToken?, String.ofList_toList]

theorem reads_instruction {body : String} (h : IsInstruction body.toList) :
    Reads format ('<' :: '?' :: (body.toList ++ ['?', '>'])) rest [.node (.instruction body)] := by
  have token := Token.next?_questionMarks h.start h.unclosed rest
  rw [h.not_declaration] at token
  refine reads_token (t := .instruction body.toList) (by simpa using token) (fun stop => ?_) rfl
  rw [Event.ofToken?, String.ofList_toList]

end

/-! ### Tags -/

/-- The name in an end tag is kept as it is. -/
theorem endName_name {name : List Char} (h : ∀ c ∈ name, isSeparator c = false) :
    Event.endName name = name := by
  unfold Event.endName
  split
  · rfl
  · have last := (span_append isSeparator [] name.reverse (fun d hd => nomatch hd)
      (fun d hd => h d (List.mem_reverse.mp (List.mem_of_mem_head? hd)))).2
    rw [List.nil_append] at last
    rw [last, List.reverse_reverse]

/-- No bracket stands in the name of a raw text element. -/
theorem not_mem_of_isRawText {name : String} (raw : isRawText name = true) {c : Char}
    (hc : c = '<' ∨ c = '>') : c ∉ name.toList := by
  intro hm
  have lower : c.toLower ∈ (foldCase name).toList := by
    rw [foldCase, String.toList_map]
    exact List.mem_map_of_mem hm
  have same : c.toLower = c := by rcases hc with rfl | rfl <;> rfl
  rw [isRawText, rawTextNames, List.contains_iff_mem] at raw
  rw [same] at lower
  rcases List.mem_cons.mp raw with script | style
  · rw [script] at lower
    rcases hc with rfl | rfl <;> exact absurd lower (by decide)
  · rw [List.mem_singleton.mp style] at lower
    rcases hc with rfl | rfl <;> exact absurd lower (by decide)

section

variable {format : Format} {rest : List Char} {name : String} {as : List Attribute}

theorem reads_emptyTag (tag : IsTag name as) (closes : Closes (inside name as))
    (nonempty : inside name as ≠ []) :
    Reads format ('<' :: (inside name as ++ ['/', '>'])) rest [.node (.element name as [])] := by
  have token := Token.next?_emptyTag tag closes nonempty rest
  refine reads_token (t := .emptyTag (inside name as)) (by simpa using token) (fun stop => ?_) rfl
  rw [Event.ofToken?, decodeTag_inside format stop tag]
  rfl

variable (tags : HasTags name as)

include tags

theorem reads_endTag : Reads format (endTagOf name.toList) rest [.leave name] := by
  have token := Token.next?_endTag tags.leaves rest
  refine reads_token (t := .endTag name.toList) (by simpa [endTagOf] using token)
    (fun stop => ?_) rfl
  rw [Event.ofToken?, endName_name tags.unseparated, String.ofList_toList]

theorem reads_voidTag (void : isVoid name = true) :
    Reads .html ('<' :: (inside name as ++ ['>'])) rest [.node (.element name as [])] := by
  have token := Token.next?_startTag tags rest
  refine reads_token (t := .startTag (inside name as)) (by simpa using token) (fun stop => ?_) rfl
  rw [Event.ofToken?, decodeTag_inside .html stop tags.toIsTag]
  simp only [Except.map, void, and_self, if_true]

theorem reads_startTag (void : ¬ (format = .html ∧ isVoid name = true))
    (raw : ¬ (format = .html ∧ isRawText name = true)) :
    Reads format ('<' :: (inside name as ++ ['>'])) rest [.enter name as] := by
  have token := Token.next?_startTag tags rest
  refine reads_token (t := .startTag (inside name as)) (by simpa using token) (fun stop => ?_) ?_
  · rw [Event.ofToken?, decodeTag_inside format stop tags.toIsTag]
    simp only [Except.map, void, if_false]
  · rw [Event.entersRawText?, if_neg raw]

/-! ### Elements -/

/-- An element with its content between its tags. -/
theorem reads_enclosed {body : List Char} {events : List Event}
    (void : ¬ (format = .html ∧ isVoid name = true))
    (raw : ¬ (format = .html ∧ isRawText name = true))
    (content : Reads format body (endTagOf name.toList ++ rest) events) :
    Reads format ('<' :: (inside name as ++ '>' :: (body ++ endTagOf name.toList))) rest
      (.enter name as :: (events ++ [.leave name])) := by
  have opened : Reads format _ (body ++ endTagOf name.toList ++ rest) [.enter name as] :=
    reads_startTag tags void raw
  have element := opened.append (content.append (reads_endTag tags))
  simpa using element

/-- A raw text element. -/
theorem reads_rawElement {body : List Char} (behind : Unmarked rest) (void : isVoid name = false)
    (raw : isRawText name = true) (h : IsRawText name.toList body) :
    Reads .html ('<' :: (inside name as ++ '>' :: (body ++ endTagOf name.toList))) rest
      [.node (rawTextNode name as body)] := by
  have token := Token.next?_startTag tags (body ++ endTagOf name.toList ++ rest)
  have token : Token.next?
      ('<' :: (inside name as ++ ['>']) ++ (body ++ endTagOf name.toList ++ rest)) =
        some (.ok (.startTag (inside name as), body ++ endTagOf name.toList ++ rest)) := by
    simpa using token
  have enters : ∀ stop,
      Event.ofToken? .html stop (.startTag (inside name as)) = .ok (some (.enter name as)) := by
    intro stop
    rw [Event.ofToken?, decodeTag_inside .html stop tags.toIsTag]
    simp only [Except.map, void, Bool.false_eq_true, and_false, if_false]
  have pauses : (Event.enter name as).entersRawText? .html = some (name, as) := by
    rw [Event.entersRawText?, if_pos ⟨rfl, raw⟩]
  have cut : splitRaw name.toList (body ++ endTagOf name.toList ++ rest) = (body, rest) := by
    rw [List.append_assoc, splitRaw_append (not_mem_of_isRawText raw (.inr rfl)) rest h]
  have element := reads_rawText token enters pauses cut behind
  simpa using element

end

/-! ### What is written of nodes -/

section

variable (name : String) (as : List Attribute) (cs : List Node)

theorem toList_emptyElement :
    (Print.node .xml (.element name as [])).toList = '<' :: (inside name as ++ ['/', '>']) := by
  simp [Print.node, toList_attributes, inside]

theorem toList_voidElement (void : isVoid name = true) :
    (Print.node .html (.element name as [])).toList = '<' :: (inside name as ++ ['>']) := by
  simp [Print.node, toList_attributes, inside, void]

theorem toList_rawElement (void : isVoid name = false) (raw : isRawText name = true) :
    (Print.node .html (.element name as cs)).toList =
      '<' :: (inside name as ++ '>' :: ((Node.textOfAll cs).toList ++ endTagOf name.toList)) := by
  simp [Print.node, toList_attributes, inside, endTagOf, void, raw]

theorem toList_htmlElement (void : isVoid name = false) (raw : isRawText name = false) :
    (Print.node .html (.element name as cs)).toList =
      '<' :: (inside name as ++ '>' :: ((Print.nodes .html cs).toList ++ endTagOf name.toList)) := by
  simp [Print.node, toList_attributes, inside, endTagOf, void, raw]

theorem toList_xmlElement (nonempty : cs ≠ []) :
    (Print.node .xml (.element name as cs)).toList =
      '<' :: (inside name as ++ '>' :: ((Print.nodes .xml cs).toList ++ endTagOf name.toList)) := by
  simp [Print.node, toList_attributes, inside, endTagOf, nonempty]

end

/-- What is written of a node begins with a bracket, text apart. -/
theorem toList_node_bracket (format : Format) {n : Node} (h : n.isText = false) :
    ∃ cs, (Print.node format n).toList = '<' :: cs := by
  cases n with
  | text content => cases h
  | comment body => exact ⟨_, by simp [Print.node]; rfl⟩
  | cdata body => exact ⟨_, by simp [Print.node]; rfl⟩
  | instruction body => exact ⟨_, by simp [Print.node]; rfl⟩
  | element name as cs =>
    cases format with
    | xml =>
      rw [Print.node]
      split <;> exact ⟨_, by simp; rfl⟩
    | html =>
      rw [Print.node]
      split
      · exact ⟨_, by simp; rfl⟩
      · split <;> exact ⟨_, by simp; rfl⟩

section

variable {format : Format} {ns : List Node} {rest : List Char}

theorem bounded_nodes (h : ∀ m ∈ ns.head?, m.isText = false) (bounded : Bounded rest) :
    Bounded ((Print.nodes format ns).toList ++ rest) := by
  cases ns with
  | nil => exact bounded
  | cons n ns =>
    obtain ⟨cs, hcs⟩ := toList_node_bracket format (h n rfl)
    rw [Print.nodes, String.toList_append, hcs]
    exact bounded_bracket _

theorem unmarked_nodes (h : Node.AllWellFormed format ns) (bounded : Bounded rest) :
    Unmarked ((Print.nodes format ns).toList ++ rest) := by
  cases ns with
  | nil => exact bounded.unmarked
  | cons n ns =>
    rw [Node.AllWellFormed] at h
    obtain ⟨well, apart, -⟩ := h
    rw [Print.nodes, String.toList_append, List.append_assoc]
    by_cases text : n.isText = true
    · obtain ⟨content, rfl⟩ := Node.eq_text_of_isText text
      rw [Node.WellFormed] at well
      rw [Print.node, String.toList_ofList]
      exact unmarked_escapeText well.2 (bounded_nodes (apart rfl) bounded).unmarked
    · obtain ⟨cs, hcs⟩ := toList_node_bracket format (eq_false_of_ne_true text)
      rw [hcs]
      exact unmarked_bracket _

end

/-! ### Reading nodes -/

/-- A raw text element is read back with its one text, or with none. -/
theorem reads_rawNode {name : String} {as : List Attribute} {cs : List Node} {rest : List Char}
    (tags : HasTags name as) (behind : Unmarked rest) (void : isVoid name = false)
    (raw : isRawText name = true)
    (content : cs = [] ∨
      ∃ body, cs = [.text body] ∧ body ≠ "" ∧ IsRawText name.toList body.toList) :
    Reads .html (Print.node .html (.element name as cs)).toList rest
      [.node (.element name as cs)] := by
  rw [toList_rawElement name as cs void raw]
  rcases content with rfl | ⟨body, rfl, nonempty, h⟩
  · have nothing : IsRawText name.toList [] := fun i hi => nomatch hi
    exact reads_rawElement tags behind void raw nothing
  · have children : rawTextNode name as body.toList = .element name as [.text body] := by
      rw [rawTextNode, if_neg fun empty => nonempty (String.toList_eq_nil_iff.mp empty),
        String.ofList_toList]
    have text : Node.textOfAll [.text body] = body := String.append_empty
    rw [text, ← children]
    exact reads_rawElement tags behind void raw h

mutual

theorem reads_node (format : Format) : ∀ {n : Node} {rest : List Char}, n.WellFormed format →
    Unmarked rest → (n.isText = true → Bounded rest) →
      Reads format (Print.node format n).toList rest (n.events format)
  | .text content, rest, h, _, bounded => by
    rw [Node.WellFormed] at h
    rw [Print.node, String.toList_ofList]
    exact reads_text h.1 (bounded rfl)
  | .comment body, rest, h, _, _ => by
    rw [Node.WellFormed] at h
    simpa [Print.node, Node.events] using reads_comment h
  | .cdata body, rest, h, _, _ => by
    rw [Node.WellFormed] at h
    simpa [Print.node, Node.events] using reads_cdata h
  | .instruction body, rest, h, _, _ => by
    rw [Node.WellFormed] at h
    simpa [Print.node, Node.events] using reads_instruction h
  | .element name as cs, rest, h, unmarked, _ => by
    have bounded : Bounded (endTagOf name.toList ++ rest) := bounded_bracket _
    cases format with
    | xml =>
      rw [Node.WellFormed] at h
      obtain ⟨hn, ha, content⟩ := h
      have tags := hn.hasTags ha
      by_cases empty : cs = []
      · rw [empty, toList_emptyElement]
        exact reads_emptyTag tags.toIsTag tags.closes (inside_ne_nil hn as)
      · rw [toList_xmlElement name as cs empty, Node.events]
        simp only [List.isEmpty_iff, empty, if_false]
        exact reads_enclosed tags (fun h => nomatch h.1) (fun h => nomatch h.1)
          (reads_nodes .xml content bounded)
    | html =>
      rw [Node.WellFormed] at h
      obtain ⟨hn, ha, content⟩ := h
      have tags := hn.hasTags ha
      by_cases void : isVoid name = true
      · rw [if_pos void] at content
        rw [content, toList_voidElement name as void, Node.events]
        simp only [void, Bool.true_or, if_true]
        exact reads_voidTag tags void
      rw [if_neg void] at content
      have void : isVoid name = false := eq_false_of_ne_true void
      by_cases raw : isRawText name = true
      · rw [if_pos raw] at content
        rw [Node.events]
        simp only [raw, Bool.or_true, if_true]
        exact reads_rawNode tags unmarked void raw content
      · rw [if_neg raw] at content
        have raw : isRawText name = false := eq_false_of_ne_true raw
        rw [toList_htmlElement name as cs void raw, Node.events]
        simp only [void, raw, Bool.or_self, Bool.false_eq_true, if_false]
        exact reads_enclosed tags (by simp [void]) (by simp [raw])
          (reads_nodes .html content bounded)

/-- **What is written of nodes** says what they are. -/
theorem reads_nodes (format : Format) : ∀ {ns : List Node} {rest : List Char},
    Node.AllWellFormed format ns → Bounded rest →
      Reads format (Print.nodes format ns).toList rest (Node.allEvents format ns)
  | [], rest, _, _ => Reads.nil
  | n :: ns, rest, h, bounded => by
    rw [Node.AllWellFormed] at h
    obtain ⟨well, apart, others⟩ := h
    rw [Print.nodes, String.toList_append, Node.allEvents]
    exact (reads_node format well (unmarked_nodes others bounded)
      fun text => bounded_nodes (apart text) bounded).append (reads_nodes format others bounded)

end

end Templating.Markup
