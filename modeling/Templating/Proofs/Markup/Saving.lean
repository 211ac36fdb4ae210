import Templating.Proofs.Markup.GenuineDocument
import Templating.Proofs.Markup.Legible

/-!
# Saving what was read

A document that was read is written and read again as the same document, with the same bytes
each time (`saved_unchanged`). Only texts side by side, which a source may have a doctype or a
stray end tag between, come back as one. But a text right behind a doctype or a declaration
gains the line break that is written there, each time again (`saved_gains_line`).

The two halves meet at `Legible`: what was read is genuine (`genuine_parse`), and what is
written of legible nodes is read (`parse_legible`). What is genuine but not legible was read
from other markup than is written of it (`Faithful`): a name whose quotes were closed
elsewhere in its tag, or one that makes another tag of it with a slash; a byte order mark that
was written as a reference; and a doctype of blanks, none of which is a separator.
-/

namespace Templating.Markup

open Text

/-! ### Faithful documents -/

namespace Node

/-- No byte order mark is written where reading begins anew, behind a raw text element. -/
def Resumes (format : Format) : List Node → Prop
  | [] => True
  | n :: ns =>
    (n.restarts format = true → Unmarked (Print.nodes format ns).toList) ∧ Resumes format ns

/-- What is written of the node says nothing else: the tags of an element end at the brackets
behind them, and no start tag looks like an empty tag, and no empty tag like an end tag. -/
def Faithful (format : Format) : Node → Prop
  | element name as cs =>
    Closes (inside name as) ∧
      (if format = .xml ∧ cs = [] then inside name as ≠ []
        else (inside name as).getLast? ≠ some '/' ∧ Closes name.toList) ∧
      Resumes format cs
  | _ => True

instance decidableResumes (format : Format) : (ns : List Node) → Decidable (Resumes format ns)
  | [] => inferInstanceAs (Decidable True)
  | n :: ns =>
    have := decidableResumes format ns
    inferInstanceAs (Decidable
      ((n.restarts format = true → Unmarked (Print.nodes format ns).toList) ∧ Resumes format ns))

instance (format : Format) : DecidablePred (Faithful format)
  | element name as cs => inferInstanceAs (Decidable (Closes (inside name as) ∧
      (if format = .xml ∧ cs = [] then inside name as ≠ []
        else (inside name as).getLast? ≠ some '/' ∧ Closes name.toList) ∧
      Resumes format cs))
  | text _ | comment _ | cdata _ | instruction _ => inferInstanceAs (Decidable True)

instance (p : Node → Prop) [DecidablePred p] (ns : List Node) : Decidable (Everywhere p ns) :=
  inferInstanceAs (Decidable (∀ n ∈ allWithBelow ns, p n))

end Node

namespace Document

/-- What is written of the document says nothing else. -/
structure Faithful (doc : Document) : Prop where
  nodes : Node.Everywhere (Node.Faithful doc.format) doc.content
  resumes : Node.Resumes doc.format doc.content
  unmarked : Unmarked (Print.documentText doc).toList
  named : doc.doctype ≠ some ""

/-- The document with texts side by side joined. -/
def joined (doc : Document) : Document := { doc with content := Node.settleAll doc.content }

/-- The document that is left after a number of times it has been written and read. -/
def resaved : Nat → Document → Except Error Document
  | 0, doc => .ok doc
  | n + 1, doc => (parse doc.format doc.bytes).bind (resaved n)

end Document

/-! ### What joining keeps -/

namespace Node

/-- Joining leaves something of every text that is read. -/
theorem settleAll_eq_nil {format : Format} {ns : List Node}
    (genuine : Everywhere (Genuine format) ns) (h : settleAll ns = []) : ns = [] := by
  cases ns with
  | nil => rfl
  | cons n ns =>
    rw [settleAll] at h
    cases n with
    | text content =>
      have nonempty : content ≠ "" := genuine (text content) List.mem_cons_self
      have lost : joinText content (settleAll ns) = [] := h
      rcases head_cases (settleAll ns) with ⟨next, rest, hs⟩ | head
      · rw [hs] at lost
        cases lost
      · rw [joinText_of_head content head, if_neg nonempty] at lost
        cases lost
    | _ => cases h

mutual

theorem node_settle {format : Format} : ∀ {n : Node}, Everywhere (Genuine format) [n] →
    Print.node format n.settle = Print.node format n
  | .text _, _ | .comment _, _ | .cdata _, _ | .instruction _, _ => rfl
  | .element name as cs, genuine => by
    obtain ⟨-, below⟩ := everywhere_element.mp genuine
    have empty : (settleAll cs).isEmpty = cs.isEmpty := by
      rw [Bool.eq_iff_iff, List.isEmpty_iff, List.isEmpty_iff]
      exact ⟨settleAll_eq_nil below, fun h => by rw [h, settleAll]⟩
    have children := nodes_settleAll below
    cases format with
    | xml => rw [settle, Print.node, Print.node, empty, children]
    | html => rw [settle, Print.node, Print.node, empty, children, textOfAll_settleAll]

/-- Of nodes that are read the same is written if texts side by side are joined. -/
theorem nodes_settleAll {format : Format} : ∀ {ns : List Node}, Everywhere (Genuine format) ns →
    Print.nodes format (settleAll ns) = Print.nodes format ns
  | [], _ => rfl
  | n :: ns, genuine => by
    obtain ⟨first, rest⟩ := everywhere_cons.mp genuine
    rw [settleAll, nodes_attach, node_settle first, nodes_settleAll rest, Print.nodes]

end

end Node

/-! ### What is read is legible -/

namespace Node

mutual

theorem legible_of_genuine {format : Format} : ∀ {n : Node}, Everywhere (Genuine format) [n] →
    Everywhere (Faithful format) [n] → n.Legible format
  | .text _, _, _ => trivial
  | .comment _, genuine, _ | .cdata _, genuine, _ | .instruction _, genuine, _ =>
    genuine _ (List.mem_singleton_self _)
  | .element name as cs, genuine, faithful => by
    obtain ⟨⟨tag, void, raw⟩, below⟩ := everywhere_element.mp genuine
    obtain ⟨⟨closes, ends, resumes⟩, faithfulBelow⟩ := everywhere_element.mp faithful
    have children := allLegible_of_genuine below faithfulBelow resumes
    cases format with
    | xml =>
      rw [Legible]
      by_cases empty : cs = []
      · rw [if_pos empty]
        rw [if_pos ⟨rfl, empty⟩] at ends
        exact ⟨tag, closes, ends⟩
      · rw [if_neg empty]
        rw [if_neg fun h => empty h.2] at ends
        exact ⟨{ tag with closes, unslashed := ends.1, leaves := ends.2 }, children⟩
    | html =>
      rw [Legible]
      rw [if_neg fun h => nomatch h.1] at ends
      refine ⟨{ tag with closes, unslashed := ends.1, leaves := ends.2 }, ?_⟩
      split
      · exact void rfl ‹_›
      · split
        · exact raw rfl ‹_›
        · exact children

/-- Genuine nodes are legible if what is written of them says nothing else. -/
theorem allLegible_of_genuine {format : Format} : ∀ {ns : List Node},
    Everywhere (Genuine format) ns → Everywhere (Faithful format) ns → Resumes format ns →
      AllLegible format ns
  | [], _, _, _ => trivial
  | n :: ns, genuine, faithful, resumes => by
    obtain ⟨first, rest⟩ := everywhere_cons.mp genuine
    obtain ⟨firstFaithful, restFaithful⟩ := everywhere_cons.mp faithful
    exact ⟨legible_of_genuine first firstFaithful, resumes.1,
      allLegible_of_genuine rest restFaithful resumes.2⟩

end

end Node

theorem Document.Faithful.legible {doc : Document} (faithful : doc.Faithful)
    (genuine : doc.Genuine) : doc.Legible where
  content := Node.allLegible_of_genuine genuine.nodes faithful.nodes faithful.resumes
  balanced body hb := (genuine.doctype body hb).balanced
  visible body hb := by
    have nonempty : body.toList ≠ [] := fun empty =>
      faithful.named (by rw [← String.toList_eq_nil_iff.mp empty]; exact hb)
    refine eq_false_of_ne_true fun blank => nonempty ?_
    rw [← (genuine.doctype body hb).trimmed, trim_of_all_blank blank]
  unmarked := faithful.unmarked

namespace Document.Genuine

variable {doc : Document} (genuine : doc.Genuine)

include genuine

theorem bytes_joined : doc.joined.bytes = doc.bytes := by
  have text : Print.documentText doc.joined = Print.documentText doc := by
    simp only [Print.documentText, joined, Node.nodes_settleAll genuine.nodes]
  rw [bytes, bytes, text, joined]

/-- Nothing but the texts is settled: the doctype is trimmed as it is. -/
theorem settled_eq : doc.settled = { doc with content := doc.settled.content } := by
  have doctype : doc.settled.doctype = doc.doctype := by
    rw [settled]
    cases hd : doc.doctype with
    | none => rfl
    | some body => rw [Option.map_some, (genuine.doctype body hd).trimmed, String.ofList_toList]
  calc doc.settled
      = { doc with content := doc.settled.content, doctype := doc.settled.doctype } := rfl
    _ = { doc with content := doc.settled.content } := by rw [doctype]

/-- The end of the line is lost, unless a text stands behind it. -/
theorem content_settled (start : ∀ text nodes, doc.content = .text text :: nodes →
    doc.format = .html ∧ doc.doctype = none) : doc.settled.content = doc.joined.content := by
  rw [settled, joined]
  rcases Node.head_cases doc.content with ⟨text, nodes, hc⟩ | head
  · rw [lineEnd, if_pos (start text nodes hc), Node.joinText_empty, hc]
    exact Node.trimStart_joinText (genuine.first text nodes hc) _
  · have first := Node.head_settleAll head
    rw [lineEnd]
    split
    · rw [Node.joinText_empty, Node.trimStart_of_head first]
    · exact Node.trimStart_newline first

/-- A text behind the end of the line gains it. -/
theorem content_gains {text : String} {nodes : List Node} (hc : doc.content = .text text :: nodes)
    (declared : ¬ (doc.format = .html ∧ doc.doctype = none)) :
    doc.settled.content = Node.joinText "\n" doc.joined.content := by
  have visible : allBlank ("\n" ++ text).toList = false := by
    rw [String.toList_append, allBlank, List.all_append, ← allBlank, ← allBlank,
      genuine.first text nodes hc, Bool.and_false]
  have joins : Node.joinText "\n" (Node.settleAll (.text text :: nodes)) =
      Node.joinText ("\n" ++ text) (Node.settleAll nodes) := Node.joinText_joinText ..
  rw [settled, joined, lineEnd, if_neg declared, hc, joins]
  exact Node.trimStart_joinText visible _

end Document.Genuine

/-! ### Reading again -/

/-- **A document that was read**, if what is written of it says nothing else, is read again as
the same document, texts side by side joined, unless it begins with a text behind a declaration
or a doctype. The same bytes are written of it, so that it stays the same however often this is
done. -/
theorem saved_unchanged {format : Format} {bytes : List UInt8} {doc : Document}
    (read : parse format bytes = .ok doc) (faithful : doc.Faithful)
    (start : ∀ text nodes, doc.content = .text text :: nodes →
      doc.format = .html ∧ doc.doctype = none) :
    parse format doc.bytes = .ok doc.joined ∧ doc.joined.bytes = doc.bytes ∧
      ∀ n, doc.resaved (n + 1) = .ok doc.joined := by
  obtain ⟨rfl, genuine⟩ := genuine_parse read
  have again : parse doc.format doc.bytes = .ok doc.joined := by
    rw [Document.parse_legible (faithful.legible genuine), genuine.settled_eq,
      genuine.content_settled start]
    rfl
  refine ⟨again, genuine.bytes_joined, fun n => ?_⟩
  induction n with
  | zero =>
    rw [Document.resaved, again]
    rfl
  | succ n ih =>
    have same : doc.joined.resaved (n + 1) = doc.resaved (n + 1) := by
      rw [Document.resaved, Document.resaved, genuine.bytes_joined]
      rfl
    rw [Document.resaved, again]
    exact same.trans ih

/-- A source in which quotes and brackets stand in names, a text is broken by a stray end tag and
raw text by the end of the source. -/
def oddSource : List Char :=
  ("<!DOCTYPE \u00a0a<b>c ><p =x a\"b\">1</q>2</p><i\">\">&lt;<script/></i\">\">"
    ++ "\uFEFF<STYLE>a</styl").toList

/-- The document that it spells. -/
def oddPage : Document where
  format := .html
  doctype := some "a<b>c"
  content :=
    [.element "p" [⟨"=x", ""⟩, ⟨"a\"b\"", ""⟩] [.text "1", .text "2"],
      .element "i\">\"" [] [.text "<", .element "script" [] []], .text "\uFEFF",
      .element "STYLE" [] [.text "a</styl"]]

theorem oddPage_unchanged :
    parse .html (Encoding.utf8.encode oddSource) = .ok oddPage ∧ oddPage.Faithful ∧
      parse .html oddPage.bytes = .ok oddPage.joined ∧ oddPage.joined.bytes = oddPage.bytes ∧
        ∀ n, oddPage.resaved (n + 1) = .ok oddPage.joined := by
  have read : parse .html (Encoding.utf8.encode oddSource) = .ok oddPage := by decide +kernel
  have faithful : oddPage.Faithful :=
    { nodes := by decide +kernel
      resumes := by decide +kernel
      unmarked := by decide +kernel
      named := by decide }
  exact ⟨read, faithful, saved_unchanged read faithful nofun⟩

/-- A text behind a declaration or a doctype comes back with a line break more. -/
theorem saved_gains_line {format : Format} {bytes : List UInt8} {doc : Document} {text : String}
    {nodes : List Node} (read : parse format bytes = .ok doc) (faithful : doc.Faithful)
    (first : doc.content = .text text :: nodes)
    (declared : ¬ (doc.format = .html ∧ doc.doctype = none)) :
    parse format doc.bytes =
      .ok { doc with content := Node.joinText "\n" doc.joined.content } := by
  obtain ⟨rfl, genuine⟩ := genuine_parse read
  rw [Document.parse_legible (faithful.legible genuine), genuine.settled_eq,
    genuine.content_gains first declared]

/-- A source with a text right behind its doctype. -/
def strayText : List Char := "<!DOCTYPE html>x".toList

theorem strayText_drifts : ∃ doc doc',
    parse .html (Encoding.utf8.encode strayText) = .ok doc ∧ parse .html doc.bytes = .ok doc' ∧
      doc'.joined ≠ doc.joined :=
  ⟨{ format := .html, doctype := some "html", content := [.text "x"] },
    { format := .html, doctype := some "html", content := [.text "\nx"] },
    by decide +kernel, by decide +kernel, by decide +kernel⟩

end Templating.Markup
