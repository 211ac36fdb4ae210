import Templating.Proofs.Markup.PrintedTag

/-!
# Nodes with settled texts

Three things are lost when nodes are written and read: texts side by side become one, an empty
text is not there at all, and blanks at the beginning, such as the end of the line of a
declaration, are passed over. `settleAll` does the first two of these, at all levels, and
`trimStart` the third. The text of nodes and what is written of them stay the same
(`textOfAll_settleAll`, `nodes_attach`).
-/

namespace Templating.Markup

open Text

theorem escapeText_append (a b : String) :
    Reference.escapeText (a ++ b).toList =
      Reference.escapeText a.toList ++ Reference.escapeText b.toList := by
  rw [String.toList_append, Reference.escapeText, List.flatMap_append]
  rfl

namespace Node

/-! ### Settled nodes -/

/-- Nodes with text in front of them. -/
def joinText (content : String) : List Node → List Node
  | text next :: nodes => text (content ++ next) :: nodes
  | nodes => if content = "" then nodes else text content :: nodes

/-- Nodes with a node in front of them. -/
def attach : Node → List Node → List Node
  | text content, nodes => joinText content nodes
  | node, nodes => node :: nodes

mutual

/-- The node with texts settled below it. -/
def settle : Node → Node
  | element name as cs => element name as (settleAll cs)
  | leaf => leaf

/-- The nodes with texts side by side joined and empty texts dropped, at all levels. -/
def settleAll : List Node → List Node
  | [] => []
  | n :: ns => attach n.settle (settleAll ns)

end

/-- No text is empty, and no two are side by side. -/
def Settled : List Node → Prop
  | [] => True
  | n :: ns => n ≠ text "" ∧ (n.isText = true → ∀ m ∈ ns.head?, m.isText = false) ∧ Settled ns

/-- The nodes without a blank text at the beginning. -/
def trimStart : List Node → List Node
  | text content :: ns => if allBlank content.toList then ns else text content :: ns
  | ns => ns

theorem isText_settle (n : Node) : n.settle.isText = n.isText := by cases n <;> rfl

theorem attach_of_not_text {n : Node} (h : n.isText = false) (ns : List Node) :
    attach n ns = n :: ns := by
  cases n with
  | text content => cases h
  | _ => rfl

/-- Text comes first, or it does not. -/
theorem head_cases (ns : List Node) :
    (∃ content rest, ns = text content :: rest) ∨ ∀ m ∈ ns.head?, m.isText = false := by
  cases ns with
  | nil => exact .inr nofun
  | cons n ns =>
    cases n with
    | text content => exact .inl ⟨content, ns, rfl⟩
    | _ =>
      refine .inr fun m hm => ?_
      cases hm
      rfl

section

variable {ns : List Node} (content : String)

theorem joinText_of_head (h : ∀ m ∈ ns.head?, m.isText = false) :
    joinText content ns = if content = "" then ns else text content :: ns := by
  unfold joinText
  split
  · cases h _ rfl
  · rfl

theorem trimStart_of_head (h : ∀ m ∈ ns.head?, m.isText = false) : trimStart ns = ns := by
  unfold trimStart
  split
  · cases h _ rfl
  · rfl

theorem joinText_nil : joinText content [] = if content = "" then [] else [text content] :=
  joinText_of_head content nofun

/-- Text joins no node but text. -/
theorem joinText_cons {n : Node} (h : n.isText = false) (ns : List Node) :
    joinText content (n :: ns) = joinText content [] ++ n :: ns := by
  have head : ∀ m ∈ (n :: ns).head?, m.isText = false := by
    intro m hm
    cases hm
    exact h
  rw [joinText_of_head content head, joinText_nil]
  split <;> rfl

theorem joinText_empty (ns : List Node) : joinText "" ns = ns := by
  rcases head_cases ns with ⟨next, rest, rfl⟩ | head
  · rw [joinText, String.empty_append]
  · rw [joinText_of_head "" head, if_pos rfl]

theorem joinText_joinText (a b : String) (ns : List Node) :
    joinText a (joinText b ns) = joinText (a ++ b) ns := by
  rcases head_cases ns with ⟨next, rest, rfl⟩ | head
  · rw [joinText, joinText, joinText, String.append_assoc]
  · rw [joinText_of_head b head]
    by_cases empty : b = ""
    · rw [if_pos empty, empty, String.append_empty]
    · have joined : a ++ b ≠ "" := fun h => empty (String.append_eq_empty_iff.mp h).2
      rw [if_neg empty, joinText_of_head _ head, if_neg joined]
      rfl

theorem settled_joinText (h : Settled ns) : Settled (joinText content ns) := by
  rcases head_cases ns with ⟨next, rest, rfl⟩ | head
  · obtain ⟨nonempty, apart, settled⟩ := h
    have joined : text (content ++ next) ≠ text "" := by
      intro h
      exact nonempty (congrArg text (String.append_eq_empty_iff.mp (Node.text.inj h)).2)
    exact ⟨joined, fun _ => apart rfl, settled⟩
  · rw [joinText_of_head content head]
    split
    · exact h
    · rename_i nonempty
      exact ⟨fun h => nonempty (Node.text.inj h), fun _ => head, h⟩

end

theorem settled_settleAll (ns : List Node) : Settled (settleAll ns) := by
  induction ns with
  | nil => trivial
  | cons n ns ih =>
    rw [settleAll]
    by_cases h : n.settle.isText = true
    · obtain ⟨content, text⟩ := eq_text_of_isText h
      rw [text]
      exact settled_joinText content ih
    · rw [attach_of_not_text (eq_false_of_ne_true h)]
      have nonempty : n.settle ≠ .text "" := fun text => h (by rw [text]; rfl)
      exact ⟨nonempty, fun text => absurd text h, ih⟩

example : settleAll [text "a", text "", text "b", element "p" [] [text ""], text "c"] =
    [text "ab", element "p" [] [], text "c"] := by decide

theorem textOfAll_attach (n : Node) (ns : List Node) :
    textOfAll (attach n ns) = textOfAll (n :: ns) := by
  by_cases h : n.isText = true
  · obtain ⟨content, rfl⟩ := eq_text_of_isText h
    rw [attach]
    rcases head_cases ns with ⟨next, rest, rfl⟩ | head
    · simp only [joinText, textOfAll, textContent, String.append_assoc]
    · rw [joinText_of_head content head]
      split
      · rename_i empty
        rw [textOfAll, empty, textContent, String.empty_append]
      · rfl
  · rw [attach_of_not_text (eq_false_of_ne_true h)]

mutual

theorem textContent_settle : ∀ n : Node, n.settle.textContent = n.textContent
  | element _ _ cs => textOfAll_settleAll cs
  | text _ | comment _ | cdata _ | instruction _ => rfl

/-- Settling keeps the text of nodes. -/
theorem textOfAll_settleAll : ∀ ns : List Node, textOfAll (settleAll ns) = textOfAll ns
  | [] => rfl
  | n :: ns => by
    rw [settleAll, textOfAll_attach, textOfAll, textOfAll, textContent_settle n,
      textOfAll_settleAll ns]

end

/-! ### The beginning -/

theorem head_settleAll {ns : List Node} (h : ∀ m ∈ ns.head?, m.isText = false) :
    ∀ m ∈ (settleAll ns).head?, m.isText = false := by
  cases ns with
  | nil => nofun
  | cons n ns =>
    have settled : n.settle.isText = false := (isText_settle n).trans (h n rfl)
    rw [settleAll, attach_of_not_text settled]
    rintro m ⟨rfl⟩
    exact settled

/-- A text that is not blank stays at the beginning. -/
theorem trimStart_joinText {content : String} (visible : allBlank content.toList = false)
    (ns : List Node) : trimStart (joinText content ns) = joinText content ns := by
  rcases head_cases ns with ⟨next, rest, rfl⟩ | head
  · have both : allBlank (content ++ next).toList = false := by
      rw [String.toList_append, allBlank, List.all_append, ← allBlank, visible, Bool.false_and]
    rw [joinText, trimStart, both]
    rfl
  · have nonempty : content ≠ "" := by
      rintro rfl
      cases visible
    rw [joinText_of_head content head, if_neg nonempty, trimStart, visible]
    rfl

/-- The end of a line is lost in front of a node that is not a text. -/
theorem trimStart_newline {ns : List Node} (h : ∀ m ∈ ns.head?, m.isText = false) :
    trimStart (joinText "\n" ns) = ns := by
  rw [joinText_of_head "\n" h, if_neg (by decide), trimStart, if_pos (by decide)]

/-! ### What is written -/

theorem nodes_attach (format : Format) (n : Node) (ns : List Node) :
    Print.nodes format (attach n ns) = Print.node format n ++ Print.nodes format ns := by
  by_cases text : n.isText = true
  · obtain ⟨content, rfl⟩ := eq_text_of_isText text
    rw [attach]
    rcases head_cases ns with ⟨next, rest, rfl⟩ | head
    · rw [joinText, Print.nodes, Print.nodes, Print.node, Print.node, Print.node,
        escapeText_append, String.ofList_append, String.append_assoc]
    · rw [joinText_of_head content head]
      split
      · rename_i empty
        rw [empty, Print.node]
        exact String.empty_append.symm
      · rw [Print.nodes]
  · rw [attach_of_not_text (eq_false_of_ne_true text), Print.nodes]

end Node

end Templating.Markup
