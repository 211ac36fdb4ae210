import Templating.Proofs.Markup.GenuineDocument
import Templating.Proofs.Markup.Verbatim

/-!
# Pages that can be written

What a page was read as can be written: nothing that is written as it is ends its construct early,
and nothing stands where it would not be written or not be read (`serializable_parseText`).

Of raw text this says that the first end tag in the text with the end tag behind it is that end
tag (`findEndTag?_written`), also where the page broke off in the middle of one. The first end tag
is found by its position (`findEndTag?_eq_some_iff`), and raw text is cut there
(`splitRaw_of_findEndTag?`).
-/

namespace Templating.Markup

open Text

/-! ### The first end tag -/

/-- The position in bytes of the first end tag of this name. -/
def findEndTag? (name : List Char) : List Char → Option Nat
  | [] => none
  | c :: cs =>
    if startsEndTag name (c :: cs) then some 0
    else (findEndTag? name cs).map (c.utf8Size + ·)

section

variable {name cs front tag : List Char} {i : Nat}

/-- An end tag is not found where none begins. -/
theorem findEndTag?_append
    (none : ∀ j < front.length, ¬ BeginsEndTag name ((front ++ tag).drop j)) :
    findEndTag? name (front ++ tag) = (findEndTag? name tag).map (byteSize front + ·) := by
  induction front with
  | nil => simp
  | cons c front ih =>
    have here : ¬ startsEndTag name (c :: (front ++ tag)) = true :=
      mt (startsEndTag_iff _ _).mp (none 0 (Nat.succ_pos _))
    rw [List.cons_append, findEndTag?, if_neg here,
      ih fun j before => none (j + 1) (Nat.succ_lt_succ before), Option.map_map]
    congr 1
    funext j
    exact (Nat.add_assoc ..).symm

theorem findEndTag?_of_beginsEndTag (h : BeginsEndTag name cs) : findEndTag? name cs = some 0 := by
  have starts := (startsEndTag_iff _ _).mpr h
  cases cs with
  | nil => cases starts
  | cons c cs => rw [findEndTag?, if_pos starts]

/-- **The first end tag**: one begins there, and none before it. -/
theorem findEndTag?_eq_some_iff : findEndTag? name cs = some i ↔
    ∃ front tag, cs = front ++ tag ∧ byteSize front = i ∧ BeginsEndTag name tag ∧
      ∀ j < front.length, ¬ BeginsEndTag name (cs.drop j) := by
  constructor
  · intro h
    induction cs generalizing i with
    | nil => cases h
    | cons c cs ih =>
      rw [findEndTag?] at h
      split at h
      · rename_i starts
        cases h
        exact ⟨[], _, rfl, rfl, (startsEndTag_iff _ _).mp starts, nofun⟩
      · rename_i goesOn
        obtain ⟨i, found, rfl⟩ := Option.map_eq_some_iff.mp h
        obtain ⟨front, tag, rfl, rfl, begins, none⟩ := ih found
        refine ⟨c :: front, tag, rfl, rfl, begins, fun j before => ?_⟩
        cases j with
        | zero => exact mt (startsEndTag_iff _ _).mpr goesOn
        | succ j => exact none j (Nat.lt_of_succ_lt_succ before)
  · rintro ⟨front, tag, rfl, rfl, begins, none⟩
    rw [findEndTag?_append none, findEndTag?_of_beginsEndTag begins]
    rfl

/-- **Raw text** is cut at the first end tag, and reading goes on behind the bracket of that. -/
theorem splitRaw_of_findEndTag? (h : findEndTag? name (front ++ tag) = some (byteSize front)) :
    splitRaw name (front ++ tag) = (front, (tag.dropWhile (· != '>')).drop 1) := by
  induction front with
  | nil =>
    cases tag with
    | nil => cases h
    | cons c tag =>
      rw [List.nil_append, findEndTag?] at h
      rw [List.nil_append, splitRaw]
      split at h
      · rename_i starts
        rw [if_pos starts]
      · obtain ⟨i, -, size⟩ := Option.map_eq_some_iff.mp h
        have := c.utf8Size_pos
        rw [byteSize_nil] at size
        omega
  | cons c front ih =>
    rw [List.cons_append, findEndTag?] at h
    rw [List.cons_append, splitRaw]
    split at h
    · have := c.utf8Size_pos
      have size := Option.some.inj h
      rw [byteSize_cons] at size
      omega
    · rename_i goesOn
      obtain ⟨i, found, size⟩ := Option.map_eq_some_iff.mp h
      rw [if_neg goesOn, ih (found.trans (congrArg some (Nat.add_left_cancel size)))]

/-- Raw text without an end tag goes on to the end. -/
theorem splitRaw_of_findEndTag?_eq_none (h : findEndTag? name cs = none) :
    splitRaw name cs = (cs, []) := by
  induction cs with
  | nil => rfl
  | cons c cs ih =>
    rw [findEndTag?] at h
    split at h
    · cases h
    · rename_i goesOn
      rw [splitRaw, if_neg goesOn, ih (Option.map_eq_none_iff.mp h)]

/-- **Raw text with its end tag** behind it has no end tag before that. -/
theorem findEndTag?_written {body : List Char} (h : IsRawText name body) :
    findEndTag? name (body ++ endTagOf name) = some (byteSize body) := by
  have begins := startsEndTag_endTagOf name []
  rw [List.append_nil, startsEndTag_iff] at begins
  refine findEndTag?_eq_some_iff.mpr ⟨body, endTagOf name, rfl, rfl, begins, fun j before => ?_⟩
  rw [← startsEndTag_iff, h j before]
  exact Bool.false_ne_true

end

/-! ### Nodes that can be written -/

namespace Node

/-- What is relied on where a node of a page is written, the nodes below it apart. -/
def Serializable : Node → Prop
  | element name _ cs =>
    (isVoid name = true → cs = []) ∧
      (isRawText name = true → cs = [] ∨ ∃ body, cs = [text body] ∧ body ≠ "" ∧
        findEndTag? name.toList (body.toList ++ endTagOf name.toList) =
          some (byteSize body.toList))
  | text content => content ≠ ""
  | comment body => ¬ ['-', '-', '>'] <:+: body.toList
  | cdata body => ¬ [']', ']', '>'] <:+: body.toList
  | instruction body => ¬ ['?', '>'] <:+: body.toList

/-- What is read can be written. -/
theorem Everywhere.serializable {n : Node} (h : Everywhere (Genuine .html) [n]) :
    n.Serializable := by
  cases n with
  | element name as cs =>
    obtain ⟨⟨-, void, raw⟩, children⟩ := everywhere_element.mp h
    refine ⟨void rfl, fun isRaw => (raw rfl isRaw).imp_right ?_⟩
    rintro ⟨body, rfl, isRawText⟩
    have nonempty : body ≠ "" := children (.text body) List.mem_cons_self
    exact ⟨body, rfl, nonempty, findEndTag?_written isRawText⟩
  | text _ | comment _ | cdata _ => exact h _ List.mem_cons_self
  | instruction body =>
    have genuine : IsInstruction body.toList := h (.instruction body) List.mem_cons_self
    exact genuine.unclosed

end Node

/-- **What a page is read as can be written.** Of every node, at every level: void elements have
no content; raw text elements have none or one text, which is not empty, and the first end tag in
that text with the end tag behind it is the one behind it; no text is empty; and comments, CDATA
sections and instructions do not have their delimiters in them. If the page begins with a text,
that text is not blank. -/
theorem serializable_parseText {source : List Char} {doc : Document}
    (h : parseText .html source = .ok doc) :
    Node.Everywhere Node.Serializable doc.content ∧
      ∀ content, doc.content.head? = some (.text content) → allBlank content.toList = false := by
  obtain ⟨format, genuine⟩ := genuine_parseText h
  have nodes := genuine.nodes
  rw [format] at nodes
  refine ⟨fun n mem => (nodes.of_mem_allWithBelow mem).serializable, fun content first => ?_⟩
  obtain ⟨rest, begins⟩ := List.head?_eq_some_iff.mp first
  exact genuine.first content rest begins

/-- A page that breaks off in an end tag. -/
def brokenOffSource : List Char :=
  "<!DOCTYPE html>\n<P>a<BR>b</br><!--c-- --></P ><Script/><b><sCRIPT>d</scriptx></SCR".toList

/-- The document that it spells. -/
def brokenOffPage : Document where
  format := .html
  doctype := some "html"
  content :=
    [.element "P" [] [.text "a", .element "BR" [] [], .text "b", .comment "c-- "],
      .element "Script" [] [], .element "b" [] [.element "sCRIPT" [] [.text "d</scriptx></SCR"]]]

theorem serializable_brokenOffPage :
    parseText .html brokenOffSource = .ok brokenOffPage ∧
      Node.Everywhere Node.Serializable brokenOffPage.content ∧
      ∀ content, brokenOffPage.content.head? = some (.text content) →
        allBlank content.toList = false := by
  have read : parseText .html brokenOffSource = .ok brokenOffPage := by decide +kernel
  exact ⟨read, serializable_parseText read⟩

end Templating.Markup
