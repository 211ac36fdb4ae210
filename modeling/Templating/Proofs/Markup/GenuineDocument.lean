import Templating.Markup.Parse
import Templating.Proofs.Markup.GenuineToken
import Templating.Proofs.Markup.RawText
import Templating.Proofs.Markup.Building

/-!
# What documents are read

Every document that is read is genuine (`genuine_parse`): of each node in it, wherever it
stands, what was read as it is does not end its construct early, void elements have no
content and raw text elements no more than a text without an end tag; no text is empty, and
a first one is not blank.

This holds of each event that a source says (`genuine_streamFrom`), and a builder that is
given such events keeps it of what is finished and what is still open (`Builder.Genuine.step`),
and so up to the end of the source.
-/

namespace Templating.Markup

open Text

/-! ### Nodes -/

namespace Node

mutual

/-- The node and the nodes below it. -/
def withBelow : Node → List Node
  | element name as cs => element name as cs :: allWithBelow cs
  | leaf => [leaf]

/-- The nodes and the nodes below them. -/
def allWithBelow : List Node → List Node
  | [] => []
  | n :: ns => withBelow n ++ allWithBelow ns

end

/-- The property holds of the nodes and of the nodes below them. -/
def Everywhere (p : Node → Prop) (ns : List Node) : Prop := ∀ n ∈ allWithBelow ns, p n

section

variable {p : Node → Prop}

theorem mem_allWithBelow {ns : List Node} {m : Node} :
    m ∈ allWithBelow ns ↔ ∃ n ∈ ns, m ∈ n.withBelow := by
  induction ns with
  | nil => simp [allWithBelow]
  | cons n ns ih => simp [allWithBelow, ih]

theorem everywhere_iff {ns : List Node} :
    Everywhere p ns ↔ ∀ n ∈ ns, ∀ m ∈ n.withBelow, p m := by
  constructor
  · intro h n hn m hm
    exact h m (mem_allWithBelow.mpr ⟨n, hn, hm⟩)
  · intro h m hm
    obtain ⟨n, hn, below⟩ := mem_allWithBelow.mp hm
    exact h n hn m below

theorem everywhere_nil : Everywhere p [] := nofun

theorem everywhere_singleton {n : Node} : Everywhere p [n] ↔ ∀ m ∈ n.withBelow, p m := by
  rw [everywhere_iff, List.forall_mem_singleton]

theorem everywhere_cons {n : Node} {ns : List Node} :
    Everywhere p (n :: ns) ↔ Everywhere p [n] ∧ Everywhere p ns := by
  rw [everywhere_singleton, everywhere_iff, everywhere_iff, List.forall_mem_cons]

theorem Everywhere.reverse {ns : List Node} (h : Everywhere p ns) : Everywhere p ns.reverse :=
  everywhere_iff.mpr fun n hn => everywhere_iff.mp h n (List.mem_reverse.mp hn)

theorem everywhere_element {name : String} {as : List Attribute} {cs : List Node} :
    Everywhere p [element name as cs] ↔ p (element name as cs) ∧ Everywhere p cs := by
  rw [everywhere_singleton, withBelow, List.forall_mem_cons, Everywhere]

mutual

theorem Everywhere.of_mem_withBelow {m : Node} : ∀ {n : Node}, Everywhere p [n] →
    m ∈ n.withBelow → Everywhere p [m]
  | .element _ _ _, h, mem => by
    rcases List.mem_cons.mp mem with rfl | below
    · exact h
    · exact (everywhere_element.mp h).2.of_mem_allWithBelow below
  | .text _, h, mem | .comment _, h, mem | .cdata _, h, mem | .instruction _, h, mem => by
    obtain rfl := List.mem_singleton.mp mem
    exact h

/-- What holds everywhere holds of everything below any of the nodes. -/
theorem Everywhere.of_mem_allWithBelow {m : Node} : ∀ {ns : List Node}, Everywhere p ns →
    m ∈ allWithBelow ns → Everywhere p [m]
  | [], _, mem => absurd mem List.not_mem_nil
  | _ :: _, h, mem => by
    obtain ⟨first, rest⟩ := everywhere_cons.mp h
    rcases List.mem_append.mp mem with here | behind
    · exact first.of_mem_withBelow here
    · exact rest.of_mem_allWithBelow behind

end

end

/-- What holds of every node that is read, the nodes below it apart. -/
def Genuine (format : Format) : Node → Prop
  | element name as cs =>
    IsTag name as ∧
      (format = .html → isVoid name = true → cs = []) ∧
      (format = .html → isRawText name = true →
        cs = [] ∨ ∃ body, cs = [text body] ∧ IsRawText name.toList body.toList)
  | text content => content ≠ ""
  | comment body => ¬ ['-', '-', '>'] <:+: body.toList
  | cdata body => ¬ [']', ']', '>'] <:+: body.toList
  | instruction body => IsInstruction body.toList

theorem genuine_empty {format : Format} {name : String} {as : List Attribute}
    (tag : IsTag name as) : Everywhere (Genuine format) [element name as []] :=
  everywhere_element.mpr ⟨⟨tag, fun _ _ => rfl, fun _ _ => .inl rfl⟩, everywhere_nil⟩

end Node

/-- What holds of every doctype that is read. -/
structure IsReadDoctype (body : String) : Prop where
  trimmed : trim body.toList = body.toList
  balanced : Token.Balanced body.toList

/-! ### Events -/

namespace Event

/-- What holds of every event that a source says. -/
def Genuine (format : Format) : Event → Prop
  | enter name as => IsTag name as ∧ ¬ (format = .html ∧ isVoid name = true)
  | node n => n.isText = false ∧ Node.Everywhere (Node.Genuine format) [n]
  | doctype body => IsReadDoctype body
  | leave _ | text _ => True

theorem genuine_leaf {format : Format} {n : Node} (below : n.withBelow = [n])
    (notText : n.isText = false) (h : n.Genuine format) : (node n).Genuine format := by
  refine ⟨notText, Node.everywhere_singleton.mpr ?_⟩
  rw [below]
  exact List.forall_mem_singleton.mpr h

/-- What a token says is genuine if the token is. -/
theorem genuine_ofToken? {format : Format} {stop : Nat} {t : Token} {event : Event}
    (ht : t.Genuine) (h : ofToken? format stop t = .ok (some event)) : event.Genuine format := by
  have tag : ∀ {inside : List Char} {make : String × List Attribute → Option Event},
      (∀ c ∈ inside.head?, c ≠ '!' ∧ c ≠ '?' ∧ c ≠ '/') →
      (decodeTag format stop inside).map make = .ok (some event) →
        ∃ name as, IsTag name as ∧ make (name, as) = some event := by
    intro inside make start h
    obtain ⟨⟨name, as⟩, decoded, said⟩ := exists_of_map_eq_ok h
    exact ⟨name, as, isTag_of_decodeTag start decoded, said⟩
  cases t with
  | text raw =>
    obtain ⟨content, -, said⟩ := exists_of_map_eq_ok h
    cases said
    trivial
  | startTag inside =>
    obtain ⟨name, as, isTag, said⟩ := tag ht h
    dsimp only at said
    split at said
    · cases said
      exact ⟨rfl, Node.genuine_empty isTag⟩
    · rename_i void
      cases said
      exact ⟨isTag, void⟩
  | emptyTag inside =>
    obtain ⟨name, as, isTag, said⟩ := tag ht h
    cases said
    exact ⟨rfl, Node.genuine_empty isTag⟩
  | endTag inside =>
    cases h
    trivial
  | comment body | cdata body | instruction body =>
    cases h
    refine genuine_leaf rfl rfl ?_
    rw [Node.Genuine, String.toList_ofList]
    exact ht
  | declaration body => cases h
  | doctype body =>
    cases h
    refine ⟨?_, ?_⟩ <;> rw [String.toList_ofList]
    · exact trim_trim body
    · exact Token.Balanced.trim ht

end Event

/-! ### Streams -/

section

variable {format : Format}

/-- What holds of every event of a stream: raw text elements are not entered. -/
def Stream.Genuine (format : Format) (events : List Event) : Prop :=
  ∀ event ∈ events, event.Genuine format ∧ event.entersRawText? format = none

theorem Event.of_entersRawText? {event : Event} {name : String} {as : List Attribute}
    (h : event.entersRawText? format = some (name, as)) :
    event = .enter name as ∧ format = .html ∧ isRawText name = true := by
  cases event with
  | enter name' as' =>
    rw [entersRawText?] at h
    split at h
    · rename_i raw
      cases h
      exact ⟨rfl, raw⟩
    · cases h
  | _ => cases h

/-- A run of events is genuine, and so is the event in front of which it pauses. -/
theorem genuine_readRun (format : Format) (i : Nat) (cs : List Char) :
    Stream.Genuine format (readRun format i cs).1 ∧
      ∀ name as position, (readRun format i cs).2 = .rawText name as position →
        IsTag name as ∧ format = .html ∧ isVoid name = false ∧ isRawText name = true := by
  fun_induction readRun format i cs with
  | case1 | case2 | case3 => exact ⟨fun _ h => absurd h List.not_mem_nil, fun _ _ _ h => by cases h⟩
  | case4 i cs t rest ht _ ih => exact ih
  | case5 i cs t rest ht event said name as enters =>
    refine ⟨fun _ h => absurd h List.not_mem_nil, ?_⟩
    rintro _ _ _ ⟨rfl⟩
    have genuine := Event.genuine_ofToken? (Token.genuine_next? ht) said
    obtain ⟨rfl, html, raw⟩ := Event.of_entersRawText? enters
    obtain ⟨tag, void⟩ := genuine
    exact ⟨tag, html, eq_false_of_ne_true fun h => void ⟨html, h⟩, raw⟩
  | case6 i cs t rest ht event said stays events pause run ih =>
    rw [run] at ih
    refine ⟨List.forall_mem_cons.mpr ⟨⟨?_, stays⟩, ih.1⟩, ih.2⟩
    exact Event.genuine_ofToken? (Token.genuine_next? ht) said

theorem genuine_rawTextNode {name : String} {as : List Attribute} {body : List Char}
    (tag : IsTag name as) (void : isVoid name = false) (raw : IsRawText name.toList body) :
    Node.Everywhere (Node.Genuine .html) [rawTextNode name as body] := by
  have notVoid : ∀ {cs : List Node}, Format.html = .html → isVoid name = true → cs = [] := by
    intro cs _ h
    rw [void] at h
    cases h
  refine Node.everywhere_element.mpr ?_
  split
  · exact ⟨⟨tag, notVoid, fun _ _ => .inl rfl⟩, Node.everywhere_nil⟩
  · rename_i nonempty
    have content : String.ofList body ≠ "" := fun empty =>
      nonempty (by rw [← String.toList_ofList (l := body), empty, String.toList_empty])
    exact ⟨⟨tag, notVoid, fun _ _ => .inr ⟨_, rfl, by rwa [String.toList_ofList]⟩⟩,
      List.forall_mem_singleton.mpr content⟩

/-- **What a source says** is genuine. -/
theorem genuine_streamFrom (i : Nat) (source : List Char) :
    Stream.Genuine format (streamFrom format i source).events := by
  fun_induction streamFrom format i source with
  | case1 i source events run | case2 i source events e run
  | case3 i source events name as position run =>
    have genuine := (genuine_readRun format i (skipMark source)).1
    rw [run] at genuine
    exact genuine
  | case4 i source events name as position run cs behind parts rest ih =>
    obtain ⟨genuine, pause⟩ := genuine_readRun format i (skipMark source)
    rw [run] at genuine pause
    obtain ⟨tag, rfl, void, raw⟩ := pause name as position rfl
    have body := isRawText_splitRaw (not_mem_of_isRawText raw (.inl rfl)) cs
    exact List.forall_mem_append.mpr ⟨genuine,
      List.forall_mem_cons.mpr ⟨⟨⟨rfl, genuine_rawTextNode tag void body⟩, rfl⟩, ih⟩⟩

end

/-! ### Building -/

/-- What holds of every open element. -/
structure OpenElement.Genuine (format : Format) (e : OpenElement) : Prop where
  tag : IsTag e.name e.attributes
  notVoid : ¬ (format = .html ∧ isVoid e.name = true)
  notRaw : ¬ (format = .html ∧ isRawText e.name = true)
  children : Node.Everywhere (Node.Genuine format) e.children

theorem OpenElement.Genuine.close {format : Format} {e : OpenElement} (h : e.Genuine format) :
    Node.Everywhere (Node.Genuine format) [e.close] :=
  Node.everywhere_element.mpr
    ⟨⟨h.tag, fun html void => absurd ⟨html, void⟩ h.notVoid,
      fun html raw => absurd ⟨html, raw⟩ h.notRaw⟩, h.children.reverse⟩

namespace Builder

/-- What holds of a builder while a source is read. -/
structure Genuine (format : Format) (b : Builder) : Prop where
  stack : ∀ e ∈ b.stack, e.Genuine format
  top : Node.Everywhere (Node.Genuine format) b.top
  /-- The first node is no blank text. -/
  first : ∀ content ∈ b.top.getLast?, ∀ s, content = .text s → allBlank s.toList = false
  doctype : ∀ body ∈ b.doctype, IsReadDoctype body

namespace Genuine

variable {format : Format} {b : Builder}

theorem empty : Genuine format {} where
  stack := nofun
  top := Node.everywhere_nil
  first := nofun
  doctype := nofun

/-- A node is added. If it is the first one, it must not be a blank text. -/
theorem push (h : b.Genuine format) {n : Node} (genuine : Node.Everywhere (Node.Genuine format) [n])
    (keeps : ∀ content, n = .text content → b.Keeps content) : (b.push n).Genuine format := by
  obtain ⟨stack, top, doctype⟩ := b
  cases stack with
  | nil =>
    refine
      { stack := nofun
        top := Node.everywhere_cons.mpr ⟨genuine, h.top⟩
        first := ?_
        doctype := h.doctype }
    intro m hm content text
    cases hl : top.getLast? with
    | some last =>
      rw [Builder.push, List.getLast?_cons, hl] at hm
      exact h.first m (hl.trans hm) content text
    | none =>
      rw [Builder.push, List.getLast?_cons, hl] at hm
      cases hm
      have fresh := keeps content text
      rw [List.getLast?_eq_none_iff.mp hl] at fresh
      exact fresh
  | cons e stack =>
    obtain ⟨inner, outer⟩ := List.forall_mem_cons.mp h.stack
    refine { stack := ?_, top := h.top, first := h.first, doctype := h.doctype }
    have children := Node.everywhere_cons.mpr ⟨genuine, inner.children⟩
    exact List.forall_mem_cons.mpr ⟨{ inner with children }, outer⟩

theorem pop (h : b.Genuine format) : b.pop.Genuine format := by
  obtain ⟨stack, top, doctype⟩ := b
  cases stack with
  | nil => exact h
  | cons e stack =>
    obtain ⟨inner, outer⟩ := List.forall_mem_cons.mp h.stack
    have rest : Genuine format ⟨stack, top, doctype⟩ := { h with stack := outer }
    exact rest.push inner.close nofun

theorem popMany (h : b.Genuine format) (n : Nat) : (b.popMany n).Genuine format := by
  induction n generalizing b with
  | zero => exact h
  | succ n ih => exact ih h.pop

theorem pushText (h : b.Genuine format) (content : String) :
    (b.pushText content).Genuine format := by
  rw [Builder.pushText]
  split
  · exact h
  · rename_i kept
    rw [Bool.or_eq_true, not_or, decide_eq_true_eq] at kept
    refine h.push (List.forall_mem_singleton.mpr kept.1) ?_
    rintro _ ⟨rfl⟩
    exact eq_false_of_ne_true kept.2

theorem leaveNearest (h : b.Genuine format) (name : String) :
    (b.leaveNearest name).Genuine format := by
  rw [Builder.leaveNearest]
  split
  · exact h
  · split
    · exact h
    · exact h.popMany _

/-- **A genuine event** keeps a builder genuine. -/
theorem step (h : b.Genuine format) {event : Event} (genuine : event.Genuine format)
    (notRaw : event.entersRawText? format = none) {b' : Builder}
    (said : b.step format event = .ok b') : b'.Genuine format := by
  cases event with
  | enter name as =>
    cases said
    obtain ⟨tag, notVoid⟩ := genuine
    have raw : ¬ (format = .html ∧ isRawText name = true) := fun raw => by
      rw [Event.entersRawText?, if_pos raw] at notRaw
      cases notRaw
    have opened : OpenElement.Genuine format ⟨name, as, []⟩ :=
      ⟨tag, notVoid, raw, Node.everywhere_nil⟩
    exact { h with stack := List.forall_mem_cons.mpr ⟨opened, h.stack⟩ }
  | leave name =>
    cases format with
    | html =>
      cases said
      exact h.leaveNearest name
    | xml =>
      rw [Builder.step, Builder.leaveInnermost] at said
      split at said
      · cases said
      · split at said
        · cases said
          exact h.pop
        · cases said
  | node n =>
    cases said
    obtain ⟨notText, nodes⟩ := genuine
    refine h.push nodes ?_
    rintro content rfl
    cases notText
  | text content =>
    cases said
    exact h.pushText content
  | doctype body =>
    cases said
    exact { h with doctype := fun _ hb => Option.mem_some.mp hb ▸ genuine }

/-- So do all the events of a source. -/
theorem run (h : b.Genuine format) {events : List Event} (genuine : Stream.Genuine format events)
    {b' : Builder} (said : b.run format events = .ok b') : b'.Genuine format := by
  induction events generalizing b with
  | nil =>
    cases said
    exact h
  | cons event events ih =>
    obtain ⟨first, rest⟩ := List.forall_mem_cons.mp genuine
    rw [Builder.run] at said
    split at said
    · cases said
    · rename_i stepped
      exact ih (h.step first.1 first.2 stepped) rest said

theorem finish (h : b.Genuine format) {b' : Builder} (ends : b.finish format = .ok b') :
    b'.Genuine format := by
  cases format with
  | html =>
    cases ends
    exact h.popMany _
  | xml =>
    rw [Builder.finish] at ends
    split at ends
    · cases ends
      exact h
    · cases ends

end Genuine

end Builder

/-! ### Documents -/

/-- What holds of every document that is read. -/
structure Document.Genuine (doc : Document) : Prop where
  nodes : Node.Everywhere (Node.Genuine doc.format) doc.content
  /-- Text at the beginning is not blank. -/
  first : ∀ content nodes, doc.content = .text content :: nodes → allBlank content.toList = false
  doctype : ∀ body ∈ doc.doctype, IsReadDoctype body

theorem genuine_build {format : Format} {stream : Stream}
    (genuine : Stream.Genuine format stream.events) {b : Builder}
    (built : stream.build format = .ok b) : b.Genuine format := by
  rw [Stream.build] at built
  split at built
  · cases built
  · rename_i said
    split at built
    · cases built
    · exact (Builder.Genuine.empty.run genuine said).finish built

/-- What is read of a text is genuine. -/
theorem genuine_parseText {format : Format} {source : List Char} {doc : Document}
    (h : parseText format source = .ok doc) : doc.format = format ∧ doc.Genuine := by
  obtain ⟨b, built, rfl⟩ := exists_of_map_eq_ok h
  have genuine := genuine_build (genuine_streamFrom 0 source) built
  refine ⟨rfl, { nodes := genuine.top.reverse, first := ?_, doctype := genuine.doctype }⟩
  intro content nodes first
  refine genuine.first (.text content) ?_ content rfl
  rw [← List.head?_reverse]
  exact List.head?_eq_some_iff.mpr ⟨nodes, first⟩

/-- **What is read** is genuine, in whatever format it is read. -/
theorem genuine_parse {format : Format} {bytes : List UInt8} {doc : Document}
    (h : parse format bytes = .ok doc) : doc.format = format ∧ doc.Genuine := by
  rw [parse] at h
  split at h
  · cases h
  · obtain ⟨doc, read, rfl⟩ := exists_of_map_eq_ok h
    obtain ⟨same, genuine⟩ := genuine_parseText read
    exact ⟨same, { genuine with }⟩

end Templating.Markup
