import Templating.Proofs.Markup.GenuineDocument
import Templating.Proofs.Markup.Nesting

/-!
# Tags that are not balanced

In HTML no tags are at fault. What is read is what strict building makes of other events, in
which the end tags are put right (`Event.repair`): an end tag that leaves nothing is gone, and
in front of any other stand the end tags of the elements that were opened in the one that it
leaves; at the end, everything is left. These events are balanced, so that they denote a forest,
and repairing takes no node away, adds none and keeps their order (`parseText_html_repaired`).

Lenient building of events and strict building of what they are repaired to go on in step
(`run_repair`): the names that `repair` knows to be open are those in the builder. The nodes of
a forest in document order are those that its events say (`Denotes.allUnits`), by induction on
the grammar.

Reading may still fail where no token and no attribute list is at fault. A byte order mark where
reading begins is not counted, and a raw text that is cut three bytes before its place may begin
inside a character (`markedPage_not_read`).
-/

namespace Templating.Markup

open Text

/-! ### Repaired events -/

namespace Event

/-- The open elements that an end tag leaves, the innermost first, and those that stay open: it
leaves the nearest one of its name, in any case of letters, and those that were opened in it. -/
def nearest? (name : String) : List String → Option (List String × List String)
  | [] => none
  | inner :: outer =>
    if sameName inner name then some ([inner], outer)
    else (nearest? name outer).map fun (left, stay) => (inner :: left, stay)

/-- Events with other end tags, where elements of these names are open, the innermost first.
An end tag that names a void element or fits no open element is left out. Any other becomes the
end tags of all elements that it leaves, and the end of the events leaves the elements that
are still open. -/
def repair (names : List String) : List Event → List Event
  | [] => names.map leave
  | .enter name as :: events => .enter name as :: repair (name :: names) events
  | .leave name :: events =>
    if isVoid name then repair names events
    else
      match nearest? name names with
      | none => repair names events
      | some (left, stay) => left.map leave ++ repair stay events
  | event :: events => event :: repair names events

theorem nearest?_eq (name : String) (stack : List OpenElement) :
    nearest? name (stack.map (·.name)) =
      (stack.findIdx? fun e => sameName e.name name).map fun n =>
        ((stack.map (·.name)).take (n + 1), (stack.map (·.name)).drop (n + 1)) := by
  induction stack with
  | nil => rfl
  | cons e stack ih =>
    rw [List.map_cons, nearest?, List.findIdx?_cons]
    split
    · rfl
    · rw [ih, Option.map_map, Option.map_map]
      rfl

theorem mem_repair {event : Event} {names : List String} {events : List Event}
    (mem : event ∈ repair names events) : (∃ name, event = .leave name) ∨ event ∈ events := by
  fun_induction repair names events with
  | case1 names =>
    obtain ⟨name, -, rfl⟩ := List.mem_map.mp mem
    exact .inl ⟨name, rfl⟩
  | case2 names name as events ih | case6 names event' events _ _ ih =>
    rcases List.mem_cons.mp mem with rfl | mem
    · exact .inr List.mem_cons_self
    · exact (ih mem).imp_right (List.mem_cons_of_mem _)
  | case3 names name events void ih | case4 names name events void none ih =>
    exact (ih mem).imp_right (List.mem_cons_of_mem _)
  | case5 names name events void left stay nearest ih =>
    rcases List.mem_append.mp mem with mem | mem
    · obtain ⟨name, -, rfl⟩ := List.mem_map.mp mem
      exact .inl ⟨name, rfl⟩
    · exact (ih mem).imp_right (List.mem_cons_of_mem _)

end Event

/-! ### Building in step -/

namespace Builder

variable {b : Builder}

/-- The names of the open elements, the innermost first. -/
def openNames (b : Builder) : List String := b.stack.map (·.name)

@[simp] theorem openNames_push (b : Builder) (n : Node) : (b.push n).openNames = b.openNames := by
  obtain ⟨stack, top, doctype⟩ := b
  cases stack <;> rfl

@[simp] theorem openNames_pushText (b : Builder) (content : String) :
    (b.pushText content).openNames = b.openNames := by
  rw [pushText]
  split
  · rfl
  · exact openNames_push b _

@[simp] theorem openNames_pop (b : Builder) : b.pop.openNames = b.openNames.tail := by
  obtain ⟨stack, top, doctype⟩ := b
  cases stack with
  | nil => rfl
  | cons e stack => exact openNames_push _ _

@[simp] theorem openNames_popMany (b : Builder) (n : Nat) :
    (b.popMany n).openNames = b.openNames.drop n := by
  induction n generalizing b with
  | zero => rfl
  | succ n ih => rw [popMany, ih, openNames_pop, List.drop_tail]

theorem step_leave_innermost {name : String} {names : List String}
    (innermost : b.openNames = name :: names) : b.step .xml (.leave name) = .ok b.pop := by
  obtain ⟨stack, top, doctype⟩ := b
  cases stack with
  | nil => cases innermost
  | cons e stack =>
    obtain ⟨rfl, -⟩ := List.cons.inj innermost
    rw [step, leaveInnermost]
    exact if_pos rfl

theorem pop_of_openNames_eq_nil (h : b.openNames = []) : b.pop = b := by
  rw [pop, List.map_eq_nil_iff.mp h]

/-- The end tags of the innermost open elements finish these elements. -/
theorem run_leaves (b : Builder) (n : Nat) :
    b.run .xml ((b.openNames.take n).map .leave) = .ok (b.popMany n) := by
  induction n generalizing b with
  | zero => rfl
  | succ n ih =>
    rw [popMany, ← ih b.pop, openNames_pop]
    cases innermost : b.openNames with
    | nil => rw [pop_of_openNames_eq_nil innermost, List.tail_nil, List.take_nil, List.take_nil]
    | cons name names =>
      rw [List.take_succ_cons, List.map_cons, run_of_step (step_leave_innermost innermost)]
      rfl

/-- An end tag leaves what it is repaired to leave. -/
theorem leaveNearest_eq (b : Builder) {name : String} (void : isVoid name = false) :
    match Event.nearest? name b.openNames with
    | none => b.leaveNearest name = b
    | some (left, stay) =>
      b.run .xml (left.map .leave) = .ok (b.leaveNearest name) ∧
        (b.leaveNearest name).openNames = stay := by
  have nearest := Event.nearest?_eq name b.stack
  rw [← openNames] at nearest
  rw [nearest, leaveNearest, void]
  cases b.stack.findIdx? fun e => sameName e.name name with
  | none => rfl
  | some n => exact ⟨b.run_leaves (n + 1), b.openNames_popMany (n + 1)⟩

/-- The end of an HTML source leaves all elements. -/
theorem finish_html (b : Builder) :
    b.finish .html = (b.run .xml (b.openNames.map .leave)).bind (finish .xml) := by
  have left := b.run_leaves b.stack.length
  have closed := b.openNames_popMany b.stack.length
  have all : b.openNames.length = b.stack.length := List.length_map _
  rw [← all, List.take_length, all] at left
  rw [← all, List.drop_length, all] at closed
  rw [left, Except.bind, finish, finish, List.map_eq_nil_iff.mp closed]

/-- **Lenient building** of events is strict building of what they are repaired to. -/
theorem run_repair (b : Builder) (events : List Event) :
    (b.run .html events).bind (finish .html) =
      (b.run .xml (Event.repair b.openNames events)).bind (finish .xml) := by
  induction events generalizing b with
  | nil => exact b.finish_html
  | cons event events ih =>
    cases event with
    | enter name as => exact ih (b.opened name as)
    | node n =>
      have rest := ih (b.push n)
      rw [openNames_push] at rest
      exact rest
    | text content =>
      have rest := ih (b.pushText content)
      rw [openNames_pushText] at rest
      exact rest
    | doctype body => exact ih { b with doctype := some body }
    | leave name =>
      have rest := ih (b.leaveNearest name)
      have stepped : b.step .html (.leave name) = .ok (b.leaveNearest name) := rfl
      rw [run_of_step stepped, rest, Event.repair]
      cases void : isVoid name with
      | true => rw [if_pos rfl, leaveNearest, if_pos void]
      | false =>
        have left := b.leaveNearest_eq void
        rw [if_neg Bool.false_ne_true]
        cases nearest : Event.nearest? name b.openNames with
        | none =>
          rw [nearest] at left
          rw [left]
        | some parts =>
          rw [nearest] at left
          obtain ⟨leaves, stay⟩ := left
          rw [run_append, leaves, stay]
          rfl

end Builder

theorem build_html_eq (events : List Event) :
    Stream.build .html ⟨events, none⟩ = Stream.build .xml ⟨Event.repair [] events, none⟩ := by
  rw [Stream.build_eq_bind, Stream.build_eq_bind]
  exact Builder.run_repair {} events

/-- No tags are at fault in HTML. -/
theorem Builder.exists_run_html (b : Builder) (events : List Event) :
    ∃ b', b.run .html events = .ok b' := by
  induction events generalizing b with
  | nil => exact ⟨b, rfl⟩
  | cons event events ih => cases event <;> exact ih _

theorem exists_build_html (events : List Event) :
    ∃ b, Stream.build .html ⟨events, none⟩ = .ok b := by
  obtain ⟨b, ran⟩ := Builder.exists_run_html {} events
  rw [Stream.build_eq_bind, ran]
  exact ⟨_, rfl⟩

/-! ### Nodes in document order -/

namespace Node

mutual

/-- The node and the nodes below it in document order, each without the nodes below it. Raw text
is all one with its element. -/
def units : Node → List Node
  | element name as cs =>
    if isRawText name then [element name as cs] else element name as [] :: allUnits cs
  | leaf => [leaf]

/-- The nodes and the nodes below them in document order. -/
def allUnits : List Node → List Node
  | [] => []
  | n :: ns => units n ++ allUnits ns

end

theorem units_empty (name : String) (as : List Attribute) :
    (element name as []).units = [element name as []] := by
  rw [units, allUnits, ite_self]

theorem units_rawTextNode {name : String} (raw : isRawText name = true) (as : List Attribute)
    (body : List Char) : (rawTextNode name as body).units = [rawTextNode name as body] := by
  rw [rawTextNode, units, if_pos raw]

end Node

namespace Event

/-- The node that an event says, without the nodes that come below it. -/
def unit? : Event → Option Node
  | enter name as => some (.element name as [])
  | node n => some n
  | text content => some (.text content)
  | leave _ | doctype _ => none

/-- The event says no more than one node. -/
def Single : Event → Prop
  | enter name _ => isRawText name = false
  | node n => n.units = [n]
  | text _ | leave _ | doctype _ => True

end Event

/-- **The nodes of a forest** in document order are those that its events say. -/
theorem Denotes.allUnits {events : List Event} {nodes : List Node} (h : Denotes events nodes)
    (single : ∀ event ∈ events, event.Single) :
    Node.allUnits nodes = events.filterMap Event.unit? := by
  induction h with
  | nil => rfl
  | node n _ ih =>
    obtain ⟨first, rest⟩ := List.forall_mem_cons.mp single
    rw [Node.allUnits, first, ih rest]
    rfl
  | doctype body _ ih => exact ih (List.forall_mem_cons.mp single).2
  | element name as _ _ ihInner ih =>
    obtain ⟨notRaw, single⟩ := List.forall_mem_cons.mp single
    obtain ⟨inner, rest⟩ := List.forall_mem_append.mp single
    rw [Event.Single] at notRaw
    rw [Node.allUnits, Node.units, notRaw, if_neg Bool.false_ne_true, ihInner inner,
      ih (List.forall_mem_cons.mp rest).2, List.filterMap_cons, List.filterMap_append]
    rfl

theorem Event.ofContent_leaves (fresh : Bool) (names : List String) (events : List Event) :
    ofContent fresh (names.map leave ++ events) = names.map leave ++ ofContent fresh events := by
  induction names with
  | nil => rfl
  | cons name names ih => exact congrArg (leave name :: ·) ih

/-- Repairing takes no node away, adds none, and keeps their order. -/
theorem Event.units_repair (names : List String) (events : List Event) (fresh : Bool) :
    (ofContent fresh (repair names events)).filterMap unit? =
      (ofContent fresh events).filterMap unit? := by
  have leaves : ∀ names : List String, (names.map leave).filterMap unit? = [] := by
    intro names
    rw [List.filterMap_map]
    exact List.filterMap_eq_nil_iff.mpr fun _ _ => rfl
  fun_induction repair names events generalizing fresh with
  | case1 names =>
    rw [← List.append_nil (names.map leave), ofContent_leaves, List.filterMap_append, leaves]
    rfl
  | case2 names name as events ih =>
    rw [ofContent, ofContent, List.filterMap_cons, List.filterMap_cons, ih]
  | case3 names name events void ih | case4 names name events void none ih => exact ih fresh
  | case5 names name events void left stay nearest ih =>
    rw [ofContent_leaves, List.filterMap_append, leaves]
    exact ih fresh
  | case6 names event events notEnter notLeave ih =>
    cases event with
    | enter name as => exact absurd rfl (notEnter name as)
    | leave name => exact absurd rfl (notLeave name)
    | node n => rw [ofContent, ofContent, List.filterMap_cons, List.filterMap_cons, ih]
    | doctype body => rw [ofContent, ofContent, List.filterMap_cons, List.filterMap_cons, ih]
    | text content =>
      rw [ofContent, ofContent]
      split
      · exact ih fresh
      · rw [List.filterMap_cons, List.filterMap_cons, ih]

/-! ### What an HTML source says -/

section

variable {format : Format} {p : Event → Prop}

/-- What holds of every event that a token says, those that enter raw text elements apart, and of
the nodes of raw text elements, holds of all that a source says. -/
theorem forall_mem_streamFrom
    (token : ∀ {stop : Nat} {t : Token} {event : Event},
      Event.ofToken? format stop t = .ok (some event) →
        event.entersRawText? format = none → p event)
    (raw : ∀ {name : String} (as : List Attribute) (body : List Char),
      isRawText name = true → p (.node (rawTextNode name as body)))
    (i : Nat) (source : List Char) : ∀ event ∈ (streamFrom format i source).events, p event := by
  have run : ∀ (i : Nat) (cs : List Char), ∀ event ∈ (readRun format i cs).1, p event := by
    intro i cs
    fun_induction readRun format i cs with
    | case1 | case2 | case3 | case5 => exact fun _ mem => absurd mem List.not_mem_nil
    | case4 i cs t rest ht _ ih => exact ih
    | case6 i cs t rest ht event said stays events pause run ih =>
      rw [run] at ih
      exact List.forall_mem_cons.mpr ⟨token said stays, ih⟩
  fun_induction streamFrom format i source with
  | case1 i source events ran | case2 i source events e ran
  | case3 i source events name as position ran =>
    have before := run i (skipMark source)
    rw [ran] at before
    exact before
  | case4 i source events name as position ran cs behind parts rest ih =>
    have before := run i (skipMark source)
    have pause := (genuine_readRun format i (skipMark source)).2 name as position (by rw [ran])
    rw [ran] at before
    exact List.forall_mem_append.mpr ⟨before,
      List.forall_mem_cons.mpr ⟨raw as parts.1 pause.2.2.2, ih⟩⟩

end

theorem Event.single_ofToken? {stop : Nat} {t : Token} {event : Event}
    (said : ofToken? .html stop t = .ok (some event)) (stays : event.entersRawText? .html = none) :
    event.Single := by
  cases t with
  | text raw =>
    cases said
    trivial
  | startTag inside =>
    obtain ⟨⟨name, as⟩, -, said⟩ := exists_of_map_eq_ok said
    dsimp only at said
    split at said
    · cases said
      exact Node.units_empty name as
    · cases said
      refine eq_false_of_ne_true fun raw => ?_
      rw [entersRawText?, if_pos ⟨rfl, raw⟩] at stays
      cases stays
  | emptyTag inside =>
    obtain ⟨⟨name, as⟩, -, said⟩ := exists_of_map_eq_ok said
    cases said
    exact Node.units_empty name as
  | declaration body => cases said
  | endTag _ | doctype _ =>
    cases said
    trivial
  | comment _ | cdata _ | instruction _ =>
    cases said
    rfl

/-- Every event of an HTML source says no more than one node. -/
theorem single_streamFrom (i : Nat) (source : List Char) :
    ∀ event ∈ (streamFrom .html i source).events, event.Single :=
  forall_mem_streamFrom Event.single_ofToken?
    (fun as body raw => Node.units_rawTextNode raw as body) i source

/-- **Lenient reading is strict reading of the repaired tags.** Of a source without a fault in a
token or an attribute list, in which no raw text begins inside a character, reading in HTML gives
a document. Its content is what strict building makes of the repaired events, which is the forest
that they denote. Each start tag, empty element, comment, section, instruction and text, blank
text before the first node apart, gives one node, in the order of the source, where void elements
and raw text elements are complete in their start tags. -/
theorem parseText_html_repaired {source : List Char}
    (readable : (Stream.ofSource .html source).fault = none) :
    let events := (Stream.ofSource .html source).events
    ∃ b, Stream.build .xml ⟨Event.repair [] events, none⟩ = .ok b ∧
      parseText .html source =
        .ok { format := .html, content := b.content, doctype := b.doctype } ∧
      Denotes (Event.ofContent true (Event.repair [] events)) b.content ∧
      Node.allUnits b.content = (Event.ofContent true events).filterMap Event.unit? ∧
      ∀ name as, .enter name as ∈ events → isVoid name = false ∧ isRawText name = false := by
  intro events
  obtain ⟨b, built⟩ := exists_build_html events
  have repaired := (build_html_eq events).symm.trans built
  have texts := Event.text_notMem_ofContent true (Event.repair [] events)
  have denotes : Denotes (Event.ofContent true (Event.repair [] events)) b.content := by
    rw [← outcome_ok_iff, ← build_iff_outcome texts, ← build_ofContent, repaired]
    rfl
  have single : ∀ event ∈ Event.ofContent true (Event.repair [] events), event.Single := by
    intro event mem
    rcases Event.mem_ofContent mem with ⟨content, rfl⟩ | ⟨mem, -⟩
    · exact rfl
    · rcases Event.mem_repair mem with ⟨name, rfl⟩ | mem
      · trivial
      · exact single_streamFrom 0 source event mem
  refine ⟨b, repaired, ?_, denotes, ?_, fun name as mem => ?_⟩
  · have stream : Stream.ofSource .html source = ⟨events, none⟩ := by rw [← readable]
    rw [parseText, stream, built]
    rfl
  · rw [denotes.allUnits single, Event.units_repair]
  · have genuine := (genuine_streamFrom 0 source (.enter name as) mem).1
    exact ⟨eq_false_of_ne_true fun void => genuine.2 ⟨rfl, void⟩,
      single_streamFrom 0 source (.enter name as) mem⟩

/-- A page with stray, crossed and open tags. -/
def tangledPage : List Char :=
  " <!DOCTYPE html></p><p>a<b>b<i></b>c</i><br></br><script>x</p></script></p><ul><li>d".toList

theorem tangledPage_repaired :
    (Stream.ofSource .html tangledPage).fault = none ∧
      ∃ b, Stream.build .xml ⟨Event.repair [] (Stream.ofSource .html tangledPage).events, none⟩ =
          .ok b ∧ b.doctype = some "html" ∧
        b.content =
          [.element "p" []
            [.text "a", .element "b" [] [.text "b", .element "i" [] []], .text "c",
              .element "br" [] [], .element "script" [] [.text "x</p>"]],
            .element "ul" [] [.element "li" [] [.text "d"]]] := by
  have readable : (Stream.ofSource .html tangledPage).fault = none := by decide +kernel
  obtain ⟨b, built, parsed, -⟩ := parseText_html_repaired readable
  have read : (parseText .html tangledPage).map (fun doc => (doc.doctype, doc.content)) = .ok
      (some "html",
        [.element "p" []
          [.text "a", .element "b" [] [.text "b", .element "i" [] []], .text "c",
            .element "br" [] [], .element "script" [] [.text "x</p>"]],
          .element "ul" [] [.element "li" [] [.text "d"]]]) := by
    decide +kernel
  rw [parsed] at read
  obtain ⟨doctype, content⟩ := Prod.mk.inj (Except.ok.inj read)
  exact ⟨readable, b, built, doctype, content⟩

/-- A page with a byte order mark, behind which a raw text is cut three bytes before its
place. -/
def markedPage : List Char := "\uFEFF<script éa></script>".toList

/-- No token and no attribute list is at fault here, but the raw text begins inside a
character. -/
theorem markedPage_not_read :
    (Stream.ofSource .html markedPage).fault = some (.splitCharacter 12) ∧
      ∀ doc, parseText .html markedPage ≠ .ok doc := by
  have split : Stream.ofSource .html markedPage = ⟨[], some (.splitCharacter 12)⟩ := by
    decide +kernel
  refine ⟨congrArg Stream.fault split, fun doc parsed => ?_⟩
  rw [parseText, split] at parsed
  cases parsed

end Templating.Markup
