import Templating.Markup.Parse
import Templating.Proofs.Markup.Building

/-!
# Balanced tags

What a source says of its content is a sequence of tags and complete nodes (`Event.ofContent`).
If the tags are balanced, every end tag leaving the element of its name that was entered last,
the sequence denotes a forest (`Denotes`); what goes on behind a balanced sequence leaves
elements open, one inside the other (`LeavesOpen`). Both are grammars and know of no builder.

Strict reading accepts the balanced sequences and gives the forest that they denote, and what is
at fault with any other is the first end tag that does not leave the innermost open element, or,
if there is none, the elements that are left open (`parseText_xml_iff_balanced`).

A balanced sequence adds its forest to any builder and leaves the open elements as they were
(`run_denotes`), by induction on the grammar. Every sequence has an outcome (`Outcome`): as long
as no end tag is at fault it leaves some elements open (`leavesOpen_or_fault`). Strict building
comes to that outcome and so to no other (`build_iff_outcome`).
-/

namespace Templating.Markup

open Text

/-! ### What events say of the content -/

namespace Event

/-- What events say of the content. A text is a node like any other, unless it is empty, or
blank and no node has come before it (`fresh`). -/
def ofContent (fresh : Bool) : List Event → List Event
  | [] => []
  | .text content :: events =>
    if content = "" || (fresh && allBlank content.toList) then ofContent fresh events
    else .node (.text content) :: ofContent false events
  | .enter name as :: events => .enter name as :: ofContent false events
  | .node n :: events => .node n :: ofContent false events
  | .leave name :: events => .leave name :: ofContent fresh events
  | .doctype body :: events => .doctype body :: ofContent fresh events

theorem mem_ofContent {event : Event} : ∀ {fresh : Bool} {events : List Event},
    event ∈ ofContent fresh events →
      (∃ content, event = .node (.text content)) ∨
        (event ∈ events ∧ ∀ content, event ≠ .text content)
  | fresh, .text content :: events, mem => by
    have later : ∀ {fresh}, event ∈ ofContent fresh events →
        (∃ content, event = .node (.text content)) ∨
          (event ∈ .text content :: events ∧ ∀ content, event ≠ .text content) := fun mem =>
      (mem_ofContent mem).imp_right fun h => ⟨List.mem_cons_of_mem _ h.1, h.2⟩
    rw [ofContent] at mem
    split at mem
    · exact later mem
    · rcases List.mem_cons.mp mem with rfl | mem
      · exact .inl ⟨content, rfl⟩
      · exact later mem
  | _, .enter _ _ :: events, mem | _, .node _ :: events, mem | _, .leave _ :: events, mem
  | _, .doctype _ :: events, mem => by
    rcases List.mem_cons.mp mem with rfl | mem
    · exact .inr ⟨List.mem_cons_self, nofun⟩
    · exact (mem_ofContent mem).imp_right fun h => ⟨List.mem_cons_of_mem _ h.1, h.2⟩

theorem text_notMem_ofContent (fresh : Bool) (events : List Event) (content : String) :
    .text content ∉ ofContent fresh events := by
  intro mem
  rcases mem_ofContent mem with ⟨_, eq⟩ | ⟨-, other⟩
  · cases eq
  · exact other content rfl

end Event

namespace Builder

variable {format : Format} {b b' : Builder}

theorem isFresh_pop (h : b.isFresh = false) : b.pop.isFresh = false := by
  obtain ⟨stack, top, doctype⟩ := b
  cases stack with
  | nil => exact h
  | cons e stack => exact isFresh_push _ _

theorem isFresh_popMany (h : b.isFresh = false) (n : Nat) : (b.popMany n).isFresh = false := by
  induction n generalizing b with
  | zero => exact h
  | succ n ih => exact ih (isFresh_pop h)

/-- An end tag takes no node away, and none is left before the first one. -/
theorem isFresh_step_leave {name : String} (h : b.step format (.leave name) = .ok b') :
    b'.isFresh = b.isFresh := by
  cases hf : b.isFresh with
  | true =>
    obtain ⟨stack, top, doctype⟩ := b
    obtain ⟨rfl, rfl⟩ : stack = [] ∧ top = [] := by simpa [isFresh] using hf
    cases format with
    | xml => cases h
    | html =>
      rw [step, leaveNearest] at h
      split at h <;> cases h <;> rfl
  | false =>
    cases format with
    | xml =>
      rw [step, leaveInnermost] at h
      split at h
      · cases h
      · split at h <;> cases h
        exact isFresh_pop hf
    | html =>
      rw [step, leaveNearest] at h
      split at h
      · cases h
        exact hf
      · split at h <;> cases h
        · exact hf
        · exact isFresh_popMany hf _

theorem run_cons (b : Builder) (event : Event) (events : List Event) :
    b.run format (event :: events) = (b.step format event).bind (·.run format events) := by
  rw [run]
  cases b.step format event <;> rfl

theorem run_of_step {event : Event} (h : b.step format event = .ok b') (events : List Event) :
    b.run format (event :: events) = b'.run format events := by
  rw [run_cons, h]
  rfl

/-- Only what events say of the content matters to a builder, and doctypes. -/
theorem run_ofContent : ∀ (b : Builder) (events : List Event),
    b.run format events = b.run format (Event.ofContent b.isFresh events)
  | b, [] => rfl
  | b, .text content :: events => by
    have pushed : b.step format (.text content) = .ok (b.pushText content) := rfl
    rw [Event.ofContent, run_of_step pushed, pushText]
    split
    · exact run_ofContent b events
    · rw [run_ofContent (b.push _) events, isFresh_push]
      rfl
  | b, .enter name as :: events => run_ofContent (b.opened name as) events
  | b, .node n :: events => by
    have pushed : b.step format (.node n) = .ok (b.push n) := rfl
    rw [Event.ofContent, run_of_step pushed, run_of_step pushed, run_ofContent (b.push n) events,
      isFresh_push]
  | b, .doctype body :: events => run_ofContent { b with doctype := some body } events
  | b, .leave name :: events => by
    rw [Event.ofContent, run, run]
    cases left : b.step format (.leave name) with
    | error e => rfl
    | ok b' =>
      rw [← isFresh_step_leave left]
      exact run_ofContent b' events

end Builder

theorem Stream.build_eq_bind (format : Format) (events : List Event) :
    Stream.build format ⟨events, none⟩ =
      (Builder.run format {} events).bind (Builder.finish format) := by
  rw [build]
  cases Builder.run format {} events <;> rfl

theorem Stream.fault_of_build {format : Format} {stream : Stream} {b : Builder}
    (built : stream.build format = .ok b) : stream.fault = none := by
  obtain ⟨events, fault⟩ := stream
  rw [build] at built
  split at built
  · cases built
  · cases fault with
    | none => rfl
    | some e => cases built

/-! ### The grammar -/

/-- The forest that a sequence of events with balanced tags denotes. -/
inductive Denotes : List Event → List Node → Prop where
  | nil : Denotes [] []
  | node (n : Node) {events : List Event} {nodes : List Node} :
      Denotes events nodes → Denotes (.node n :: events) (n :: nodes)
  | doctype (body : String) {events : List Event} {nodes : List Node} :
      Denotes events nodes → Denotes (.doctype body :: events) nodes
  | element (name : String) (as : List Attribute) {inner events : List Event}
      {children nodes : List Node} : Denotes inner children → Denotes events nodes →
        Denotes (.enter name as :: (inner ++ .leave name :: events))
          (.element name as children :: nodes)

/-- The names of the elements that a sequence of events leaves open, the innermost first. No end
tag in it is at fault. -/
inductive LeavesOpen : List Event → List String → Prop where
  | none {events : List Event} {nodes : List Node} : Denotes events nodes → LeavesOpen events []
  | enter {events inner : List Event} {names : List String} {children : List Node} (name : String)
      (as : List Attribute) : LeavesOpen events names → Denotes inner children →
        LeavesOpen (events ++ .enter name as :: inner) (name :: names)

section

variable {events more : List Event} {nodes : List Node} {names : List String} {name : String}

theorem Denotes.append {ms : List Node} (h : Denotes events nodes) (h' : Denotes more ms) :
    Denotes (events ++ more) (nodes ++ ms) := by
  induction h with
  | nil => exact h'
  | node n _ ih => exact .node n ih
  | doctype body _ ih => exact .doctype body ih
  | element name as inner _ _ ih =>
    rw [List.cons_append, List.append_assoc, List.cons_append]
    exact .element name as inner ih

/-- A balanced sequence leaves open what was open. -/
theorem LeavesOpen.append (h : LeavesOpen events names) (h' : Denotes more nodes) :
    LeavesOpen (events ++ more) names := by
  cases h with
  | none balanced => exact .none (balanced.append h')
  | enter name as outer inner =>
    rw [List.append_assoc, List.cons_append]
    exact .enter name as outer (inner.append h')

/-- An end tag that is not at fault leaves the innermost open element. -/
theorem LeavesOpen.leave (h : LeavesOpen events (name :: names)) :
    LeavesOpen (events ++ [.leave name]) names := by
  cases h with
  | enter _ as outer inner =>
    rw [List.append_assoc, List.cons_append]
    exact outer.append (.element name as inner .nil)

/-- Either no end tag is at fault, or there is a first one: it does not leave the innermost of
the elements that what stands before it leaves open. -/
theorem leavesOpen_or_fault (texts : ∀ content, .text content ∉ more)
    (h : LeavesOpen events names) :
    (∃ names', LeavesOpen (events ++ more) names') ∨
      ∃ before name after names', events ++ more = before ++ .leave name :: after ∧
        LeavesOpen before names' ∧ names'.head? ≠ some name := by
  induction more generalizing events names with
  | nil => exact .inl ⟨names, by rwa [List.append_nil]⟩
  | cons event more ih =>
    have texts' : ∀ content, .text content ∉ more := fun content mem =>
      texts content (List.mem_cons_of_mem _ mem)
    rw [List.append_cons]
    cases event with
    | enter name as => exact ih texts' (.enter name as h .nil)
    | node n => exact ih texts' (h.append (.node n .nil))
    | doctype body => exact ih texts' (h.append (.doctype body .nil))
    | text content => exact absurd List.mem_cons_self (texts content)
    | leave name =>
      by_cases innermost : names.head? = some name
      · obtain ⟨outer, rfl⟩ := List.head?_eq_some_iff.mp innermost
        exact ih texts' h.leave
      · exact .inr ⟨events, name, more, names, (List.append_cons ..).symm, h, innermost⟩

end

/-! ### Strict building -/

namespace Builder

/-- The builder with another doctype. -/
def declared (b : Builder) (doctype : Option String) : Builder := { b with doctype }

theorem push_declared (b : Builder) (doctype : Option String) (n : Node) :
    (b.declared doctype).push n = (b.push n).declared doctype := by
  obtain ⟨stack, top, d⟩ := b
  cases stack <;> rfl

theorem pushAll_declared (b : Builder) (doctype : Option String) (nodes : List Node) :
    (b.declared doctype).pushAll nodes = (b.pushAll nodes).declared doctype := by
  induction nodes generalizing b with
  | nil => rfl
  | cons n nodes ih =>
    have rest := ih (b.push n)
    rw [← push_declared] at rest
    exact rest

/-- **A balanced sequence** adds the forest that it denotes, wherever the builder stands. -/
theorem run_denotes {events : List Event} {nodes : List Node} (h : Denotes events nodes)
    (b : Builder) : ∃ doctype, b.run .xml events = .ok ((b.pushAll nodes).declared doctype) := by
  induction h generalizing b with
  | nil => exact ⟨b.doctype, rfl⟩
  | node n _ ih => exact ih (b.push n)
  | doctype body _ ih =>
    obtain ⟨doctype, run⟩ := ih (b.declared (some body))
    rw [pushAll_declared] at run
    exact ⟨doctype, run⟩
  | @element name as inner events children nodes _ _ ihInner ih =>
    obtain ⟨d, inside⟩ := ihInner (b.opened name as)
    obtain ⟨doctype, behind⟩ := ih ((b.declared d).push (.element name as children))
    have left : (((b.opened name as).pushAll children).declared d).step .xml (.leave name) =
        .ok ((b.declared d).push (.element name as children)) := by
      rw [← pushAll_declared]
      exact (b.declared d).step_leave as children fun h => by cases h.1
    refine ⟨doctype, ?_⟩
    calc b.run .xml (.enter name as :: (inner ++ .leave name :: events))
        = ((b.opened name as).run .xml inner).bind (·.run .xml (.leave name :: events)) :=
          (b.opened name as).run_append inner _
      _ = ((b.declared d).push (.element name as children)).run .xml events := by
          rw [inside, Except.bind, run, left]
      _ = .ok ((((b.declared d).push (.element name as children)).pushAll nodes).declared
            doctype) := behind
      _ = .ok (((b.push (.element name as children)).pushAll nodes).declared doctype) := by
          rw [push_declared, pushAll_declared]
          rfl

/-- What a sequence leaves open is what is open in the builder. -/
theorem run_leavesOpen {events : List Event} {names : List String} (h : LeavesOpen events names) :
    ∃ b : Builder, ({} : Builder).run .xml events = .ok b ∧ b.stack.map (·.name) = names := by
  induction h with
  | @none events nodes balanced =>
    obtain ⟨doctype, run⟩ := run_denotes balanced {}
    refine ⟨_, run, ?_⟩
    rw [pushAll_top]
    rfl
  | @enter events inner names children name as _ balanced ih =>
    obtain ⟨b, run, stack⟩ := ih
    obtain ⟨doctype, inside⟩ := run_denotes balanced (b.opened name as)
    refine ⟨((b.opened name as).pushAll children).declared doctype, ?_, ?_⟩
    · rw [run_append, run]
      exact inside
    · rw [opened, pushAll_open, declared, List.map_cons, stack]

end Builder

/-! ### What strict building comes to -/

/-- What strict building makes of events: a forest, or the first violation. -/
inductive Outcome : List Event → Except Error (List Node) → Prop where
  | forest {events : List Event} {nodes : List Node} : Denotes events nodes →
      Outcome events (.ok nodes)
  | stray {before : List Event} (name : String) (after : List Event) : LeavesOpen before [] →
      Outcome (before ++ .leave name :: after) (.error (.stray name))
  | mismatched {before : List Event} {expected : String} {outer : List String} (found : String)
      (after : List Event) : LeavesOpen before (expected :: outer) → expected ≠ found →
        Outcome (before ++ .leave found :: after) (.error (.mismatched expected found))
  | unclosed {events : List Event} {name : String} {outer : List String} :
      LeavesOpen events (name :: outer) → Outcome events (.error (.unclosed name))

section

variable {events : List Event} {result : Except Error (List Node)} {name : String}

theorem outcome_ok_iff {nodes : List Node} : Outcome events (.ok nodes) ↔ Denotes events nodes := by
  refine ⟨fun h => ?_, .forest⟩
  cases h with
  | forest balanced => exact balanced

theorem outcome_stray_iff : Outcome events (.error (.stray name)) ↔
    ∃ before after, events = before ++ .leave name :: after ∧ LeavesOpen before [] := by
  constructor
  · intro h
    cases h with
    | stray _ after open_ => exact ⟨_, after, rfl, open_⟩
  · rintro ⟨before, after, rfl, open_⟩
    exact .stray name after open_

theorem outcome_mismatched_iff {expected : String} :
    Outcome events (.error (.mismatched expected name)) ↔
      expected ≠ name ∧ ∃ before after outer, events = before ++ .leave name :: after ∧
        LeavesOpen before (expected :: outer) := by
  constructor
  · intro h
    cases h with
    | mismatched _ after open_ other => exact ⟨other, _, after, _, rfl, open_⟩
  · rintro ⟨other, before, after, outer, rfl, open_⟩
    exact .mismatched name after open_ other

theorem outcome_unclosed_iff : Outcome events (.error (.unclosed name)) ↔
    ∃ outer, LeavesOpen events (name :: outer) := by
  refine ⟨fun h => ?_, fun ⟨outer, open_⟩ => .unclosed open_⟩
  cases h with
  | unclosed open_ => exact ⟨_, open_⟩

theorem exists_outcome (texts : ∀ content, .text content ∉ events) :
    ∃ result, Outcome events result := by
  rcases leavesOpen_or_fault texts (.none .nil) with
    ⟨names, open_⟩ | ⟨before, name, after, names, rfl, open_, fault⟩
  · cases names with
    | nil =>
      cases open_ with
      | none balanced => exact ⟨_, .forest balanced⟩
    | cons name outer => exact ⟨_, .unclosed open_⟩
  · cases names with
    | nil => exact ⟨_, .stray name after open_⟩
    | cons expected outer =>
      exact ⟨_, .mismatched name after open_ fun same => fault (congrArg some same)⟩

/-- The first end tag at fault decides, whatever comes behind it. -/
theorem build_of_outcome (h : Outcome events result) :
    (Stream.build .xml ⟨events, none⟩).map Builder.content = result := by
  rw [Stream.build_eq_bind]
  cases h with
  | @forest events nodes balanced =>
    obtain ⟨doctype, run⟩ := Builder.run_denotes balanced {}
    have content : ((({} : Builder).pushAll nodes).declared doctype).content = nodes := by
      rw [Builder.pushAll_top, Builder.content, Builder.declared, List.append_nil,
        List.reverse_reverse]
    rw [Builder.pushAll_top] at run content
    rw [run]
    exact congrArg Except.ok content
  | stray name after open_ =>
    obtain ⟨⟨stack, top, doctype⟩, run, names⟩ := Builder.run_leavesOpen open_
    obtain rfl : stack = [] := List.map_eq_nil_iff.mp names
    rw [Builder.run_append, run]
    rfl
  | mismatched found after open_ other =>
    obtain ⟨⟨stack, top, doctype⟩, run, names⟩ := Builder.run_leavesOpen open_
    obtain ⟨e, outer, rfl, rfl, -⟩ := List.map_eq_cons_iff.mp names
    rw [Builder.run_append, run, Except.bind, Builder.run, Builder.step, Builder.leaveInnermost]
    simp only [if_neg other]
    rfl
  | unclosed open_ =>
    obtain ⟨⟨stack, top, doctype⟩, run, names⟩ := Builder.run_leavesOpen open_
    obtain ⟨e, outer, rfl, rfl, -⟩ := List.map_eq_cons_iff.mp names
    rw [run]
    rfl

/-- **Strict building** comes to the outcome of the events, which is the only one. -/
theorem build_iff_outcome (texts : ∀ content, .text content ∉ events) :
    (Stream.build .xml ⟨events, none⟩).map Builder.content = result ↔ Outcome events result := by
  refine ⟨?_, build_of_outcome⟩
  rintro rfl
  obtain ⟨result, h⟩ := exists_outcome texts
  rw [build_of_outcome h]
  exact h

end

/-! ### Strict reading -/

theorem build_ofContent (format : Format) (events : List Event) :
    Stream.build format ⟨events, none⟩ =
      Stream.build format ⟨Event.ofContent true events, none⟩ := by
  rw [Stream.build_eq_bind, Stream.build_eq_bind, Builder.run_ofContent]
  rfl

/-- The nodes of a source in which nothing is at fault but maybe its tags are built from what its
events say of the content. -/
theorem parseText_of_readable {format : Format} {source : List Char}
    (readable : (Stream.ofSource format source).fault = none) :
    (parseText format source).map Document.content =
      (Stream.build format
        ⟨Event.ofContent true (Stream.ofSource format source).events, none⟩).map
          Builder.content := by
  have stream : Stream.ofSource format source =
      ⟨(Stream.ofSource format source).events, none⟩ := by rw [← readable]
  rw [parseText, ← build_ofContent, ← stream]
  cases (Stream.ofSource format source).build format <;> rfl

/-- **Strict reading accepts exactly the balanced tags.** Of a source without a fault in a token,
an attribute list or a reference, strict reading gives a document with these nodes if and only if
the tags are balanced and denote these nodes. Otherwise the first violation decides: an end tag
where no element is open, an end tag whose name is not that of the innermost open element, or, if
no end tag is at fault, the innermost element that stays open. -/
theorem parseText_xml_iff_balanced {source : List Char}
    (readable : (Stream.ofSource .xml source).fault = none) :
    let said := Event.ofContent true (Stream.ofSource .xml source).events
    (∀ nodes, (∃ doc, parseText .xml source = .ok doc ∧ doc.content = nodes) ↔
      Denotes said nodes) ∧
    (∀ name, parseText .xml source = .error (.stray name) ↔
      ∃ before after, said = before ++ .leave name :: after ∧ LeavesOpen before []) ∧
    (∀ expected found, parseText .xml source = .error (.mismatched expected found) ↔
      expected ≠ found ∧ ∃ before after outer, said = before ++ .leave found :: after ∧
        LeavesOpen before (expected :: outer)) ∧
    (∀ name, parseText .xml source = .error (.unclosed name) ↔
      ∃ outer, LeavesOpen said (name :: outer)) ∧
    ∀ e, parseText .xml source = .error e →
      (∃ name, e = .stray name) ∨ (∃ expected found, e = .mismatched expected found) ∨
        ∃ name, e = .unclosed name := by
  intro said
  have texts := Event.text_notMem_ofContent true (Stream.ofSource .xml source).events
  have outcome : ∀ result, (parseText .xml source).map Document.content = result ↔
      Outcome said result := by
    intro result
    rw [parseText_of_readable readable, build_iff_outcome texts]
  have accepts : ∀ nodes, (∃ doc, parseText .xml source = .ok doc ∧ doc.content = nodes) ↔
      Outcome said (.ok nodes) := by
    intro nodes
    rw [← outcome]
    cases parseText .xml source <;> simp [Except.map]
  have fails : ∀ e, parseText .xml source = .error e ↔ Outcome said (.error e) := by
    intro e
    rw [← outcome]
    cases parseText .xml source <;> simp [Except.map]
  refine ⟨fun nodes => (accepts nodes).trans outcome_ok_iff,
    fun name => (fails _).trans outcome_stray_iff,
    fun expected found => (fails _).trans outcome_mismatched_iff,
    fun name => (fails _).trans outcome_unclosed_iff, fun e failed => ?_⟩
  have violation := (fails e).mp failed
  clear_value said
  cases violation with
  | stray name => exact .inl ⟨name, rfl⟩
  | mismatched => exact .inr (.inl ⟨_, _, rfl⟩)
  | unclosed => exact .inr (.inr ⟨_, rfl⟩)

/-- A source that begins with a blank text and a balanced element, and in which an element is
left before another one inside it. -/
def crossedSource : List Char := " <?p?><a x='1'>t<b/></a><c><d></c></d>".toList

theorem crossedSource_mismatched :
    (Stream.ofSource .xml crossedSource).fault = none ∧
      parseText .xml crossedSource = .error (.mismatched "d" "c") := by
  have readable : (Stream.ofSource .xml crossedSource).fault = none := by decide +kernel
  have said : Event.ofContent true (Stream.ofSource .xml crossedSource).events =
      [.node (.instruction "p"), .enter "a" [⟨"x", "1"⟩], .node (.text "t"),
        .node (.element "b" [] []), .leave "a", .enter "c" [], .enter "d" []] ++
        .leave "c" :: [.leave "d"] := by decide +kernel
  have first : Denotes [.node (.instruction "p"), .enter "a" [⟨"x", "1"⟩], .node (.text "t"),
      .node (.element "b" [] []), .leave "a"] _ :=
    .node _ (.element "a" _ (.node (.text "t") (.node (.element "b" [] []) .nil)) .nil)
  have open_ := ((LeavesOpen.none first).enter "c" [] .nil).enter "d" [] .nil
  exact ⟨readable, ((parseText_xml_iff_balanced readable).2.2.1 "d" "c").mpr
    ⟨by decide, _, _, _, said, open_⟩⟩

end Templating.Markup
