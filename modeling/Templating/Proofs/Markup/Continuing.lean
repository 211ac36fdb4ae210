import Templating.Proofs.Markup.Recovery

/-!
# Going on from what was built

Reading may go on from any byte of a source with what was built before it (`Builder.parseOn`);
a document is what reading on from the first byte makes of nothing (`parseOn_start`).

What was built stays. The nodes of a builder in document order (`Builder.units`) are those that
were there before, and behind them those that the events say, in the order of the events
(`Builder.units_run`): one step adds the node of its event at the end, and leaving elements
changes no order. The end of the source leaves all elements, and so the content has the nodes of
the builder (`allUnits_of_parseOn`), and what stands at a byte of the source splits the nodes of
its document (`allUnits_of_after`).
-/

namespace Templating.Markup

open Text

/-! ### Reading on -/

/-- What a stream makes of what was built before it. -/
def Stream.buildOn (format : Format) (b : Builder) (stream : Stream) : Except Error Builder :=
  (b.run format stream.events).bind fun b =>
    match stream.fault with
    | some e => .error e
    | none => b.finish format

/-- The document that reading a source on from byte `i` makes of what was built before it. -/
def Builder.parseOn (format : Format) (b : Builder) (i : Nat) (source : List Char) :
    Except Error Document :=
  match dropBytes i source with
  | none => .error (.splitCharacter i)
  | some rest =>
    ((streamFrom format i rest).buildOn format b).map fun b =>
      { format, content := b.content, doctype := b.doctype }

section

variable {format : Format}

theorem Stream.buildOn_start (stream : Stream) : stream.buildOn format {} = stream.build format := by
  rw [buildOn, build]
  cases Builder.run format {} stream.events <;> rfl

/-- A document is what reading on from the first byte makes of nothing. -/
theorem parseOn_start (source : List Char) :
    Builder.parseOn format {} 0 source = parseText format source := by
  rw [Builder.parseOn, dropBytes_zero, parseText, Stream.ofSource]
  simp only [Stream.buildOn_start]

theorem Stream.buildOn_after {b b' : Builder} {events : List Event}
    (ran : b.run format events = .ok b') (stream : Stream) :
    (stream.after events).buildOn format b = stream.buildOn format b' := by
  rw [buildOn, after, Builder.run_append, ran]
  rfl

/-- A source may be read on from any byte up to which its events are known. -/
theorem Builder.parseOn_of_after {b : Builder} {front rest : List Char} {events : List Event}
    (goesOn : Stream.ofSource format (front ++ rest) =
      (streamFrom format (byteSize front) rest).after events)
    (ran : Builder.run format {} events = .ok b) :
    b.parseOn format (byteSize front) (front ++ rest) = parseText format (front ++ rest) := by
  rw [parseOn, dropBytes_append, parseText, goesOn, ← Stream.buildOn_start, Stream.buildOn_after ran]

end

/-! ### The nodes of a builder -/

namespace Node

theorem allUnits_append (ns ms : List Node) : allUnits (ns ++ ms) = allUnits ns ++ allUnits ms := by
  induction ns with
  | nil => rfl
  | cons n ns ih => rw [List.cons_append, allUnits, allUnits, ih, List.append_assoc]

theorem allUnits_singleton (n : Node) : allUnits [n] = n.units := by
  rw [allUnits, allUnits, List.append_nil]

end Node

open Node (allUnits)

/-- The nodes of an open element in document order. -/
def OpenElement.units (e : OpenElement) : List Node :=
  .element e.name e.attributes [] :: allUnits e.children.reverse

namespace Builder

/-- The nodes of a builder in document order, those of the open elements included. -/
def units (b : Builder) : List Node :=
  allUnits b.top.reverse ++ b.stack.reverse.flatMap OpenElement.units

/-- No open element has a name of raw text elements. -/
def Plain (b : Builder) : Prop := ∀ name ∈ b.openNames, isRawText name = false

variable {b b' : Builder} {events : List Event}

theorem units_push (b : Builder) (n : Node) : (b.push n).units = b.units ++ n.units := by
  obtain ⟨stack, top, doctype⟩ := b
  cases stack with
  | nil => simp [push, units, Node.allUnits_append, Node.allUnits_singleton]
  | cons e stack =>
    simp [push, units, OpenElement.units, Node.allUnits_append, Node.allUnits_singleton]

theorem Plain.push (h : b.Plain) (n : Node) : (b.push n).Plain := by
  rwa [Plain, openNames_push]

/-- Closing an element keeps the order of its nodes. -/
theorem units_pop (h : b.Plain) : b.pop.units = b.units := by
  obtain ⟨stack, top, doctype⟩ := b
  cases stack with
  | nil => rfl
  | cons e stack =>
    have closed : e.close.units = e.units := by
      rw [OpenElement.close, Node.units, h e.name List.mem_cons_self, if_neg Bool.false_ne_true]
      rfl
    rw [pop, units_push, closed]
    simp [units]

theorem Plain.pop (h : b.Plain) : b.pop.Plain := by
  rw [Plain, openNames_pop]
  exact fun name mem => h name (List.mem_of_mem_tail mem)

theorem units_popMany (h : b.Plain) (n : Nat) : (b.popMany n).units = b.units := by
  induction n generalizing b with
  | zero => rfl
  | succ n ih => rw [popMany, ih h.pop, units_pop h]

theorem Plain.popMany (h : b.Plain) (n : Nat) : (b.popMany n).Plain := by
  rw [Plain, openNames_popMany]
  exact fun name mem => h name (List.mem_of_mem_drop mem)

theorem leaveNearest_eq_popMany (b : Builder) (name : String) :
    ∃ n, b.leaveNearest name = b.popMany n := by
  rw [leaveNearest]
  split
  · exact ⟨0, rfl⟩
  · split
    · exact ⟨0, rfl⟩
    · exact ⟨_, rfl⟩

/-- One event adds its node at the end, if it says one. -/
theorem units_step {event : Event} (h : b.Plain) (single : event.Single)
    (stepped : b.step .html event = .ok b') :
    b'.Plain ∧ b'.units = b.units ++ (Event.ofContent b.isFresh [event]).filterMap Event.unit? := by
  cases event with
  | enter name as =>
    cases stepped
    refine ⟨List.forall_mem_cons.mpr ⟨single, h⟩, ?_⟩
    simp [units, OpenElement.units, Event.ofContent, Event.unit?, allUnits]
  | node n =>
    cases stepped
    have single : n.units = [n] := single
    exact ⟨h.push n, by rw [units_push, single]; rfl⟩
  | text content =>
    cases stepped
    rw [pushText, Event.ofContent]
    split
    · exact ⟨h, (List.append_nil _).symm⟩
    · exact ⟨h.push _, units_push b _⟩
  | doctype body =>
    cases stepped
    exact ⟨h, (List.append_nil _).symm⟩
  | leave name =>
    obtain ⟨n, left⟩ := b.leaveNearest_eq_popMany name
    cases stepped
    rw [left]
    exact ⟨h.popMany n, (units_popMany h n).trans (List.append_nil _).symm⟩

theorem ofContent_cons {event : Event} (stepped : b.step .html event = .ok b') :
    Event.ofContent b.isFresh (event :: events) =
      Event.ofContent b.isFresh [event] ++ Event.ofContent b'.isFresh events := by
  cases event with
  | enter name as =>
    cases stepped
    rfl
  | node n =>
    cases stepped
    rw [isFresh_push]
    rfl
  | text content =>
    cases stepped
    rw [pushText, Event.ofContent, Event.ofContent]
    split
    · rfl
    · rw [isFresh_push]
      rfl
  | doctype body =>
    cases stepped
    rfl
  | leave name =>
    rw [isFresh_step_leave stepped]
    rfl

/-- **Going on** adds the nodes that the events say behind those that are there. -/
theorem units_run (h : b.Plain) (single : ∀ event ∈ events, event.Single)
    (ran : b.run .html events = .ok b') :
    b'.Plain ∧ b'.units = b.units ++ (Event.ofContent b.isFresh events).filterMap Event.unit? := by
  induction events generalizing b with
  | nil =>
    cases ran
    exact ⟨h, (List.append_nil _).symm⟩
  | cons event events ih =>
    obtain ⟨first, rest⟩ := List.forall_mem_cons.mp single
    rw [run_cons] at ran
    obtain ⟨next, stepped, ran⟩ := exists_of_bind_eq_ok ran
    obtain ⟨plain, added⟩ := units_step h first stepped
    obtain ⟨plain', behind⟩ := ih plain rest ran
    rw [ofContent_cons stepped, List.filterMap_append, ← List.append_assoc, ← added]
    exact ⟨plain', behind⟩

/-- What is built of nothing has the nodes that its events say. -/
theorem units_of_run (single : ∀ event ∈ events, event.Single)
    (ran : Builder.run .html {} events = .ok b) :
    b.Plain ∧ b.units = (Event.ofContent true events).filterMap Event.unit? := by
  have empty : Plain {} := by
    intro name mem
    cases mem
  exact units_run empty single ran

theorem stack_popMany_length (b : Builder) : (b.popMany b.stack.length).stack = [] := by
  have all : b.openNames.length = b.stack.length := List.length_map _
  have names := b.openNames_popMany b.stack.length
  rw [← all, List.drop_length, all] at names
  exact List.map_eq_nil_iff.mp names

/-- The nodes of a document are those that were built before it was read on, and those that are
read from there. -/
theorem allUnits_of_parseOn {i : Nat} {source rest : List Char} {doc : Document} (h : b.Plain)
    (cut : dropBytes i source = some rest) (parsed : b.parseOn .html i source = .ok doc) :
    allUnits doc.content =
      b.units ++
        (Event.ofContent b.isFresh (streamFrom .html i rest).events).filterMap Event.unit? := by
  rw [parseOn, cut] at parsed
  obtain ⟨built, ended, rfl⟩ := exists_of_map_eq_ok parsed
  obtain ⟨last, ran, finished⟩ := exists_of_bind_eq_ok ended
  obtain ⟨plain, units⟩ := units_run h (single_streamFrom i rest) ran
  split at finished
  · cases finished
  · cases finished
    rw [← units, ← units_popMany plain last.stack.length, Builder.units, stack_popMany_length,
      List.reverse_nil, List.flatMap_nil, List.append_nil, content]

/-- **Nodes before, an own one, and nodes behind.** Let a source say some events and a single node
`n` up to a byte. The nodes of its document are those of these events, the node, and those that
are read from that byte on. -/
theorem allUnits_of_after {front rest : List Char} {n : Node} {doc : Document}
    (readOn : Stream.ofSource .html (front ++ rest) =
      (streamFrom .html (byteSize front) rest).after (events ++ [.node n]))
    (own : n.units = [n]) (ran : Builder.run .html {} events = .ok b)
    (parsedOn : (b.push n).parseOn .html (byteSize front) (front ++ rest) = .ok doc) :
    allUnits doc.content =
      (Event.ofContent true events).filterMap Event.unit? ++
        n :: (Event.ofContent false
          (streamFrom .html (byteSize front) rest).events).filterMap Event.unit? := by
  have single : ∀ event ∈ events, event.Single := by
    intro event mem
    refine single_streamFrom 0 (front ++ rest) event ?_
    rw [← Stream.ofSource, readOn, Stream.after]
    exact List.mem_append_left _ (List.mem_append_left _ mem)
  obtain ⟨plain, before⟩ := units_of_run single ran
  rw [allUnits_of_parseOn (plain.push n) (dropBytes_append front rest) parsedOn, units_push,
    isFresh_push, own, before, List.append_assoc]
  rfl

end Builder

end Templating.Markup
