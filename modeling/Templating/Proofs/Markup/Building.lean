import Templating.Proofs.Markup.PrintedNode

/-!
# Building nodes back

A builder that is given what is said of nodes adds those nodes to what it has
(`run_allEvents`), wherever it stands: an element is opened, its children are added to
it, and leaving it by its name finishes it and nothing else. Only text that comes before
everything else may be lost.
-/

namespace Templating.Markup

namespace Builder

variable {format : Format}

/-! ### Adding nodes -/

/-- The builder with nodes more, in order. -/
def pushAll (b : Builder) (nodes : List Node) : Builder := nodes.foldl push b

theorem pushAll_open (b : Builder) (e : OpenElement) (stack : List OpenElement)
    (nodes : List Node) :
    pushAll { b with stack := e :: stack } nodes =
      { b with stack := { e with children := nodes.reverse ++ e.children } :: stack } := by
  induction nodes generalizing e with
  | nil => rfl
  | cons n nodes ih =>
    have rest := ih { e with children := n :: e.children }
    rw [pushAll, List.foldl_cons, push, ← pushAll, rest, List.reverse_cons, List.append_assoc]
    rfl

theorem pushAll_top (doctype : Option String) (top nodes : List Node) :
    pushAll { stack := [], top, doctype } nodes =
      { stack := [], top := nodes.reverse ++ top, doctype } := by
  induction nodes generalizing top with
  | nil => rfl
  | cons n nodes ih =>
    have rest := ih (n :: top)
    rw [pushAll, List.foldl_cons, push, ← pushAll, rest, List.reverse_cons, List.append_assoc]
    rfl

/-- Text is not lost: something came before it, or it is not blank. -/
def Keeps (b : Builder) (content : String) : Prop :=
  (b.isFresh && Text.allBlank content.toList) = false

theorem isFresh_push (b : Builder) (n : Node) : (b.push n).isFresh = false := by
  obtain ⟨stack, top, doctype⟩ := b
  cases stack <;> simp [push, isFresh]

theorem pushText_of_keeps {b : Builder} {content : String} (nonempty : content ≠ "")
    (keeps : b.Keeps content) : b.pushText content = b.push (.text content) := by
  rw [pushText, if_neg]
  rw [Keeps] at keeps
  simp [nonempty, keeps]

/-! ### Opening and leaving -/

/-- The builder with an element opened. -/
def opened (b : Builder) (name : String) (as : List Attribute) : Builder :=
  { b with stack := ⟨name, as, []⟩ :: b.stack }

theorem pop_pushAll_opened (b : Builder) (name : String) (as : List Attribute)
    (children : List Node) :
    ((b.opened name as).pushAll children).pop = b.push (.element name as children) := by
  rw [opened, pushAll_open]
  simp only [pop, OpenElement.close, List.append_nil, List.reverse_reverse]

/-- An element is left by its name, when its children have come. -/
theorem step_leave (b : Builder) {name : String} (as : List Attribute) (children : List Node)
    (void : ¬ (format = .html ∧ isVoid name = true)) :
    ((b.opened name as).pushAll children).step format (.leave name) =
      .ok (b.push (.element name as children)) := by
  have popped := b.pop_pushAll_opened name as children
  rw [opened, pushAll_open] at popped ⊢
  cases format with
  | html =>
    have void : isVoid name = false := eq_false_of_ne_true fun h => void ⟨rfl, h⟩
    have own : sameName name name = true := beq_self_eq_true _
    rw [step, leaveNearest]
    simp only [void, Bool.false_eq_true, if_false, List.findIdx?_cons, own, if_true, popMany, popped]
  | xml =>
    rw [step, leaveInnermost]
    simp only [if_true, popped]

/-! ### Events of nodes -/

theorem run_append : ∀ (b : Builder) (events more : List Event),
    b.run format (events ++ more) = (b.run format events).bind (·.run format more)
  | b, [], more => rfl
  | b, event :: events, more => by
    rw [List.cons_append, run, run]
    cases b.step format event with
    | error e => rfl
    | ok b => exact run_append b events more

theorem run_enclosed (b : Builder) {name : String} {as : List Attribute} {children : List Node}
    {events : List Event} (void : ¬ (format = .html ∧ isVoid name = true))
    (content : (b.opened name as).run format events = .ok ((b.opened name as).pushAll children)) :
    b.run format (.enter name as :: (events ++ [.leave name])) =
      .ok (b.push (.element name as children)) := by
  have entered : b.step format (.enter name as) = .ok (b.opened name as) := rfl
  rw [run, entered]
  simp only [run_append, content, Except.bind, run, step_leave b as children void]

mutual

theorem run_events (format : Format) : ∀ {n : Node} (b : Builder), n.WellFormed format →
    (∀ content, n = .text content → b.Keeps content) →
      b.run format (n.events format) = .ok (b.push n)
  | .text content, b, h, keeps => by
    rw [Node.WellFormed] at h
    rw [Node.events, run, step, pushText_of_keeps h.1 (keeps content rfl)]
    rfl
  | .comment body, b, _, _ | .cdata body, b, _, _ | .instruction body, b, _, _ => by
    simp [Node.events, run, step]
  | .element name as cs, b, h, _ => by
    have notFresh : (b.opened name as).isFresh = false := rfl
    cases format with
    | xml =>
      rw [Node.WellFormed] at h
      obtain ⟨-, -, content⟩ := h
      rw [Node.events]
      by_cases empty : cs = []
      · rw [empty]
        rfl
      · simp only [List.isEmpty_iff, empty, if_false]
        exact b.run_enclosed (fun h => nomatch h.1) (run_allEvents .xml _ content
          fun text _ _ => by rw [Keeps, notFresh]; rfl)
    | html =>
      rw [Node.WellFormed] at h
      obtain ⟨-, -, content⟩ := h
      rw [Node.events]
      by_cases special : (isVoid name || isRawText name) = true
      · rw [if_pos special]
        rfl
      · rw [if_neg special]
        rw [Bool.or_eq_true, not_or] at special
        rw [if_neg special.1, if_neg special.2] at content
        exact b.run_enclosed (fun h => special.1 h.2) (run_allEvents .html _ content
          fun text _ _ => by rw [Keeps, notFresh]; rfl)

/-- **What is said of nodes** adds these nodes. -/
theorem run_allEvents (format : Format) : ∀ {ns : List Node} (b : Builder),
    Node.AllWellFormed format ns →
    (∀ content nodes, ns = .text content :: nodes → b.Keeps content) →
      b.run format (Node.allEvents format ns) = .ok (b.pushAll ns)
  | [], b, _, _ => rfl
  | n :: ns, b, h, keeps => by
    rw [Node.AllWellFormed] at h
    obtain ⟨well, -, others⟩ := h
    have first := run_events format b well fun content text => keeps content ns (by rw [text])
    have rest := run_allEvents format (b.push n) others fun content nodes _ => by
      rw [Keeps, isFresh_push]
      rfl
    rw [Node.allEvents, run_append, first]
    exact rest

end

end Builder

end Templating.Markup
