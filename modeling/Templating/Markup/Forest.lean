import Templating.Markup.Event

/-!
# Building trees from events

A builder holds the elements that are open, innermost first, and the nodes that are
finished. The two formats differ in what leaving an element does. In XML an end tag
leaves the innermost open element and must have its name, and nothing may be open at
the end. In HTML an end tag leaves the innermost open element of its name, in any
case of letters, and all that were opened in it; one that fits no open element, or
that names a void element, is passed over; and the end of the source leaves
everything.

Text that is empty adds nothing, and neither does blank text before the first node.
-/

namespace Templating.Markup

/-- An element whose end has not come. -/
structure OpenElement where
  name : String
  attributes : List Attribute
  /-- The children so far, the newest first. -/
  children : List Node
  deriving DecidableEq

/-- The element, finished. -/
def OpenElement.close (e : OpenElement) : Node := .element e.name e.attributes e.children.reverse

/-- A forest that is being built. -/
structure Builder where
  /-- The open elements, innermost first. -/
  stack : List OpenElement := []
  /-- The finished nodes outside all elements, the newest first. -/
  top : List Node := []
  /-- The body of the latest doctype declaration. -/
  doctype : Option String := none
  deriving DecidableEq

namespace Builder

/-- The builder with a finished node more. -/
def push (b : Builder) (node : Node) : Builder :=
  match b.stack with
  | [] => { b with top := node :: b.top }
  | e :: stack => { b with stack := { e with children := node :: e.children } :: stack }

/-- The builder with its innermost open element finished. -/
def pop (b : Builder) : Builder :=
  match b.stack with
  | [] => b
  | e :: stack => push { b with stack } e.close

/-- The builder with its `n` innermost open elements finished. -/
def popMany (b : Builder) : Nat → Builder
  | 0 => b
  | n + 1 => b.pop.popMany n

/-- Whether no node has come yet. -/
def isFresh (b : Builder) : Bool := b.stack.isEmpty && b.top.isEmpty

/-- The builder with a run of text more. -/
def pushText (b : Builder) (content : String) : Builder :=
  if content = "" || (b.isFresh && Text.allBlank content.toList) then b
  else b.push (.text content)

/-- Leaves the innermost open element of this name, and all inside it. -/
def leaveNearest (b : Builder) (name : String) : Builder :=
  if isVoid name then b
  else
    match b.stack.findIdx? fun e => sameName e.name name with
    | none => b
    | some n => b.popMany (n + 1)

/-- Leaves the innermost open element, which must have this name. -/
def leaveInnermost (b : Builder) (name : String) : Except Error Builder :=
  match b.stack with
  | [] => .error (.stray name)
  | e :: _ => if e.name = name then .ok b.pop else .error (.mismatched e.name name)

/-- The builder after an event. -/
def step (format : Format) (b : Builder) : Event → Except Error Builder
  | .enter name attributes => .ok { b with stack := ⟨name, attributes, []⟩ :: b.stack }
  | .node node => .ok (b.push node)
  | .text content => .ok (b.pushText content)
  | .doctype body => .ok { b with doctype := some body }
  | .leave name =>
    match format with
    | .html => .ok (b.leaveNearest name)
    | .xml => b.leaveInnermost name

/-- The builder after events, or the first error among them. -/
def run (format : Format) (b : Builder) : List Event → Except Error Builder
  | [] => .ok b
  | event :: events =>
    match b.step format event with
    | .error e => .error e
    | .ok b => b.run format events

/-- The builder at the end of a source. -/
def finish (format : Format) (b : Builder) : Except Error Builder :=
  match format with
  | .html => .ok (b.popMany b.stack.length)
  | .xml =>
    match b.stack with
    | [] => .ok b
    | e :: _ => .error (.unclosed e.name)

/-- The nodes of a builder without open elements. -/
def content (b : Builder) : List Node := b.top.reverse

end Builder

/-- The builder that a stream leads to. The faults of the tree come in the order of the
events, and so before the fault that ends the stream. -/
def Stream.build (format : Format) (stream : Stream) : Except Error Builder :=
  match Builder.run format {} stream.events with
  | .error e => .error e
  | .ok b =>
    match stream.fault with
    | some e => .error e
    | none => b.finish format

end Templating.Markup
