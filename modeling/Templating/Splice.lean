import Templating.Lookup

/-!
# Splices

A splice is what a name is bound to. It is invoked with the element of that name, or
with an empty text if a placeholder names it, and gives the nodes that replace the
element. On the way it may look at the state, change it, and have nodes expanded.

What a splice does is a script: a tree of requests to the expansion, each with what
the splice does with the answer. A script knows of the state only what its requests
tell it, so that all that splices can do is said by the requests.
-/

namespace Templating

open Markup (Node)

/-- What a splice sees of the state. -/
structure View where
  templates : Templates
  /-- The directory from which templates are looked up. -/
  context : Path
  /-- Whether the result of the current splice will be expanded. -/
  recursing : Bool
  /-- How deep the current expansion is. -/
  depth : Nat
  /-- The doctypes recorded so far, the oldest first. -/
  doctypes : List String
  /-- The names bound to splices, in ascending order. -/
  bound : List String

/-- What a splice does: a request, and what follows its answer. -/
inductive Script where
  /-- Ends with the nodes that take the place of the invoking one. -/
  | done (nodes : List Node)
  /-- Leaves the result as it is given, without expanding it. -/
  | stop (next : Script)
  | setContext (context : Path) (next : Script)
  | addDoctype (body : String) (next : Script)
  /-- Binds a name to a splice. -/
  | bind (name : String) (splice : Node → Script) (next : Script)
  | look (next : View → Script)
  /-- Takes a new counter. -/
  | newCell (next : Nat → Script)
  /-- Counts in a counter, and learns the count. -/
  | tick (cell : Nat) (next : Nat → Script)
  /-- Expands nodes at the current depth. -/
  | expand (nodes : List Node) (next : List Node → Script)
  /-- Expands nodes one level deeper, unless that is too deep. -/
  | descend (nodes : List Node) (next : List Node → Script)
  /-- Fills the placeholders of a value. -/
  | substitute (raw : String) (next : String → Script)
  /-- Expands the template of a name, if there is one. -/
  | evaluate (name : String) (next : Option (List Node) → Script)
  /-- Expands the template of a name with names bound to texts meanwhile. -/
  | evaluateWith (name : String) (args : List (String × String))
      (next : Option (List Node) → Script)
  /-- Runs the splice of a name, if there is one, as a part of this one. -/
  | call (name : String) (node : Node) (next : Option (List Node) → Script)
  /-- Runs a script whose bindings are undone afterwards. -/
  | scope (inner : Script) (next : List Node → Script)

instance : Inhabited Script := ⟨.done []⟩

/-- What a name is bound to: the script for each invoking node. -/
abbrev Splice := Node → Script

/-- The splices that are bound. -/
abbrev Splices := Registry String Splice

namespace Splice

/-- The splice that gives a text, whatever invokes it. -/
def text (value : String) : Splice := fun _ => .done [.text value]

/-- The splice that gives the same nodes, whatever invokes it. -/
def nodes (nodes : List Node) : Splice := fun _ => .done nodes

end Splice

namespace Script

/-- Binds names to splices, the last one of a name winning. -/
def bindAll : List (String × Splice) → Script → Script
  | [], next => next
  | (name, splice) :: bindings, next => .bind name splice (bindAll bindings next)

end Script

end Templating
