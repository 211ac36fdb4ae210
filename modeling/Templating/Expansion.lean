import Templating.Interpolation
import Templating.State

/-!
# Expansion

Expansion walks a list of nodes and rebuilds it. The attribute values of an element
have their placeholders filled first. If the name of the element is bound, its splice
is invoked, and the result takes the place of the element, itself expanded one level
deeper unless the splice stopped that or the depth limit is reached. An element
whose name is not bound is rebuilt with its children expanded, and every other node
stays as it is.

A splice may change the directory, whether its result is expanded, and the depth; all
three are put back when its invocation ends. The splices it binds and the doctypes it
records stay.

Splices and expansion call each other, and nothing keeps them from doing so for ever.
An `Engine` says how the two go on, one call further down; the steps of expansion are
defined over any engine, and `Engine.ofFuel` ties the knot: with fuel for `n` nested
calls, a run gives its answer or, where that is not enough, none.
-/

namespace Templating

open Markup (Attribute Node)

/-- What a run works on. -/
structure Stage where
  state : State
  ledger : Ledger := {}
  deriving Inhabited

/-- A run on a stage, which may lack the fuel to come to its end. -/
abbrev Run := StateT Stage Option

namespace Run

/-- The state. -/
def state : Run State := return (← get).state

/-- Changes the state. -/
def modifyState (f : State → State) : Run Unit := modify fun s => { s with state := f s.state }

/-- Writes an entry into the journal, made from the state. -/
def record (entry : State → Entry) : Run Unit :=
  modify fun s => { s with ledger := s.ledger.record (entry s.state) }

/-- Takes a new counter. -/
def newCell : Run Nat :=
  modifyGet fun s =>
    let (cell, ledger) := s.ledger.newCell
    (cell, { s with ledger })

/-- Counts in a counter. -/
def tick (cell : Nat) : Run Nat :=
  modifyGet fun s =>
    let (n, ledger) := s.ledger.tick cell
    (n, { s with ledger })

/-- Applies the hooks of a slot. -/
def applyHooks (slot : HookSlot) (nodes : List Node) : Run (List Node) := do
  record fun _ => .hooked slot nodes
  modifyGet fun s =>
    let (out, ledger) := s.ledger.applyHooks (s.state.hooks slot) nodes
    (out, { s with ledger })

/-- Runs `body`, and puts directory, recursion and depth back. -/
def keepingControl {α : Type} (body : Run α) : Run α := do
  let before ← state
  let a ← body
  modifyState fun σ =>
    { σ with context := before.context, recursing := before.recursing, depth := before.depth }
  return a

/-- Runs `body`, and puts the splices back. -/
def keepingSplices {α : Type} (body : Run α) : Run α := do
  let before ← state
  let a ← body
  modifyState fun σ => { σ with splices := before.splices }
  return a

end Run

/-- How expansion goes on, one call further down. -/
structure Engine where
  /-- Expands nodes. -/
  expand : List Node → Run (List Node)
  /-- Runs a splice for a node. -/
  call : Splice → Node → Run (List Node)

namespace Engine

variable (e : Engine)

/-- Begins the invocation of the splice of a name: its result will be expanded unless it
says otherwise. -/
def enter (name : String) : Run Unit := do
  Run.record fun σ => .invoked name σ.depth
  Run.modifyState fun σ => { σ with recursing := true }

/-- What the splice of a name gives for a placeholder, if the name is bound. -/
def placeholder (name : String) : Run (Option (List Node)) := do
  match (← Run.state).splices.get? name with
  | none => return none
  | some splice =>
    Run.keepingControl do
      enter name
      return some (← e.call splice (.text ""))

/-- A value with its placeholders filled. -/
def substitute (raw : String) : Run String := Interpolation.substitute e.placeholder raw

/-- Attributes with the placeholders of their values filled, in order. -/
def attributes : List Attribute → Run (List Attribute)
  | [] => return []
  | a :: rest => do
    let value ← e.substitute a.value
    return ⟨a.name, value⟩ :: (← attributes rest)

/-- Expands the result of a splice, unless the splice stopped that or it is too deep. -/
def expandResult (result : List Node) : Run (List Node) := do
  let σ ← Run.state
  if !σ.recursing then return result
  else if σ.depth ≥ depthLimit then
    Run.record fun σ => .refused σ.depth
    return result
  else
    Run.record fun σ => .descended σ.depth
    Run.modifyState fun σ => { σ with depth := σ.depth + 1 }
    e.expand result

/-- Invokes the splice of a name for an element. -/
def invoke (name : String) (splice : Splice) (node : Node) : Run (List Node) :=
  Run.keepingControl do
    enter name
    e.expandResult (← e.call splice node)

mutual

/-- Expands a node. -/
def expandNode : Node → Run (List Node)
  | .element name as cs => do
    let as ← e.attributes as
    match (← Run.state).splices.get? name with
    | some splice => e.invoke name splice (.element name as cs)
    | none => return [.element name as (← expandNodes cs)]
  | leaf => return [leaf]

/-- Expands nodes, in order. -/
def expandNodes : List Node → Run (List Node)
  | [] => return []
  | node :: nodes => do
    let out ← expandNode node
    return out ++ (← expandNodes nodes)

end

/-- Expands nodes one level deeper, unless that is too deep. -/
def descend (nodes : List Node) : Run (List Node) := do
  let σ ← Run.state
  if σ.depth ≥ depthLimit then
    Run.record fun σ => .refused σ.depth
    return nodes
  else
    Run.record fun σ => .descended σ.depth
    Run.modifyState fun σ => { σ with depth := σ.depth + 1 }
    let out ← e.expand nodes
    Run.record fun σ => .ascended σ.depth
    Run.modifyState fun σ => { σ with depth := σ.depth - 1 }
    return out

/-- Expands the template of a name, if there is one: its doctype is recorded, and the
hooks around a run are applied before and after. -/
def evaluate (name : String) : Run (Option (List Node)) := do
  match (← Run.state).lookup name with
  | none => return none
  | some (template, directory) =>
    Run.modifyState fun σ =>
      { σ with doctypes := σ.doctypes ++ template.document.doctype.toList }
    let body ← Run.applyHooks .preRun template.document.content
    let out ← Run.keepingControl do
      Run.modifyState fun σ => { σ with context := directory }
      e.expand body
    return some (← Run.applyHooks .postRun out)

/-- Expands the template of a name with names bound to texts meanwhile. -/
def evaluateWith (name : String) (args : List (String × String)) : Run (Option (List Node)) :=
  Run.keepingSplices do
    Run.modifyState (·.bindTexts args)
    e.evaluate name

/-- Runs the splice of a name, if it is bound. -/
def callBound (name : String) (node : Node) : Run (Option (List Node)) := do
  match (← Run.state).splices.get? name with
  | none => return none
  | some splice =>
    Run.record fun σ => .called name σ.depth
    return some (← e.call splice node)

/-- Runs a script. -/
def perform : Script → Run (List Node)
  | .done nodes => return nodes
  | .stop next => do
    Run.modifyState fun σ => { σ with recursing := false }
    perform next
  | .setContext context next => do
    Run.modifyState fun σ => { σ with context }
    perform next
  | .addDoctype body next => do
    Run.modifyState fun σ => { σ with doctypes := σ.doctypes ++ [body] }
    perform next
  | .bind name splice next => do
    Run.modifyState (·.bind name splice)
    perform next
  | .look next => do
    let σ ← Run.state
    perform (next σ.view)
  | .newCell next => do
    let cell ← Run.newCell
    perform (next cell)
  | .tick cell next => do
    let n ← Run.tick cell
    perform (next n)
  | .expand nodes next => do
    let out ← e.expand nodes
    perform (next out)
  | .descend nodes next => do
    let out ← e.descend nodes
    perform (next out)
  | .substitute raw next => do
    let value ← e.substitute raw
    perform (next value)
  | .evaluate name next => do
    let found ← e.evaluate name
    perform (next found)
  | .evaluateWith name args next => do
    let found ← e.evaluateWith name args
    perform (next found)
  | .call name node next => do
    let found ← e.callBound name node
    perform (next found)
  | .scope inner next => do
    let out ← Run.keepingSplices (perform inner)
    perform (next out)

/-- The engine without fuel. -/
def idle : Engine where
  expand := fun _ => failure
  call := fun _ _ => failure

/-- The engine that makes one step and goes on as `e` does. -/
def next : Engine where
  expand := fun nodes => e.expandNodes nodes
  call := fun splice node => e.perform (splice node)

/-- The engine with fuel for `n` nested calls. -/
def ofFuel : Nat → Engine
  | 0 => idle
  | n + 1 =>
    { expand := fun nodes => (ofFuel n).next.expand nodes
      call := fun splice node => (ofFuel n).next.call splice node }

theorem ofFuel_succ (n : Nat) : ofFuel (n + 1) = (ofFuel n).next := rfl

end Engine

end Templating
