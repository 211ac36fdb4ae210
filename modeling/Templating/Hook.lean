import Templating.Markup.Node

/-!
# Hooks and the ledger of a run

A hook transforms a list of nodes. Hooks stand in three slots: those of the first are
applied to the content of each document that is loaded, the others to a template
before and after it is expanded. The hooks of a slot are applied in the order in
which they were added.

Hooks and splices may count how often they run. The counters live in a ledger
outside of all states, so that copies of a state share them. The ledger also keeps a
journal of what happened while nodes were expanded: which splices were invoked, at
which depth, when expansion went deeper and came back, where the depth limit held it
back, and to what the hooks of a slot were applied.
-/

namespace Templating

open Markup (Node)

/-- A transformation of nodes. It is given the number of the run, the first one being 1. -/
structure Hook where
  /-- The counter of its runs. -/
  cell : Nat
  run : Nat → List Node → List Node

/-- The places for hooks. -/
inductive HookSlot where
  | onLoad
  | preRun
  | postRun
  deriving DecidableEq, Repr

/-- Something that happened during an expansion. -/
inductive Entry where
  /-- The splice of a name was invoked, by an element or a placeholder, at a depth. -/
  | invoked (name : String) (depth : Nat)
  /-- A splice called the splice of a name itself. -/
  | called (name : String) (depth : Nat)
  /-- Expansion went one level deeper from a depth. -/
  | descended (depth : Nat)
  /-- Expansion came back one level from a depth. -/
  | ascended (depth : Nat)
  /-- Nodes were left as they were because of the depth. -/
  | refused (depth : Nat)
  /-- The hooks of a slot were applied to nodes. -/
  | hooked (slot : HookSlot) (nodes : List Node)
  deriving DecidableEq

/-- The counters of hooks and splices, and the journal. -/
structure Ledger where
  /-- The values of the counters. -/
  counts : Array Nat := #[]
  /-- What happened, the latest first. -/
  journal : List Entry := []
  deriving DecidableEq, Inhabited

namespace Ledger

/-- A new counter, which stands at zero. -/
def newCell (l : Ledger) : Nat × Ledger :=
  (l.counts.size, { l with counts := l.counts.push 0 })

/-- Counts one run in a cell, and gives its number. -/
def tick (l : Ledger) (cell : Nat) : Nat × Ledger :=
  let n := l.counts.getD cell 0 + 1
  (n, { l with counts := l.counts.setIfInBounds cell n })

/-- The ledger with an entry more. -/
def record (l : Ledger) (entry : Entry) : Ledger := { l with journal := entry :: l.journal }

/-- Applies hooks in order. -/
def applyHooks (l : Ledger) : List Hook → List Node → List Node × Ledger
  | [], nodes => (nodes, l)
  | hook :: hooks, nodes =>
    let (n, l) := l.tick hook.cell
    l.applyHooks hooks (hook.run n nodes)

end Ledger

end Templating
