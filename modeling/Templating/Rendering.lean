import Templating.Expansion
import Templating.Markup.Print

/-!
# Rendering templates

A render works on a copy of its state, at depth zero and without doctypes. The output
has the format and the encoding of the template and the doctype that was recorded
last.
-/

namespace Templating

open Markup (Document)

/-- The outcome of a render. -/
structure Rendered where
  bytes : List UInt8
  mimeType : String
  deriving DecidableEq, Repr, Inhabited

/-- A document as the outcome of a render. -/
def Rendered.ofDocument (document : Document) : Rendered := ⟨document.bytes, document.mimeType⟩

namespace Engine

variable (e : Engine)

/-- Renders the template of a name, if there is one. The state stays as it is. -/
def render (name : String) : Run (Option Rendered) := do
  let σ ← Run.state
  match σ.lookup name with
  | none => return none
  | some (template, _) =>
    Run.modifyState State.forRender
    let content ← e.evaluate name
    let doctypes := (← Run.state).doctypes
    Run.modifyState fun _ => σ
    return content.map fun content =>
      Rendered.ofDocument { template.document with content, doctype := doctypes.getLast? }

/-- Renders the template of a name with names bound to texts meanwhile. -/
def renderWith (name : String) (args : List (String × String)) : Run (Option Rendered) :=
  Run.keepingSplices do
    Run.modifyState (·.bindTexts args)
    e.render name

end Engine

end Templating
