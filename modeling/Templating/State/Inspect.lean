import Templating.State
import Templating.Text.Quoted

/-!
# States as text

What a state and a list of hooks look like to someone who inspects them. Templates and
splices are shown by their names only, and hooks by their number.
-/

namespace Templating

open Text

/-- A record as text: its name, and its fields with their values. -/
def inspectRecord (name : String) (fields : List (String × String)) : String :=
  name ++ " \x7b " ++ ", ".intercalate (fields.map fun (field, value) => field ++ ": " ++ value)
    ++ " \x7d"

/-- A path as text, its segments in the order in which they are kept. -/
def Path.inspect (p : Path) : String := "TemplatePath(" ++ Quoted.list p.inward ++ ")"

/-- A doctype as text. -/
def inspectDoctype (body : String) : String := "Doctype(" ++ Quoted.quote body ++ ")"

/-- The state as text. -/
def State.inspect (σ : State) : String :=
  inspectRecord "RenderState"
    [("templates", Quoted.list σ.templateNames),
      ("splices", Quoted.list σ.spliceNames),
      ("context", σ.context.inspect),
      ("recurse", if σ.recursing then "true" else "false"),
      ("recursion_depth", toString σ.depth),
      ("doctypes", "[" ++ ", ".intercalate (σ.doctypes.map inspectDoctype) ++ "]")]

/-- Hooks as text. -/
def Hook.inspectAll (hooks : List Hook) : String :=
  inspectRecord "HookChain" [("len", toString hooks.length)]

end Templating
