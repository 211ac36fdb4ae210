import Templating.Config
import Templating.Rendering

/-!
# Sites

A site is a directory of templates, with a file that configures it. Loading a site
reads its configuration and then its templates, into the state in which the splices of
the configuration are bound.
-/

namespace Templating.Site

/-- Why something cannot be done with a site. -/
inductive Fault where
  | param (fault : ParamFault)
  /-- The site is no directory. -/
  | noRoot (root : String)
  | config (fault : Config.Fault)
  | templates (root : String) (error : LoadError)
  | noTemplate (name : String)
  /-- The expansion of a template goes on for too long. -/
  | endless (name : String)
  | unwritable (path : String) (fault : FileTree.Fault)

namespace Fault

/-- The wording of a fault. -/
def message : Fault → String
  | .param fault => fault.message
  | .noRoot root => s!"Template root is not a directory: {root}"
  | .config fault => fault.message
  | .templates root _ => s!"Failed to load templates from {root}"
  | .noTemplate name => s!"Template not found: {name}"
  | .endless name => s!"Template has no end: {name}"
  | .unwritable path _ => s!"Failed to write output file: {path}"

/-- The wording of what caused a fault, if it is told. -/
def cause? : Fault → Option String
  | .config (.unreadable _ cause) => some cause
  | .templates _ error => some error.message
  | .unwritable _ fault => some fault.message
  | _ => none

/-- The report of a fault: its message, and behind an empty line its cause, each line of it
indented. The report of an invalid configuration has no line end. -/
def report (fault : Fault) : String :=
  let told := "Error: " ++ fault.message
  match fault, fault.cause? with
  | .config (.invalid _), _ => told
  | _, none => told ++ "\n"
  | _, some cause =>
    told ++ "\n\nCaused by:\n    " ++ "\n    ".intercalate (cause.splitOn "\n") ++ "\n"

end Fault

/-- The state of the site at `root`, configured by a file if one is named. -/
def load (t : FileTree) (root : String) (config : Option String) : Except Fault State := do
  if !t.isDirectory root then throw (.noRoot root)
  let c ← (Config.load t root config).mapError .config
  let (loaded, _) := c.state.load c.extensions {} (t.listing c.extensions root)
  loaded.mapError (.templates root)

/-- The fuel of a render. -/
def fuel : Nat := 1000000

/-- The template of a name in a state, rendered with names bound to texts. -/
def render (σ : State) (name : String) (params : List (String × String)) :
    Except Fault Rendered :=
  match ((Engine.ofFuel fuel).renderWith name params).run { state := σ } with
  | none => .error (.endless name)
  | some (none, _) => .error (.noTemplate name)
  | some (some rendered, _) => .ok rendered

end Templating.Site
