import Templating.Hook
import Templating.Splice.Standard

/-!
# The state of a render

A state holds the templates, the splices and the hooks, and what changes while nodes
are expanded: the directory from which templates are looked up, whether the result of
the current splice will be expanded, how deep the expansion is, and the doctypes of
the templates entered.
-/

namespace Templating

open Markup (Document Node)

/-- How deep nodes are expanded. -/
def depthLimit : Nat := 50

/-- All that a render needs. -/
structure State where
  templates : Templates := ∅
  splices : Splices := ∅
  context : Path := .root
  recursing : Bool := true
  depth : Nat := 0
  /-- The doctypes recorded, the oldest first. -/
  doctypes : List String := []
  onLoad : List Hook := []
  preRun : List Hook := []
  postRun : List Hook := []

namespace State

instance : Inhabited State := ⟨{}⟩

/-- The state without templates, splices and hooks. -/
def empty : State := {}

/-- The state with a name bound to a splice. -/
def bind (σ : State) (name : String) (splice : Splice) : State :=
  { σ with splices := σ.splices.insert name splice }

/-- The state with names bound to splices, the last one of a name winning. -/
def bindAll (σ : State) (bindings : List (String × Splice)) : State :=
  { σ with splices := σ.splices.insertAll bindings }

/-- The state with names bound to texts, the last one of a name winning. -/
def bindTexts (σ : State) (args : List (String × String)) : State :=
  σ.bindAll (args.map fun (name, value) => (name, Splice.text value))

/-- The state in which the standard splices are bound. -/
def standard : State := empty.bindAll Splice.standard

/-- The state with a template under the path that a name spells. -/
def addTemplate (σ : State) (name : String) (document : Document) : State :=
  { σ with templates := σ.templates.insert (.parse name) { document } }

/-- The state with documents under the paths that names spell in place of its templates, the
last one of a path counting. -/
def setTemplates (σ : State) (documents : List (String × Document)) : State :=
  { σ with
    templates := .ofList (documents.map fun (name, document) => (.parse name, { document })) }

/-- The state with a hook added at the end of its slot. -/
def addHook (σ : State) (slot : HookSlot) (hook : Hook) : State :=
  match slot with
  | .onLoad => { σ with onLoad := σ.onLoad ++ [hook] }
  | .preRun => { σ with preRun := σ.preRun ++ [hook] }
  | .postRun => { σ with postRun := σ.postRun ++ [hook] }

/-- The hooks of a slot. -/
def hooks (σ : State) : HookSlot → List Hook
  | .onLoad => σ.onLoad
  | .preRun => σ.preRun
  | .postRun => σ.postRun

/-- The template that a name means, with the directory where it was found. -/
def lookup (σ : State) (name : String) : Option (Template × Path) :=
  resolve σ.templates σ.context name

/-- Whether a name means a template. -/
def hasTemplate (σ : State) (name : String) : Bool := (σ.lookup name).isSome

/-- The names of all templates, in ascending order. -/
def templateNames (σ : State) : List String :=
  (σ.templates.keys.map Path.display).mergeSort fun a b => (compare a b).isLE

/-- The names bound to splices, in ascending order. -/
def spliceNames (σ : State) : List String := σ.splices.keys

/-- What a splice sees of the state. -/
def view (σ : State) : View where
  templates := σ.templates
  context := σ.context
  recursing := σ.recursing
  depth := σ.depth
  doctypes := σ.doctypes
  bound := σ.spliceNames

/-- The state in which a render begins: as it is, but at depth zero and without
doctypes. -/
def forRender (σ : State) : State := { σ with recursing := true, depth := 0, doctypes := [] }

end State

end Templating
