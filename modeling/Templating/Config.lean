import Templating.FileTree
import Templating.Text.Blank
import Templating.Text.Utf8
import Templating.Yaml.Node

/-!
# Configuration

A site may say in a YAML file which extensions its templates have, which names are
bound to texts in every render, and whether the standard splices are bound. Every
field may be missing, and fields of other names are passed over, but no field may come
twice.

A text may be written as a scalar of any kind. A truth value must be plain. Where a
mapping is wanted, an absent value is an empty mapping.
-/

namespace Templating

/-- What a site is configured to. -/
structure Config where
  extensions : Extensions := {}
  /-- The names bound to texts in every render. -/
  params : Registry String String := ∅
  standardSplices : Bool := true

namespace Config

instance : Inhabited Config := ⟨{}⟩

/-- Whether nothing is configured otherwise than by default. -/
def isDefault (c : Config) : Bool :=
  c.extensions = {} && c.params.entries.isEmpty && c.standardSplices

/-- The state in which the splices of a configuration are bound. -/
def state (c : Config) : State :=
  (if c.standardSplices then State.standard else State.empty).bindTexts c.params.entries

/-! ### Fields -/

section

variable (d : Yaml.Document)

/-- The text that a node stands for. -/
def text? (node : Yaml.Node) : Option String :=
  match d.resolve node with
  | .scalar text _ _ => some text
  | _ => none

/-- The truth value that a word stands for. -/
def truth? : String → Option Bool
  | "true" | "True" | "TRUE" => some true
  | "false" | "False" | "FALSE" => some false
  | _ => none

/-- The tag of truth values. -/
def truthTag : List Char := "tag:yaml.org,2002:bool".toList

/-- The truth value that a node stands for. A block scalar stands for one if its tag says
so. -/
def flag? (node : Yaml.Node) : Option Bool :=
  match d.resolve node with
  | .scalar text .plain _ => truth? text
  | .scalar text .literal (some tag) => if tag = truthTag then truth? text else none
  | _ => none

/-- The pairs of the mapping that a node stands for. -/
def pairs? (node : Yaml.Node) : Option (List (Yaml.Node × Yaml.Node)) :=
  match d.resolve node with
  | .mapping pairs => some pairs
  | .scalar "" .plain _ => some []
  | _ => none

/-- The fields of the mapping that a node stands for, those that are in `known`. None may
come twice. -/
def fields? (known : List String) (node : Yaml.Node) : Option (List (String × Yaml.Node)) := do
  let fields ← (← pairs? d node).mapM fun (key, value) => (text? d key).map (·, value)
  let fields := fields.filter fun (name, _) => known.contains name
  if known.all fun name => (fields.filter (·.1 = name)).length ≤ 1 then some fields else none

/-- The value of a field as `read` reads it, or the default if the field is missing. -/
def field? {α : Type} (fields : List (String × Yaml.Node)) (name : String)
    (read : Yaml.Node → Option α) (default : α) : Option α :=
  match fields.lookup name with
  | none => some default
  | some value => read value

/-- The extensions that a node stands for. -/
def extensions? (node : Yaml.Node) : Option Extensions := do
  let fields ← fields? d ["html", "xml"] node
  let standard : Extensions := {}
  let html ← field? fields "html" (text? d) standard.html
  let xml ← field? fields "xml" (text? d) standard.xml
  return { html, xml }

/-- The texts under names that a node stands for, the last one of a name winning. -/
def params? (node : Yaml.Node) : Option (Registry String String) := do
  let entries ← (← pairs? d node).mapM fun (key, value) => do
    return (← text? d key, ← text? d value)
  return .ofList entries

/-- The configuration that a document stands for. -/
def ofDocument? : Option Config := do
  let fields ← fields? d ["extensions", "params", "standard-splices"] d.root
  let standard : Config := {}
  let extensions ← field? fields "extensions" (extensions? d) standard.extensions
  let params ← field? fields "params" (params? d) standard.params
  let standardSplices ← field? fields "standard-splices" (flag? d) standard.standardSplices
  return { extensions, params, standardSplices }

end

/-- The configuration that a text writes. Blank text configures nothing. -/
def parse? (text : List Char) : Option Config :=
  if Text.allBlank text then some {} else (Yaml.Document.parse? text).bind ofDocument?

/-! ### Files -/

/-- Why a configuration cannot be had. -/
inductive Fault where
  | unreadable (path : String) (cause : String)
  | invalid (path : String)
  deriving DecidableEq, Repr

/-- The wording of a fault. -/
def Fault.message : Fault → String
  | .unreadable path _ => s!"Failed to read config file: {path}"
  | .invalid path => s!"Invalid config file: {path}"

/-- The name of the file at the root of a site. -/
def fileName : String := "trellis.yml"

/-- The configuration in the file at a path. -/
def read (t : FileTree) (path : String) : Except Fault Config :=
  match t.read path with
  | .error fault => .error (.unreadable path fault.message)
  | .ok bytes =>
    match Text.Utf8.decode bytes with
    | .error _ => .error (.unreadable path "stream did not contain valid UTF-8")
    | .ok text =>
      match parse? text with
      | none => .error (.invalid path)
      | some c => .ok c

/-- The configuration of the site at `root`: that of a file if one is named, that of the
file at the root if there is one, and else the default. -/
def load (t : FileTree) (root : String) (named : Option String) : Except Fault Config :=
  match named with
  | some path => read t path
  | none =>
    let path := FileName.join root fileName
    if t.isFile path then read t path else .ok {}

end Config

/-! ### Parameters -/

/-- Why a text gives no name its value. -/
inductive ParamFault where
  | noEquals (raw : String)
  | emptyKey (raw : String)
  deriving DecidableEq, Repr

/-- The wording of a fault. -/
def ParamFault.message : ParamFault → String
  | .noEquals raw => s!"Invalid parameter (expected KEY=VALUE): {raw}"
  | .emptyKey raw => s!"Invalid parameter (empty key): {raw}"

/-- The name and the value in a text, which stand before and behind the first equals
sign. -/
def parseParam (raw : String) : Except ParamFault (String × String) :=
  let cs := raw.toList
  match cs.dropWhile (· ≠ '=') with
  | [] => .error (.noEquals raw)
  | _ :: value =>
    match cs.takeWhile (· ≠ '=') with
    | [] => .error (.emptyKey raw)
    | key => .ok (String.ofList key, String.ofList value)

end Templating
