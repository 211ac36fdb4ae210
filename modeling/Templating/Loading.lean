import Templating.FileName
import Templating.Markup.Parse
import Templating.State

/-!
# Loading templates

A listing gives files with their contents, or with the reason why they could not be
read. The extension of a file says in which format its template is written, and
whether it is a template at all. Each template that can be read goes through the
hooks for loading, and is registered under the path that its file names; of two files
with the same path the later one counts.

Loading is all or nothing: if a file could not be read or holds no document, every
such file is reported, and the state stays as it is.
-/

namespace Templating

open Markup (Format)

/-- The extensions of template files. -/
structure Extensions where
  html : String := "tpl"
  xml : String := "xtpl"
  deriving DecidableEq, Repr, Inhabited

/-- The format of the template at a path, if there is one. -/
def Extensions.format? (extensions : Extensions) (path : String) : Option Format :=
  match FileName.extension? path with
  | none => none
  | some extension =>
    if extension = extensions.html then some .html
    else if extension = extensions.xml then some .xml
    else none

/-- A file in a listing. -/
structure SourceFile where
  path : String
  /-- The bytes of the file, or why they could not be read. -/
  contents : Except String (List UInt8)

/-- The files of a listing whose extension is that of a template. -/
def Extensions.select (extensions : Extensions) (files : List SourceFile) : List SourceFile :=
  files.filter fun file => (extensions.format? file.path).isSome

/-- What loading makes of one file. -/
inductive FileOutcome where
  | loaded (path : Path) (template : Template)
  /-- The file is no template. -/
  | passedOver
  | failed (reason : String)

/-- What loading makes of a file, before the hooks. -/
def SourceFile.read (extensions : Extensions) (file : SourceFile) : FileOutcome :=
  match file.contents with
  | .error reason => .failed reason
  | .ok bytes =>
    match extensions.format? file.path with
    | none => .passedOver
    | some format =>
      match Markup.parse format bytes with
      | .error e => .failed e.message
      | .ok document => .loaded (FileName.templatePath file.path) ⟨document, some file.path⟩

/-- A load in progress. -/
structure Loading where
  ledger : Ledger
  templates : Templates := ∅
  /-- The messages about files at fault, the latest first. -/
  messages : List String := []

/-- The load with one file more. -/
def Loading.add (extensions : Extensions) (onLoad : List Hook) (l : Loading) (file : SourceFile) :
    Loading :=
  match file.read extensions with
  | .passedOver => l
  | .failed reason => { l with messages := (file.path ++ ": " ++ reason) :: l.messages }
  | .loaded path template =>
    let (content, ledger) := l.ledger.applyHooks onLoad template.document.content
    let template := { template with document := { template.document with content } }
    { l with ledger, templates := l.templates.insert path template }

/-- Why a load failed: a message for each file at fault, in the order of the listing. -/
structure LoadError where
  messages : List String
  deriving DecidableEq, Repr

/-- The wording of a failed load. -/
def LoadError.message (e : LoadError) : String :=
  s!"failed to load {e.messages.length} template(s):\n  " ++ "\n  ".intercalate e.messages

/-- The templates of a listing, and the ledger after their hooks. -/
def loadListing (extensions : Extensions) (onLoad : List Hook) (ledger : Ledger)
    (files : List SourceFile) : Except LoadError Templates × Ledger :=
  let l : Loading := files.foldl (Loading.add extensions onLoad) { ledger }
  (if l.messages = [] then .ok l.templates else .error ⟨l.messages.reverse⟩, l.ledger)

namespace State

/-- The state with the templates of a listing added; they replace those of their names. -/
def load (σ : State) (extensions : Extensions) (ledger : Ledger) (files : List SourceFile) :
    Except LoadError State × Ledger :=
  let (loaded, ledger) := loadListing extensions σ.onLoad ledger files
  (loaded.map fun templates =>
    { σ with templates := σ.templates.insertAll templates.entries }, ledger)

/-- The state with the templates of a listing in place of its own. -/
def reload (σ : State) (extensions : Extensions) (ledger : Ledger) (files : List SourceFile) :
    Except LoadError State × Ledger :=
  let (loaded, ledger) := loadListing extensions σ.onLoad ledger files
  (loaded.map fun templates => { σ with templates }, ledger)

end State

end Templating
