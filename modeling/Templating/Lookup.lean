import Templating.Markup.Document
import Templating.Path
import Templating.Registry

/-!
# Finding templates

Templates are registered under paths and looked up by names, seen from a directory.
A name without a separator is looked for in that directory and then in each
directory above it, and the first template found counts. A name with a separator is
looked for once, below the directory.
-/

namespace Templating

open Markup (Document)

/-- A template: a document, and the file it was read from if there is one. -/
structure Template where
  document : Document
  file : Option String := none
  deriving DecidableEq, Inhabited

/-- The registered templates. -/
abbrev Templates := Registry Path Template

/-- Whether a name is looked for in one directory only. -/
def isQualified (name : String) : Bool := name.toList.contains '/'

/-- Where a name is looked for: the innermost segment of the name, and the directories
in which a template so called is looked for, in order. -/
structure Candidates where
  leaf : String
  directories : List Path
  deriving DecidableEq, Repr

/-- Where a name is looked for from the directory `context`. -/
def candidates (context : Path) (name : String) : Candidates :=
  let (leaf, directory) := (Path.parse name).leaf?.getD ("", .root)
  let start := context.nest directory
  ⟨leaf, if isQualified name then [start] else start.ancestors⟩

/-- The first of `directories` that holds a template called `leaf`, with the template. -/
def firstHit (templates : Templates) (leaf : String) : List Path → Option (Template × Path)
  | [] => none
  | directory :: directories =>
    match templates.get? (directory.child leaf) with
    | some template => some (template, directory)
    | none => firstHit templates leaf directories

/-- The template that a name means in the directory `context`, and the directory where it
was found. -/
def resolve (templates : Templates) (context : Path) (name : String) : Option (Template × Path) :=
  let found := candidates context name
  firstHit templates found.leaf found.directories

end Templating
