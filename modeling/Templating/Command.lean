import Templating.Site

/-!
# Commands

There are three things to do with a site: to render one of its templates, to check that
all of them can be loaded, and to list their names. A command works on a tree of files
and says what it prints, what it complains about, and what the files are afterwards.
-/

namespace Templating

/-- A command on the site at `root`, which a file may configure. -/
inductive Command where
  /-- Renders a template with parameters, into a file if one is named. -/
  | render (root name : String) (output : Option String) (params : List String)
      (config : Option String)
  | check (root : String) (config : Option String)
  | list (root : String) (config : Option String)
  deriving DecidableEq, Repr

/-- What comes of a command. -/
structure Outcome where
  code : Nat := 0
  printed : List UInt8 := []
  complaint : String := ""
  files : FileTree

namespace Outcome

/-- The outcome that prints a text. -/
def printing (files : FileTree) (text : String) : Outcome :=
  { files, printed := Text.Utf8.encode text.toList }

/-- The outcome of a fault. -/
def failing (files : FileTree) (fault : Site.Fault) : Outcome :=
  { files, code := 1, complaint := fault.report }

end Outcome

namespace Command

/-- The directory of a command's site. -/
def root : Command → String
  | render root .. | check root _ | list root _ => root

/-- The file that configures a command's site, if one is named. -/
def config? : Command → Option String
  | render _ _ _ _ config | check _ config | list _ config => config

/-- The file that a command writes, if there is one. -/
def output? : Command → Option String
  | render _ _ output _ _ => output
  | _ => none

/-- Renders a template. All parameters are read before anything else is done. -/
def renderSite (t : FileTree) (root name : String) (output : Option String)
    (params : List String) (config : Option String) : Except Site.Fault Outcome := do
  let params ← params.mapM fun raw => (parseParam raw).mapError .param
  let σ ← Site.load t root config
  let rendered ← Site.render σ name params
  match output with
  | none => return { files := t, printed := rendered.bytes }
  | some path => return { files := ← (t.write path rendered.bytes).mapError (.unwritable path) }

/-- Says how many templates there are. -/
def checkSite (t : FileTree) (root : String) (config : Option String) :
    Except Site.Fault Outcome := do
  let σ ← Site.load t root config
  return .printing t s!"{σ.templates.size} templates OK\n"

/-- Prints the names of the templates, one in a line. -/
def listSite (t : FileTree) (root : String) (config : Option String) :
    Except Site.Fault Outcome := do
  let σ ← Site.load t root config
  return .printing t (String.join (σ.templateNames.map (· ++ "\n")))

/-- What comes of a command. -/
def run (t : FileTree) (command : Command) : Outcome :=
  let outcome :=
    match command with
    | .render root name output params config => renderSite t root name output params config
    | .check root config => checkSite t root config
    | .list root config => listSite t root config
  match outcome with
  | .ok outcome => outcome
  | .error fault => .failing t fault

end Command

end Templating
