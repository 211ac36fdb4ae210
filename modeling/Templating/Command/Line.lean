import Templating.Command

/-!
# Command lines

A command line names a command, and its options and operands stand in any order behind
the name. Options have a long name behind two dashes and may have a short one, a
letter behind a single dash. The value of an option is the next word, unless it stands
behind an equals sign or, for a short name, directly behind the letter. Letters may be
joined behind one dash as long as they take no value. Behind a word of two dashes there
are operands only.

A word that begins with a dash is a value only where it is joined to its option. An
option that may be given once only is a mistake the second time. Files and directories
must have a name.

The words are read in order: the first mistake, and a request for help or for the
version, end the reading.
-/

namespace Templating.Command

/-- What an option asks for. -/
inductive Demand where
  /-- The option only switches something on. -/
  | switch
  /-- The option takes a file. -/
  | file
  /-- The option takes a text, and may be given again. -/
  | texts
  | help
  | version
  deriving DecidableEq, Repr

/-- An option. -/
structure OptionSpec where
  long : String
  short : Option Char := none
  demand : Demand
  deriving DecidableEq, Repr

/-- What words an operand or a name stands for. -/
structure Level where
  options : List OptionSpec
  /-- Which operands there are: whether each one is a file. -/
  operands : List Bool
  deriving Repr

/-- What ends the reading of a command line. -/
inductive Stop where
  /-- The line is not well formed. -/
  | mistake
  | help
  | version
  deriving DecidableEq, Repr

/-- What has been read, the latest first. -/
structure Words where
  /-- The options with their values; that of a switch is empty. -/
  options : List (String × String) := []
  operands : List String := []
  deriving Repr

namespace Words

/-- The value given last to an option. -/
def value? (w : Words) (long : String) : Option String := w.options.lookup long

/-- The values given to an option, in order. -/
def values (w : Words) (long : String) : List String :=
  (w.options.reverse.filter (·.1 = long)).map (·.2)

/-- The words with an option more. -/
def addOption (w : Words) (o : OptionSpec) (value : String) : Except Stop Words :=
  let added : Words := { w with options := (o.long, value) :: w.options }
  let again := (w.value? o.long).isSome
  match o.demand with
  | .help => .error .help
  | .version => .error .version
  | .switch => if again then .error .mistake else .ok added
  | .file => if again ∨ value = "" then .error .mistake else .ok added
  | .texts => .ok added

/-- The words with an operand more. -/
def addOperand (level : Level) (w : Words) (value : String) : Except Stop Words :=
  match level.operands[w.operands.length]? with
  | none => .error .mistake
  | some isFile =>
    if isFile ∧ value = "" then .error .mistake
    else .ok { w with operands := value :: w.operands }

end Words

/-- Whether an option takes a value. -/
def OptionSpec.takesValue (o : OptionSpec) : Bool := o.demand = .file || o.demand = .texts

/-- What a word does: it adds to the words read, or it also awaits the value of an
option. -/
inductive Effect where
  | read (words : Words)
  | awaiting (words : Words) (o : OptionSpec)

/-- Reads an option with its long name, and a value if one is joined to it. -/
def readLong (level : Level) (w : Words) (name : List Char) (joined : Option (List Char)) :
    Except Stop Effect :=
  match level.options.find? (·.long.toList = name) with
  | none => .error .mistake
  | some o =>
    match joined with
    | some value =>
      if o.takesValue then (w.addOption o (String.ofList value)).map .read else .error .mistake
    | none => if o.takesValue then .ok (.awaiting w o) else (w.addOption o "").map .read

/-- Reads letters behind a dash. -/
def readLetters (level : Level) (w : Words) : List Char → Except Stop Effect
  | [] => .ok (.read w)
  | c :: cs =>
    match level.options.find? (·.short = some c) with
    | none => .error .mistake
    | some o =>
      if o.takesValue then
        match cs with
        | [] => .ok (.awaiting w o)
        | '=' :: value => (w.addOption o (String.ofList value)).map .read
        | value => (w.addOption o (String.ofList value)).map .read
      else
        match w.addOption o "" with
        | .error stop => .error stop
        | .ok w => readLetters level w cs

/-- The parts of a long option before and behind the first equals sign. -/
def splitEquals (cs : List Char) : List Char × Option (List Char) :=
  (cs.takeWhile (· ≠ '='), (cs.dropWhile (· ≠ '=')).tail?)

/-- Whether a word is an option, or looks like one. -/
def looksLikeOption (word : List Char) : Bool := 1 < word.length && word.head? = some '-'

/-- Reads a word that looks like an option. -/
def readOption (level : Level) (w : Words) (word : List Char) : Except Stop Effect :=
  match word with
  | '-' :: '-' :: name =>
    let (name, joined) := splitEquals name
    readLong level w name joined
  | _ => readLetters level w word.tail

/-- Reads words that are operands only. -/
def readOperands (level : Level) (w : Words) (args : List String) : Except Stop Words :=
  args.foldlM (Words.addOperand level) w

/-- Reads the options and operands of a command. -/
def readWords (level : Level) (w : Words) : List String → Except Stop Words
  | [] => .ok w
  | arg :: args =>
    if arg = "--" then readOperands level w args
    else if looksLikeOption arg.toList then
      match readOption level w arg.toList with
      | .error stop => .error stop
      | .ok (.read w) => readWords level w args
      | .ok (.awaiting w o) =>
        match args with
        | [] => .error .mistake
        | value :: args =>
          if looksLikeOption value.toList then .error .mistake
          else
            match w.addOption o value with
            | .error stop => .error stop
            | .ok w => readWords level w args
    else
      match w.addOperand level arg with
      | .error stop => .error stop
      | .ok w => readWords level w args

/-! ### The commands -/

/-- The switch for more messages, which every level has. -/
def verbose : OptionSpec := { long := "verbose", short := 'v', demand := .switch }

/-- The request for help, which every level has. -/
def helpOption : OptionSpec := { long := "help", short := 'h', demand := .help }

/-- The request for the version. -/
def versionOption : OptionSpec := { long := "version", short := 'V', demand := .version }

/-- The file that configures a site. -/
def configOption : OptionSpec := { long := "config", demand := .file }

/-- The file that a render is written to. -/
def outputOption : OptionSpec := { long := "output", short := 'o', demand := .file }

/-- The parameters of a render. -/
def paramOption : OptionSpec := { long := "param", short := 'P', demand := .texts }

/-- What may stand before the name of a command. -/
def topLevel : Level := { options := [verbose, helpOption, versionOption], operands := [] }

/-- What may stand behind `render`: a site and the name of a template. -/
def renderLevel : Level where
  options := [verbose, helpOption, outputOption, paramOption, configOption]
  operands := [true, false]

/-- What may stand behind `check` and `list`: a site. -/
def siteLevel : Level := { options := [verbose, helpOption, configOption], operands := [true] }

/-- The command of a name with its words. -/
def ofWords (name : String) (args : List String) : Except Stop Command :=
  match name with
  | "render" => do
    let w ← readWords renderLevel {} args
    match w.operands with
    | [template, root] =>
      return .render root template (w.value? "output") (w.values "param") (w.value? "config")
    | _ => throw .mistake
  | "check" => do
    let w ← readWords siteLevel {} args
    match w.operands with
    | [root] => return .check root (w.value? "config")
    | _ => throw .mistake
  | "list" => do
    let w ← readWords siteLevel {} args
    match w.operands with
    | [root] => return .list root (w.value? "config")
    | _ => throw .mistake
  | "help" =>
    if args.length ≤ 1 ∧ args.all (["render", "check", "list", "help"].contains ·) then
      throw .help
    else throw .mistake
  | _ => throw .mistake

/-- The command that a line writes. -/
def ofArguments (w : Words) : List String → Except Stop Command
  | [] => .error .mistake
  | arg :: args =>
    if looksLikeOption arg.toList then
      match readOption topLevel w arg.toList with
      | .error stop => .error stop
      | .ok (.read w) => ofArguments w args
      | .ok (.awaiting ..) => .error .mistake
    else ofWords arg args

/-- What `--version` prints. -/
def versionText : String := "trellis 0.1.0\n"

/-- How the program is used. -/
def usageText : String :=
  "Usage: trellis [-v] COMMAND\n\n" ++
  "Commands:\n" ++
  "  render ROOT NAME [-o FILE] [-P KEY=VALUE]... [--config FILE]\n" ++
  "  check ROOT [--config FILE]\n" ++
  "  list ROOT [--config FILE]\n"

/-- What comes of a command line. -/
def runLine (t : FileTree) (args : List String) : Outcome :=
  match ofArguments {} args with
  | .ok command => command.run t
  | .error .help => .printing t usageText
  | .error .version => .printing t versionText
  | .error .mistake => { files := t, code := 2, complaint := usageText }

end Templating.Command
