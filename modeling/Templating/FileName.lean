import Templating.Path

/-!
# Names of files

A file path is a sequence of steps between separators; empty steps and single dots
lead nowhere. The last step is the name of a file unless it leads upwards. The
extension of a name is what follows its last dot, if something precedes that dot.

The template of a file is named by the steps of its path, the extension of the last
one taken off, without those that are no names.
-/

namespace Templating.FileName

/-- The steps of a path that lead somewhere. -/
def steps (path : String) : List String :=
  ((Path.splitName path.toList).map String.ofList).filter fun s => s ≠ "" ∧ s ≠ "."

/-- The parts of a name before and after its last dot. -/
def splitAtLastDot (name : String) : Option (String × String) :=
  let backwards := name.toList.reverse
  match backwards.dropWhile (· ≠ '.') with
  | [] => none
  | _ :: stem =>
    some (String.ofList stem.reverse,
      String.ofList (backwards.takeWhile (· ≠ '.')).reverse)

/-- A name without its extension, and the extension if it has one. -/
def splitExtension (name : String) : String × Option String :=
  match splitAtLastDot name with
  | some (stem, extension) => if stem = "" then (name, none) else (stem, some extension)
  | none => (name, none)

/-- The name of the file at a path, if the path does not end upwards. -/
def last? (path : String) : Option String := (steps path).getLast?.filter (· ≠ "..")

/-- The extension of the file at a path. -/
def extension? (path : String) : Option String := (last? path).bind fun n => (splitExtension n).2

/-- The path of the template in a file. -/
def templatePath (path : String) : Path :=
  let all := steps path
  let named :=
    match last? path with
    | none => all
    | some name => all.dropLast ++ [(splitExtension name).1]
  .ofSegments (named.filter fun s => s ≠ "" ∧ s ≠ "." ∧ s ≠ "..")

/-- The path of a file in a directory. -/
def join (directory name : String) : String :=
  if directory = "" ∨ directory.toList.getLast? = some '/' then directory ++ name
  else directory ++ "/" ++ name

end Templating.FileName
