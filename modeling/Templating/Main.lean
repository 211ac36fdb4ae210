import Templating.Command.Line

/-!
# The program

The program reads its command line, takes the files that the command names into a tree,
runs the command on the tree, and prints and writes what comes of it.
-/

namespace Templating

/-- The tree with what stands at a path, and below it if it is a directory. -/
partial def FileTree.takeIn (t : FileTree) (place : List String) (path : String) : IO FileTree := do
  let found ← IO.FS.realPath path
  if ← found.isDir then
    let mut t := t.put place .directory
    for entry in ← found.readDir do
      t ← t.takeIn (place ++ [entry.fileName]) (FileName.join path entry.fileName)
    return t
  else return t.put place (.file (← IO.FS.readBinFile path).toList)

/-- The tree with what stands along a path, which is given by the names of its steps. -/
def FileTree.takeAlong (t : FileTree) (place : List String) (walked : String) :
    List String → IO FileTree
  | [] => return t
  | name :: names =>
    match t.step place name with
    | .error _ => return t
    | .ok place => do
      let walked := walked ++ name
      let t ←
        try
          if ← (← IO.FS.realPath walked).isDir then pure (t.put place .directory)
          else pure (t.put place (.file (← IO.FS.readBinFile walked).toList))
        catch _ => pure t
      t.takeAlong place (walked ++ "/") names

/-- The tree with what stands along a path. -/
def FileTree.takePath (t : FileTree) (path : String) : IO FileTree :=
  let beginning := FileTree.beginning path
  if beginning = [] then t.takeAlong [] "" (FileTree.names path)
  else (t.put beginning .directory).takeAlong beginning "/" (FileTree.names path)

/-- The files that a command works on. -/
def Command.files (command : Command) : IO FileTree := do
  let paths := command.root :: command.config?.toList ++ command.output?.toList
  let t ← paths.foldlM FileTree.takePath {}
  match t.locate command.root with
  | .error _ => return t
  | .ok place => if t.isDirectory command.root then t.takeIn place command.root else return t

/-- Prints what comes of a command line. -/
def Outcome.print (outcome : Outcome) : IO UInt32 := do
  (← IO.getStdout).write ⟨outcome.printed.toArray⟩
  IO.eprint outcome.complaint
  return outcome.code.toUInt32

end Templating

open Templating in
/-- Runs a command line. -/
def main (args : List String) : IO UInt32 := do
  match Command.ofArguments {} args with
  | .error _ => (Command.runLine {} args).print
  | .ok command =>
    let outcome := command.run (← command.files)
    match command.output? with
    | some path =>
      match outcome.code, outcome.files.read path with
      | 0, .ok bytes => IO.FS.writeBinFile path ⟨bytes.toArray⟩
      | _, _ => pure ()
    | none => pure ()
    outcome.print
