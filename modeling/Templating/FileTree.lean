import Templating.Loading

/-!
# Trees of files

A tree holds files and directories, each under the names that lead to it. A path is
followed step by step from the directory in which it begins: every step but the last
must lead to a directory that is there, and a path that ends with a separator must
end at a directory. An absolute path begins at a place of its own, named by the
separator; steps above the beginning stay as they are.

Listing a directory goes through its entries in the order of their names, each
directory directly before what it holds. That is the order in which the tree keeps
them.
-/

namespace Templating

/-- What a place in a tree holds. -/
inductive FileEntry where
  | file (bytes : List UInt8)
  | directory
  deriving DecidableEq, Repr

/-- A tree of files. The keys are the names that lead to an entry, the outermost first;
the place where paths begin is a directory without being listed. -/
structure FileTree where
  entries : Registry (List String) FileEntry := ∅

namespace FileTree

instance : Inhabited FileTree := ⟨{}⟩

/-- Why a path cannot be used. -/
inductive Fault where
  | notFound
  | notDirectory
  | isDirectory
  deriving DecidableEq, Repr

/-- The wording of a fault. -/
def Fault.message : Fault → String
  | .notFound => "No such file or directory (os error 2)"
  | .notDirectory => "Not a directory (os error 20)"
  | .isDirectory => "Is a directory (os error 21)"

/-- What stands at a place. -/
def entry? (t : FileTree) (place : List String) : Option FileEntry :=
  if place = [] then some .directory else t.entries.get? place

/-- The name of the place where absolute paths begin. -/
def top : String := "/"

/-- The place that one step leads to. -/
def step (t : FileTree) (place : List String) (name : String) : Except Fault (List String) :=
  match t.entry? place with
  | none => .error .notFound
  | some (.file _) => .error .notDirectory
  | some .directory =>
    if name = "." ∨ (name = ".." ∧ place = [top]) then .ok place
    else if name = ".." ∧ place ≠ [] ∧ place.getLast? ≠ some ".." then .ok place.dropLast
    else .ok (place ++ [name])

/-- Whether a path ends with a separator. -/
def endsOpen (path : String) : Bool := path.toList.getLast? == some '/'

/-- The place where a path begins. -/
def beginning (path : String) : List String :=
  if path.toList.head? = some '/' then [top] else []

/-- The names of the steps along a path. -/
def names (path : String) : List String :=
  ((Path.splitName path.toList).filter (· ≠ [])).map String.ofList

/-- The place that a path leads to, whether something stands there or not. -/
def locate (t : FileTree) (path : String) : Except Fault (List String) :=
  if path = "" then .error .notFound else (names path).foldlM t.step (beginning path)

/-- What stands at the end of a path. -/
def find (t : FileTree) (path : String) : Except Fault FileEntry :=
  match t.locate path with
  | .error fault => .error fault
  | .ok place =>
    match t.entry? place with
    | none => .error .notFound
    | some .directory => .ok .directory
    | some (.file bytes) => if endsOpen path then .error .notDirectory else .ok (.file bytes)

/-- Whether a path leads to a directory. -/
def isDirectory (t : FileTree) (path : String) : Bool :=
  match t.find path with
  | .ok .directory => true
  | _ => false

/-- Whether a path leads to a file. -/
def isFile (t : FileTree) (path : String) : Bool :=
  match t.find path with
  | .ok (.file _) => true
  | _ => false

/-- The bytes of the file at a path. -/
def read (t : FileTree) (path : String) : Except Fault (List UInt8) :=
  match t.find path with
  | .error fault => .error fault
  | .ok .directory => .error .isDirectory
  | .ok (.file bytes) => .ok bytes

/-- The tree with the bytes in the file at a path, which is made if it is not there. -/
def write (t : FileTree) (path : String) (bytes : List UInt8) : Except Fault FileTree :=
  match t.locate path with
  | .error fault => .error fault
  | .ok place =>
    let written : FileTree := ⟨t.entries.insert place (.file bytes)⟩
    match t.entry? place with
    | some .directory => .error .isDirectory
    | some (.file _) => if endsOpen path then .error .notDirectory else .ok written
    | none => if endsOpen path then .error .isDirectory else .ok written

/-- The tree with an entry at a place, and directories at the places that lead there. -/
def put (t : FileTree) (place : List String) (entry : FileEntry) : FileTree :=
  let leading := (List.range place.length).filterMap fun n =>
    if n = 0 then none else some (place.take n, FileEntry.directory)
  ⟨t.entries.insertAll (leading ++ [(place, entry)])⟩

/-- The entries in the directory at a place, with the names that lead to them from there. -/
def below (t : FileTree) (place : List String) : List (List String × FileEntry) :=
  t.entries.entries.filterMap fun (names, entry) =>
    if place.isPrefixOf names ∧ names ≠ place then some (names.drop place.length, entry) else none

/-- The files below a directory, or the file itself that a path leads to. Their own paths
begin behind `root`. -/
def listing (t : FileTree) (extensions : Extensions) (root : String) : List SourceFile :=
  let unreadable (fault : Fault) : List SourceFile :=
    [⟨root, .error s!"IO error for operation on {root}: {fault.message}"⟩]
  match t.locate root, t.find root with
  | .error fault, _ => unreadable fault
  | _, .error fault => unreadable fault
  | .ok _, .ok (.file bytes) => if (extensions.format? root).isSome then [⟨"", .ok bytes⟩] else []
  | .ok place, .ok .directory =>
    extensions.select ((t.below place).filterMap fun (names, entry) =>
      match entry with
      | .directory => none
      | .file bytes => some ⟨"/".intercalate names, .ok bytes⟩)

end FileTree

end Templating
