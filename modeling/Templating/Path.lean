/-!
# Paths of templates

A path is a sequence of segments. They are kept innermost first, so that the parent
of a path is the tail of its segments and a child is a segment in front of them.
Paths are ordered by their segments in the order in which they are kept.

Reading a path from a name drops empty segments, and so the separators at either end
and all but one of several in a row.
-/

namespace Templating

/-- A path in the tree of templates. -/
structure Path where
  /-- The segments, innermost first. -/
  inward : List String
  deriving DecidableEq, Repr

namespace Path

instance : Ord Path := ⟨fun p q => compare p.inward q.inward⟩

instance : Std.TransOrd Path where
  eq_swap {p q} := Std.OrientedCmp.eq_swap (a := p.inward) (b := q.inward)
  isLE_trans {p q r} := Std.TransCmp.isLE_trans (a := p.inward) (b := q.inward) (c := r.inward)

instance : Std.LawfulEqOrd Path where
  compare_self {p} := Std.ReflCmp.compare_self (a := p.inward)
  eq_of_compare {p q} h := by
    obtain ⟨xs⟩ := p
    obtain ⟨ys⟩ := q
    exact congrArg Path.mk (Std.LawfulEqCmp.eq_of_compare h)

/-- The path without segments. -/
def root : Path := ⟨[]⟩

instance : Inhabited Path := ⟨root⟩

/-- The pieces between the separators of a name. -/
def splitName : List Char → List (List Char)
  | [] => [[]]
  | c :: cs =>
    if c = '/' then [] :: splitName cs
    else
      match splitName cs with
      | [] => [[c]]
      | piece :: pieces => (c :: piece) :: pieces

/-- The path of segments that stand outermost first. -/
def ofSegments (segments : List String) : Path := ⟨segments.reverse⟩

/-- The path that a name spells. -/
def parse (name : String) : Path :=
  ofSegments (((splitName name.toList).filter (· ≠ [])).map String.ofList)

/-- The segments, outermost first. -/
def segments (p : Path) : List String := p.inward.reverse

/-- The path as a name. -/
def display (p : Path) : String := "/".intercalate p.segments

/-- Whether the path has no segments. -/
def isRoot (p : Path) : Bool := p.inward.isEmpty

/-- The number of segments. -/
def length (p : Path) : Nat := p.inward.length

/-- The path of `name` in this directory. -/
def child (p : Path) (name : String) : Path := ⟨name :: p.inward⟩

/-- The directory of the path. The root is its own. -/
def parent (p : Path) : Path := ⟨p.inward.tail⟩

/-- The path `inner` taken from this directory. -/
def nest (p inner : Path) : Path := ⟨inner.inward ++ p.inward⟩

/-- The innermost segment and the directory that it is in. -/
def leaf? (p : Path) : Option (String × Path) :=
  match p.inward with
  | [] => none
  | name :: dir => some (name, ⟨dir⟩)

/-- The path and the directories above it, the root last. -/
def ancestors (p : Path) : List Path := go p.inward
where
  go : List String → List Path
    | [] => [root]
    | name :: dir => ⟨name :: dir⟩ :: go dir

end Path

end Templating
