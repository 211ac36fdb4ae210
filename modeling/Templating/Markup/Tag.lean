import Templating.Markup.Document
import Templating.Text.Blank
import Templating.Text.Cut

/-!
# Inside a tag

The inside of a start tag is a name and a list of attributes. The name is all that
stands before the first separator, and may be empty. Of an attribute, XML demands
`key="value"`, in either kind of quotes; HTML also takes a key alone, whose value is
then empty, and a value without quotes, which ends at a separator. No key may come
twice. A key begins with any character, an equals sign included, and goes on up to
the next equals sign or separator.

Positions are byte offsets in the inside of the tag.
-/

namespace Templating.Markup.Tag

open Text

/-- Why the inside of a tag holds no attribute list. -/
inductive Fault where
  /-- A key is followed by something else than an equals sign. -/
  | keyAlone (position : Nat)
  /-- Nothing follows an equals sign. -/
  | noValue (position : Nat)
  | unquoted (position : Nat)
  | unclosedQuote (position : Nat) (quote : Char)
  /-- A key comes again, after it came at `earlier`. -/
  | duplicate (position earlier : Nat)
  deriving DecidableEq, Repr

/-- The wording of a fault. -/
def Fault.message : Fault → String
  | .keyAlone position =>
    s!"position {position}: attribute key must be directly followed by `=` or space"
  | .noValue position => s!"position {position}: `=` must be followed by an attribute value"
  | .unquoted position =>
    s!"position {position}: attribute value must be enclosed in `\"` or `'`"
  | .unclosedQuote position quote =>
    s!"position {position}: missing closing quote `" ++ String.singleton quote
      ++ "` in attribute value"
  | .duplicate position earlier =>
    s!"position {position}: duplicated attribute, previous declaration at position {earlier}"

/-- The name that the inside of a tag begins with. -/
def name (inside : List Char) : List Char := inside.takeWhile (!isSeparator ·)

/-- The attributes of a tag up to the first fault, with their values as written. -/
structure Listing where
  pairs : List (List Char × List Char)
  fault : Option Fault
  deriving DecidableEq, Repr

namespace Listing

/-- The listing that ends here. -/
def finished : Listing := ⟨[], none⟩

/-- The listing that ends here with a fault. -/
def failed (fault : Fault) : Listing := ⟨[], some fault⟩

/-- The listing with an attribute before it. -/
def cons (key value : List Char) (rest : Listing) : Listing :=
  { rest with pairs := (key, value) :: rest.pairs }

end Listing

/-- Whether a character goes on a key. -/
def inKey (c : Char) : Bool := c != '=' && !isSeparator c

/-- What a key is followed by. -/
inductive AfterKey where
  /-- No value, and the rest from `position` on. -/
  | alone (position : Nat) (rest : List Char)
  /-- A value, whose first character is `first`, at `position`. -/
  | value (position : Nat) (first : Char) (rest : List Char)
  /-- An equals sign, and nothing else. -/
  | equalsOnly
  deriving DecidableEq, Repr

/-- Reads on behind a key that ends at position `i`. -/
def afterKey (i : Nat) (cs : List Char) : AfterKey :=
  let i := i + byteSize (cs.takeWhile isSeparator)
  match cs.dropWhile isSeparator with
  | '=' :: cs =>
    let i := i + 1 + byteSize (cs.takeWhile isSeparator)
    match cs.dropWhile isSeparator with
    | [] => .equalsOnly
    | c :: cs => .value i c cs
  | cs => .alone i cs

/-- The characters that `afterKey` leaves to read. -/
def AfterKey.rest : AfterKey → List Char
  | alone _ rest => rest
  | value _ _ rest => rest
  | equalsOnly => []

theorem length_afterKey (i : Nat) (cs : List Char) : (afterKey i cs).rest.length ≤ cs.length := by
  have skipped := length_dropWhile_le isSeparator cs
  simp only [afterKey]
  split
  · rename_i cs' h
    rw [h] at skipped
    have skipped' := length_dropWhile_le isSeparator cs'
    split
    · simp [AfterKey.rest]
    · rename_i h'
      rw [h'] at skipped'
      simp only [AfterKey.rest, List.length_cons] at *
      omega
  · exact skipped

/-- Reads attributes from position `i` of an inside that takes `stop` bytes; `seen` are
the keys before it, each with its position. -/
def attributesFrom (format : Format) (stop : Nat) (seen : List (List Char × Nat)) (i : Nat)
    (cs : List Char) : Listing :=
  match _hcs : cs.dropWhile isSeparator with
  | [] => .finished
  | c :: behind =>
    let start := i + byteSize (cs.takeWhile isSeparator)
    let key := c :: behind.takeWhile inKey
    let seen' := (key, start) :: seen
    match _hkey : afterKey (start + byteSize key) (behind.dropWhile inKey) with
    | .alone i rest =>
      match format with
      | .xml => .failed (.keyAlone i)
      | .html =>
        match seen.lookup key with
        | some earlier => .failed (.duplicate start earlier)
        | none => .cons key [] (attributesFrom format stop seen' i rest)
    | .equalsOnly =>
      match seen.lookup key with
      | some earlier => .failed (.duplicate start earlier)
      | none => .failed (.noValue stop)
    | .value i first body =>
      match seen.lookup key with
      | some earlier => .failed (.duplicate start earlier)
      | none =>
        if first = '"' ∨ first = '\'' then
          let value := body.takeWhile (· != first)
          match _hvalue : body.dropWhile (· != first) with
          | [] => .failed (.unclosedQuote stop first)
          | _ :: rest =>
            .cons key value (attributesFrom format stop seen' (i + byteSize value + 2) rest)
        else
          match format with
          | .xml => .failed (.unquoted i)
          | .html =>
            let value := first :: body.takeWhile (!isSeparator ·)
            .cons key value
              (attributesFrom format stop seen' (i + byteSize value)
                (body.dropWhile (!isSeparator ·)))
termination_by cs.length
decreasing_by
  all_goals
    have h₁ := length_dropWhile_le isSeparator cs
    rw [_hcs, List.length_cons] at h₁
    have h₂ := length_afterKey (start + byteSize key) (behind.dropWhile inKey)
    rw [_hkey] at h₂
    have h₃ := length_dropWhile_le inKey behind
    simp only [AfterKey.rest] at h₂
  · omega
  · have h₄ := length_dropWhile_le (· != first) body
    rw [_hvalue, List.length_cons] at h₄
    omega
  · have h₄ := length_dropWhile_le (!isSeparator ·) body
    omega

/-- The attributes in the inside of a tag. -/
def attributes (format : Format) (inside : List Char) : Listing :=
  attributesFrom format (byteSize inside) [] (byteSize (name inside))
    (inside.dropWhile (!isSeparator ·))

end Templating.Markup.Tag
