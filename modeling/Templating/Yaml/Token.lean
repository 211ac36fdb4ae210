import Templating.Yaml.Scalar

/-!
# Tokens

The words of a YAML text. Anchors are numbered as they come, and an alias has the
number that its name has at that place.

This module reads the tokens that are words of their own: tags, and the directives
before a document.
-/

namespace Templating.Yaml

/-- A tag: a handle, and what follows it. -/
structure Tag where
  handle : List Char
  suffix : List Char
  deriving DecidableEq, Repr

/-- A word of a text. -/
inductive Token where
  | version (major minor : Nat)
  /-- The declaration of what a handle stands for. -/
  | handle (name meaning : List Char)
  | documentStart
  | documentEnd
  | blockSequence
  | blockMapping
  | blockEnd
  | flowSequence
  | flowSequenceEnd
  | flowMapping
  | flowMappingEnd
  | blockEntry
  | flowEntry
  | key
  | value
  | alias (anchor : Nat)
  | anchor (number : Nat)
  | tag (tag : Tag)
  | scalar (text : String) (style : Style)
  deriving DecidableEq, Repr

namespace Token

/-! ### Names -/

/-- The characters that may stand behind the name of an anchor, those that end a word
apart. -/
def isAnchorEnd (c : Char) : Bool := "?:,]\x7d%@`".toList.contains c

/-- Reads the name of an anchor behind its sign. -/
def readAnchorName (c : Cursor) : Option (String × Cursor) :=
  let (name, next) := c.span isNameCharacter
  if name ≠ [] ∧ (endsWord (next.peek 0) ∨ (next.peek 0).any isAnchorEnd) then
    some (String.ofList name, next)
  else none

/-! ### Tags -/

/-- What tags are made of. The signs of flow collections belong to it only in brackets. -/
def isTagCharacter (bracketed : Bool) (c : Char) : Bool :=
  isNameCharacter c || ";/?:@&=+$.%!~*'()".toList.contains c ||
    (bracketed && ",[]".toList.contains c)

/-- How many octets a character has whose first octet is this. -/
def octetCount? (n : Nat) : Option Nat :=
  if n < 0x80 then some 1
  else if n < 0xc0 then none
  else if n < 0xe0 then some 2
  else if n < 0xf0 then some 3
  else if n < 0xf8 then some 4
  else none

/-- Reads an octet that is written as a percent sign and two digits. -/
def readOctet : List Char → Option (Nat × List Char)
  | '%' :: a :: b :: rest => do
    let high ← hexValue? a
    let low ← hexValue? b
    return (high * 16 + low, rest)
  | _ => none

/-- What tag characters stand for, with `pending` octets still to come of the character
begun. Each octet that is written in digits stands as the character of its number. -/
def decodeTag : Nat → List Char → Option (List Char)
  | 0, [] => some []
  | _ + 1, [] => none
  | pending, '%' :: a :: b :: rest =>
    match readOctet ['%', a, b], pending with
    | none, _ => none
    | some (n, _), 0 => (octetCount? n).bind fun count =>
      (decodeTag (count - 1) rest).map (Char.ofNat n :: ·)
    | some (n, _), pending + 1 =>
      if 0x80 ≤ n ∧ n < 0xc0 then (decodeTag pending rest).map (Char.ofNat n :: ·) else none
  | 0, c :: rest => if c = '%' then none else (decodeTag 0 rest).map (c :: ·)
  | _ + 1, _ :: _ => none

/-- Reads tag characters, at least one unless `optional` says otherwise. -/
def readTagText (bracketed optional : Bool) (c : Cursor) : Option (List Char × Cursor) :=
  let (run, next) := c.span (isTagCharacter bracketed)
  if run = [] ∧ !optional then none else (decodeTag 0 run).map (·, next)

/-- Reads an exclamation mark, a name and the second mark, if there is one. -/
def readHandle (c : Cursor) : Option (List Char × Cursor) :=
  if c.peek 0 = some '!' then
    let (name, next) := (c.skip 1).span isNameCharacter
    if next.peek 0 = some '!' then some ('!' :: name ++ ['!'], next.skip 1)
    else some ('!' :: name, next)
  else none

/-- Whether a handle has a second mark. -/
def isNamedHandle (mark : List Char) : Bool := 1 < mark.length && mark.getLast? = some '!'

/-- Reads the tag in brackets, or the handle and what follows it. The handle of a tag that
is only a mark is empty. -/
def readTagBody (c : Cursor) : Option (Tag × Cursor) :=
  if c.peek 1 = some '<' then do
    let (suffix, next) ← readTagText true false (c.skip 2)
    if next.peek 0 = some '>' then some (⟨[], suffix⟩, next.skip 1) else none
  else do
    let (mark, next) ← readHandle c
    if isNamedHandle mark then
      let (suffix, next) ← readTagText false false next
      return (⟨mark, suffix⟩, next)
    else
      let (more, next) ← readTagText false true next
      let suffix := mark.tail ++ more
      return (if suffix = [] then ⟨[], ['!']⟩ else ⟨['!'], suffix⟩, next)

/-- Reads a tag, which must end as a word. -/
def readTag (flow : Bool) (c : Cursor) : Option (Token × Cursor) := do
  let (found, next) ← readTagBody c
  if endsWord (next.peek 0) || (flow && next.peek 0 = some ',') then some (.tag found, next)
  else none

/-! ### Directives -/

/-- Reads a number of at most nine digits. -/
def readVersionNumber (c : Cursor) : Option (Nat × Cursor) :=
  let (digits, next) := c.span Char.isDigit
  if digits = [] ∨ 9 < digits.length then none
  else some (digits.foldl (fun n d => n * 10 + (d.toNat - '0'.toNat)) 0, next)

/-- Reads what follows the name of a version directive. -/
def readVersion (c : Cursor) : Option (Token × Cursor) := do
  let (major, c) ← readVersionNumber c.skipSpaces
  if c.peek 0 = some '.' then
    let (minor, c) ← readVersionNumber (c.skip 1)
    return (.version major minor, c)
  else none

/-- Reads what follows the name of a directive that declares a handle. -/
def readHandleMeaning (c : Cursor) : Option (Token × Cursor) := do
  let (mark, c) ← readHandle c.skipSpaces
  if mark = ['!'] ∨ isNamedHandle mark then
    if (c.peek 0).any isSpace then
      let (meaning, c) ← readTagText true false c.skipSpaces
      if endsWord (c.peek 0) then some (.handle mark meaning, c) else none
    else none
  else none

/-- Reads a directive up to the beginning of the next line. There are two of them. -/
def readDirective (c : Cursor) : Option (Token × Cursor) := do
  let (name, c) := (c.skip 1).span isNameCharacter
  if endsWord (c.peek 0) then
    let (token, c) ←
      match String.ofList name with
      | "YAML" => readVersion c
      | "TAG" => readHandleMeaning c
      | _ => none
    return (token, ← c.endLine?)
  else none

end Token

end Templating.Yaml
