import Templating.Markup.Node

/-!
# Values with placeholders

An attribute value is a sequence of pieces: literal text, and placeholders `$(name)`.
In literal text a backslash stands for the character behind it, and a dollar sign
that opens no placeholder for itself. A placeholder ends at the next closing
parenthesis, whatever stands before it. `parse?` finds the pieces of a value, and
fails on a placeholder that is not closed, on a backslash at the end, and on the
empty value, which has no pieces.

`substitute` fills the placeholders. A value in which nothing opens a placeholder is
not looked at any further: it keeps its backslashes. Otherwise the value of a name
is the text of the nodes that the lookup gives for it, and a value without pieces
becomes empty.
-/

namespace Templating.Interpolation

/-- A piece of a value. -/
inductive Piece where
  | literal (text : String)
  | placeholder (name : String)
  deriving DecidableEq, Repr

/-- The literal piece of the characters read, the last one first; none if there are none. -/
def flush (read : List Char) : List Piece :=
  if read = [] then [] else [.literal (String.ofList read.reverse)]

/-- The pieces of the rest of a value, behind literal characters (the last one first) or
inside a placeholder whose name has been read so far (the last character first). -/
def piecesFrom (read : List Char) : Option (List Char) → List Char → Option (List Piece)
  | some _, [] => none
  | some name, c :: cs =>
    if c = ')' then
      (piecesFrom [] none cs).map (.placeholder (String.ofList name.reverse) :: ·)
    else piecesFrom read (some (c :: name)) cs
  | none, [] => some (flush read)
  | none, ['\\'] => none
  | none, '\\' :: c :: cs => piecesFrom (c :: read) none cs
  | none, '$' :: '(' :: cs => (piecesFrom [] (some []) cs).map (flush read ++ ·)
  | none, c :: cs => piecesFrom (c :: read) none cs

/-- The pieces of a value. -/
def parse? (raw : String) : Option (List Piece) :=
  match piecesFrom [] none raw.toList with
  | some [] => none
  | pieces => pieces

/-- Whether a dollar sign with an opening parenthesis stands somewhere in the text. -/
def mentionsPlaceholder : List Char → Bool
  | '$' :: '(' :: _ => true
  | _ :: cs => mentionsPlaceholder cs
  | [] => false

section

variable {m : Type → Type} [Monad m] (lookup : String → m (Option (List Markup.Node)))

/-- The text of pieces, from left to right. A name that the lookup does not know adds
nothing. -/
def fill : List Piece → m String
  | [] => return ""
  | .literal text :: pieces => return text ++ (← fill pieces)
  | .placeholder name :: pieces => do
    let found ← lookup name
    return Markup.Node.textOfAll (found.getD []) ++ (← fill pieces)

/-- A value with its placeholders filled. -/
def substitute (raw : String) : m String :=
  if mentionsPlaceholder raw.toList then
    match parse? raw with
    | none => return ""
    | some pieces => fill lookup pieces
  else return raw

end

/-! ### Spelling pieces -/

/-- A character of literal text: those with a meaning get a backslash. -/
def spellChar (c : Char) : List Char := if c = '\\' ∨ c = '$' then ['\\', c] else [c]

/-- A piece as it is written in a value. -/
def Piece.spelling : Piece → List Char
  | .literal text => text.toList.flatMap spellChar
  | .placeholder name => '$' :: '(' :: name.toList ++ [')']

/-- Pieces as they are written in a value. -/
def spell (pieces : List Piece) : String := String.ofList (pieces.flatMap Piece.spelling)

end Templating.Interpolation
