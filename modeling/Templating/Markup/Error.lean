import Templating.Markup.Encoding
import Templating.Markup.Reference
import Templating.Markup.Tag
import Templating.Markup.Token

/-!
# Errors of reading

Every way in which reading a document can fail, with its wording and, where it has
one, its position: a byte offset in the source.
-/

namespace Templating.Markup

/-- Why a source is not a document. -/
inductive Error where
  /-- The bytes are no text. -/
  | encoding (fault : Encoding.Fault)
  /-- The source does not go on with a token. -/
  | token (fault : Token.Fault) (position : Nat)
  /-- The inside of a tag has no attribute list. -/
  | tag (fault : Tag.Fault)
  /-- A reference in text is at fault; the text ends at the position. -/
  | text (fault : Reference.Fault) (position : Nat)
  /-- A reference in an attribute value is at fault; the tag ends at the position. -/
  | value (fault : Reference.Fault) (position : Nat)
  /-- A raw text would begin at the position, which lies inside a character. -/
  | splitCharacter (position : Nat)
  /-- The source ends with an element open; `name` is the innermost one. -/
  | unclosed (name : String)
  /-- An end tag does not fit the innermost open element. -/
  | mismatched (expected found : String)
  /-- An end tag stands where no element is open. -/
  | stray (name : String)
  deriving DecidableEq, Repr

/-- The wording of an error. -/
def Error.message : Error → String
  | .encoding fault => "encoding error: " ++ fault.message
  | .token fault _ => "syntax error: " ++ fault.message
  | .tag fault => "syntax error: attribute error: " ++ fault.message
  | .text fault _ => "syntax error: invalid text content: " ++ fault.message
  | .value fault _ => "syntax error: invalid attribute value: " ++ fault.message
  | .splitCharacter position => s!"byte index {position} is not a char boundary"
  | .unclosed name => "unexpected end of input, expected closing tag </" ++ name ++ ">"
  | .mismatched expected found =>
    "mismatched end tag: expected </" ++ expected ++ ">, found </" ++ found ++ ">"
  | .stray name => "unexpected closing tag </" ++ name ++ ">"

/-- The position of an error that has one. -/
def Error.position? : Error → Option Nat
  | .token fault position => some (position + fault.offset)
  | .text _ position => some position
  | .value _ position => some position
  | .splitCharacter position => some position
  | _ => none

end Templating.Markup
