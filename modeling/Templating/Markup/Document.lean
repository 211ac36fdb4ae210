import Templating.Markup.Encoding
import Templating.Markup.Node

/-!
# Documents

A document is a list of nodes with a format, an encoding and possibly a doctype.
The format decides how it is read and written. The names of elements matter only
in HTML: void elements have no content, and the content of raw text elements is
not markup. Both are recognised in any case of letters.
-/

namespace Templating.Markup

/-- The format of a document. -/
inductive Format where
  | html
  | xml
  deriving DecidableEq, Repr, Inhabited

/-- A document. -/
structure Document where
  format : Format
  content : List Node
  encoding : Encoding := .standard
  /-- The body of the doctype declaration. -/
  doctype : Option String := none
  deriving DecidableEq, Inhabited

/-- A name with its ASCII letters in lower case. -/
def foldCase (name : String) : String := name.map Char.toLower

/-- Whether two names differ in nothing but the case of ASCII letters. -/
def sameName (a b : String) : Bool := foldCase a == foldCase b

/-- The HTML elements without content. -/
def voidNames : List String :=
  ["area", "base", "br", "col", "embed", "hr", "img", "input", "link", "meta", "param", "source",
    "track", "wbr"]

/-- The HTML elements whose content is text and not markup. -/
def rawTextNames : List String := ["script", "style"]

/-- Whether the HTML element of this name has no content. -/
def isVoid (name : String) : Bool := voidNames.contains (foldCase name)

/-- Whether the content of the HTML element of this name is raw text. -/
def isRawText (name : String) : Bool := rawTextNames.contains (foldCase name)

end Templating.Markup
