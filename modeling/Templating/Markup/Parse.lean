import Templating.Markup.Forest

/-!
# Reading documents
-/

namespace Templating.Markup

/-- The document that a source spells. -/
def parseText (format : Format) (source : List Char) : Except Error Document :=
  ((Stream.ofSource format source).build format).map fun b =>
    { format, content := b.content, doctype := b.doctype }

/-- The document that the bytes spell, in the encoding that they announce. -/
def parse (format : Format) (bytes : List UInt8) : Except Error Document :=
  match Encoding.decode bytes with
  | .error fault => .error (.encoding fault)
  | .ok (encoding, source) => (parseText format source).map ({ · with encoding })

end Templating.Markup
