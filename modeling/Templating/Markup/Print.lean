import Templating.Markup.Document
import Templating.Markup.Reference

/-!
# Writing documents

Text and attribute values are escaped; comments, CDATA sections, processing
instructions and the content of raw text elements are written as they are. In XML
an element without children is an empty tag. In HTML it has a start tag and an end
tag, but a void element has no end tag.

A document begins with an XML declaration if it is XML, and with its doctype, if it
has one, on a line of its own.
-/

namespace Templating.Markup

namespace Print

/-- An attribute in a tag, with the space before it. -/
def pair (a : Attribute) : String :=
  " " ++ a.name ++ "=\"" ++ String.ofList (Reference.escapeValue a.value.toList) ++ "\""

/-- The attributes in a tag. -/
def attributes : List Attribute → String
  | [] => ""
  | a :: rest => pair a ++ attributes rest

mutual

/-- A node in markup. -/
def node (format : Format) : Node → String
  | .element name as children =>
    let opening := "<" ++ name ++ attributes as
    let closing := "</" ++ name ++ ">"
    match format with
    | .xml =>
      if children.isEmpty then opening ++ "/>"
      else opening ++ ">" ++ nodes .xml children ++ closing
    | .html =>
      if isVoid name && children.isEmpty then opening ++ ">"
      else if isRawText name then opening ++ ">" ++ Node.textOfAll children ++ closing
      else opening ++ ">" ++ nodes .html children ++ closing
  | .text content => String.ofList (Reference.escapeText content.toList)
  | .comment content => "<!--" ++ content ++ "-->"
  | .cdata content => "<![CDATA[" ++ content ++ "]]>"
  | .instruction content => "<?" ++ content ++ "?>"

/-- A list of nodes in markup. -/
def nodes (format : Format) : List Node → String
  | [] => ""
  | n :: ns => node format n ++ nodes format ns

end

/-- What an XML document begins with. -/
def declaration (encoding : Encoding) : String :=
  "<?xml version=\"1.0\" encoding=\"" ++ encoding.declared ++ "\"?>\n"

/-- A doctype on its line. -/
def doctypeLine : Option String → String
  | none => ""
  | some body => "<!DOCTYPE " ++ body ++ ">\n"

/-- A document as text. -/
def documentText (doc : Document) : String :=
  (match doc.format with
    | .html => ""
    | .xml => declaration doc.encoding)
    ++ doctypeLine doc.doctype ++ nodes doc.format doc.content

end Print

/-- The bytes of a document, in its encoding. -/
def Document.bytes (doc : Document) : List UInt8 :=
  doc.encoding.encode (Print.documentText doc).toList

/-- The MIME type of a document. -/
def Document.mimeType (doc : Document) : String :=
  (match doc.format with
    | .html => "text/html"
    | .xml => "text/xml")
    ++ ";charset=" ++ doc.encoding.charset

end Templating.Markup
