import Templating.Text.Utf8
import Templating.Text.Utf16

/-!
# Encodings of documents

A document is read in the encoding that its byte order mark names, and in UTF-8
when it has none. It is written in the encoding it was read in: UTF-16 always
behind a mark, which is why the name of the character set carries no byte order,
and UTF-8 always without one.
-/

namespace Templating.Markup

open Text

/-- The encoding of a document. -/
inductive Encoding where
  | utf8
  | utf16 (order : Utf16.ByteOrder)
  deriving DecidableEq, Repr

namespace Encoding

instance : Inhabited Encoding := ⟨utf8⟩

/-- The encoding of a document for which nothing else is said. -/
def standard : Encoding := .utf8

/-- The name of the character set in a MIME type. -/
def charset : Encoding → String
  | .utf8 => "utf-8"
  | .utf16 _ => "utf-16"

/-- The name of the encoding in an XML declaration. -/
def declared : Encoding → String
  | .utf8 => "UTF-8"
  | .utf16 _ => "UTF-16"

/-- The byte order mark of the encoding. -/
def mark : Encoding → List UInt8
  | .utf8 => [0xef, 0xbb, 0xbf]
  | .utf16 .big => [0xfe, 0xff]
  | .utf16 .little => [0xff, 0xfe]

/-- The bytes of a text. -/
def encode : Encoding → List Char → List UInt8
  | .utf8, cs => Utf8.encode cs
  | .utf16 order, cs => mark (.utf16 order) ++ Utf16.encode order cs

/-- Why bytes are no text. -/
inductive Fault where
  | utf8 (fault : Utf8.Fault)
  | utf16 (fault : Utf16.Fault)
  deriving DecidableEq, Repr

/-- The wording of a fault. -/
def Fault.message : Fault → String
  | .utf8 fault => "invalid UTF-8: " ++ fault.message
  | .utf16 .oddLength => "UTF-16 input has an odd number of bytes"
  | .utf16 (.unpaired unit) =>
    "invalid UTF-16: unpaired surrogate found: " ++ String.ofList (Nat.toDigits 16 unit)

/-- The encoding that the bytes announce, and the bytes behind its mark. -/
def detect : List UInt8 → Encoding × List UInt8
  | 0xef :: 0xbb :: 0xbf :: bs => (.utf8, bs)
  | 0xfe :: 0xff :: bs => (.utf16 .big, bs)
  | 0xff :: 0xfe :: bs => (.utf16 .little, bs)
  | bs => (.utf8, bs)

/-- The text of bytes that are known to be in an encoding. -/
def decodeAs : Encoding → List UInt8 → Except Fault (List Char)
  | .utf8, bs => (Utf8.decode bs).mapError .utf8
  | .utf16 order, bs => (Utf16.decode order bs).mapError .utf16

/-- The encoding of the bytes and the text that they spell. -/
def decode (bs : List UInt8) : Except Fault (Encoding × List Char) :=
  let (encoding, rest) := detect bs
  (decodeAs encoding rest).map (encoding, ·)

end Encoding

end Templating.Markup
