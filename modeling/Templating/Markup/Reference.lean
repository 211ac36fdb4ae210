import Templating.Markup.Reference.LowerNames
import Templating.Markup.Reference.UpperNames
import Templating.Text.Cut

/-!
# Character references

A reference stands for one character and is written `&name;`, `&#digits;` or
`&#xdigits;`. `decode` replaces the references of a text and fails on the first one
that is broken or unknown; `escapeText` and `escapeValue` write characters that
markup gives a meaning to as references.

Names are those of HTML, with the semicolon. A name whose character has a code
point of three or five hexadecimal digits stands for the code point without the
last of them, a few names excepted.

## What is proved

* `decode_escapeText`, `decode_escapeValue` — reading what was escaped gives the
  text back, in either form.
-/

namespace Templating.Markup.Reference

open Text

/-- Why the text of a reference stands for no character. Ranges are byte offsets. -/
inductive Fault where
  /-- No semicolon comes before the next ampersand or the end of the text. -/
  | unterminated (start stop : Nat)
  /-- No character has this name. -/
  | unknown (start stop : Nat) (name : String)
  /-- A sign stands before the digits. -/
  | sign
  | noDigits
  | badDigit
  /-- The number does not fit in 32 bits. -/
  | tooLarge
  | notACharacter (code : Nat)
  /-- The number is zero. -/
  | null
  deriving DecidableEq, Repr

/-- The wording of a fault. -/
def Fault.message : Fault → String
  | .unterminated start stop =>
    s!"Error while escaping character at range {start}..{stop}: Cannot find ';' after '&'"
  | .unknown start stop name => s!"at {start}..{stop}: unrecognized entity `" ++ name ++ "`"
  | .sign => "invalid character reference: unexpected number sign"
  | .noDigits => "invalid character reference: cannot parse integer from empty string"
  | .badDigit => "invalid character reference: invalid digit found in string"
  | .tooLarge => "invalid character reference: number too large to fit in target type"
  | .notACharacter code => s!"invalid character reference: `{code}` is not a valid codepoint"
  | .null => "invalid character reference: 0x0 character is not permitted in XML"

/-! ### Single references -/

/-- The value of a digit in base `base`. -/
def digit? (base : Nat) (c : Char) : Option Nat :=
  let value :=
    if '0' ≤ c ∧ c ≤ '9' then some (c.toNat - '0'.toNat)
    else if 'a' ≤ c ∧ c ≤ 'f' then some (c.toNat - 'a'.toNat + 10)
    else if 'A' ≤ c ∧ c ≤ 'F' then some (c.toNat - 'A'.toNat + 10)
    else none
  value.filter (· < base)

/-- The number that the digits write behind a number `n`, if it stays below `2^32`. -/
def numberFrom (base : Nat) (n : Nat) : List Char → Except Fault Nat
  | [] => .ok n
  | c :: cs =>
    match digit? base c with
    | none => .error .badDigit
    | some d =>
      if n * base + d < 2 ^ 32 then numberFrom base (n * base + d) cs else .error .tooLarge

/-- The number that the digits write. -/
def number (base : Nat) : List Char → Except Fault Nat
  | [] => .error .noDigits
  | c :: cs => if c = '+' ∨ c = '-' then .error .sign else numberFrom base 0 (c :: cs)

/-- The character with a code point. -/
def character (code : Nat) : Except Fault Char :=
  if code = 0 then .error .null
  else if code.isValidChar then .ok (Char.ofNat code)
  else .error (.notACharacter code)

/-- The names that stand for the characters with a meaning in markup. -/
def markupNames : List (String × Char) :=
  [("lt", '<'), ("gt", '>'), ("amp", '&'), ("apos", '\''), ("quot", '"')]

/-- The character with a name. -/
def named? (name : List Char) : Option Char :=
  match markupNames.lookup (String.ofList name) with
  | some c => some c
  | none =>
    name.head?.bind fun initial =>
      ((lowerTables ++ upperTables).lookup initial).bind fun table =>
        (table.lookup (String.ofList name)).map Char.ofNat

/-- The character that `body` refers to, where `start` is its position. -/
def resolve (start : Nat) : List Char → Except Fault Char
  | '#' :: 'x' :: digits => (number 16 digits).bind character
  | '#' :: digits => (number 10 digits).bind character
  | name =>
    match named? name with
    | some c => .ok c
    | none => .error (.unknown start (start + byteSize name) (String.ofList name))

/-! ### Texts with references -/

/-- A reference that is being read: where its ampersand stands, and the characters
behind it, the last one first. -/
structure Opened where
  start : Nat
  body : List Char
  deriving DecidableEq, Repr

/-- Reads on from position `i` of a text that ends at position `stop`. -/
def decodeFrom (stop : Nat) : Nat → Option Opened → List Char → Except Fault (List Char)
  | _, none, [] => .ok []
  | _, some r, [] => .error (.unterminated r.start stop)
  | i, none, c :: cs =>
    if c = '&' then decodeFrom stop (i + 1) (some ⟨i, []⟩) cs
    else (decodeFrom stop (i + c.utf8Size) none cs).map (c :: ·)
  | i, some r, c :: cs =>
    if c = ';' then
      match resolve (r.start + 1) r.body.reverse with
      | .ok d => (decodeFrom stop (i + 1) none cs).map (d :: ·)
      | .error fault => .error fault
    else if c = '&' then .error (.unterminated r.start stop)
    else decodeFrom stop (i + c.utf8Size) (some { r with body := c :: r.body }) cs

/-- The text with its references replaced by the characters they stand for. -/
def decode (cs : List Char) : Except Fault (List Char) := decodeFrom (byteSize cs) 0 none cs

/-- The text with its references replaced, or as written if one of them is at fault. -/
def decodeOrKeep (cs : List Char) : List Char :=
  match decode cs with
  | .ok decoded => decoded
  | .error _ => cs

/-! ### Escaping -/

/-- A character of text: the three that could open markup are written as references. -/
def escapeTextChar : Char → List Char
  | '<' => ['&', 'l', 't', ';']
  | '>' => ['&', 'g', 't', ';']
  | '&' => ['&', 'a', 'm', 'p', ';']
  | c => [c]

/-- A character of an attribute value: quotes are written as references too. -/
def escapeValueChar : Char → List Char
  | '\'' => ['&', 'a', 'p', 'o', 's', ';']
  | '"' => ['&', 'q', 'u', 'o', 't', ';']
  | c => escapeTextChar c

/-- Text in the form that it takes between tags. -/
def escapeText (cs : List Char) : List Char := cs.flatMap escapeTextChar

/-- Text in the form that it takes inside the quotes of an attribute. -/
def escapeValue (cs : List Char) : List Char := cs.flatMap escapeValueChar

/-! ### Reading what was escaped -/

/-- One character is read back from its form `form`, whatever follows. -/
def ReadsBack (form : Char → List Char) : Prop :=
  ∀ (stop i : Nat) (c : Char) (rest : List Char),
    decodeFrom stop i none (form c ++ rest) =
      (decodeFrom stop (i + byteSize (form c)) none rest).map (c :: ·)

theorem readsBack_plain (stop i : Nat) {c : Char} (h : c ≠ '&') (rest : List Char) :
    decodeFrom stop i none ([c] ++ rest) =
      (decodeFrom stop (i + byteSize [c]) none rest).map (c :: ·) := by
  simp [decodeFrom, h]

theorem readsBack_escapeTextChar : ReadsBack escapeTextChar := by
  intro stop i c rest
  unfold escapeTextChar
  split
  · rfl
  · rfl
  · rfl
  · rename_i h
    exact readsBack_plain stop i h rest

theorem readsBack_escapeValueChar : ReadsBack escapeValueChar := by
  intro stop i c rest
  unfold escapeValueChar
  split
  · rfl
  · rfl
  · exact readsBack_escapeTextChar stop i _ rest

theorem decodeFrom_flatMap {form : Char → List Char} (h : ReadsBack form) (stop : Nat) :
    ∀ (i : Nat) (cs : List Char), decodeFrom stop i none (cs.flatMap form) = .ok cs
  | _, [] => rfl
  | i, c :: cs => by
    rw [List.flatMap_cons, h stop i c, decodeFrom_flatMap h stop _ cs]
    rfl

/-- **Text** is read back from its escaped form. -/
theorem decode_escapeText (cs : List Char) : decode (escapeText cs) = .ok cs :=
  decodeFrom_flatMap readsBack_escapeTextChar _ 0 cs

/-- **Attribute values** are read back from their escaped form. -/
theorem decode_escapeValue (cs : List Char) : decode (escapeValue cs) = .ok cs :=
  decodeFrom_flatMap readsBack_escapeValueChar _ 0 cs

end Templating.Markup.Reference
