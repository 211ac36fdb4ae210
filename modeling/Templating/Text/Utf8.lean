/-!
# UTF-8

The octets of a character (`encodeChar`), and a reader that takes one octet at a
time. Between two characters the reader expects a first octet; inside a character
it knows the bits read so far, how many octets are owed, and the range of the next
one, which is narrower behind a first octet that could otherwise start an overlong
form, a surrogate or a value above `10FFFF`.

An octet that cannot stand where it stands ends the reading: the fault names the
octets before it that belong to the broken character, at least one. Input that
ends inside a character is a fault of its own.
-/

namespace Templating.Text.Utf8

/-- Why octets are not UTF-8. -/
inductive Fault where
  /-- The `length` octets from `index` on start no character. -/
  | invalid (length index : Nat)
  /-- The input ends inside the character that starts at `index`. -/
  | incomplete (index : Nat)
  deriving DecidableEq, Repr

/-- The wording of a fault. -/
def Fault.message : Fault → String
  | .invalid length index => s!"invalid utf-8 sequence of {length} bytes from index {index}"
  | .incomplete index => s!"incomplete utf-8 byte sequence from index {index}"

/-- The octet with the value `n`. -/
def octet (n : Nat) : UInt8 := UInt8.ofNat n

/-- The octets of one character. -/
def encodeChar (c : Char) : List UInt8 :=
  let n := c.toNat
  if n < 0x80 then [octet n]
  else if n < 0x800 then [octet (0xc0 + n / 0x40), octet (0x80 + n % 0x40)]
  else if n < 0x10000 then
    [octet (0xe0 + n / 0x1000), octet (0x80 + n / 0x40 % 0x40), octet (0x80 + n % 0x40)]
  else
    [octet (0xf0 + n / 0x40000), octet (0x80 + n / 0x1000 % 0x40), octet (0x80 + n / 0x40 % 0x40),
      octet (0x80 + n % 0x40)]

/-- The octets of a text. -/
def encode (cs : List Char) : List UInt8 := cs.flatMap encodeChar

/-- A character that is being read. -/
structure Partial where
  /-- The value of the bits read. -/
  bits : Nat
  /-- The octets owed. -/
  owed : Nat
  /-- The least value of the next octet. -/
  least : Nat := 0x80
  /-- The greatest value of the next octet. -/
  greatest : Nat := 0xbf
  /-- The octets read. -/
  read : Nat := 1
  deriving DecidableEq, Repr

/-- What a first octet with the value `b` opens: a character of its own (nothing owed)
or a longer one. -/
def first? (b : Nat) : Option Partial :=
  if b < 0x80 then some { bits := b, owed := 0 }
  else if b < 0xc2 then none
  else if b < 0xe0 then some { bits := b - 0xc0, owed := 1 }
  else if b = 0xe0 then some { bits := 0, owed := 2, least := 0xa0 }
  else if b = 0xed then some { bits := 0xd, owed := 2, greatest := 0x9f }
  else if b < 0xf0 then some { bits := b - 0xe0, owed := 2 }
  else if b = 0xf0 then some { bits := 0, owed := 3, least := 0x90 }
  else if b < 0xf4 then some { bits := b - 0xf0, owed := 3 }
  else if b = 0xf4 then some { bits := 4, owed := 3, greatest := 0x8f }
  else none

/-- The character after one more octet with the value `b`, if it can follow. -/
def Partial.next? (p : Partial) (b : Nat) : Option Partial :=
  if p.least ≤ b ∧ b ≤ p.greatest then
    some { bits := p.bits * 0x40 + (b - 0x80), owed := p.owed - 1, read := p.read + 1 }
  else none

/-- Reads octets on from `index`, which is that of the character being read if there is one. -/
def decodeFrom : Nat → Option Partial → List UInt8 → Except Fault (List Char)
  | _, none, [] => .ok []
  | index, some _, [] => .error (.incomplete index)
  | index, none, b :: bs =>
    match first? b.toNat with
    | none => .error (.invalid 1 index)
    | some p =>
      if p.owed = 0 then (decodeFrom (index + 1) none bs).map (Char.ofNat p.bits :: ·)
      else decodeFrom index (some p) bs
  | index, some p, b :: bs =>
    match p.next? b.toNat with
    | none => .error (.invalid p.read index)
    | some q =>
      if q.owed = 0 then (decodeFrom (index + q.read) none bs).map (Char.ofNat q.bits :: ·)
      else decodeFrom index (some q) bs

/-- The text that the octets spell. -/
def decode (bs : List UInt8) : Except Fault (List Char) := decodeFrom 0 none bs

end Templating.Text.Utf8
