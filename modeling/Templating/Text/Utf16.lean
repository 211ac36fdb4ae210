/-!
# UTF-16

Text as code units of sixteen bits, and code units as pairs of octets in either
order. A character above `FFFF` takes two units, a high and a low surrogate; a
surrogate that is not part of such a pair spells nothing.
-/

namespace Templating.Text.Utf16

/-- The order of the two octets of a code unit. -/
inductive ByteOrder where
  /-- The high octet comes first. -/
  | big
  /-- The low octet comes first. -/
  | little
  deriving DecidableEq, Repr

/-- Why octets are not UTF-16. -/
inductive Fault where
  /-- The octets do not come in pairs. -/
  | oddLength
  /-- The surrogate `unit` is not part of a pair. -/
  | unpaired (unit : Nat)
  deriving DecidableEq, Repr

/-- The code units of one character. -/
def unitsOfChar (c : Char) : List Nat :=
  let n := c.toNat
  if n < 0x10000 then [n]
  else [0xd800 + (n - 0x10000) / 0x400, 0xdc00 + (n - 0x10000) % 0x400]

/-- The octets of a code unit. -/
def octetsOfUnit : ByteOrder → Nat → List UInt8
  | .big, u => [UInt8.ofNat (u / 0x100), UInt8.ofNat (u % 0x100)]
  | .little, u => [UInt8.ofNat (u % 0x100), UInt8.ofNat (u / 0x100)]

/-- The octets of a text. -/
def encode (order : ByteOrder) (cs : List Char) : List UInt8 :=
  cs.flatMap fun c => (unitsOfChar c).flatMap (octetsOfUnit order)

/-- The value of a code unit, given its octets in the order in which they stand. -/
def unitOfOctets : ByteOrder → UInt8 → UInt8 → Nat
  | .big, a, b => a.toNat * 0x100 + b.toNat
  | .little, a, b => b.toNat * 0x100 + a.toNat

/-- The code units that the octets spell, if they come in pairs. -/
def units? (order : ByteOrder) : List UInt8 → Option (List Nat)
  | [] => some []
  | [_] => none
  | a :: b :: bs => (units? order bs).map (unitOfOctets order a b :: ·)

/-- A first half of a pair. -/
def isHigh (u : Nat) : Bool := 0xd800 ≤ u && u < 0xdc00

/-- A second half of a pair. -/
def isLow (u : Nat) : Bool := 0xdc00 ≤ u && u < 0xe000

/-- The text that the code units spell. -/
def decodeUnits : List Nat → Except Fault (List Char)
  | [] => .ok []
  | u :: us =>
    if isHigh u then
      match us with
      | [] => .error (.unpaired u)
      | v :: vs =>
        if isLow v then
          (decodeUnits vs).map
            (Char.ofNat (0x10000 + (u - 0xd800) * 0x400 + (v - 0xdc00)) :: ·)
        else .error (.unpaired u)
    else if isLow u then .error (.unpaired u)
    else (decodeUnits us).map (Char.ofNat u :: ·)

/-- The text that the octets spell. -/
def decode (order : ByteOrder) (bs : List UInt8) : Except Fault (List Char) :=
  match units? order bs with
  | none => .error .oddLength
  | some us => decodeUnits us

end Templating.Text.Utf16
