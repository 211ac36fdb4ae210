import Templating.Text.Unprintable

/-!
# Quoted text

A text in quotes, in which every character can be seen: a quote and a backslash have a
backslash before them, tabs, line ends and the null character have names, and any
other unprintable character stands as its code point.
-/

namespace Templating.Text.Quoted

/-- The text of a code point in hexadecimal digits, without leading zeros. -/
def hexadecimal (n : Nat) : List Char := Nat.toDigits 16 n

/-- A character as it stands between quotes. -/
def escapeChar (c : Char) : List Char :=
  match c with
  | '"' => ['\\', '"']
  | '\\' => ['\\', '\\']
  | '\t' => ['\\', 't']
  | '\n' => ['\\', 'n']
  | '\r' => ['\\', 'r']
  | '\x00' => ['\\', '0']
  | c =>
    if isUnprintable c then ['\\', 'u', '\x7b'] ++ hexadecimal c.toNat ++ ['\x7d'] else [c]

/-- A text in quotes. -/
def quote (s : String) : String := "\"" ++ String.ofList (s.toList.flatMap escapeChar) ++ "\""

/-- Texts in quotes as a list in brackets. -/
def list (texts : List String) : String := "[" ++ ", ".intercalate (texts.map quote) ++ "]"

end Templating.Text.Quoted
