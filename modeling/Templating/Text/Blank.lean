/-!
# Blank characters

Three classes of blank characters are in use. Markup separates names and
attributes by four of them (`isSeparator`). An end tag may also be followed by a
form feed (`isAsciiBlank`). Text counts as blank, and is trimmed, by the full
class `isBlank`: the characters with the Unicode property `White_Space`.

## What is proved

* `isSeparator_isAsciiBlank`, `isAsciiBlank_isBlank` — each class is in the next.
* `trim_of_all_blank` — blank text trims to nothing.
-/

namespace Templating.Text

/-- What separates names and attributes inside a tag. -/
def isSeparator (c : Char) : Bool := c = ' ' || c = '\t' || c = '\r' || c = '\n'

/-- The blank characters of ASCII, the vertical tab apart. -/
def isAsciiBlank (c : Char) : Bool := isSeparator c || c = '\x0c'

/-- The ranges of the Unicode property `White_Space`, in ascending order. -/
def blankRanges : List (Nat × Nat) :=
  [(0x9, 0xd), (0x20, 0x20), (0x85, 0x85), (0xa0, 0xa0), (0x1680, 0x1680), (0x2000, 0x200a),
    (0x2028, 0x2029), (0x202f, 0x202f), (0x205f, 0x205f), (0x3000, 0x3000)]

/-- The Unicode property `White_Space`. -/
def isBlank (c : Char) : Bool := blankRanges.any fun (lo, hi) => lo ≤ c.toNat && c.toNat ≤ hi

/-- Text without its leading and trailing blanks. -/
def trim (cs : List Char) : List Char :=
  ((cs.dropWhile isBlank).reverse.dropWhile isBlank).reverse

/-- Whether text holds nothing but blanks. -/
def allBlank (cs : List Char) : Bool := cs.all isBlank

theorem isSeparator_isAsciiBlank {c : Char} (h : isSeparator c = true) : isAsciiBlank c = true := by
  simp [isAsciiBlank, h]

theorem isAsciiBlank_isBlank {c : Char} (h : isAsciiBlank c = true) : isBlank c = true := by
  simp only [isAsciiBlank, isSeparator, Bool.or_eq_true, decide_eq_true_eq] at h
  rcases h with (((rfl | rfl) | rfl) | rfl) | rfl <;> decide

theorem trim_of_all_blank {cs : List Char} (h : allBlank cs = true) : trim cs = [] := by
  have : cs.dropWhile isBlank = [] := by
    induction cs with
    | nil => rfl
    | cons c cs ih =>
      simp only [allBlank, List.all_cons, Bool.and_eq_true] at h ih
      simp [List.dropWhile, h.1, ih h.2]
  simp [trim, this]

end Templating.Text
