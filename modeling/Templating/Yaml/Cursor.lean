/-!
# Places in a YAML text

A cursor stands at a place in a text and knows its line, its column and how many
characters precede it. Lines end with a line feed, a carriage return, both of them in
this order, a next line character, or a line or paragraph separator.

## What is proved

* `length_skip_lt`, `length_newLine_lt` — a step leaves less of the text.
* `length_skipComment_le`, `length_skipMargin_le` — what separates tokens in a line leaves no more
  of it, so that the next token is reached (`skipBlank`).
-/

namespace Templating.Yaml

/-! ### Characters -/

/-- What ends a line. -/
def isBreak (c : Char) : Bool :=
  c = '\n' || c = '\r' || c = '\u0085' || c = '\u2028' || c = '\u2029'

/-- What separates words in a line. -/
def isSpace (c : Char) : Bool := c = ' ' || c = '\t'

/-- What names of anchors, tags and directives are made of. -/
def isNameCharacter (c : Char) : Bool := c.isAlphanum || c = '_' || c = '-'

/-- The characters that may occur in a text. -/
def isAllowed (c : Char) : Bool :=
  c = '\t' || c = '\n' || c = '\r' || (0x20 ≤ c.toNat && c.toNat ≤ 0x7e) || c = '\u0085' ||
    (0xa0 ≤ c.toNat && c.toNat ≤ 0xfffd) || 0x10000 ≤ c.toNat

/-- Whether a word ends before a character, or at the end of the text. -/
def endsWord : Option Char → Bool
  | none => true
  | some c => isSpace c || isBreak c

/-- The character that a line end stands for in a scalar. -/
def breakText (c : Char) : Char := if c = '\u2028' ∨ c = '\u2029' then c else '\n'

/-! ### Cursors -/

/-- A place in a text. -/
structure Cursor where
  rest : List Char
  /-- How many characters precede the place. -/
  index : Nat := 0
  line : Nat := 0
  column : Nat := 0
  deriving Repr

namespace Cursor

/-- The character at a distance from the place. -/
def peek (c : Cursor) (n : Nat) : Option Char := c.rest[n]?

/-- The place `n` characters on in the same line. -/
def skip (c : Cursor) (n : Nat) : Cursor :=
  { c with rest := c.rest.drop n, index := c.index + n, column := c.column + n }

/-- The characters from here on for which `p` holds, none of them a line end, and the place
behind them. -/
def span (c : Cursor) (p : Char → Bool) : List Char × Cursor :=
  let run := c.rest.takeWhile p
  (run, c.skip run.length)

/-- The beginning of the next line, seen from the end of a line. -/
def newLine (c : Cursor) : Cursor :=
  match c.rest with
  | '\r' :: '\n' :: rest => { rest, index := c.index + 2, line := c.line + 1, column := 0 }
  | _ :: rest => { rest, index := c.index + 1, line := c.line + 1, column := 0 }
  | [] => c

/-- Whether the place is at the end of a line. -/
def atBreak (c : Cursor) : Bool := (c.peek 0).any isBreak

/-- Whether a line begins here with three times the character `mark`, as a word. -/
def atMarker (c : Cursor) (mark : Char) : Bool :=
  c.column = 0 && c.peek 0 = some mark && c.peek 1 = some mark && c.peek 2 = some mark &&
    endsWord (c.peek 3)

/-- Whether a line begins here with a sign that ends or begins a document. -/
def atDocumentMarker (c : Cursor) : Bool := c.atMarker '-' || c.atMarker '.'

/-- The place behind spaces. -/
def skipSpaces (c : Cursor) : Cursor := (c.span isSpace).2

/-- The place behind a comment, if there is one. -/
def skipComment (c : Cursor) : Cursor :=
  if c.peek 0 = some '#' then (c.span (!isBreak ·)).2 else c

/-- The end of a line in which nothing else follows than spaces and a comment, or rather
the beginning of the next. -/
def endLine? (c : Cursor) : Option Cursor :=
  let c := c.skipSpaces.skipComment
  if c.atBreak then some c.newLine else if c.rest = [] then some c else none

@[simp] theorem rest_skip (c : Cursor) (n : Nat) : (c.skip n).rest = c.rest.drop n := rfl

@[simp] theorem rest_span (c : Cursor) (p : Char → Bool) :
    (c.span p).2.rest = c.rest.drop (c.rest.takeWhile p).length := rfl

theorem length_skip_lt {c : Cursor} {n : Nat} (h : c.rest ≠ []) (hn : 0 < n) :
    (c.skip n).rest.length < c.rest.length := by
  have := List.length_pos_iff.mpr h
  simp only [rest_skip, List.length_drop]
  omega

theorem length_newLine_lt {c : Cursor} (h : c.rest ≠ []) :
    c.newLine.rest.length < c.rest.length := by
  unfold newLine
  split
  · rename_i hr
    simp only [hr, List.length_cons]
    omega
  · rename_i hr
    simp only [hr, List.length_cons]
    omega
  · exact absurd (by assumption) h

theorem length_newLine_le (c : Cursor) : c.newLine.rest.length ≤ c.rest.length := by
  by_cases h : c.rest = []
  · simp [newLine, h]
  · exact Nat.le_of_lt (length_newLine_lt h)

theorem rest_ne_nil_of_atBreak {c : Cursor} (h : c.atBreak = true) : c.rest ≠ [] := by
  intro hr
  simp [atBreak, peek, hr] at h

theorem length_skipComment_le (c : Cursor) : c.skipComment.rest.length ≤ c.rest.length := by
  unfold skipComment
  split
  · simp
  · exact Nat.le_refl _

/-! ### Between tokens -/

/-- The place behind a byte order mark at the beginning of a line, and behind spaces; tabs
count as spaces if `tabs` says so. -/
def skipMargin (c : Cursor) (tabs : Bool) : Cursor :=
  let c := if c.column = 0 ∧ c.peek 0 = some '\ufeff' then c.skip 1 else c
  (c.span fun ch => ch = ' ' || (tabs && ch = '\t')).2

theorem length_skipMargin_le (c : Cursor) (tabs : Bool) :
    (c.skipMargin tabs).rest.length ≤ c.rest.length := by
  unfold skipMargin
  simp only [rest_span, List.length_drop]
  split
  · simp only [rest_skip, List.length_drop]
    omega
  · omega

/-- The place of the next token, and whether a key may begin there: outside of flow
collections it may at the beginning of a line. Tabs may not precede a place where a key
may begin. -/
def skipBlank (flow keyAllowed : Bool) (c : Cursor) : Bool × Cursor :=
  let next := (c.skipMargin (flow || !keyAllowed)).skipComment
  if _h : next.atBreak then skipBlank flow (keyAllowed || !flow) next.newLine
  else (keyAllowed, next)
termination_by c.rest.length
decreasing_by
  exact Nat.lt_of_lt_of_le (length_newLine_lt (rest_ne_nil_of_atBreak _h))
    (Nat.le_trans (length_skipComment_le _) (length_skipMargin_le _ _))

end Cursor

end Templating.Yaml
