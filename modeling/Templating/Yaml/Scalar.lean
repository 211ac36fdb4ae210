import Templating.Yaml.Cursor

/-!
# Scalars

A scalar is a text in one of five styles. Where plain and quoted scalars go on in the
next line, the line end stands for a space, and an empty line for a line feed. A block
scalar keeps its line ends (`|`) or folds them (`>`), and says what becomes of those at
its end.

Each reader gives the text and the place behind it, and fails where the scalar is not
well formed.
-/

namespace Templating.Yaml

/-- How a scalar is written. -/
inductive Style where
  | plain
  | singleQuoted
  | doubleQuoted
  | literal
  | folded
  deriving DecidableEq, Repr

/-! ### Between words -/

/-- What stands between two words of a scalar. -/
inductive Gap where
  /-- Spaces in a line. -/
  | spaces (text : List Char)
  /-- Line ends: the first one, unless it was escaped, and the others. -/
  | lines (first : Option Char) (more : List Char)
  deriving Repr

namespace Gap

/-- What a gap stands for. -/
def text : Gap → List Char
  | spaces text => text
  | lines (some '\n') [] => [' ']
  | lines (some '\n') more => more
  | lines first more => first.toList ++ more

/-- The gap with a space more; behind a line end it adds nothing. -/
def addSpace (c : Char) : Gap → Gap
  | spaces text => spaces (text ++ [c])
  | lines first more => lines first more

/-- The gap with a line end more. -/
def addBreak (c : Char) : Gap → Gap
  | spaces _ => lines (some (breakText c)) []
  | lines first more => lines first (more ++ [breakText c])

/-- Whether the gap has a line end. -/
def isLines : Gap → Bool
  | spaces _ => false
  | lines .. => true

end Gap

/-- Reads on a gap. A tab in the first `limit` columns of a line is a fault. -/
def readGap (limit : Nat) (gap : Gap) (c : Cursor) : Option (Gap × Cursor) :=
  match _h : c.rest with
  | [] => some (gap, c)
  | ch :: _ =>
    if isSpace ch then
      if gap.isLines && ch = '\t' && c.column < limit then none
      else readGap limit (gap.addSpace ch) (c.skip 1)
    else if isBreak ch then readGap limit (gap.addBreak ch) c.newLine
    else some (gap, c)
termination_by c.rest.length
decreasing_by
  · exact Cursor.length_skip_lt (by simp [_h]) Nat.one_pos
  · exact Cursor.length_newLine_lt (by simp [_h])

theorem length_readGap_le {limit : Nat} {gap gap' : Gap} {c c' : Cursor}
    (h : readGap limit gap c = some (gap', c')) : c'.rest.length ≤ c.rest.length := by
  fun_induction readGap limit gap c with
  | case1 gap c => simp_all
  | case2 => simp at h
  | case3 gap c ch tail hr _ _ ih =>
    exact Nat.le_trans (ih h) (Nat.le_of_lt (Cursor.length_skip_lt (by simp [hr]) Nat.one_pos))
  | case4 gap c ch tail hr _ _ ih =>
    exact Nat.le_trans (ih h) (Cursor.length_newLine_le c)
  | case5 => simp_all

/-! ### Quoted scalars -/

/-- What a backslash and a character stand for. -/
inductive Escape where
  | character (c : Char)
  /-- The character whose number follows in `n` hexadecimal digits. -/
  | number (n : Nat)

/-- What a backslash and a character stand for, if that is anything. -/
def escape? : Char → Option Escape
  | '0' => some (.character '\x00')
  | 'a' => some (.character '\x07')
  | 'b' => some (.character '\x08')
  | 't' => some (.character '\t')
  | '\t' => some (.character '\t')
  | 'n' => some (.character '\n')
  | 'v' => some (.character '\x0b')
  | 'f' => some (.character '\x0c')
  | 'r' => some (.character '\r')
  | 'e' => some (.character '\x1b')
  | ' ' => some (.character ' ')
  | '"' => some (.character '"')
  | '/' => some (.character '/')
  | '\\' => some (.character '\\')
  | 'N' => some (.character '\u0085')
  | '_' => some (.character '\u00a0')
  | 'L' => some (.character '\u2028')
  | 'P' => some (.character '\u2029')
  | 'x' => some (.number 2)
  | 'u' => some (.number 4)
  | 'U' => some (.number 8)
  | _ => none

/-- The value of a hexadecimal digit. -/
def hexValue? (c : Char) : Option Nat :=
  if '0' ≤ c ∧ c ≤ '9' then some (c.toNat - '0'.toNat)
  else if 'a' ≤ c ∧ c ≤ 'f' then some (c.toNat - 'a'.toNat + 10)
  else if 'A' ≤ c ∧ c ≤ 'F' then some (c.toNat - 'A'.toNat + 10)
  else none

/-- The number that hexadecimal digits write. -/
def hexNumber? (digits : List Char) : Option Nat :=
  digits.foldlM (fun n c => (hexValue? c).map (n * 16 + ·)) 0

/-- The character of a number. -/
def character? (n : Nat) : Option Char := if n.isValidChar then some (Char.ofNat n) else none

/-- The character whose number the first `n` characters write. -/
def readNumber (n : Nat) (cs : List Char) : Option Char :=
  let digits := cs.take n
  if digits.length = n then (hexNumber? digits).bind character? else none

/-- Reads a quoted scalar on to its closing quote, behind the text read so far (the last
character first). -/
def readQuoted (quote : Char) (read : List Char) (c : Cursor) : Option (String × Cursor) :=
  match _h : c.rest with
  | [] => none
  | ch :: rest =>
    if ch = quote then
      if quote = '\'' ∧ rest.head? = some '\'' then readQuoted quote ('\'' :: read) (c.skip 2)
      else some (String.ofList read.reverse, c.skip 1)
    else if isSpace ch then
      match _hg : readGap 0 (.spaces [ch]) (c.skip 1) with
      | none => none
      | some (gap, next) =>
        if next.atDocumentMarker then none
        else readQuoted quote (gap.text.reverse ++ read) next
    else if isBreak ch then
      match _hg : readGap 0 (.lines (some (breakText ch)) []) c.newLine with
      | none => none
      | some (gap, next) =>
        if next.atDocumentMarker then none
        else readQuoted quote (gap.text.reverse ++ read) next
    else if quote = '"' ∧ ch = '\\' then
      match rest with
      | [] => none
      | e :: digits =>
        if isBreak e then
          match _hg : readGap 0 (.lines none []) (c.skip 1).newLine with
          | none => none
          | some (gap, next) =>
            if next.atDocumentMarker then none
            else readQuoted quote (gap.text.reverse ++ read) next
        else
          match escape? e with
          | none => none
          | some (.character x) => readQuoted quote (x :: read) (c.skip 2)
          | some (.number n) =>
            match readNumber n digits with
            | none => none
            | some x => readQuoted quote (x :: read) (c.skip (2 + n))
    else readQuoted quote (ch :: read) (c.skip 1)
termination_by c.rest.length
decreasing_by
  · exact Cursor.length_skip_lt (by simp [_h]) Nat.two_pos
  · exact Nat.lt_of_le_of_lt (length_readGap_le _hg)
      (Cursor.length_skip_lt (by simp [_h]) Nat.one_pos)
  · exact Nat.lt_of_le_of_lt (length_readGap_le _hg) (Cursor.length_newLine_lt (by simp [_h]))
  · exact Nat.lt_of_le_of_lt (length_readGap_le _hg) <|
      Nat.lt_of_le_of_lt (Cursor.length_newLine_le _)
        (Cursor.length_skip_lt (by simp [_h]) Nat.one_pos)
  · exact Cursor.length_skip_lt (by simp [_h]) Nat.two_pos
  · exact Cursor.length_skip_lt (by simp [_h]) (by omega)
  · exact Cursor.length_skip_lt (by simp [_h]) Nat.one_pos

/-! ### Plain scalars -/

/-- What a plain scalar is read in: whether a flow collection is open, and the least column
of the lines that it may go on in. -/
structure PlainContext where
  flow : Bool
  limit : Nat

/-- Where a plain scalar ends. -/
structure PlainEnd where
  text : String
  /-- Whether the place is in another line than the last word. -/
  newLine : Bool
  place : Cursor

/-- The signs that end a plain scalar in a flow collection. -/
def isFlowSign (c : Char) : Bool := c = ',' || c = '[' || c = ']' || c = '{' || c = '}'

/-- Reads on a plain scalar, behind the text read so far (the last character first) and a
gap. -/
def readPlain (context : PlainContext) (read : List Char) (gap : Gap) (c : Cursor) :
    Option PlainEnd :=
  let ending (gap : Gap) (place : Cursor) : PlainEnd :=
    ⟨String.ofList read.reverse, gap.isLines, place⟩
  match _h : c.rest with
  | [] => some (ending gap c)
  | ch :: rest =>
    if isSpace ch || isBreak ch then
      let entered :=
        if isSpace ch then readGap context.limit (.spaces [ch]) (c.skip 1)
        else readGap context.limit (.lines (some (breakText ch)) []) c.newLine
      match _hg : entered with
      | none => none
      | some (gap, next) =>
        if (!context.flow && next.column < context.limit) || next.atDocumentMarker ||
            next.peek 0 = some '#' then
          some (ending gap next)
        else readPlain context read gap next
    else if context.flow && ch = ':' && rest.head?.any (fun d => isFlowSign d || d = '?') then none
    else if (ch = ':' && endsWord rest.head?) || (context.flow && isFlowSign ch) then
      some (ending gap c)
    else readPlain context (ch :: (gap.text.reverse ++ read)) (.spaces []) (c.skip 1)
termination_by c.rest.length
decreasing_by
  · have := Cursor.length_skip_lt (c := c) (by simp [_h]) Nat.one_pos
    have := Cursor.length_newLine_lt (c := c) (by simp [_h])
    simp only [entered] at _hg
    split at _hg <;> have := length_readGap_le _hg <;> omega
  · exact Cursor.length_skip_lt (by simp [_h]) Nat.one_pos

/-! ### Block scalars -/

/-- What becomes of the line ends at the end of a block scalar. -/
inductive Chomp where
  | strip
  /-- The first one stays. -/
  | clip
  | keep
  deriving DecidableEq, Repr

/-- What the first line of a block scalar says: what becomes of the line ends at its end,
and by how many columns it is indented. -/
structure BlockHeader where
  chomp : Chomp := .clip
  indentation : Option Nat := none

namespace BlockHeader

/-- Reads an indentation; zero is none. -/
def readIndentation (h : BlockHeader) (c : Cursor) : Option (BlockHeader × Cursor) :=
  match c.peek 0 with
  | some d =>
    if d = '0' then none
    else if d.isDigit then some ({ h with indentation := some (d.toNat - '0'.toNat) }, c.skip 1)
    else some (h, c)
  | none => some (h, c)

/-- Reads what becomes of the line ends. -/
def readChomp (h : BlockHeader) (c : Cursor) : BlockHeader × Cursor :=
  match c.peek 0 with
  | some '+' => ({ h with chomp := .keep }, c.skip 1)
  | some '-' => ({ h with chomp := .strip }, c.skip 1)
  | _ => (h, c)

/-- Reads both in either order. -/
def read (c : Cursor) : Option (BlockHeader × Cursor) :=
  let (h, next) := readChomp {} c
  if h.chomp ≠ .clip then h.readIndentation next
  else (h.readIndentation c).map fun (h, next) =>
    if h.indentation.isSome then h.readChomp next else (h, next)

end BlockHeader

/-- What stands before a line of a block scalar: the column of the scalar, and the line
ends before the line. -/
structure Margin where
  column : Nat
  breaks : List Char

/-- Reads empty lines and the spaces before the next one. A column of zero is still to be
found: then it is that of the widest line read, but at least `least`. -/
def readMargin (least column widest : Nat) (breaks : List Char) (c : Cursor) :
    Option (Margin × Cursor) :=
  let spaces := (c.rest.takeWhile (· = ' ')).length
  let next := c.skip (if column = 0 then spaces else min spaces (column - c.column))
  let widest := max widest next.column
  if (column = 0 || next.column < column) && next.peek 0 = some '\t' then none
  else
    match _h : next.rest with
    | [] => some (⟨if column = 0 then max widest least else column, breaks⟩, next)
    | ch :: _ =>
      if isBreak ch then readMargin least column widest (breaks ++ [breakText ch]) next.newLine
      else some (⟨if column = 0 then max widest least else column, breaks⟩, next)
termination_by c.rest.length
decreasing_by
  refine Nat.lt_of_lt_of_le (Cursor.length_newLine_lt ?_) ?_
  · exact List.ne_nil_of_mem (_h ▸ List.mem_cons_self)
  simp only [Cursor.rest_skip, List.length_drop]
  omega

theorem length_readMargin_le {least column widest : Nat} {breaks : List Char} {c c' : Cursor}
    {m : Margin} (h : readMargin least column widest breaks c = some (m, c')) :
    c'.rest.length ≤ c.rest.length := by
  have skip_le : ∀ (c : Cursor) (n : Nat), (c.skip n).rest.length ≤ c.rest.length := by
    intro c n
    simp
  fun_induction readMargin least column widest breaks c with
  | case1 => simp at h
  | case2 =>
    simp only [Option.some.injEq, Prod.mk.injEq] at h
    exact h.2 ▸ skip_le _ _
  | case3 _ _ _ _ _ _ _ _ _ _ _ ih =>
    exact Nat.le_trans (ih h) (Nat.le_trans (Cursor.length_newLine_le _) (skip_le _ _))
  | case4 =>
    simp only [Option.some.injEq, Prod.mk.injEq] at h
    exact h.2 ▸ skip_le _ _

/-- The lines of a block scalar read so far. -/
structure BlockLines where
  /-- The pieces of the text, the latest first, without the last line end and those of the
  empty lines behind it. -/
  pieces : List (List Char) := []
  /-- The line end of the last line, unless the text ended there. -/
  lineEnd : List Char := []
  /-- Whether the last line begins with a space. -/
  indented : Bool := false

/-- The lines with another one, behind the line ends of empty lines. Folding joins two
lines that do not begin with a space. -/
def BlockLines.add (fold : Bool) (breaks line lineEnd : List Char) (b : BlockLines) : BlockLines :=
  let indented := line.head?.any isSpace
  let joint :=
    if fold && b.lineEnd = ['\n'] && !b.indented && !indented then
      if breaks = [] then [' '] else breaks
    else b.lineEnd ++ breaks
  { pieces := line :: joint :: b.pieces, lineEnd, indented }

/-- The text of a block scalar, from its lines and the line ends of empty lines at its
end. -/
def BlockLines.finish (chomp : Chomp) (breaks : List Char) (b : BlockLines) : String :=
  String.ofList <| b.pieces.reverse.flatten ++
    match chomp with
    | .strip => []
    | .clip => b.lineEnd
    | .keep => b.lineEnd ++ breaks

/-- Reads the lines of a block scalar, each behind its margin. -/
def readLines (fold : Bool) (chomp : Chomp) (margin : Margin) (b : BlockLines) (c : Cursor) :
    Option (String × Cursor) :=
  match _h : c.rest with
  | [] => some (b.finish chomp margin.breaks, c)
  | ch :: rest =>
    if c.column ≠ margin.column then some (b.finish chomp margin.breaks, c)
    else
      let line := (ch :: rest).takeWhile (!isBreak ·)
      let stop := c.skip line.length
      let lineEnd := (stop.peek 0).toList.map breakText
      match _hm : readMargin 0 margin.column 0 [] stop.newLine with
      | none => none
      | some (next, place) =>
        readLines fold chomp next (b.add fold margin.breaks line lineEnd) place
termination_by c.rest.length
decreasing_by
  refine Nat.lt_of_le_of_lt (length_readMargin_le _hm) ?_
  have hc : c.rest ≠ [] := by simp [_h]
  by_cases hb : isBreak ch
  · have hs : stop = c.skip 0 := by simp [stop, line, hb]
    rw [hs]
    exact Cursor.length_newLine_lt (by simpa using hc)
  · refine Nat.lt_of_le_of_lt (Cursor.length_newLine_le _) (Cursor.length_skip_lt hc ?_)
    simp [line, hb]

/-- Reads a block scalar behind its sign. The lines that belong to the block around it
begin before the column `inner`. -/
def readBlock (fold : Bool) (inner : Nat) (c : Cursor) : Option (String × Cursor) := do
  let (header, c) ← BlockHeader.read c
  let c ← c.endLine?
  let column := (header.indentation.map ((inner - 1) + ·)).getD 0
  let (margin, c) ← readMargin (max inner 1) column 0 [] c
  readLines fold header.chomp margin {} c

end Templating.Yaml
