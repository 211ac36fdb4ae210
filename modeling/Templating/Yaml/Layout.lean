import Templating.Yaml.Token

/-!
# The layout of a text

The lines of a YAML text tell by their columns where block collections begin and end.
This module reads a text into tokens, in which these places are marked.

A word may turn out to be the key of a mapping only when the colon behind it is read.
So the place of the last word that may be a key is remembered, one for each open flow
collection and one outside of them, and the tokens that begin the mapping and the key
are put before the word afterwards. A key without a question mark must end in the line
where it begins, and within 1024 characters.
-/

namespace Templating.Yaml

/-- A word that may turn out to be a key. -/
structure KeyPlace where
  /-- Whether nothing but a key may stand here. -/
  required : Bool
  /-- The number of tokens before the word. -/
  before : Nat
  index : Nat
  line : Nat
  column : Nat
  deriving Repr

/-- A text that has been read up to a place. -/
structure Layout where
  place : Cursor
  tokens : Array Token := #[]
  /-- The first column of what belongs to the innermost block collection: one more than
  its own, or zero outside of them. -/
  inner : Nat := 0
  /-- The same for the block collections around it, from the inside to the outside. -/
  outer : List Nat := []
  /-- The word that may be a key in the innermost collection. -/
  candidate : Option KeyPlace := none
  /-- The same for the collections around it, one for each open flow collection. -/
  outerCandidates : List (Option KeyPlace) := []
  /-- Whether a word that is read now may be a key. -/
  keyAllowed : Bool := true
  /-- The anchors with their numbers, the latest first. -/
  anchors : List (String × Nat) := []

namespace Layout

/-- Whether a flow collection is open. -/
def inFlow (l : Layout) : Bool := !l.outerCandidates.isEmpty

/-- The text with a token more, read up to another place. -/
def push (l : Layout) (token : Token) (place : Cursor) : Layout :=
  { l with tokens := l.tokens.push token, place }

/-- The text with a sign of `n` characters read as a token. -/
def pushSign (l : Layout) (token : Token) (n : Nat) : Layout := l.push token (l.place.skip n)

/-! ### Block collections -/

/-- Begins a block collection at a column, before the token of a number, unless one begins
there already. -/
def openBlock (l : Layout) (column before : Nat) (token : Token) : Layout :=
  if l.inFlow || column < l.inner then l
  else
    { l with
      tokens := l.tokens.insertIdxIfInBounds before token
      inner := column + 1
      outer := l.inner :: l.outer }

/-- Ends block collections until `inner` is at most `limit`. -/
def closeBlocks (limit : Nat) (tokens : Array Token) (inner : Nat) :
    List Nat → Array Token × Nat × List Nat
  | [] => (tokens, inner, [])
  | next :: outer =>
    if limit < inner then closeBlocks limit (tokens.push .blockEnd) next outer
    else (tokens, inner, next :: outer)

/-- The text with block collections ended until `inner` is at most `limit`. -/
def close (l : Layout) (limit : Nat) : Layout :=
  if l.inFlow then l
  else
    let (tokens, inner, outer) := closeBlocks limit l.tokens l.inner l.outer
    { l with tokens, inner, outer }

/-! ### Keys -/

/-- Gives up the word that may be a key. -/
def dropCandidate (l : Layout) : Option Layout :=
  if l.candidate.any (·.required) then none else some { l with candidate := none }

/-- Remembers the word that begins here, if it may be a key. -/
def saveCandidate (l : Layout) : Option Layout :=
  if l.keyAllowed then
    l.dropCandidate.map fun l =>
      { l with
        candidate := some
          { required := !l.inFlow && l.inner = l.place.column + 1
            before := l.tokens.size
            index := l.place.index
            line := l.place.line
            column := l.place.column } }
  else some l

/-- The word that may be a key as seen from a place further on. It may no longer be one if
it lies too far back, which is a fault if it had to be one. -/
def seenFrom (place : Cursor) : Option KeyPlace → Option (Option KeyPlace)
  | none => some none
  | some k =>
    if k.line < place.line ∨ k.index + 1024 < place.index then
      if k.required then none else some none
    else some (some k)

/-- Gives up the words that are no longer keys. -/
def dropStale (l : Layout) : Option Layout := do
  let candidate ← seenFrom l.place l.candidate
  let outerCandidates ← l.outerCandidates.mapM (seenFrom l.place)
  return { l with candidate, outerCandidates }

/-! ### Tokens -/

/-- Reads a directive, which ends all block collections. -/
def takeDirective (l : Layout) : Option Layout := do
  let l ← (l.close 0).dropCandidate
  let (token, place) ← Token.readDirective l.place
  return { l.push token place with keyAllowed := false }

/-- Reads a sign between documents, which ends all block collections. -/
def takeDocumentMarker (l : Layout) (token : Token) : Option Layout := do
  let l ← (l.close 0).dropCandidate
  return { l.pushSign token 3 with keyAllowed := false }

/-- Reads the beginning of a flow collection. -/
def takeFlowStart (l : Layout) (token : Token) : Option Layout := do
  let l ← l.saveCandidate
  return { l.pushSign token 1 with
    candidate := none
    outerCandidates := l.candidate :: l.outerCandidates
    keyAllowed := true }

/-- Reads the end of a flow collection. -/
def takeFlowEnd (l : Layout) (token : Token) : Option Layout := do
  let l ← l.dropCandidate
  let l := { l.pushSign token 1 with keyAllowed := false }
  return match l.outerCandidates with
    | [] => l
    | candidate :: outerCandidates => { l with candidate, outerCandidates }

/-- Reads a comma. -/
def takeFlowEntry (l : Layout) : Option Layout := do
  let l ← l.dropCandidate
  return { l.pushSign .flowEntry 1 with keyAllowed := true }

/-- Reads the sign of an item in a block sequence. -/
def takeBlockEntry (l : Layout) : Option Layout := do
  if l.inFlow || l.keyAllowed then
    let l := l.openBlock l.place.column l.tokens.size .blockSequence
    let l ← l.dropCandidate
    return { l.pushSign .blockEntry 1 with keyAllowed := true }
  else none

/-- Reads the sign of a key. -/
def takeKey (l : Layout) : Option Layout := do
  if l.inFlow || l.keyAllowed then
    let l := l.openBlock l.place.column l.tokens.size .blockMapping
    let l ← l.dropCandidate
    return { l.pushSign .key 1 with keyAllowed := !l.inFlow }
  else none

/-- Reads the sign of a value. The word that may be a key is one. -/
def takeValue (l : Layout) : Option Layout :=
  match l.candidate with
  | some k =>
    let l := { l with tokens := l.tokens.insertIdxIfInBounds k.before .key }
    let l := l.openBlock k.column k.before .blockMapping
    some { l.pushSign .value 1 with candidate := none, keyAllowed := false }
  | none =>
    if l.inFlow || l.keyAllowed then
      let l := l.openBlock l.place.column l.tokens.size .blockMapping
      some { l.pushSign .value 1 with keyAllowed := !l.inFlow }
    else none

/-- Reads an anchor, which gets the number of names so far. -/
def takeAnchor (l : Layout) : Option Layout := do
  let l ← l.saveCandidate
  let (name, place) ← Token.readAnchorName (l.place.skip 1)
  let number := l.anchors.length
  return { l.push (.anchor number) place with
    keyAllowed := false
    anchors := (name, number) :: l.anchors.filter (·.1 ≠ name) }

/-- Reads an alias. Its anchor must have come before. -/
def takeAlias (l : Layout) : Option Layout := do
  let l ← l.saveCandidate
  let (name, place) ← Token.readAnchorName (l.place.skip 1)
  let number ← l.anchors.lookup name
  return { l.push (.alias number) place with keyAllowed := false }

/-- Reads a tag. -/
def takeTag (l : Layout) : Option Layout := do
  let l ← l.saveCandidate
  let (token, place) ← Token.readTag l.inFlow l.place
  return { l.push token place with keyAllowed := false }

/-- Reads a block scalar. -/
def takeBlockScalar (l : Layout) (fold : Bool) : Option Layout := do
  let l ← l.dropCandidate
  let (text, place) ← readBlock fold l.inner (l.place.skip 1)
  return { l.push (.scalar text (if fold then .folded else .literal)) place with
    keyAllowed := true }

/-- Reads a quoted scalar. -/
def takeQuoted (l : Layout) (quote : Char) : Option Layout := do
  let l ← l.saveCandidate
  let (text, place) ← readQuoted quote [] (l.place.skip 1)
  return { l.push (.scalar text (if quote = '"' then .doubleQuoted else .singleQuoted)) place with
    keyAllowed := false }

/-- Reads a plain scalar. -/
def takePlain (l : Layout) : Option Layout := do
  let l ← l.saveCandidate
  let found ← readPlain ⟨l.inFlow, l.inner⟩ [] (.spaces []) l.place
  return { l.push (.scalar found.text .plain) found.place with keyAllowed := found.newLine }

/-- The signs that begin no plain scalar. -/
def isSign (c : Char) : Bool := "-?:,[]\x7b\x7d#&*!|>'\"%@`".toList.contains c

/-- Whether a plain scalar begins with a character, given the next one. -/
def beginsPlain (flow : Bool) (c : Char) (next : Option Char) : Bool :=
  !(isSpace c || isBreak c || isSign c) || (c = '-' && !next.any isSpace) ||
    (!flow && (c = '?' || c = ':') && !endsWord next)

/-- Reads the token that begins with the character `c` at this place. -/
def take (l : Layout) (c : Char) : Option Layout :=
  let flow := l.inFlow
  let wordEnds := endsWord (l.place.peek 1)
  if l.place.column = 0 ∧ c = '%' then l.takeDirective
  else if l.place.atMarker '-' then l.takeDocumentMarker .documentStart
  else if l.place.atMarker '.' then l.takeDocumentMarker .documentEnd
  else if c = '[' then l.takeFlowStart .flowSequence
  else if c = '\x7b' then l.takeFlowStart .flowMapping
  else if c = ']' then l.takeFlowEnd .flowSequenceEnd
  else if c = '\x7d' then l.takeFlowEnd .flowMappingEnd
  else if c = ',' then l.takeFlowEntry
  else if c = '-' ∧ wordEnds then l.takeBlockEntry
  else if c = '?' ∧ (flow || wordEnds) then l.takeKey
  else if c = ':' ∧ (flow || wordEnds) then l.takeValue
  else if c = '*' then l.takeAlias
  else if c = '&' then l.takeAnchor
  else if c = '!' then l.takeTag
  else if c = '|' ∧ !flow then l.takeBlockScalar false
  else if c = '>' ∧ !flow then l.takeBlockScalar true
  else if c = '\'' ∨ c = '"' then l.takeQuoted c
  else if beginsPlain flow c (l.place.peek 1) then l.takePlain
  else none

/-- Goes on to the next token, and ends the block collections that it does not belong to. -/
def advance (l : Layout) : Option Layout := do
  let (keyAllowed, place) := l.place.skipBlank l.inFlow l.keyAllowed
  let l ← { l with keyAllowed, place }.dropStale
  return l.close (place.column + 1)

/-- Ends the text. -/
def finish (l : Layout) : Option (List Token) := (l.close 0).dropCandidate.map (·.tokens.toList)

/-- The tokens of a text from a place on. Each one takes some of the text. -/
def tokensFrom (l : Layout) : Option (List Token) :=
  match l.advance with
  | none => none
  | some next =>
    match next.place.rest with
    | [] => next.finish
    | c :: _ =>
      match next.take c with
      | none => none
      | some after =>
        if _h : after.place.rest.length < l.place.rest.length then tokensFrom after else none
termination_by l.place.rest.length

end Layout

/-- The tokens of a text. -/
def tokens? (text : List Char) : Option (List Token) :=
  if text.all isAllowed then Layout.tokensFrom { place := { rest := text } } else none

end Templating.Yaml
