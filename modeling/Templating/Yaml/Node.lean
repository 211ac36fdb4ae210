import Templating.Yaml.Layout

/-!
# Nodes

The tree that a YAML text stands for: scalars, sequences, mappings, and aliases of
nodes that have an anchor. Where a node may stand and none does, there is an empty
plain scalar.

A document is a tree with its anchored nodes. A text holds one document at most; one
that holds none stands for an empty scalar.
-/

namespace Templating.Yaml

/-- A node of a document. -/
inductive Node where
  /-- A text, how it is written, and its tag, if it has one. -/
  | scalar (text : String) (style : Style) (tag : Option (List Char))
  | sequence (items : List Node)
  | mapping (pairs : List (Node × Node))
  /-- The node with an anchor of this number. -/
  | alias (anchor : Nat)
  /-- A node that has an anchor. -/
  | anchored (anchor : Nat) (node : Node)

namespace Node

/-- The node where none is written. -/
def missing : Node := .scalar "" .plain none

instance : Inhabited Node := ⟨missing⟩

/-- The node without its anchor. -/
def bare : Node → Node
  | .anchored _ node => node.bare
  | node => node

mutual

/-- The anchored nodes of a tree, each before those inside it. -/
def anchors : Node → List (Nat × Node)
  | .anchored anchor node => (anchor, node) :: node.anchors
  | .sequence items => anchorsOfItems items
  | .mapping pairs => anchorsOfPairs pairs
  | _ => []

/-- The anchored nodes of several trees. -/
def anchorsOfItems : List Node → List (Nat × Node)
  | [] => []
  | item :: items => item.anchors ++ anchorsOfItems items

/-- The anchored nodes of the pairs of a mapping. -/
def anchorsOfPairs : List (Node × Node) → List (Nat × Node)
  | [] => []
  | pair :: pairs => anchorsOfPair pair ++ anchorsOfPairs pairs

/-- The anchored nodes of a pair. -/
def anchorsOfPair : Node × Node → List (Nat × Node)
  | (key, value) => key.anchors ++ value.anchors

end

/-! ### Properties -/

/-- What handles of tags stand for. -/
abbrev Handles := List (List Char × List Char)

/-- What the handles stand for that need not be declared. -/
def standardHandles : Handles := [(['!'], ['!']), (['!', '!'], "tag:yaml.org,2002:".toList)]

/-- The anchor and the tag of a node. -/
structure Properties where
  anchor : Option Nat := none
  tag : Option (List Char) := none

/-- A tag in full. Its handle must be known, if it has one. -/
def fullTag (handles : Handles) (tag : Tag) : Option (List Char) :=
  if tag.handle = [] then some tag.suffix
  else (handles.lookup tag.handle).map (· ++ tag.suffix)

/-- Reads an anchor and a tag in either order. -/
def readProperties (handles : Handles) : List Token → Option (Properties × List Token)
  | .anchor n :: .tag t :: ts => (fullTag handles t).map fun tag => (⟨some n, some tag⟩, ts)
  | .anchor n :: ts => some (⟨some n, none⟩, ts)
  | .tag t :: .anchor n :: ts => (fullTag handles t).map fun tag => (⟨some n, some tag⟩, ts)
  | .tag t :: ts => (fullTag handles t).map fun tag => (⟨none, some tag⟩, ts)
  | ts => some ({}, ts)

/-- Whether there are any properties. -/
def Properties.any (p : Properties) : Bool := p.anchor.isSome || p.tag.isSome

/-- The node with its anchor, if it has one. -/
def Properties.anchoring (p : Properties) (node : Node) : Node :=
  match p.anchor with
  | none => node
  | some n => .anchored n node

/-! ### Reading -/

/-- Where a node is read. -/
structure Position where
  /-- Whether a block collection may begin. -/
  block : Bool := false
  /-- Whether the items of a sequence may stand without one around them. -/
  indentless : Bool := false

/-- Whether no item of a block sequence stands before a token. -/
def endsItem : Token → Bool
  | .blockEntry | .blockEnd => true
  | _ => false

/-- Whether no item of a sequence without a collection around it stands before a token. -/
def endsIndentless : Token → Bool
  | .blockEntry | .key | .value | .blockEnd => true
  | _ => false

/-- Whether no key or value of a block mapping stands before a token. -/
def endsBlockPart : Token → Bool
  | .key | .value | .blockEnd => true
  | _ => false

/-- Whether no value of a flow collection stands before a token, given the token that
ends the collection. -/
def endsFlowValue (close : Token) (t : Token) : Bool := t = .flowEntry || t = close

/-- Whether no key of a flow collection stands before a token, given the token that ends
the collection. -/
def endsFlowKey (close : Token) (t : Token) : Bool := t = .value || endsFlowValue close t

/-- The tokens behind a comma, which stands before every item but the first. -/
def behindComma (first : Bool) (ts : List Token) : Option (List Token) :=
  if first then some ts
  else
    match ts with
    | .flowEntry :: ts => some ts
    | _ => none

/-! The functions below call each other. Each call lowers the first number, which bounds
their nesting. -/

mutual

/-- Reads a node. -/
def readNode (handles : Handles) (position : Position) :
    Nat → List Token → Option (Node × List Token)
  | 0, _ => none
  | _ + 1, .alias n :: ts => some (.alias n, ts)
  | n + 1, ts => do
    let (properties, ts) ← readProperties handles ts
    let (node, ts) ←
      match ts with
      | .scalar text style :: ts => some (.scalar text style properties.tag, ts)
      | .flowSequence :: ts =>
        (readFlowItems handles true n ts).map fun (items, ts) => (.sequence items, ts)
      | .flowMapping :: ts =>
        (readFlowPairs handles true n ts).map fun (pairs, ts) => (.mapping pairs, ts)
      | .blockEntry :: _ =>
        if position.indentless then
          (readIndentless handles n ts).map fun (items, ts) => (.sequence items, ts)
        else readEmpty properties ts
      | .blockSequence :: ts' =>
        if position.block then
          (readBlockItems handles n ts').map fun (items, ts) => (.sequence items, ts)
        else readEmpty properties ts
      | .blockMapping :: ts' =>
        if position.block then
          (readBlockPairs handles n ts').map fun (pairs, ts) => (.mapping pairs, ts)
        else readEmpty properties ts
      | ts => readEmpty properties ts
    return (properties.anchoring node, ts)
where
  /-- The empty scalar of properties that stand alone. -/
  readEmpty (properties : Properties) (ts : List Token) : Option (Node × List Token) :=
    if properties.any then some (.scalar "" .plain properties.tag, ts) else none

/-- Reads a node unless a token follows that ends its place. -/
def readPart (handles : Handles) (position : Position) (ends : Token → Bool) :
    Nat → List Token → Option (Node × List Token)
  | 0, _ => none
  | n + 1, ts =>
    if ts.head?.any ends then some (missing, ts) else readNode handles position n ts

/-- Reads the items of a block sequence. -/
def readBlockItems (handles : Handles) : Nat → List Token → Option (List Node × List Token)
  | 0, _ => none
  | n + 1, .blockEntry :: ts => do
    let (item, ts) ← readPart handles { block := true } endsItem n ts
    let (items, ts) ← readBlockItems handles n ts
    return (item :: items, ts)
  | _ + 1, .blockEnd :: ts => some ([], ts)
  | _ + 1, _ => none

/-- Reads the items of a sequence without a collection around it. -/
def readIndentless (handles : Handles) : Nat → List Token → Option (List Node × List Token)
  | 0, _ => none
  | n + 1, .blockEntry :: ts => do
    let (item, ts) ← readPart handles { block := true } endsIndentless n ts
    let (items, ts) ← readIndentless handles n ts
    return (item :: items, ts)
  | _ + 1, ts => some ([], ts)

/-- Reads the pairs of a block mapping. -/
def readBlockPairs (handles : Handles) : Nat → List Token → Option (List (Node × Node) × List Token)
  | 0, _ => none
  | n + 1, .key :: ts => do
    let position : Position := { block := true, indentless := true }
    let (key, ts) ← readPart handles position endsBlockPart n ts
    let (value, ts) ←
      match ts with
      | .value :: ts => readPart handles position endsBlockPart n ts
      | ts => some (missing, ts)
    let (pairs, ts) ← readBlockPairs handles n ts
    return ((key, value) :: pairs, ts)
  | _ + 1, .blockEnd :: ts => some ([], ts)
  | _ + 1, _ => none

/-- Reads the value of a pair in a flow collection, if there is one. -/
def readFlowValue (handles : Handles) (close : Token) :
    Nat → List Token → Option (Node × List Token)
  | 0, _ => none
  | n + 1, .value :: ts => readPart handles {} (endsFlowValue close) n ts
  | _ + 1, ts => some (missing, ts)

/-- Reads the items of a flow sequence. A pair is a mapping of its own; where it has no
key, the token behind the question mark is passed over. -/
def readFlowItems (handles : Handles) (first : Bool) :
    Nat → List Token → Option (List Node × List Token)
  | 0, _ => none
  | _ + 1, .flowSequenceEnd :: ts => some ([], ts)
  | n + 1, ts => do
    match ← behindComma first ts with
    | .flowSequenceEnd :: ts => some ([], ts)
    | .key :: ts =>
      let ends := endsFlowKey .flowSequenceEnd
      let passedOver := ts.head?.any ends
      let (key, ts) ← readPart handles {} ends n ts
      let ts := if passedOver then ts.tail else ts
      let (value, ts) ← readFlowValue handles .flowSequenceEnd n ts
      let (items, ts) ← readFlowItems handles false n ts
      return (.mapping [(key, value)] :: items, ts)
    | ts =>
      let (item, ts) ← readNode handles {} n ts
      let (items, ts) ← readFlowItems handles false n ts
      return (item :: items, ts)

/-- Reads the pairs of a flow mapping. A node alone is a key. -/
def readFlowPairs (handles : Handles) (first : Bool) :
    Nat → List Token → Option (List (Node × Node) × List Token)
  | 0, _ => none
  | _ + 1, .flowMappingEnd :: ts => some ([], ts)
  | n + 1, ts => do
    match ← behindComma first ts with
    | .flowMappingEnd :: ts => some ([], ts)
    | .key :: ts =>
      let (key, ts) ← readPart handles {} (endsFlowKey .flowMappingEnd) n ts
      let (value, ts) ← readFlowValue handles .flowMappingEnd n ts
      let (pairs, ts) ← readFlowPairs handles false n ts
      return ((key, value) :: pairs, ts)
    | ts =>
      let (key, ts) ← readNode handles {} n ts
      let (pairs, ts) ← readFlowPairs handles false n ts
      return ((key, missing) :: pairs, ts)

end

end Node

/-! ### Documents -/

/-- A tree, and its anchored nodes in the order in which they come. -/
structure Document where
  root : Node
  anchored : List (Nat × Node)

namespace Document

/-- The document of a tree. -/
def ofRoot (root : Node) : Document := ⟨root, root.anchors⟩

/-- A node without its anchor, or the node that it is an alias of. -/
def resolve (d : Document) (node : Node) : Node :=
  match node.bare with
  | .alias anchor => ((d.anchored.reverse.lookup anchor).getD Node.missing).bare
  | node => node

/-- Reads the directives before a document: its version may be said once, and is 1.1 or
1.2, and each handle may be declared once. -/
def readDirectives (versioned : Bool) (declared : Node.Handles) :
    List Token → Option (Node.Handles × List Token)
  | .version major minor :: ts =>
    if versioned ∨ major ≠ 1 ∨ (minor ≠ 1 ∧ minor ≠ 2) then none
    else readDirectives true declared ts
  | .handle name meaning :: ts =>
    if (declared.lookup name).isSome then none
    else readDirectives versioned (declared ++ [(name, meaning)]) ts
  | ts => some (declared ++ Node.standardHandles, ts)

/-- Whether no node of a document stands before a token. -/
def endsDocument : Token → Bool
  | .version .. | .handle .. | .documentStart | .documentEnd => true
  | _ => false

/-- Reads the node of a document. -/
def readRoot (handles : Node.Handles) (ts : List Token) : Option (Node × List Token) :=
  Node.readNode handles { block := true } (3 * ts.length + 3) ts

/-- The root of the only document in tokens. The sign that begins it may be missing if
there are no directives. -/
def rootOfTokens? (ts : List Token) : Option Node := do
  let (root, rest) ←
    match ts with
    | [] => some (Node.missing, [])
    | .version .. :: _ | .handle .. :: _ | .documentStart :: _ =>
      match readDirectives false [] ts with
      | some (handles, .documentStart :: ts) =>
        if ts.head?.all endsDocument then some (Node.missing, ts) else readRoot handles ts
      | _ => none
    | ts => readRoot Node.standardHandles ts
  if rest.all (· = .documentEnd) then some root else none

/-- The document of a text. -/
def parse? (text : List Char) : Option Document :=
  ((tokens? text).bind rootOfTokens?).map ofRoot

end Document

end Templating.Yaml
