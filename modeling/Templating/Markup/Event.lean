import Templating.Markup.Error

/-!
# Events

What a source says, in order: elements are entered and left, leaves and texts come
between, and doctypes are declared. Events are read from tokens, with names,
attributes and text decoded. An element that is complete in its tag is a node: that
of an empty element, and in HTML a void element.

In HTML the content of a raw text element is cut from the source: it goes on to the
first end tag of that name, and reading begins anew behind the end tag. A byte order
mark where reading begins is skipped and not counted, so that behind one a raw text
is cut three bytes before its place.

A source that is at fault still has the events before the fault (`Stream`).

## What is proved

* `lt_of_readRun_rawText` — a raw text is cut behind the place where reading began.
* `length_splitRaw` — what follows a raw text is no longer than the text was.
-/

namespace Templating.Markup

open Text

/-- One thing that a source says. -/
inductive Event where
  | enter (name : String) (attributes : List Attribute)
  | leave (name : String)
  /-- A node that is complete, text apart. -/
  | node (node : Node)
  | text (content : String)
  | doctype (body : String)
  deriving DecidableEq

/-- The events of a source up to its fault, if it has one. -/
structure Stream where
  events : List Event
  fault : Option Error
  deriving DecidableEq

namespace Event

/-- The value of an attribute in a tag that ends at position `stop`. In HTML a value with
a faulty reference stands as it is written. -/
def decodeValue (format : Format) (stop : Nat) (raw : List Char) : Except Error (List Char) :=
  match format with
  | .html => .ok (Reference.decodeOrKeep raw)
  | .xml => (Reference.decode raw).mapError (.value · stop)

/-- The attributes of a tag that ends at position `stop`: the first fault counts, of a
value or of the list behind the values. -/
def decodeAttributes (format : Format) (stop : Nat) (fault : Option Tag.Fault) :
    List (List Char × List Char) → Except Error (List Attribute)
  | [] =>
    match fault with
    | none => .ok []
    | some fault => .error (.tag fault)
  | (key, raw) :: pairs =>
    match decodeValue format stop raw with
    | .error e => .error e
    | .ok value =>
      (decodeAttributes format stop fault pairs).map
        (⟨String.ofList key, String.ofList value⟩ :: ·)

/-- The name and the attributes in the inside of a tag that ends at position `stop`. -/
def decodeTag (format : Format) (stop : Nat) (inside : List Char) :
    Except Error (String × List Attribute) :=
  let listing := Tag.attributes format inside
  (decodeAttributes format stop listing.fault listing.pairs).map
    (String.ofList (Tag.name inside), ·)

/-- The name in an end tag: its inside without the separators at its end, unless there
is nothing else. -/
def endName (inside : List Char) : List Char :=
  if inside.all isSeparator then inside
  else (inside.reverse.dropWhile isSeparator).reverse

/-- The text of a run that ends at position `stop`. In HTML a text with a faulty
reference stands as it is written. -/
def decodeText (format : Format) (stop : Nat) (raw : List Char) : Except Error (List Char) :=
  match format with
  | .html => .ok (Reference.decodeOrKeep raw)
  | .xml => (Reference.decode raw).mapError (.text · stop)

/-- What a token that ends at position `stop` says; XML declarations say nothing. -/
def ofToken? (format : Format) (stop : Nat) : Token → Except Error (Option Event)
  | .text raw => (decodeText format stop raw).map fun cs => some (.text (String.ofList cs))
  | .startTag inside =>
    (decodeTag format stop inside).map fun (name, attributes) =>
      if format = .html ∧ isVoid name then some (.node (.element name attributes []))
      else some (.enter name attributes)
  | .emptyTag inside =>
    (decodeTag format stop inside).map fun (name, attributes) =>
      some (.node (.element name attributes []))
  | .endTag inside => .ok (some (.leave (String.ofList (endName inside))))
  | .comment body => .ok (some (.node (.comment (String.ofList body))))
  | .cdata body => .ok (some (.node (.cdata (String.ofList body))))
  | .instruction body => .ok (some (.node (.instruction (String.ofList body))))
  | .declaration _ => .ok none
  | .doctype body => .ok (some (.doctype (String.ofList (trim body))))

/-- The name and attributes of a raw text element that an event enters. -/
def entersRawText? (format : Format) : Event → Option (String × List Attribute)
  | .enter name attributes =>
    if format = .html ∧ isRawText name then some (name, attributes) else none
  | _ => none

end Event

/-! ### Raw text -/

/-- Whether `cs` begins with an end tag of this name, in any case of letters. -/
def startsEndTag (name : List Char) : List Char → Bool
  | '<' :: '/' :: cs =>
    (cs.take name.length).map Char.toLower == name.map Char.toLower &&
      (cs.drop name.length).head?.all fun c => c == '>' || c == '/' || isAsciiBlank c
  | _ => false

/-- The raw text before the first end tag of this name, and what follows that tag. Both
go to the end of the input where no end tag or no closing bracket comes. -/
def splitRaw (name : List Char) : List Char → List Char × List Char
  | [] => ([], [])
  | c :: cs =>
    if startsEndTag name (c :: cs) then ([], ((c :: cs).dropWhile (· != '>')).drop 1)
    else
      let (body, rest) := splitRaw name cs
      (c :: body, rest)

theorem length_splitRaw (name cs : List Char) : (splitRaw name cs).2.length ≤ cs.length := by
  induction cs with
  | nil => simp [splitRaw]
  | cons c cs ih =>
    rw [splitRaw]
    split
    · have := length_dropWhile_le (· != '>') (c :: cs)
      simp only [List.length_drop]
      omega
    · exact Nat.le_succ_of_le ih

/-! ### Reading events -/

/-- Why a run of events ends. -/
inductive Pause where
  | finished
  | failed (error : Error)
  /-- A raw text element is entered, and its tag ends at the position. -/
  | rawText (name : String) (attributes : List Attribute) (position : Nat)
  deriving DecidableEq

/-- The events of `cs`, which begins at position `i`, up to the first pause. -/
def readRun (format : Format) (i : Nat) (cs : List Char) : List Event × Pause :=
  match _h : Token.next? cs with
  | none => ([], .finished)
  | some (.error fault) => ([], .failed (.token fault i))
  | some (.ok (t, rest)) =>
    match Event.ofToken? format (i + t.size) t with
    | .error e => ([], .failed e)
    | .ok none => readRun format (i + t.size) rest
    | .ok (some event) =>
      match event.entersRawText? format with
      | some (name, attributes) => ([], .rawText name attributes (i + t.size))
      | none =>
        let (events, pause) := readRun format (i + t.size) rest
        (event :: events, pause)
termination_by cs.length
decreasing_by all_goals exact Token.length_next? _h

/-- A raw text is cut behind the place where reading began. -/
theorem lt_of_readRun_rawText {format : Format} {i position : Nat} {cs : List Char} {name : String}
    {attributes : List Attribute}
    (h : (readRun format i cs).2 = .rawText name attributes position) : i < position := by
  fun_induction readRun format i cs with
  | case1 => simp at h
  | case2 => simp at h
  | case3 => simp at h
  | case4 i cs t rest ht _ ih => exact Nat.lt_of_le_of_lt (Nat.le_add_right ..) (ih h)
  | case5 i cs t rest ht =>
    simp only [Pause.rawText.injEq] at h
    have := Token.size_pos_of_next? ht
    omega
  | case6 i cs t rest ht _ _ _ _ _ hr ih =>
    exact Nat.lt_of_le_of_lt (Nat.le_add_right ..) (ih (by rw [hr]; exact h))

/-- A source without the byte order mark that it may begin with. -/
def skipMark : List Char → List Char
  | '\uFEFF' :: cs => cs
  | cs => cs

/-- The node of a raw text element. -/
def rawTextNode (name : String) (attributes : List Attribute) (body : List Char) : Node :=
  .element name attributes (if body = [] then [] else [.text (String.ofList body)])

/-- The events of a source that begins at position `i`. -/
def streamFrom (format : Format) (i : Nat) (source : List Char) : Stream :=
  match _h : readRun format i (skipMark source) with
  | (events, .finished) => ⟨events, none⟩
  | (events, .failed e) => ⟨events, some e⟩
  | (events, .rawText name attributes position) =>
    match _hc : dropBytes (position - i) source with
    | none => ⟨events, some (.splitCharacter position)⟩
    | some cs =>
      let parts := splitRaw name.toList cs
      let rest := streamFrom format (position + byteSize cs - byteSize parts.2) parts.2
      ⟨events ++ .node (rawTextNode name attributes parts.1) :: rest.events, rest.fault⟩
termination_by source.length
decreasing_by
  have hp : i < position := lt_of_readRun_rawText (by rw [_h])
  have shorter := length_dropBytes_lt (by omega) _hc
  exact Nat.lt_of_le_of_lt (length_splitRaw _ _) shorter

/-- The events of a source. -/
def Stream.ofSource (format : Format) (source : List Char) : Stream := streamFrom format 0 source

end Templating.Markup
