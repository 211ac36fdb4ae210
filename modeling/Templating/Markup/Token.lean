import Templating.Text.Blank
import Templating.Text.Cut

/-!
# Tokens of markup

A source is a sequence of tokens: runs of text, and constructs between angle
brackets. A tag ends at the first closing bracket outside quotes, an end tag too. A
comment, a CDATA section and a processing instruction end at the first occurrence
of their closing mark, and a doctype declaration at the bracket that balances the
opening ones inside it. Only the keyword of a doctype may be in any case of letters.

`next?` reads the first token of a source. What it takes is counted by
`Token.size`, and what it leaves is shorter than what it was given.

## What is proved

* `size_next?` — the bytes of a token and those of what follows it are all there are.
* `length_next?` — reading a token leaves less to read.
-/

namespace Templating.Markup

open Text

/-- A piece of a source. Tags come with all that stands between their brackets, the
slashes of end tags and empty elements apart. -/
inductive Token where
  /-- Text up to the next opening bracket. -/
  | text (raw : List Char)
  | startTag (inside : List Char)
  /-- The tag of an empty element, which ends with a slash. -/
  | emptyTag (inside : List Char)
  | endTag (inside : List Char)
  | comment (body : List Char)
  | cdata (body : List Char)
  | instruction (body : List Char)
  /-- An XML declaration. -/
  | declaration (body : List Char)
  /-- A doctype declaration, with the blanks before its body. -/
  | doctype (body : List Char)
  deriving DecidableEq, Repr

namespace Token

/-- The bytes that a token takes in its source. -/
def size : Token → Nat
  | text raw => byteSize raw
  | startTag inside => byteSize inside + 2
  | emptyTag inside => byteSize inside + 3
  | endTag inside => byteSize inside + 3
  | comment body => byteSize body + 7
  | cdata body => byteSize body + 12
  | instruction body => byteSize body + 4
  | declaration body => byteSize body + 4
  | doctype body => byteSize body + 10

/-- Why a source goes on with no token. -/
inductive Fault where
  /-- Something unknown follows an opening bracket and an exclamation mark. -/
  | unknownMarkup
  | unclosedTag
  | unclosedComment
  | unclosedCdata
  | unclosedDoctype
  | unclosedInstruction
  /-- A doctype declaration without a body, whose closing bracket stands `offset` bytes
  behind its opening one. -/
  | namelessDoctype (offset : Nat)
  deriving DecidableEq, Repr

/-- The wording of a fault. -/
def Fault.message : Fault → String
  | .unknownMarkup => "syntax error: unknown or missed symbol in markup"
  | .unclosedTag => "syntax error: tag not closed: `>` not found before end of input"
  | .unclosedComment => "syntax error: comment not closed: `-->` not found before end of input"
  | .unclosedCdata => "syntax error: CDATA not closed: `]]>` not found before end of input"
  | .unclosedDoctype => "syntax error: DOCTYPE not closed: `>` not found before end of input"
  | .unclosedInstruction =>
    "syntax error: processing instruction or xml declaration not closed: "
      ++ "`?>` not found before end of input"
  | .namelessDoctype _ =>
    "ill-formed document: `<!DOCTYPE>` declaration does not contain a name of a document type"

/-- How far behind the opening bracket a fault is reported. -/
def Fault.offset : Fault → Nat
  | .namelessDoctype offset => offset
  | _ => 0

/-! ### Ends of constructs -/

/-- The parts of a text before and after the first closing bracket outside quotes, where
`quote` is open at the start. -/
def splitTag (quote : Option Char) : List Char → Option (List Char × List Char)
  | [] => none
  | c :: cs =>
    let more (quote : Option Char) :=
      (splitTag quote cs).map fun (inside, rest) => (c :: inside, rest)
    match quote with
    | some q => more (if c = q then none else some q)
    | none =>
      if c = '>' then some ([], cs)
      else more (if c = '"' ∨ c = '\'' then some c else none)

/-- The parts of a text before and after the closing bracket that balances the `depth`
opening brackets before it and those inside. -/
def splitBalanced (depth : Nat) : List Char → Option (List Char × List Char)
  | [] => none
  | c :: cs =>
    let more (depth : Nat) :=
      (splitBalanced depth cs).map fun (inside, rest) => (c :: inside, rest)
    if c = '<' then more (depth + 1)
    else if c = '>' then
      match depth with
      | 0 => some ([], cs)
      | depth + 1 => more depth
    else more depth

theorem append_of_splitTag {quote : Option Char} {cs inside rest : List Char}
    (h : splitTag quote cs = some (inside, rest)) : cs = inside ++ '>' :: rest := by
  induction cs generalizing quote inside with
  | nil => simp [splitTag] at h
  | cons c cs ih =>
    have step : ∀ {q : Option Char},
        ((splitTag q cs).map fun (inside, rest) => (c :: inside, rest)) = some (inside, rest) →
          c :: cs = inside ++ '>' :: rest := by
      intro q hq
      obtain ⟨⟨i, r⟩, hi, he⟩ := Option.map_eq_some_iff.mp hq
      simp only [Prod.mk.injEq] at he
      obtain ⟨rfl, rfl⟩ := he
      simp [ih hi]
    simp only [splitTag] at h
    split at h
    · exact step h
    · split at h
      · rename_i hc
        simp_all
      · exact step h

theorem append_of_splitBalanced {depth : Nat} {cs inside rest : List Char}
    (h : splitBalanced depth cs = some (inside, rest)) : cs = inside ++ '>' :: rest := by
  induction cs generalizing depth inside with
  | nil => simp [splitBalanced] at h
  | cons c cs ih =>
    have step : ∀ {d : Nat},
        ((splitBalanced d cs).map fun (inside, rest) => (c :: inside, rest)) =
            some (inside, rest) →
          c :: cs = inside ++ '>' :: rest := by
      intro d hd
      obtain ⟨⟨i, r⟩, hi, he⟩ := Option.map_eq_some_iff.mp hd
      simp only [Prod.mk.injEq] at he
      obtain ⟨rfl, rfl⟩ := he
      simp [ih hi]
    simp only [splitBalanced] at h
    split at h
    · exact step h
    · split at h
      · rename_i hc
        cases depth with
        | zero => simp_all
        | succ depth => exact step h
      · exact step h

/-! ### Constructs behind an opening bracket -/

/-- The part of `cs` behind `keyword`, whose letters may be in any case. -/
def stripKeyword? (keyword cs : List Char) : Option (List Char) :=
  if (cs.take keyword.length).map Char.toLower = keyword.map Char.toLower then
    some (cs.drop keyword.length)
  else none

/-- A token and what follows it, or why there is none. -/
abbrev Reading := Except Fault (Token × List Char)

/-- Reads behind an opening bracket and an exclamation mark and a hyphen. -/
def readComment : List Char → Reading
  | '-' :: cs =>
    match breakOn ['-', '-', '>'] cs with
    | some (body, rest) => .ok (.comment body, rest)
    | none => .error .unclosedComment
  | _ => .error .unclosedComment

/-- Reads behind an opening bracket, an exclamation mark and an opening square bracket. -/
def readCdata : List Char → Reading
  | 'C' :: 'D' :: 'A' :: 'T' :: 'A' :: '[' :: cs =>
    match breakOn [']', ']', '>'] cs with
    | some (body, rest) => .ok (.cdata body, rest)
    | none => .error .unclosedCdata
  | _ => .error .unclosedCdata

/-- Reads a doctype declaration behind its opening bracket and exclamation mark. -/
def readDoctype (cs : List Char) : Reading :=
  match stripKeyword? ['d', 'o', 'c', 't', 'y', 'p', 'e'] cs with
  | none => .error .unclosedDoctype
  | some cs =>
    match splitBalanced 0 cs with
    | none => .error .unclosedDoctype
    | some (body, rest) =>
      if body.all isSeparator then .error (.namelessDoctype (byteSize body + 9))
      else .ok (.doctype body, rest)

/-- Whether the body of a processing instruction is that of an XML declaration. -/
def isDeclaration : List Char → Bool
  | 'x' :: 'm' :: 'l' :: cs => cs.head?.all isSeparator
  | _ => false

/-- Reads behind an opening bracket and a question mark. -/
def readInstruction (cs : List Char) : Reading :=
  if cs.head? = some '>' then .error .unclosedInstruction
  else
    match breakOn ['?', '>'] cs with
    | none => .error .unclosedInstruction
    | some (body, rest) =>
      .ok (if isDeclaration body then .declaration body else .instruction body, rest)

/-- Reads an end tag behind its slash. -/
def readEndTag (cs : List Char) : Reading :=
  match splitTag none cs with
  | some (inside, rest) => .ok (.endTag inside, rest)
  | none => .error .unclosedTag

/-- Reads a start tag or an empty element behind the opening bracket. -/
def readStartTag (cs : List Char) : Reading :=
  match splitTag none cs with
  | some (inside, rest) =>
    if inside.getLast? = some '/' then .ok (.emptyTag inside.dropLast, rest)
    else .ok (.startTag inside, rest)
  | none => .error .unclosedTag

/-- Reads what follows an opening bracket. -/
def readMarkup : List Char → Reading
  | '!' :: '-' :: cs => readComment cs
  | '!' :: '[' :: cs => readCdata cs
  | '!' :: 'd' :: cs => readDoctype ('d' :: cs)
  | '!' :: 'D' :: cs => readDoctype ('D' :: cs)
  | '!' :: _ => .error .unknownMarkup
  | '?' :: cs => readInstruction cs
  | '/' :: cs => readEndTag cs
  | cs => readStartTag cs

/-- The first token of a source, and what follows it. There is none at the end. -/
def next? : List Char → Option Reading
  | [] => none
  | '<' :: cs => some (readMarkup cs)
  | c :: cs =>
    some (.ok (.text (c :: cs.takeWhile (· != '<')), cs.dropWhile (· != '<')))

/-! ### Sizes -/

theorem utf8Size_of_toLower {c : Char} (h : c.toLower.toNat < 0x80) : c.utf8Size = 1 := by
  have small : c.val.toNat < 0x80 := by
    unfold Char.toLower at h
    split at h
    · rename_i h'
      have le := h'.2
      simp only [UInt32.le_iff_toNat_le] at le
      exact Nat.lt_of_le_of_lt le (by decide)
    · exact h
  simp only [Char.utf8Size, UInt32.le_iff_toNat_le]
  exact if_pos (Nat.le_of_lt_succ small)

theorem byteSize_of_toLower {cs : List Char} (h : ∀ c ∈ cs.map Char.toLower, c.toNat < 0x80) :
    byteSize cs = cs.length := by
  induction cs with
  | nil => rfl
  | cons c cs ih =>
    simp only [List.map_cons, List.mem_cons, forall_eq_or_imp] at h
    simp [utf8Size_of_toLower h.1, ih h.2, Nat.add_comm]

theorem byteSize_stripKeyword? {keyword cs rest : List Char}
    (ascii : (keyword.map Char.toLower).all (·.toNat < 0x80) = true)
    (h : stripKeyword? keyword cs = some rest) :
    byteSize cs = keyword.length + byteSize rest ∧ rest.length ≤ cs.length := by
  unfold stripKeyword? at h
  split at h
  · rename_i same
    simp only [Option.some.injEq] at h
    subst h
    have size : byteSize (cs.take keyword.length) = keyword.length := by
      simp only [List.all_eq_true, decide_eq_true_eq] at ascii
      rw [byteSize_of_toLower (same ▸ ascii)]
      simpa using congrArg List.length same
    refine ⟨?_, by simp⟩
    conv => lhs; rw [← List.take_append_drop keyword.length cs]
    rw [byteSize_append, size]
  · simp at h

/-- What a reader of a construct promises: token and rest are what it was given, less the
`n` bytes before it. -/
def Measured (n : Nat) (cs : List Char) (reading : Reading) : Prop :=
  ∀ t rest, reading = .ok (t, rest) →
    byteSize cs + n = t.size + byteSize rest ∧ rest.length ≤ cs.length

theorem measured_error {n : Nat} {cs : List Char} {fault : Fault} :
    Measured n cs (.error fault) := by
  intro t rest h
  cases h

theorem measured_readComment (cs : List Char) : Measured 3 cs (readComment cs) := by
  unfold readComment
  split
  · split
    · rename_i body rest h
      intro t rest' he
      simp only [Except.ok.injEq, Prod.mk.injEq] at he
      obtain ⟨rfl, rfl⟩ := he
      refine ⟨?_, Nat.le_succ_of_le (length_of_breakOn h)⟩
      simp [append_of_breakOn h, size, show Char.utf8Size '-' = 1 from rfl,
        show Char.utf8Size '>' = 1 from rfl]
      omega
    · exact measured_error
  · exact measured_error

theorem measured_readCdata (cs : List Char) : Measured 3 cs (readCdata cs) := by
  unfold readCdata
  split
  · split
    · rename_i body rest h
      intro t rest' he
      simp only [Except.ok.injEq, Prod.mk.injEq] at he
      obtain ⟨rfl, rfl⟩ := he
      have := length_of_breakOn h
      refine ⟨?_, by simp only [List.length_cons]; omega⟩
      rw [append_of_breakOn h]
      simp [size, show Char.utf8Size 'C' = 1 from rfl, show Char.utf8Size 'D' = 1 from rfl,
        show Char.utf8Size 'A' = 1 from rfl, show Char.utf8Size 'T' = 1 from rfl,
        show Char.utf8Size '[' = 1 from rfl, show Char.utf8Size ']' = 1 from rfl,
        show Char.utf8Size '>' = 1 from rfl]
      omega
    · exact measured_error
  · exact measured_error

theorem measured_readDoctype (cs : List Char) : Measured 2 cs (readDoctype cs) := by
  unfold readDoctype
  split
  · exact measured_error
  · rename_i behind hk
    have ⟨hs, hl⟩ := byteSize_stripKeyword? rfl hk
    split
    · exact measured_error
    · rename_i body rest h
      have parts := append_of_splitBalanced h
      split
      · exact measured_error
      · intro t rest' he
        simp only [Except.ok.injEq, Prod.mk.injEq] at he
        obtain ⟨rfl, rfl⟩ := he
        subst parts
        simp only [byteSize_append, byteSize_cons, List.length_append, List.length_cons,
          List.length_nil, show Char.utf8Size '>' = 1 from rfl] at hs hl
        refine ⟨?_, by omega⟩
        rw [size]
        omega

theorem measured_readInstruction (cs : List Char) : Measured 2 cs (readInstruction cs) := by
  unfold readInstruction
  split
  · exact measured_error
  · split
    · exact measured_error
    · rename_i body rest h
      intro t rest' he
      simp only [Except.ok.injEq, Prod.mk.injEq] at he
      obtain ⟨rfl, rfl⟩ := he
      refine ⟨?_, length_of_breakOn h⟩
      rw [append_of_breakOn h]
      split <;>
        simp [size, show Char.utf8Size '?' = 1 from rfl, show Char.utf8Size '>' = 1 from rfl] <;>
        omega

theorem measured_readEndTag (cs : List Char) : Measured 2 cs (readEndTag cs) := by
  unfold readEndTag
  split
  · rename_i inside rest h
    intro t rest' he
    simp only [Except.ok.injEq, Prod.mk.injEq] at he
    obtain ⟨rfl, rfl⟩ := he
    rw [append_of_splitTag h]
    refine ⟨?_, by simp; omega⟩
    simp [size, show Char.utf8Size '>' = 1 from rfl]
    omega
  · exact measured_error

theorem measured_readStartTag (cs : List Char) : Measured 1 cs (readStartTag cs) := by
  unfold readStartTag
  split
  · rename_i inside rest h
    have parts := append_of_splitTag h
    subst parts
    split
    · rename_i slash
      intro t rest' he
      simp only [Except.ok.injEq, Prod.mk.injEq] at he
      obtain ⟨rfl, rfl⟩ := he
      obtain ⟨init, rfl⟩ := List.getLast?_eq_some_iff.mp slash
      refine ⟨?_, by simp; omega⟩
      simp [size, show Char.utf8Size '>' = 1 from rfl, show Char.utf8Size '/' = 1 from rfl]
      omega
    · intro t rest' he
      simp only [Except.ok.injEq, Prod.mk.injEq] at he
      obtain ⟨rfl, rfl⟩ := he
      refine ⟨?_, by simp; omega⟩
      simp [size, show Char.utf8Size '>' = 1 from rfl]
      omega
  · exact measured_error

theorem Measured.behind {n : Nat} {cs : List Char} {reading : Reading}
    (h : Measured (n + 1) cs reading) {c : Char} (hc : c.utf8Size = 1) :
    Measured n (c :: cs) reading := by
  intro t rest he
  have ⟨hs, hl⟩ := h t rest he
  exact ⟨by simp [hc]; omega, Nat.le_succ_of_le hl⟩

theorem measured_readMarkup (cs : List Char) : Measured 1 cs (readMarkup cs) := by
  unfold readMarkup
  split
  · exact ((measured_readComment _).behind rfl).behind rfl
  · exact ((measured_readCdata _).behind rfl).behind rfl
  · exact (measured_readDoctype _).behind rfl
  · exact (measured_readDoctype _).behind rfl
  · exact measured_error
  · exact (measured_readInstruction _).behind rfl
  · exact (measured_readEndTag _).behind rfl
  · exact measured_readStartTag _

/-- **The bytes of a token** and those of what follows it are all there are. -/
theorem size_next? {cs rest : List Char} {t : Token} (h : next? cs = some (.ok (t, rest))) :
    byteSize cs = t.size + byteSize rest := by
  unfold next? at h
  split at h
  · simp at h
  · simp only [Option.some.injEq] at h
    have ⟨hs, _⟩ := measured_readMarkup _ t rest h
    rw [byteSize_cons, show Char.utf8Size '<' = 1 from rfl]
    omega
  · rename_i c cs _
    simp only [Option.some.injEq, Except.ok.injEq, Prod.mk.injEq] at h
    obtain ⟨rfl, rfl⟩ := h
    rw [size, ← byteSize_append, List.cons_append, List.takeWhile_append_dropWhile]

/-- **Reading a token** leaves less to read. -/
theorem length_next? {cs rest : List Char} {t : Token} (h : next? cs = some (.ok (t, rest))) :
    rest.length < cs.length := by
  unfold next? at h
  split at h
  · simp at h
  · simp only [Option.some.injEq] at h
    exact Nat.lt_succ_of_le (measured_readMarkup _ t rest h).2
  · simp only [Option.some.injEq, Except.ok.injEq, Prod.mk.injEq] at h
    obtain ⟨rfl, rfl⟩ := h
    exact Nat.lt_succ_of_le (length_dropWhile_le _ _)

/-- Every token takes a byte. -/
theorem size_pos_of_next? {cs rest : List Char} {t : Token} (h : next? cs = some (.ok (t, rest))) :
    0 < t.size := by
  unfold next? at h
  split at h
  · simp at h
  · simp only [Option.some.injEq] at h
    cases t with
    | text raw =>
      exfalso
      revert h
      unfold readMarkup readComment readCdata readDoctype readInstruction readEndTag readStartTag
      repeat' split
      all_goals simp
    | _ => simp [size]
  · rename_i c _ _
    simp only [Option.some.injEq, Except.ok.injEq, Prod.mk.injEq] at h
    obtain ⟨rfl, rfl⟩ := h
    have := c.utf8Size_pos
    simp only [size, byteSize_cons]
    omega

end Token

end Templating.Markup
