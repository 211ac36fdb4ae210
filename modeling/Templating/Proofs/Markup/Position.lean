import Mathlib.Logic.Relation
import Templating.Proofs.Markup.RawText
import Templating.Proofs.Markup.Reading
import Templating.Proofs.Markup.Remainder
import Templating.Proofs.Markup.Splitting

/-!
# Where raw text is cut

Raw text is cut from the source at a position that is counted: the bytes of the tokens that were
read, from the place on where reading began. A byte order mark in that place is skipped without
being counted. Readers are followed through a source token by token and from one raw text to the
next (`Reader`, `Reader.Step`). As long as no mark was skipped, the count is where the reader is
(`Reader.Placed`), and so the raw text of a tag begins right behind it, and its end and the place
where reading goes on lie in the source, between characters. Behind a mark that was skipped the
count is three bytes behind, until reading begins anew.

So raw text is cut in its place exactly where no reader that has skipped a mark comes to the
start tag of one, and reading fails over the cut exactly where the last three bytes of such a tag
begin inside a character (`rawText_in_place_iff`).
-/

namespace Templating.Markup

open Text

/-! ### Readers -/

/-- A reader of a source. -/
structure Reader where
  /-- Where it is by its count. -/
  position : Nat
  /-- Whether it has skipped a byte order mark, which is not counted. -/
  marked : Bool
  /-- What is left to read. -/
  left : List Char

/-- Where a raw text is cut: from `start` up to `stop`, where its end tag begins. Reading goes on
at `resume`. -/
structure RawCut where
  start : Nat
  stop : Nat
  resume : Nat

/-- The cut of a raw text from what begins at `start`. -/
def RawCut.of (name : String) (start : Nat) (cs : List Char) : RawCut where
  start
  stop := start + byteSize (splitRaw name.toList cs).1
  resume := start + byteSize cs - byteSize (splitRaw name.toList cs).2

/-- The cut lies in the source, between characters. -/
structure RawCut.Fits (source : List Char) (cut : RawCut) : Prop where
  start : IsBoundary source cut.start
  stop : IsBoundary source cut.stop
  resume : IsBoundary source cut.resume
  ordered : cut.start ≤ cut.stop ∧ cut.stop ≤ cut.resume ∧ cut.resume ≤ byteSize source

namespace Reader

/-- The reader that begins with a text at a position. -/
def begin (i : Nat) (text : List Char) : Reader where
  position := i
  marked := text.head? = some '\uFEFF'
  left := skipMark text

/-- The reader behind a token. -/
def past (r : Reader) (t : Token) (rest : List Char) : Reader where
  position := r.position + t.size
  marked := r.marked
  left := rest

/-- The bytes that were skipped and not counted. -/
def skipped (r : Reader) : Nat := if r.marked then 3 else 0

/-- Where the raw text of a start tag begins by the count. -/
def start (r : Reader) (inside : List Char) : Nat := r.position + (Token.startTag inside).size

/-- The reader comes to the start tag of a raw text element. -/
structure Enters (format : Format) (r : Reader) (name : String) (inside behind : List Char) :
    Prop where
  tag : Token.next? r.left = some (.ok (.startTag inside, behind))
  entered : ∃ attributes, Event.ofToken? format (r.start inside) (.startTag inside) =
    .ok (some (.enter name attributes))
  raw : format = .html ∧ isRawText name = true

/-- Reading goes on behind a token, or behind a raw text element, where it begins anew. -/
inductive Step (format : Format) (source : List Char) : Reader → Reader → Prop where
  | token {r : Reader} {t : Token} {rest : List Char} {said : Option Event}
      (next : Token.next? r.left = some (.ok (t, rest)))
      (decoded : Event.ofToken? format (r.position + t.size) t = .ok said)
      (plain : ∀ event ∈ said, event.entersRawText? format = none) :
      Step format source r (r.past t rest)
  | rawText {r : Reader} {name : String} {inside behind cs : List Char}
      (enters : r.Enters format name inside behind)
      (cut : dropBytes (r.start inside) source = some cs) :
      Step format source r
        (begin (RawCut.of name (r.start inside) cs).resume (splitRaw name.toList cs).2)

/-- The readers on the way through a source. -/
def Reached (format : Format) (source : List Char) (r : Reader) : Prop :=
  Relation.ReflTransGen (Step format source) (begin 0 source) r

/-- What is left is an end of the source, and begins where the count says, but for the bytes that
were not counted. -/
def Placed (source : List Char) (r : Reader) : Prop :=
  ∃ before, source = before ++ r.left ∧ byteSize before = r.position + r.skipped

/-! ### The count -/

section

variable {format : Format} {source before rest : List Char} {r r' : Reader} {name : String}
  {inside behind cs : List Char}

theorem placed_begin (h : source = before ++ rest) :
    (begin (byteSize before) rest).Placed source := by
  unfold begin skipMark
  split
  · rename_i cs
    refine ⟨before ++ ['\uFEFF'], by simp [h], ?_⟩
    rw [byteSize_append]
    rfl
  · rename_i unmarked
    have unmarked : ¬ rest.head? = some '\uFEFF' := by
      intro first
      obtain ⟨cs, rfl⟩ := List.head?_eq_some_iff.mp first
      exact unmarked cs rfl
    exact ⟨before, h, by simp [skipped, unmarked]⟩

/-- Where a raw text was cut, the source goes on with it, its end tag and what is read next. -/
theorem exists_append_of_cut {start : Nat} (name : String)
    (cut : dropBytes start source = some cs) :
    ∃ before tag, source =
        before ++ (splitRaw name.toList cs).1 ++ tag ++ (splitRaw name.toList cs).2 ∧
      start = byteSize before ∧
      (RawCut.of name start cs).stop = byteSize (before ++ (splitRaw name.toList cs).1) ∧
      (RawCut.of name start cs).resume =
        byteSize (before ++ (splitRaw name.toList cs).1 ++ tag) := by
  obtain ⟨before, rfl, rfl⟩ := dropBytes_eq_some_iff.mp cut
  obtain ⟨tag, parts⟩ := exists_append_of_splitRaw name.toList cs
  have size := congrArg byteSize parts
  refine ⟨before, tag, ?_, rfl, ?_, ?_⟩
  · simpa only [List.append_assoc] using congrArg (before ++ ·) parts
  · rw [RawCut.of, byteSize_append]
  · simp only [byteSize_append] at size
    simp only [RawCut.of, byteSize_append]
    omega

theorem fits_of_cut {start : Nat} (name : String) (cut : dropBytes start source = some cs) :
    (RawCut.of name start cs).Fits source := by
  obtain ⟨before, tag, parts, begins, stop, resume⟩ := exists_append_of_cut name cut
  have whole : before ++ (splitRaw name.toList cs).1 ++ tag <+: source := ⟨_, parts.symm⟩
  have text : before ++ (splitRaw name.toList cs).1 <+: source :=
    (List.prefix_append _ tag).trans whole
  have front : before <+: source := (List.prefix_append _ _).trans text
  refine ⟨?_, ?_, ?_, ?_⟩
  · rw [show (RawCut.of name start cs).start = byteSize before from begins]
    exact .of_initial front
  · rw [stop]
    exact .of_initial text
  · rw [resume]
    exact .of_initial whole
  · rw [show (RawCut.of name start cs).start = byteSize before from begins, stop, resume, parts]
    simp only [byteSize_append]
    omega

/-- One step keeps the count. -/
theorem Step.placed (step : Step format source r r') (h : r.Placed source) : r'.Placed source := by
  cases step with
  | @token t rest said next decoded plain =>
    obtain ⟨before, parts, size⟩ := h
    obtain ⟨taken, left, taken_size⟩ := Token.exists_append_of_next? next
    refine ⟨before ++ taken, ?_, ?_⟩
    · rw [parts, left, List.append_assoc]
      rfl
    · rw [byteSize_append, size, taken_size]
      exact Nat.add_right_comm ..
  | @rawText name inside behind cs enters cut =>
    obtain ⟨before, tag, parts, -, -, resume⟩ := exists_append_of_cut name cut
    rw [resume]
    exact placed_begin parts

/-- **The count** is right but for a byte order mark where reading began. -/
theorem Reached.placed (h : Reached format source r) : r.Placed source := by
  induction h with
  | refl =>
    have nothing : source = [] ++ source := rfl
    exact placed_begin nothing
  | tail _ step ih => exact step.placed ih

/-! ### What a reader comes to -/

/-- What the source says from here on. -/
def stream (format : Format) (source : List Char) (r : Reader) : Stream :=
  streamOf format 0 source (readRun format r.position r.left)

/-- The fault in which reading on from here ends. -/
def fault (format : Format) (source : List Char) (r : Reader) : Option Error :=
  (streamOf format 0 source (readRun format r.position r.left)).fault

theorem stream_begin (format : Format) (source : List Char) :
    (begin 0 source).stream format source = Stream.ofSource format source := by
  rw [Stream.ofSource, streamFrom_eq]
  rfl

theorem fault_begin (format : Format) (source : List Char) :
    (begin 0 source).fault format source = (Stream.ofSource format source).fault :=
  congrArg Stream.fault (stream_begin format source)

theorem Enters.readRun (enters : r.Enters format name inside behind) :
    ∃ attributes, Event.ofToken? format (r.start inside) (.startTag inside) =
        .ok (some (.enter name attributes)) ∧
      Markup.readRun format r.position r.left =
        ([], .rawText name attributes (r.start inside)) := by
  obtain ⟨attributes, entered⟩ := enters.entered
  have entered : Event.ofToken? format (r.position + (Token.startTag inside).size)
      (.startTag inside) = .ok (some (.enter name attributes)) := entered
  have raw : (Event.enter name attributes).entersRawText? format = some (name, attributes) :=
    if_pos enters.raw
  refine ⟨attributes, entered, ?_⟩
  rw [readRun_of_next? r.position enters.tag, entered]
  simp only [raw]
  rfl

/-- A raw text that would begin inside a character is what reading ends in. -/
theorem Enters.fault (enters : r.Enters format name inside behind)
    (split : dropBytes (r.start inside) source = none) :
    r.fault format source = some (.splitCharacter (r.start inside)) := by
  obtain ⟨attributes, -, run⟩ := enters.readRun
  rw [Reader.fault, run, streamOf, Nat.sub_zero, split]

/-- Behind the start tag of a raw text element come its text and what the source says behind the
end tag, where reading begins anew. -/
theorem Enters.exists_stream (enters : r.Enters format name inside behind)
    (cut : dropBytes (r.start inside) source = some cs) :
    ∃ attributes, Event.ofToken? format (r.start inside) (.startTag inside) =
        .ok (some (.enter name attributes)) ∧
      r.stream format source =
        (streamFrom format (RawCut.of name (r.start inside) cs).resume
          (splitRaw name.toList cs).2).after
            [.node (rawTextNode name attributes (splitRaw name.toList cs).1)] := by
  obtain ⟨attributes, entered, run⟩ := enters.readRun
  refine ⟨attributes, entered, ?_⟩
  rw [stream, run, streamOf, Nat.sub_zero, cut]
  rfl

/-- A step goes on with what the source says behind it. -/
theorem Step.exists_stream (step : Step format source r r') :
    ∃ said, r.stream format source = (r'.stream format source).after said := by
  cases step with
  | @token t rest said next decoded plain =>
    rw [stream, readRun_of_next? r.position next, decoded]
    cases said with
    | none => exact ⟨[], rfl⟩
    | some event =>
      simp only [plain event rfl]
      exact ⟨[event], streamOf_after format 0 source [event] _⟩
  | @rawText name inside behind cs enters cut =>
    obtain ⟨before, tag, parts, -, -, resume⟩ := exists_append_of_cut name cut
    obtain ⟨attributes, -, goesOn⟩ := enters.exists_stream cut
    generalize before ++ (splitRaw name.toList cs).1 ++ tag = front at parts resume
    -- Reading begins anew with the rest of the source, at its place in the source.
    have anew (run : List Event × Pause)
        (behind : ∀ name attributes position, run.2 = .rawText name attributes position →
          byteSize front < position) :
        streamOf format 0 source run =
          streamOf format (byteSize front) (splitRaw name.toList cs).2 run := by
      rw [parts, ← Nat.zero_add (byteSize front)]
      refine streamOf_append fun name attributes position paused => ?_
      rw [Nat.zero_add]
      exact behind name attributes position paused
    refine ⟨_, goesOn.trans (congrArg (Stream.after _) ?_)⟩
    rw [streamFrom_eq, resume, stream, begin, anew]
    exact fun _ _ _ => lt_of_readRun_rawText

/-- A step does not change what reading ends in. -/
theorem Step.fault (step : Step format source r r') :
    r'.fault format source = r.fault format source := by
  obtain ⟨said, goesOn⟩ := step.exists_stream
  exact (congrArg Stream.fault goesOn).symm

/-- A step goes on in the source. -/
theorem Step.position_lt (step : Step format source r r') : r.position < r'.position := by
  cases step with
  | token next => exact Nat.lt_add_of_pos_right (Token.size_pos_of_next? next)
  | @rawText name inside behind cs enters cut =>
    have begins : r.position < (RawCut.of name (r.start inside) cs).start :=
      Nat.lt_add_of_pos_right (Token.size_pos_of_next? enters.tag)
    have ordered := (fits_of_cut name cut).ordered
    exact Nat.lt_of_lt_of_le begins (ordered.1.trans ordered.2.1)

theorem Placed.position_le (h : r.Placed source) : r.position ≤ byteSize source := by
  obtain ⟨before, rfl, size⟩ := h
  rw [byteSize_append]
  omega

/-- A reader that goes on to a failed cut makes a step, or comes to the cut. -/
theorem step_or_enters {position : Nat}
    (failed : r.fault format source = some (.splitCharacter position)) :
    (∃ r', Step format source r r') ∨ ∃ name inside behind, r.Enters format name inside behind ∧
      dropBytes (r.start inside) source = none := by
  rw [Reader.fault, Markup.readRun] at failed
  split at failed
  · cases failed
  · cases failed
  · rename_i t rest next
    split at failed
    · rename_i e decoded
      cases failed
      exact absurd decoded (Event.intact_ofToken? _ t position)
    · rename_i decoded
      refine .inl ⟨_, .token next decoded fun event mem => ?_⟩
      cases mem
    · rename_i event decoded
      split at failed
      · rename_i name attributes enters
        obtain ⟨rfl, raw⟩ := Event.of_entersRawText? enters
        obtain ⟨inside, rfl, -⟩ := Event.exists_startTag_of_enter decoded
        have enters : r.Enters format name inside rest := ⟨next, ⟨attributes, decoded⟩, raw⟩
        cases cut : dropBytes (r.start inside) source with
        | none => exact .inr ⟨name, inside, rest, enters, cut⟩
        | some cs => exact .inl ⟨_, .rawText enters cut⟩
      · rename_i plain
        refine .inl ⟨_, .token next decoded ?_⟩
        rintro _ ⟨rfl⟩
        exact plain

/-- A reader that goes on to a failed cut comes to it. -/
theorem exists_uncut {position : Nat} (h : r.Placed source)
    (failed : r.fault format source = some (.splitCharacter position)) :
    ∃ r' name inside behind, Relation.ReflTransGen (Step format source) r r' ∧
      r'.Enters format name inside behind ∧ dropBytes (r'.start inside) source = none := by
  -- With every step the reader is nearer to the end of the source.
  induction distance : byteSize source - r.position using Nat.strongRecOn generalizing r with
  | ind n ih =>
    rcases step_or_enters failed with ⟨next, step⟩ | ⟨name, inside, behind, enters, uncut⟩
    · have nearer := step.position_lt
      have within := (step.placed h).position_le
      obtain ⟨r', name, inside, behind, path, found⟩ := ih (byteSize source - next.position)
        (by omega) (step.placed h) (step.fault.trans failed) rfl
      exact ⟨r', name, inside, behind, .head step path, found⟩
    · exact ⟨r, name, inside, behind, .refl, enters, uncut⟩

/-- A source says something before a reader, and goes on from there. -/
theorem Reached.exists_stream (h : Reached format source r) :
    ∃ said, Stream.ofSource format source = (r.stream format source).after said := by
  induction h with
  | refl => exact ⟨[], (stream_begin format source).symm⟩
  | tail _ step ih =>
    obtain ⟨before, said⟩ := ih
    obtain ⟨more, goesOn⟩ := step.exists_stream
    refine ⟨before ++ more, ?_⟩
    rw [said, goesOn, Stream.after_append]

theorem Reached.fault (h : Reached format source r) :
    r.fault format source = (Stream.ofSource format source).fault := by
  obtain ⟨said, goesOn⟩ := h.exists_stream
  exact (congrArg Stream.fault goesOn).symm

/-- Reading fails over a cut exactly if a reader comes to one. -/
theorem parseText_splits_iff :
    (∃ position, parseText format source = .error (.splitCharacter position)) ↔
      ∃ r name inside behind, Reached format source r ∧ r.Enters format name inside behind ∧
        dropBytes (r.start inside) source = none := by
  constructor
  · rintro ⟨position, failed⟩
    have faulty := (fault_begin format source).trans (fault_of_parseText failed)
    have first : Reached format source (begin 0 source) := .refl
    exact exists_uncut first.placed faulty
  · rintro ⟨r, name, inside, behind, reached, enters, uncut⟩
    obtain ⟨rfl, -⟩ := enters.raw
    exact ⟨_, parseText_of_fault (reached.fault.symm.trans (enters.fault uncut))⟩

/-! ### Where the tag is -/

variable (placed : r.Placed source) (enters : r.Enters format name inside behind)

include placed enters

/-- The tag stands where the reader is. -/
theorem Enters.exists_append : ∃ before, source = before ++ (('<' :: inside ++ ['>']) ++ behind) ∧
    byteSize before = r.position + r.skipped := by
  obtain ⟨before, parts, size⟩ := placed
  refine ⟨before, ?_, size⟩
  rw [parts, Token.eq_of_next?_startTag enters.tag, List.append_assoc _ ['>']]
  rfl

/-- The raw text begins behind its tag, where the count says but for a mark that was skipped. -/
theorem Enters.cut : dropBytes (r.start inside + r.skipped) source = some behind := by
  obtain ⟨before, parts, size⟩ := enters.exists_append placed
  refine dropBytes_eq_some_iff.mpr ⟨before ++ ('<' :: inside ++ ['>']), ?_, ?_⟩
  · simp only [parts, List.append_assoc]
  · simp [size, start, Token.size, show Char.utf8Size '<' = 1 from rfl,
      show Char.utf8Size '>' = 1 from rfl]
    omega

omit placed in
theorem Enters.inside_pos : 0 < byteSize inside := by
  obtain ⟨attributes, entered⟩ := enters.entered
  obtain ⟨_, same, rfl⟩ := Event.exists_startTag_of_enter entered
  cases same
  cases inside with
  | nil => exact absurd enters.raw.2 (by decide +kernel)
  | cons c cs => exact Nat.add_pos_left c.utf8Size_pos _

/-- Behind a mark that was skipped, raw text is cut three bytes before the end of its tag. -/
theorem Enters.isBoundary_iff (marked : r.marked = true) :
    IsBoundary source (r.start inside) ↔
      IsBoundary ('<' :: inside ++ ['>']) (byteSize inside - 1) := by
  obtain ⟨before, rfl, size⟩ := enters.exists_append placed
  have positive := enters.inside_pos
  have here : r.start inside = byteSize before + (byteSize inside - 1) := by
    rw [size, start, Token.size, skipped, if_pos marked]
    omega
  rw [here, isBoundary_add_append_iff, isBoundary_append_iff]
  simp [show Char.utf8Size '<' = 1 from rfl, show Char.utf8Size '>' = 1 from rfl]
  omega

/-- Raw text is cut in its place if and only if no mark was skipped. -/
theorem Enters.cut_iff : dropBytes (r.start inside) source = some behind ↔ r.marked = false := by
  have cut := enters.cut placed
  constructor
  · intro inPlace
    obtain ⟨before, parts, size⟩ := dropBytes_eq_some_iff.mp inPlace
    obtain ⟨before', parts', size'⟩ := dropBytes_eq_some_iff.mp cut
    obtain rfl := List.append_cancel_right (parts.symm.trans parts')
    rw [← Bool.not_eq_true]
    intro marked
    rw [skipped, if_pos marked] at size'
    omega
  · intro unmarked
    simpa [skipped, unmarked] using cut

/-- It is not cut at all if and only if a mark was skipped and the last three bytes of its tag begin
inside a character. -/
theorem Enters.uncut_iff : dropBytes (r.start inside) source = none ↔
    r.marked = true ∧ ¬ IsBoundary ('<' :: inside ++ ['>']) (byteSize inside - 1) := by
  cases marked : r.marked with
  | false => simp [(enters.cut_iff placed).mpr marked]
  | true =>
    rw [← enters.isBoundary_iff placed marked, Text.isBoundary_iff, not_not]
    simp

end

end Reader

/-! ### Raw text in its place -/

open Reader

/-- Every raw text of the source is cut right behind its start tag, and its end and the place
where reading goes on lie in the source, between characters. -/
def CutsInPlace (format : Format) (source : List Char) : Prop :=
  ∀ r name inside behind, Reached format source r → r.Enters format name inside behind →
    dropBytes (r.start inside) source = some behind ∧
      (RawCut.of name (r.start inside) behind).Fits source

/-- **Where raw text is cut.** Reading does not fail over a cut, and every raw text is cut in its
place, if and only if no reader comes to the start tag of a raw text after it has skipped a byte
order mark where it began. It fails over a cut if and only if such a reader comes to a tag whose
last three bytes begin inside a character. In any case the start tag ends at the position that the
reader has counted, but for the bytes it has skipped, and a cut that is made fits. -/
theorem rawText_in_place_iff (format : Format) (source : List Char) :
    ((∀ position, parseText format source ≠ .error (.splitCharacter position)) ∧
        CutsInPlace format source ↔
      ∀ r name inside behind, Reached format source r → r.Enters format name inside behind →
        r.marked = false) ∧
    ((∃ position, parseText format source = .error (.splitCharacter position)) ↔
      ∃ r name inside behind, Reached format source r ∧ r.Enters format name inside behind ∧
        r.marked = true ∧ ¬ IsBoundary ('<' :: inside ++ ['>']) (byteSize inside - 1)) ∧
    ∀ r name inside behind, Reached format source r → r.Enters format name inside behind →
      dropBytes (r.start inside + r.skipped) source = some behind ∧
        ∀ cs, dropBytes (r.start inside) source = some cs →
          (RawCut.of name (r.start inside) cs).Fits source := by
  refine ⟨⟨?_, fun never => ⟨?_, ?_⟩⟩, ?_, ?_⟩
  · rintro ⟨-, inPlace⟩ r name inside behind reached enters
    exact (enters.cut_iff reached.placed).mp (inPlace r name inside behind reached enters).1
  · intro position failed
    obtain ⟨r, name, inside, behind, reached, enters, uncut⟩ := parseText_splits_iff.mp ⟨_, failed⟩
    have unmarked := never r name inside behind reached enters
    rw [(enters.cut_iff reached.placed).mpr unmarked] at uncut
    cases uncut
  · intro r name inside behind reached enters
    have unmarked := never r name inside behind reached enters
    have cut := (enters.cut_iff reached.placed).mpr unmarked
    exact ⟨cut, fits_of_cut name cut⟩
  · rw [parseText_splits_iff]
    constructor
    · rintro ⟨r, name, inside, behind, reached, enters, uncut⟩
      exact ⟨r, name, inside, behind, reached, enters, (enters.uncut_iff reached.placed).mp uncut⟩
    · rintro ⟨r, name, inside, behind, reached, enters, split⟩
      exact ⟨r, name, inside, behind, reached, enters, (enters.uncut_iff reached.placed).mpr split⟩
  · intro r name inside behind reached enters
    exact ⟨enters.cut reached.placed, fun cs cut => fits_of_cut name cut⟩

/-- Without byte order marks none is skipped. -/
theorem Reader.Reached.unmarked {format : Format} {source : List Char} {r : Reader}
    (h : Reached format source r) (none : '\uFEFF' ∉ source) : r.marked = false := by
  have never {i : Nat} {text : List Char} (rest : text <:+ source) :
      (begin i text).marked = false := by
    refine decide_eq_false fun first => none (rest.subset ?_)
    obtain ⟨cs, rfl⟩ := List.head?_eq_some_iff.mp first
    exact List.mem_cons_self
  induction h with
  | refl => exact never (List.suffix_refl source)
  | tail _ step ih =>
    cases step with
    | token => exact ih
    | rawText enters cut =>
      obtain ⟨before, tag, parts, -⟩ := exists_append_of_cut _ cut
      exact never ⟨_, parts.symm⟩

/-- A page with characters of two bytes before, inside and behind its raw texts. -/
def accentedPage : List Char := "é<style ä='ö'>ü</style><p><script>é<!--</SCRIPT >ä".toList

theorem accentedPage_in_place :
    (∀ position, parseText .html accentedPage ≠ .error (.splitCharacter position)) ∧
      CutsInPlace .html accentedPage := by
  have none : '\uFEFF' ∉ accentedPage := by decide +kernel
  obtain ⟨inPlace, -⟩ := rawText_in_place_iff .html accentedPage
  exact inPlace.mpr fun r _ _ _ reached _ => reached.unmarked none

/-- A page where reading begins anew, behind a raw text element, with a byte order mark. -/
def remarkedPage : List Char := "<style></style>\uFEFF<script éa></script>".toList

-- The last three bytes of its tag begin inside a character.
example : ¬ IsBoundary "<script éa>".toList 9 := by decide +kernel

/-- Reading fails over a cut, although no tag of the page is at fault. -/
theorem remarkedPage_splits :
    parseText .html remarkedPage = .error (.splitCharacter 27) ∧
      ¬ CutsInPlace .html remarkedPage := by
  have faulty : (Stream.ofSource .html remarkedPage).fault = some (.splitCharacter 27) := by
    decide +kernel
  have failed := parseText_of_fault faulty
  refine ⟨failed, fun inPlace => ?_⟩
  obtain ⟨r, name, inside, behind, reached, enters, uncut⟩ := parseText_splits_iff.mp ⟨27, failed⟩
  rw [(inPlace r name inside behind reached enters).1] at uncut
  cases uncut

end Templating.Markup
