import Templating.Markup.Event
import Templating.Proofs.Markup.Encoding
import Templating.Proofs.Text.Cut

/-!
# Reading piece by piece

`Reads format cs rest events` says that in front of `rest` the text `cs` says `events`,
wherever it stands, and that reading goes on behind it (`readOn`). Pieces that are read
like that may be put one behind the other (`Reads.append`); a token is such a piece
(`reads_token`), and so is a raw text element as a whole (`reads_rawText`), as long as no
byte order mark follows it: reading begins anew there and would skip the mark.
-/

namespace Templating.Markup

open Text

theorem skipMark_of_unmarked {cs : List Char} (h : Unmarked cs) : skipMark cs = cs := by
  unfold skipMark
  split
  · exact absurd rfl h
  · rfl

/-! ### One token -/

section

variable {format : Format} {cs rest : List Char} {t : Token}

theorem readRun_of_next? (i : Nat) (ht : Token.next? cs = some (.ok (t, rest))) :
    readRun format i cs =
      match Event.ofToken? format (i + t.size) t with
      | .error e => ([], .failed e)
      | .ok none => readRun format (i + t.size) rest
      | .ok (some event) =>
        match event.entersRawText? format with
        | some (name, attributes) => ([], .rawText name attributes (i + t.size))
        | none =>
          let run := readRun format (i + t.size) rest
          (event :: run.1, run.2) := by
  rw [readRun]
  split
  · rename_i h
    rw [ht] at h
    cases h
  · rename_i h
    rw [ht] at h
    cases h
  · rename_i h
    rw [ht] at h
    cases h
    rfl

end

/-! ### Streams -/

/-- The stream with events before it. -/
def Stream.after (events : List Event) (stream : Stream) : Stream :=
  ⟨events ++ stream.events, stream.fault⟩

theorem Stream.after_append (events more : List Event) (stream : Stream) :
    stream.after (events ++ more) = (stream.after more).after events := by
  simp only [after, List.append_assoc]

/-- The stream of a run that was read from position `i` of a source on, and of what is read
behind its pause. -/
def streamOf (format : Format) (i : Nat) (source : List Char) : List Event × Pause → Stream
  | (events, .finished) => ⟨events, none⟩
  | (events, .failed e) => ⟨events, some e⟩
  | (events, .rawText name attributes position) =>
    match dropBytes (position - i) source with
    | none => ⟨events, some (.splitCharacter position)⟩
    | some cs =>
      let parts := splitRaw name.toList cs
      let rest := streamFrom format (position + byteSize cs - byteSize parts.2) parts.2
      ⟨events ++ .node (rawTextNode name attributes parts.1) :: rest.events, rest.fault⟩

theorem streamFrom_eq (format : Format) (i : Nat) (source : List Char) :
    streamFrom format i source = streamOf format i source (readRun format i (skipMark source)) := by
  rw [streamFrom]
  split
  · rename_i h
    rw [h, streamOf]
  · rename_i h
    rw [h, streamOf]
  · rename_i h
    rw [h, streamOf]
    split
    · rename_i h'
      rw [h']
    · rename_i h'
      rw [h']

theorem streamFrom_nil (format : Format) (i : Nat) : streamFrom format i [] = ⟨[], none⟩ := by
  have run : readRun format i [] = ([], .finished) := by
    rw [readRun]
    rfl
  have unmarked : Unmarked [] := nofun
  rw [streamFrom_eq, skipMark_of_unmarked unmarked, run, streamOf]

/-- The events of a source that reading goes on with at position `i`: where reading does not
begin, no byte order mark is skipped. -/
def readOn (format : Format) (i : Nat) (source : List Char) : Stream :=
  streamOf format i source (readRun format i source)

theorem streamFrom_of_unmarked (format : Format) (i : Nat) {source : List Char}
    (h : Unmarked source) : streamFrom format i source = readOn format i source := by
  rw [streamFrom_eq, skipMark_of_unmarked h, readOn]

theorem readOn_nil (format : Format) (i : Nat) : readOn format i [] = ⟨[], none⟩ := by
  have unmarked : Unmarked [] := nofun
  rw [← streamFrom_of_unmarked format i unmarked, streamFrom_nil]

theorem streamOf_after (format : Format) (i : Nat) (source : List Char) (events : List Event)
    (run : List Event × Pause) :
    streamOf format i source (events ++ run.1, run.2) =
      (streamOf format i source run).after events := by
  obtain ⟨more, pause⟩ := run
  cases pause with
  | finished => rfl
  | failed e => rfl
  | rawText name attributes position =>
    simp only [streamOf, Stream.after]
    cases dropBytes (position - i) source with
    | none => rfl
    | some cs => simp only [List.append_assoc]

/-- A run that pauses behind a piece of its source is one of what follows that piece. -/
theorem streamOf_append {format : Format} {i : Nat} {cs rest : List Char}
    {run : List Event × Pause}
    (h : ∀ name attributes position, run.2 = .rawText name attributes position →
      i + byteSize cs < position) :
    streamOf format i (cs ++ rest) run = streamOf format (i + byteSize cs) rest run := by
  obtain ⟨events, pause⟩ := run
  cases pause with
  | finished => rfl
  | failed e => rfl
  | rawText name attributes position =>
    have behind := h name attributes position rfl
    have offset : position - i = byteSize cs + (position - (i + byteSize cs)) := by omega
    rw [streamOf, streamOf, offset, dropBytes_add_append]

/-! ### Pieces of a source -/

/-- In front of `rest`, `cs` says `events`, and reading goes on behind it. -/
def Reads (format : Format) (cs rest : List Char) (events : List Event) : Prop :=
  ∀ i, readOn format i (cs ++ rest) = (readOn format (i + byteSize cs) rest).after events

section

variable {format : Format} {cs ds rest : List Char} {events more : List Event}

theorem Reads.nil : Reads format [] rest [] := fun _ => rfl

theorem Reads.append (h : Reads format cs (ds ++ rest) events) (h' : Reads format ds rest more) :
    Reads format (cs ++ ds) rest (events ++ more) := by
  intro i
  rw [List.append_assoc, h i, h' (i + byteSize cs), byteSize_append, Nat.add_assoc,
    Stream.after_append]

variable {t : Token} (ht : Token.next? (cs ++ rest) = some (.ok (t, rest)))

include ht

theorem size_of_next? : t.size = byteSize cs := by
  have := Token.size_next? ht
  rw [byteSize_append] at this
  omega

/-- A token that says something is a piece of its own. -/
theorem reads_token {event : Event} (he : ∀ stop, Event.ofToken? format stop t = .ok (some event))
    (hr : event.entersRawText? format = none) : Reads format cs rest [event] := by
  intro i
  rw [readOn, readOn, readRun_of_next? i ht, he, size_of_next? ht]
  simp only [hr]
  rw [← streamOf_append fun _ _ _ => lt_of_readRun_rawText]
  exact streamOf_after format i (cs ++ rest) [event] _

/-- A token that says nothing is a piece of its own. -/
theorem reads_silent (he : ∀ stop, Event.ofToken? format stop t = .ok none) :
    Reads format cs rest [] := by
  intro i
  rw [readOn, readOn, readRun_of_next? i ht, he, size_of_next? ht]
  simp only
  rw [← streamOf_append fun _ _ _ => lt_of_readRun_rawText]
  exact streamOf_after format i (cs ++ rest) [] _

end

/-- **A raw text element** is a piece as a whole: its start tag `cs`, and what follows up to
its end tag. -/
theorem reads_rawText {format : Format} {cs ds rest body : List Char} {t : Token} {event : Event}
    {name : String} {attributes : List Attribute}
    (ht : Token.next? (cs ++ (ds ++ rest)) = some (.ok (t, ds ++ rest)))
    (he : ∀ stop, Event.ofToken? format stop t = .ok (some event))
    (hr : event.entersRawText? format = some (name, attributes))
    (hs : splitRaw name.toList (ds ++ rest) = (body, rest)) (behind : Unmarked rest) :
    Reads format (cs ++ ds) rest [.node (rawTextNode name attributes body)] := by
  intro i
  have content : dropBytes (i + byteSize cs - i) (cs ++ (ds ++ rest)) = some (ds ++ rest) := by
    rw [Nat.add_sub_cancel_left, dropBytes_append]
  have position : i + byteSize cs + byteSize (ds ++ rest) - byteSize rest =
      i + byteSize (cs ++ ds) := by
    rw [byteSize_append, byteSize_append]
    omega
  rw [List.append_assoc, readOn, readRun_of_next? i ht, he, size_of_next? ht]
  simp only [hr, streamOf, content, hs, position, streamFrom_of_unmarked format _ behind]
  rfl

end Templating.Markup
