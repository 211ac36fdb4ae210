import Templating.Proofs.Markup.Continuing
import Templating.Proofs.Markup.Position

/-!
# Raw text, verbatim

The content of a raw text element is not read but cut from the source. `RawSplit` says of a text
where that is: at the first end tag of the element's name, or at the end of the input, and behind
the end tag reading goes on. The conditions leave no choice (`rawSplit_iff`).

A source without byte order marks is counted right, so that what is cut stands right behind the
start tag, at any of its raw text elements. There, what was said before stays, the element with
its text is added, and the document is what reading on from the byte behind the end tag makes of
that (`rawText_verbatim`).
-/

namespace Templating.Markup

open Text Reader

/-! ### End tags -/

/-- An end tag of this name begins the text: a bracket, a slash and the name in any case of
letters, and behind it a bracket, a slash, a blank or nothing. -/
def BeginsEndTag (name cs : List Char) : Prop :=
  ∃ written after, cs = '<' :: '/' :: (written ++ after) ∧
    written.map Char.toLower = name.map Char.toLower ∧
    ∀ c ∈ after.head?, c = '>' ∨ c = '/' ∨ isAsciiBlank c = true

theorem startsEndTag_iff (name cs : List Char) :
    startsEndTag name cs = true ↔ BeginsEndTag name cs := by
  constructor
  · intro h
    unfold startsEndTag at h
    split at h
    · rename_i cs
      rw [Bool.and_eq_true, beq_iff_eq, Option.all_eq_true] at h
      obtain ⟨same, stop⟩ := h
      refine ⟨cs.take name.length, cs.drop name.length, ?_, same, fun c first => ?_⟩
      · rw [List.take_append_drop]
      · simpa [or_assoc] using stop c first
    · cases h
  · rintro ⟨written, after, rfl, same, stop⟩
    have length : written.length = name.length := by simpa using congrArg List.length same
    rw [startsEndTag, Bool.and_eq_true, beq_iff_eq, Option.all_eq_true, ← length, List.take_left,
      List.drop_left]
    exact ⟨same, fun c first => by simpa [or_assoc] using stop c first⟩

/-- A text that begins with raw text is cut: `body` goes up to the first end tag of this name, or
up to the end, and `tag` from there up to the first bracket, or up to the end. -/
structure RawSplit (name cs body tag rest : List Char) : Prop where
  parts : cs = body ++ (tag ++ rest)
  first : ∀ i < body.length, ¬ BeginsEndTag name (cs.drop i)
  ended : tag ++ rest = [] ∨ BeginsEndTag name (tag ++ rest)
  closed : (∃ front, '>' ∉ front ∧ tag = front ++ ['>']) ∨ ('>' ∉ tag ∧ rest = [])

section

variable {name cs body tag rest : List Char}

/-- The closing bracket of an end tag is the first one. -/
theorem drop_dropWhile_of_closed
    (closed : (∃ front, '>' ∉ front ∧ tag = front ++ ['>']) ∨ ('>' ∉ tag ∧ rest = [])) :
    ((tag ++ rest).dropWhile (· != '>')).drop 1 = rest := by
  have passes {front : List Char} (none : '>' ∉ front) : ∀ c ∈ front, (c != '>') = true := by
    intro c mem
    rw [bne_iff_ne]
    rintro rfl
    exact none mem
  rcases closed with ⟨front, none, rfl⟩ | ⟨none, rfl⟩
  · rw [List.append_assoc, List.singleton_append,
      (span_append (· != '>') front ('>' :: rest) (passes none) (by
      rintro c ⟨rfl⟩
      rfl)).2]
    rfl
  · rw [(span_append (· != '>') tag [] (passes none) nofun).2]
    rfl

theorem exists_closed (cs : List Char) : ∃ tag,
    cs = tag ++ (cs.dropWhile (· != '>')).drop 1 ∧
      ((∃ front, '>' ∉ front ∧ tag = front ++ ['>']) ∨
        ('>' ∉ tag ∧ (cs.dropWhile (· != '>')).drop 1 = [])) := by
  by_cases closes : '>' ∈ cs
  · obtain ⟨front, rest, rfl, none⟩ := List.eq_append_cons_of_mem closes
    have behind : ((front ++ ['>'] ++ rest).dropWhile (· != '>')).drop 1 = rest :=
      drop_dropWhile_of_closed (.inl ⟨front, none, rfl⟩)
    rw [List.append_assoc, List.singleton_append] at behind
    refine ⟨front ++ ['>'], ?_, .inl ⟨front, none, rfl⟩⟩
    rw [behind, List.append_assoc, List.singleton_append]
  · have behind : ((cs ++ []).dropWhile (· != '>')).drop 1 = [] :=
      drop_dropWhile_of_closed (.inr ⟨closes, rfl⟩)
    rw [List.append_nil] at behind
    exact ⟨cs, by rw [behind, List.append_nil], .inr ⟨closes, behind⟩⟩

theorem exists_rawSplit (name cs : List Char) :
    ∃ tag, RawSplit name cs (splitRaw name cs).1 tag (splitRaw name cs).2 := by
  induction cs with
  | nil => exact ⟨[], rfl, fun i before => absurd before (Nat.not_lt_zero i), .inl rfl,
      .inr ⟨List.not_mem_nil, rfl⟩⟩
  | cons c cs ih =>
    rw [splitRaw]
    split
    · rename_i starts
      obtain ⟨tag, parts, closed⟩ := exists_closed (c :: cs)
      refine ⟨tag, parts, fun i before => absurd before (Nat.not_lt_zero i), .inr ?_, closed⟩
      rw [← parts]
      exact (startsEndTag_iff _ _).mp starts
    · rename_i goesOn
      obtain ⟨tag, split⟩ := ih
      refine ⟨tag, congrArg (c :: ·) split.parts, fun i before => ?_, split.ended, split.closed⟩
      cases i with
      | zero => exact mt (startsEndTag_iff _ _).mpr goesOn
      | succ i => exact split.first i (Nat.lt_of_succ_lt_succ before)

theorem RawSplit.splitRaw_eq (h : RawSplit name cs body tag rest) :
    splitRaw name cs = (body, rest) := by
  induction body generalizing cs with
  | nil =>
    obtain rfl := h.parts
    have behind := drop_dropWhile_of_closed h.closed
    rw [List.nil_append]
    rcases h.ended with none | starts
    · rw [none, (List.append_eq_nil_iff.mp none).2]
      rfl
    · rw [← startsEndTag_iff] at starts
      cases written : tag ++ rest with
      | nil =>
        rw [written] at starts
        cases starts
      | cons c cs => rw [splitRaw, ← written, if_pos starts, behind]
  | cons c body ih =>
    obtain rfl := h.parts
    have goesOn := h.first 0 (Nat.succ_pos _)
    rw [List.drop_zero, ← startsEndTag_iff, List.cons_append] at goesOn
    have inner : RawSplit name (body ++ (tag ++ rest)) body tag rest :=
      ⟨rfl, fun i before => h.first (i + 1) (Nat.succ_lt_succ before), h.ended, h.closed⟩
    rw [List.cons_append, splitRaw, if_neg goesOn, ih inner]

/-- **Where raw text is cut** is said by `RawSplit`. -/
theorem rawSplit_iff : splitRaw name cs = (body, rest) ↔ ∃ tag, RawSplit name cs body tag rest := by
  constructor
  · intro h
    obtain ⟨tag, split⟩ := exists_rawSplit name cs
    rw [h] at split
    exact ⟨tag, split⟩
  · rintro ⟨tag, split⟩
    exact split.splitRaw_eq

end

/-- Reading goes on behind the end tag. -/
theorem RawSplit.resume_eq {name : String} {cs body tag rest : List Char}
    (h : RawSplit name.toList cs body tag rest) (start : Nat) :
    (RawCut.of name start cs).resume = start + byteSize body + byteSize tag := by
  have size := congrArg byteSize h.parts
  simp only [byteSize_append] at size
  simp only [RawCut.of, h.splitRaw_eq]
  omega

/-! ### Raw text elements -/

/-- **Raw text is verbatim.** In a page without byte order marks, let a reader come to the start
tag of a raw text element, any of those in the page. Its text `body` is what the page goes on with
behind the tag, up to the first end tag of that name. The page says the element, with this text as
its only child or without one if it is empty, and then what it says from the first byte behind the
end tag on: the document is what reading on from there makes of what was built up to the element.
So its nodes are, in document order, those that were said before the tag, the element, and those
that are read from that byte on. -/
theorem rawText_verbatim {source : List Char} {doc : Document} (unmarked : '\uFEFF' ∉ source)
    (parsed : parseText .html source = .ok doc) {r : Reader} {name : String}
    {inside behind : List Char} (reached : Reached .html source r)
    (enters : r.Enters .html name inside behind) :
    ∃ (front body tag rest : List Char) (as : List Attribute) (said : List Event) (b : Builder),
      let element := Node.element name as (if body = [] then [] else [.text (String.ofList body)])
      let taken := front ++ ('<' :: inside ++ ['>']) ++ body ++ tag
      source = taken ++ rest ∧ RawSplit name.toList behind body tag rest ∧
        Event.ofToken? .html (r.start inside) (.startTag inside) = .ok (some (.enter name as)) ∧
        byteSize front = r.position ∧
        Stream.ofSource .html source =
          (streamFrom .html (byteSize taken) rest).after (said ++ [.node element]) ∧
        Builder.run .html {} said = .ok b ∧
        (b.push element).parseOn .html (byteSize taken) source = .ok doc ∧
        Node.allUnits doc.content =
          (Event.ofContent true said).filterMap Event.unit? ++
            element :: (Event.ofContent false
              (streamFrom .html (byteSize taken) rest).events).filterMap Event.unit? := by
  have inPlace := reached.unmarked unmarked
  have cut := (enters.cut_iff reached.placed).mpr inPlace
  obtain ⟨front, place, position⟩ := enters.exists_append reached.placed
  rw [skipped, inPlace, if_neg Bool.false_ne_true, Nat.add_zero] at position
  obtain ⟨said, stream⟩ := reached.exists_stream
  obtain ⟨as, entered, goesOn⟩ := enters.exists_stream cut
  obtain ⟨tag, split⟩ := exists_rawSplit name.toList behind
  obtain ⟨b, ran⟩ := Builder.exists_run_html {} said
  rcases parts : splitRaw name.toList behind with ⟨body, rest⟩
  rw [parts] at split goesOn
  refine ⟨front, body, tag, rest, as, said, b, ?_⟩
  intro element taken
  have whole : source = taken ++ rest := by
    rw [place, split.parts]
    simp [taken]
  have readOn : Stream.ofSource .html source =
      (streamFrom .html (byteSize taken) rest).after (said ++ [.node element]) := by
    have begins : r.start inside = byteSize (front ++ ('<' :: inside ++ ['>'])) := by
      rw [byteSize_append, position]
      simp [start, Token.size, show Char.utf8Size '<' = 1 from rfl,
        show Char.utf8Size '>' = 1 from rfl]
      omega
    rw [stream, goesOn, split.resume_eq, begins, ← byteSize_append, ← byteSize_append,
      Stream.after_append]
    rfl
  have built : Builder.run .html {} (said ++ [.node element]) = .ok (b.push element) := by
    rw [Builder.run_append, ran]
    rfl
  have parsedOn : (b.push element).parseOn .html (byteSize taken) source = .ok doc := by
    rw [← parsed, whole]
    exact Builder.parseOn_of_after (by rw [← whole, readOn]) built
  have own : element.units = [element] := Node.units_rawTextNode enters.raw.2 as body
  refine ⟨whole, split, entered, position, readOn, ran, parsedOn, ?_⟩
  rw [whole] at readOn parsedOn
  exact Builder.allUnits_of_after readOn own ran parsedOn

/-- The second of two raw text elements; its end tag is never closed. -/
def secondRawText : List Char := "<script>a</b</SCRIPT\n".toList

/-- What a page with two raw texts has behind the first start tag. An end tag of a longer name
stands there before the one that ends the first raw text. -/
def behindStyle : List Char := "é</styles></Style x>ü".toList ++ secondRawText

/-- A page with two raw texts. -/
def rawTextPage : List Char := "<STYLE>".toList ++ behindStyle

/-- The reader behind the text between them. -/
def rawTextReader : Reader := (begin 28 ('ü' :: secondRawText)).past (.text ['ü']) secondRawText

theorem rawTextReader_reached : Reached .html rawTextPage rawTextReader := by
  have tag : (begin 0 rawTextPage).Enters .html "STYLE" "STYLE".toList behindStyle :=
    ⟨by decide +kernel, ⟨[], by decide +kernel⟩, rfl, by decide +kernel⟩
  have cut : dropBytes ((begin 0 rawTextPage).start "STYLE".toList) rawTextPage =
      some behindStyle := by
    decide +kernel
  have resume : (RawCut.of "STYLE" ((begin 0 rawTextPage).start "STYLE".toList)
      behindStyle).resume = 28 := by
    decide +kernel
  have rest : (splitRaw "STYLE".toList behindStyle).2 = 'ü' :: secondRawText := by
    decide +kernel
  have second := Step.rawText tag cut
  rw [resume, rest] at second
  have text : Step .html rawTextPage (begin 28 ('ü' :: secondRawText)) rawTextReader := by
    have decoded : Event.ofToken? .html 30 (.text ['ü']) = .ok (some (.text "ü")) := by
      decide +kernel
    refine .token (by decide +kernel) decoded ?_
    rintro _ ⟨rfl⟩
    rfl
  exact (Relation.ReflTransGen.single second).tail text

theorem secondRawText_verbatim :
    ∃ (doc : Document) (b : Builder), parseText .html rawTextPage = .ok doc ∧
      doc.content = [.element "STYLE" [] [.text "é</styles>"], .text "ü",
        .element "script" [] [.text "a</b"]] ∧
      (b.push (.element "script" [] [.text "a</b"])).parseOn .html (byteSize rawTextPage)
        rawTextPage = .ok doc := by
  have unmarked : '\uFEFF' ∉ rawTextPage := by decide +kernel
  have content : (parseText .html rawTextPage).map (·.content) =
      .ok [.element "STYLE" [] [.text "é</styles>"], .text "ü",
        .element "script" [] [.text "a</b"]] := by
    decide +kernel
  obtain ⟨doc, parsed, content⟩ := exists_of_map_eq_ok content
  have tag : rawTextReader.Enters .html "script" "script".toList "a</b</SCRIPT\n".toList :=
    ⟨by decide +kernel, ⟨[], by decide +kernel⟩, rfl, by decide +kernel⟩
  obtain ⟨front, body, close, rest, as, said, b, whole, split, entered, -, -, -, parsedOn, -⟩ :=
    rawText_verbatim unmarked parsed rawTextReader_reached tag
  have cut : splitRaw "script".toList "a</b</SCRIPT\n".toList = ("a</b".toList, []) := by
    decide +kernel
  have attributes : Event.ofToken? .html (rawTextReader.start "script".toList)
      (.startTag "script".toList) = .ok (some (.enter "script" [])) := by
    decide +kernel
  rw [split.splitRaw_eq] at cut
  rw [attributes] at entered
  cases cut
  cases entered
  rw [List.append_nil] at whole
  rw [← whole] at parsedOn
  exact ⟨doc, b, parsed, content, parsedOn⟩

end Templating.Markup
