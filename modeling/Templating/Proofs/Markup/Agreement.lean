import Templating.Proofs.Markup.GenuineDocument
import Templating.Proofs.Markup.Nesting

/-!
# Where the formats agree

What is accepted in XML is accepted in HTML with the same result, unless it has a tag of a void
element or a raw text element (`parseText_html_of_xml`): HTML forgives more and changes nothing
that needs no forgiveness.

Each reader of HTML admits what the one of XML accepts (`Admits`), and so do readers that are
made of such readers: values, attribute lists, tags, tokens, and then the builder, where an end
tag that fits the innermost open element fits the nearest one of its name, and nothing is left
open at the end.
-/

namespace Templating.Markup

open Text

/-! ### Strict and lenient results -/

section

variable {ε α β : Type}

/-- Whatever is accepted strictly is accepted leniently, with the same result. -/
def Admits (strict lenient : Except ε α) : Prop := ∀ a, strict = .ok a → lenient = .ok a

theorem admits_refl (x : Except ε α) : Admits x x := fun _ h => h

theorem Admits.bind {x y : Except ε α} {f g : α → Except ε β} (h : Admits x y)
    (h' : ∀ a, Admits (f a) (g a)) : Admits (x.bind f) (y.bind g) := by
  intro b hb
  obtain ⟨a, strict, hb⟩ := exists_of_bind_eq_ok hb
  rw [h a strict]
  exact h' a b hb

theorem Admits.map {x y : Except ε α} (h : Admits x y) (f : α → β) :
    Admits (x.map f) (y.map f) := by
  intro b hb
  obtain ⟨a, strict, rfl⟩ := exists_of_map_eq_ok hb
  rw [h a strict]
  rfl

end

/-! ### Inside tags -/

namespace Tag

/-- An attribute list without a fault in XML is the same in HTML. -/
theorem attributesFrom_html_of_xml (stop : Nat) (seen : List (List Char × Nat)) (i : Nat)
    (cs : List Char) (h : (attributesFrom .xml stop seen i cs).fault = none) :
    attributesFrom .html stop seen i cs = attributesFrom .xml stop seen i cs := by
  generalize xml : Format.xml = format at h ⊢
  fun_induction attributesFrom format stop seen i cs with
  | case1 seen i cs end_ => exact attributesFrom_of_end .html stop i end_
  | case2 | case3 | case5 | case6 | case7 | case8 | case10 => cases h
  | case4 _ _ _ _ _ _ _ _ _ _ _ _ html | case11 _ _ _ _ _ _ _ _ _ _ _ _ _ _ _ html =>
    cases xml.trans html
  | case9 seen i cs c behind begins start key seen' j first body after fresh quote value _ rest
      closed ih =>
    rw [attributesFrom_quoted .html stop i begins fresh after quote closed, ih h]

end Tag

/-! ### Events -/

namespace Event

variable {stop : Nat}

theorem admits_decode (raw : List Char) (report : Reference.Fault → Error) :
    Admits ((Reference.decode raw).mapError report) (.ok (Reference.decodeOrKeep raw)) := by
  intro cs h
  rw [Reference.decodeOrKeep]
  cases decoded : Reference.decode raw <;> rw [decoded] at h <;> cases h
  rfl

theorem admits_decodeText (raw : List Char) :
    Admits (decodeText .xml stop raw) (decodeText .html stop raw) := admits_decode raw _

theorem admits_decodeAttributes (fault : Option Tag.Fault) (pairs : List (List Char × List Char)) :
    Admits (decodeAttributes .xml stop fault pairs) (decodeAttributes .html stop fault pairs) := by
  induction pairs with
  | nil => exact admits_refl _
  | cons pair pairs ih =>
    obtain ⟨key, raw⟩ := pair
    rw [decodeAttributes_cons, decodeAttributes_cons]
    exact Admits.bind (admits_decode raw _) fun value => ih.map _

/-- An attribute list with a fault is not accepted. -/
theorem fault_of_decodeAttributes {format : Format} {fault : Option Tag.Fault}
    {pairs : List (List Char × List Char)} {as : List Attribute}
    (h : decodeAttributes format stop fault pairs = .ok as) : fault = none := by
  induction pairs generalizing as with
  | nil =>
    cases fault with
    | none => rfl
    | some fault => cases h
  | cons pair pairs ih =>
    rw [decodeAttributes_cons] at h
    obtain ⟨value, -, h⟩ := exists_of_bind_eq_ok h
    obtain ⟨rest, decoded, -⟩ := exists_of_map_eq_ok h
    exact ih decoded

theorem admits_decodeTag (inside : List Char) :
    Admits (decodeTag .xml stop inside) (decodeTag .html stop inside) := by
  intro tag h
  rw [decodeTag] at h ⊢
  obtain ⟨as, decoded, -⟩ := exists_of_map_eq_ok h
  have listing : Tag.attributes .html inside = Tag.attributes .xml inside :=
    Tag.attributesFrom_html_of_xml _ _ _ _ (fault_of_decodeAttributes decoded)
  rw [listing]
  exact (admits_decodeAttributes _ _).map _ tag h

/-- The name in the tag of an event. -/
def tagName? : Event → Option String
  | enter name _ | leave name | node (.element name _ _) => some name
  | _ => none

/-- The event is in no tag of a void element or a raw text element. -/
def Plain (event : Event) : Prop :=
  ∀ name ∈ event.tagName?, isVoid name = false ∧ isRawText name = false

instance (event : Event) : Decidable event.Plain :=
  inferInstanceAs (Decidable (∀ name ∈ event.tagName?, _))

theorem Plain.entersRawText? {event : Event} (plain : event.Plain) (format : Format) :
    event.entersRawText? format = none := by
  cases event with
  | enter name as =>
    rw [Event.entersRawText?, (plain name rfl).2]
    exact if_neg fun raw => Bool.false_ne_true raw.2
  | _ => rfl

/-- A token says the same in both formats, void elements apart. -/
theorem ofToken?_html_of_xml {t : Token} {said : Option Event}
    (h : ofToken? .xml stop t = .ok said) (plain : ∀ event ∈ said, event.Plain) :
    ofToken? .html stop t = .ok said := by
  cases t with
  | text raw => exact (admits_decodeText raw).map _ said h
  | emptyTag inside => exact (admits_decodeTag inside).map _ said h
  | startTag inside =>
    rw [ofToken?] at h ⊢
    obtain ⟨⟨name, as⟩, tag, rfl⟩ := exists_of_map_eq_ok h
    have void : isVoid name = false := (plain (.enter name as) rfl name rfl).1
    rw [admits_decodeTag inside _ tag]
    simp only [Except.map, void, Bool.false_eq_true, and_false, if_false, reduceCtorEq]
  | endTag _ | comment _ | cdata _ | instruction _ | declaration _ | doctype _ => exact h

end Event

theorem readRun_of_end (format : Format) (i : Nat) {cs : List Char}
    (end_ : Token.next? cs = none) : readRun format i cs = ([], .finished) := by
  rw [readRun]
  split
  · rfl
  · rename_i h
    rw [end_] at h
    cases h
  · rename_i h
    rw [end_] at h
    cases h

/-- A run of events that goes on to the end does so in both formats. -/
theorem readRun_html_of_xml {i : Nat} {cs : List Char}
    (finished : (readRun .xml i cs).2 = .finished)
    (plain : ∀ event ∈ (readRun .xml i cs).1, event.Plain) :
    readRun .html i cs = readRun .xml i cs := by
  generalize xml : Format.xml = format at finished plain ⊢
  fun_induction readRun format i cs with
  | case1 i cs end_ => exact readRun_of_end .html i end_
  | case2 | case3 | case5 => cases finished
  | case4 i cs t rest ht said ih =>
    subst xml
    have same : Event.ofToken? .html (i + t.size) t = .ok none :=
      Event.ofToken?_html_of_xml said fun event mem => absurd mem (Option.not_mem_none event)
    rw [readRun_of_next? i ht, same]
    exact ih finished plain
  | case6 i cs t rest ht event said stays events pause run ih =>
    subst xml
    obtain ⟨first, plain⟩ := List.forall_mem_cons.mp plain
    have same : Event.ofToken? .html (i + t.size) t = .ok (some event) :=
      Event.ofToken?_html_of_xml said fun _ mem => Option.some.inj mem ▸ first
    rw [run] at ih
    rw [readRun_of_next? i ht, same]
    simp only [first.entersRawText? .html, ih finished plain]

/-- A source without a fault in XML says the same in HTML, if it has no tag of a void element or
a raw text element. -/
theorem ofSource_html_of_xml {source : List Char}
    (readable : (Stream.ofSource .xml source).fault = none)
    (plain : ∀ event ∈ (Stream.ofSource .xml source).events, event.Plain) :
    Stream.ofSource .html source = Stream.ofSource .xml source := by
  rw [Stream.ofSource, streamFrom_eq] at readable plain
  rw [Stream.ofSource, Stream.ofSource, streamFrom_eq, streamFrom_eq]
  have pause := (genuine_readRun .xml 0 (skipMark source)).2
  have same := @readRun_html_of_xml 0 (skipMark source)
  revert readable plain pause same
  obtain ⟨events, stop⟩ := readRun .xml 0 (skipMark source)
  intro readable plain pause same
  cases stop with
  | finished => rw [same rfl plain, streamOf, streamOf]
  | failed e => cases readable
  | rawText name as position => cases (pause name as position rfl).2.1

/-! ### Building -/

namespace Builder

/-- An end tag that leaves the innermost element does so in both formats. -/
theorem admits_step (b : Builder) {event : Event} (plain : event.Plain) :
    Admits (b.step .xml event) (b.step .html event) := by
  intro b' h
  cases event with
  | leave name =>
    obtain ⟨stack, top, doctype⟩ := b
    rw [step, leaveInnermost] at h
    cases stack with
    | nil => cases h
    | cons e stack =>
      dsimp only at h
      split at h
      · rename_i own
        cases h
        subst own
        have void : isVoid e.name = false := (plain e.name rfl).1
        have same : sameName e.name e.name = true := beq_self_eq_true _
        rw [step, leaveNearest]
        simp only [void, Bool.false_eq_true, if_false, List.findIdx?_cons, same, if_true]
        rfl
      · cases h
  | _ => exact h

theorem admits_run (b : Builder) {events : List Event} (plain : ∀ event ∈ events, event.Plain) :
    Admits (b.run .xml events) (b.run .html events) := by
  induction events generalizing b with
  | nil => exact admits_refl _
  | cons event events ih =>
    obtain ⟨first, rest⟩ := List.forall_mem_cons.mp plain
    rw [run_cons, run_cons]
    exact (b.admits_step first).bind fun b => ih b rest

theorem admits_finish (b : Builder) : Admits (b.finish .xml) (b.finish .html) := by
  intro b' h
  obtain ⟨stack, top, doctype⟩ := b
  cases stack with
  | nil => exact h
  | cons e stack => cases h

end Builder

/-- A stream without tags of void elements builds the same in both formats. -/
theorem Stream.admits_build {stream : Stream} (plain : ∀ event ∈ stream.events, event.Plain) :
    Admits (stream.build .xml) (stream.build .html) := by
  intro b built
  obtain ⟨events, fault⟩ := stream
  obtain rfl : fault = none := fault_of_build built
  rw [build_eq_bind] at built ⊢
  exact (Builder.admits_run {} plain).bind Builder.admits_finish b built

/-- **Where the formats agree.** A source that is accepted in XML, and in which no tag is that of a
void element or a raw text element of HTML, is accepted in HTML, with the same doctype and the
same content. -/
theorem parseText_html_of_xml {source : List Char} {doc : Document}
    (accepted : parseText .xml source = .ok doc)
    (plain : ∀ event ∈ (Stream.ofSource .xml source).events, event.Plain) :
    parseText .html source = .ok { doc with format := .html } := by
  rw [parseText] at accepted ⊢
  obtain ⟨b, built, rfl⟩ := exists_of_map_eq_ok accepted
  rw [ofSource_html_of_xml (Stream.fault_of_build built) plain, Stream.admits_build plain b built]
  rfl

/-- A note with what both formats know: a declaration, a doctype, references, an empty element and
a comment. -/
def sharedNote : List Char :=
  "<?xml version='1.0'?><!DOCTYPE note><note to='a &lt; b'>x &amp; y<B/><c> </c></note><!--z-->".toList

theorem sharedNote_agrees :
    ∃ doc, parseText .xml sharedNote = .ok doc ∧
      doc.content =
        [.element "note" [⟨"to", "a < b"⟩]
          [.text "x & y", .element "B" [] [], .element "c" [] [.text " "]], .comment "z"] ∧
      parseText .html sharedNote = .ok { doc with format := .html } := by
  have accepted : parseText .xml sharedNote = .ok
      { format := .xml
        doctype := some "note"
        content :=
          [.element "note" [⟨"to", "a < b"⟩]
            [.text "x & y", .element "B" [] [], .element "c" [] [.text " "]], .comment "z"] } := by
    decide +kernel
  have plain : ∀ event ∈ (Stream.ofSource .xml sharedNote).events, event.Plain := by decide +kernel
  exact ⟨_, accepted, rfl, parseText_html_of_xml accepted plain⟩

end Templating.Markup
