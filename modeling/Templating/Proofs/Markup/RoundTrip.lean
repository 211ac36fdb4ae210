import Templating.Markup.Parse
import Templating.Proofs.Markup.Building

/-!
# Reading documents back

The bytes of a well-formed document are read back as that document, with its format,
its encoding and its doctype (`parse_bytes`). What is written in front of the nodes says
the doctype and, between the lines, blank text, which adds nothing as long as no node
has come; then the nodes are read and built.
-/

namespace Templating.Markup

open Text

/-! ### The declaration and the doctype -/

/-- The body of an XML declaration, up to the name of the encoding. -/
def declarationStart : List Char :=
  ['x', 'm', 'l', ' ', 'v', 'e', 'r', 's', 'i', 'o', 'n', '=', '"', '1', '.', '0', '"', ' ',
    'e', 'n', 'c', 'o', 'd', 'i', 'n', 'g', '=', '"']

/-- The body of an XML declaration. -/
def declarationBody (encoding : Encoding) : List Char :=
  declarationStart ++ (encoding.declared.toList ++ ['"'])

theorem toList_declaration (encoding : Encoding) :
    (Print.declaration encoding).toList =
      '<' :: '?' :: (declarationBody encoding ++ ['?', '>']) ++ ['\n'] := by
  have start : "<?xml version=\"1.0\" encoding=\"" = String.ofList ('<' :: '?' :: declarationStart) :=
    rfl
  have stop : "\"?>\n" = String.ofList ['"', '?', '>', '\n'] := rfl
  unfold Print.declaration
  rw [String.toList_append, String.toList_append, start, stop, String.toList_ofList,
    String.toList_ofList, declarationBody]
  simp only [List.append_assoc, List.cons_append, List.nil_append]

theorem not_mem_declared (encoding : Encoding) : '?' ∉ encoding.declared.toList := by
  have utf8 : Encoding.declared .utf8 = String.ofList ['U', 'T', 'F', '-', '8'] := rfl
  have utf16 : ∀ order, Encoding.declared (.utf16 order) =
      String.ofList ['U', 'T', 'F', '-', '1', '6'] := fun _ => rfl
  cases encoding with
  | utf8 =>
    rw [utf8, String.toList_ofList]
    decide
  | utf16 order =>
    rw [utf16, String.toList_ofList]
    decide

theorem unclosed_declarationBody (encoding : Encoding) :
    ¬ ['?', '>'] <:+: declarationBody encoding := by
  intro inner
  have mark : '?' ∈ declarationBody encoding := inner.subset List.mem_cons_self
  rcases List.mem_append.mp mark with mark | mark
  · exact absurd mark (by decide)
  · rcases List.mem_append.mp mark with mark | mark
    · exact not_mem_declared encoding mark
    · exact absurd mark (by decide)

section

variable {format : Format} {rest : List Char}

theorem reads_newline (bounded : Bounded rest) : Reads format ['\n'] rest [.text "\n"] := by
  have text : Reads format (Reference.escapeText "\n".toList) rest [.text "\n"] :=
    reads_text (by decide) bounded
  exact text

/-- A declaration says nothing. -/
theorem reads_declaring (encoding : Encoding) :
    Reads format ('<' :: '?' :: (declarationBody encoding ++ ['?', '>'])) rest [] := by
  have start : (declarationBody encoding).head? ≠ some '>' := fun h => nomatch h
  have token := Token.next?_questionMarks start (unclosed_declarationBody encoding) rest
  rw [show Token.isDeclaration (declarationBody encoding) = true from rfl, if_pos rfl] at token
  exact reads_silent (t := .declaration (declarationBody encoding)) (by simpa using token)
    fun stop => rfl

theorem reads_declaration (encoding : Encoding) (bounded : Bounded rest) :
    Reads format (Print.declaration encoding).toList rest [.text "\n"] := by
  rw [toList_declaration]
  exact (reads_declaring encoding).append (reads_newline bounded)

/-- A doctype is declared without the blanks around it. -/
theorem reads_doctype {body : String} (balanced : Token.Balanced body.toList)
    (visible : allBlank body.toList = false) :
    Reads format
      ('<' :: '!' :: 'D' :: 'O' :: 'C' :: 'T' :: 'Y' :: 'P' :: 'E' :: ' ' :: (body.toList ++ ['>']))
      rest [.doctype (String.ofList (trim body.toList))] := by
  have token := Token.next?_doctype balanced visible rest
  refine reads_token (t := .doctype (' ' :: body.toList)) (by simpa using token)
    (fun stop => ?_) rfl
  have skipped : trim (' ' :: body.toList) = trim body.toList := by
    rw [trim, List.dropWhile_cons_of_pos (by decide)]
    rfl
  rw [Event.ofToken?, skipped]

/-- What is said of a doctype: it is declared, and its line ends. -/
def doctypeEvents : Option String → List Event
  | none => []
  | some body => [.doctype body, .text "\n"]

theorem bounded_doctypeLine (doctype : Option String) (bounded : Bounded rest) :
    Bounded ((Print.doctypeLine doctype).toList ++ rest) := by
  cases doctype with
  | none => exact bounded
  | some body =>
    have bracket : (Print.doctypeLine (some body)).toList ++ rest =
        '<' :: ("!DOCTYPE ".toList ++ (body.toList ++ '>' :: '\n' :: rest)) := by
      simp [Print.doctypeLine]
    rw [bracket]
    exact bounded_bracket _

theorem reads_doctypeLine {doctype : Option String} (h : ∀ body ∈ doctype, IsDoctype body.toList)
    (bounded : doctype ≠ none → Bounded rest) :
    Reads format (Print.doctypeLine doctype).toList rest (doctypeEvents doctype) := by
  cases doctype with
  | none => exact Reads.nil
  | some body =>
    have well := h body rfl
    have declared : Reads format
        ('<' :: '!' :: 'D' :: 'O' :: 'C' :: 'T' :: 'Y' :: 'P' :: 'E' :: ' ' :: (body.toList ++ ['>']))
        (['\n'] ++ rest) [.doctype (String.ofList (trim body.toList))] :=
      reads_doctype (Token.balanced_plain well.noOpening well.noClosing) well.visible
    rw [well.trimmed, String.ofList_toList] at declared
    have line := declared.append (reads_newline (bounded (Option.some_ne_none body)))
    simpa [Print.doctypeLine, doctypeEvents] using line

end

/-! ### Documents -/

/-- What is written in front of the doctype. -/
def opening (doc : Document) : List Char :=
  match doc.format with
  | .html => []
  | .xml => (Print.declaration doc.encoding).toList

/-- What is said in front of the doctype: the declaration says nothing, but its line ends. -/
def openingEvents : Format → List Event
  | .html => []
  | .xml => [.text "\n"]

theorem toList_documentText (doc : Document) :
    (Print.documentText doc).toList =
      opening doc ++
        ((Print.doctypeLine doc.doctype).toList ++ (Print.nodes doc.format doc.content).toList) := by
  rw [Print.documentText, String.toList_append, String.toList_append, opening, List.append_assoc]
  cases doc.format <;> rfl

theorem reads_opening {doc : Document} {rest : List Char}
    (bounded : doc.format = .xml → Bounded rest) :
    Reads doc.format (opening doc) rest (openingEvents doc.format) := by
  unfold opening
  cases format : doc.format with
  | html => exact Reads.nil
  | xml => exact reads_declaration doc.encoding (bounded format)

/-- In front of the nodes, nothing is built but the doctype. -/
theorem run_front (format : Format) (doctype : Option String) (events : List Event) :
    Builder.run format {} (openingEvents format ++ (doctypeEvents doctype ++ events)) =
      Builder.run format { doctype } events := by
  cases format <;> cases doctype <;> rfl

namespace Document.WellFormed

variable {doc : Document} (h : doc.WellFormed)

include h

/-- No text comes first behind a declaration or a doctype. -/
theorem bounded_content (declared : doc.format = .xml ∨ doc.doctype ≠ none) :
    Bounded ((Print.nodes doc.format doc.content).toList ++ []) := by
  refine bounded_nodes (fun m hm => ?_) bounded_nil
  refine eq_false_of_ne_true fun text => ?_
  obtain ⟨content, rfl⟩ := Node.eq_text_of_isText text
  obtain ⟨nodes, hn⟩ := List.head?_eq_some_iff.mp hm
  obtain ⟨html, none, -⟩ := h.start content nodes hn
  rcases declared with xml | some
  · rw [html] at xml
    cases xml
  · exact some none

/-- The text of a document is read as what it says in front of its nodes, and the nodes. -/
theorem reads_documentText :
    Reads doc.format (Print.documentText doc).toList []
      (openingEvents doc.format ++
        (doctypeEvents doc.doctype ++ Node.allEvents doc.format doc.content)) := by
  have nodes := reads_nodes doc.format h.content bounded_nil
  have line : Reads doc.format (Print.doctypeLine doc.doctype).toList
      ((Print.nodes doc.format doc.content).toList ++ []) (doctypeEvents doc.doctype) :=
    reads_doctypeLine h.doctype fun some => h.bounded_content (.inr some)
  rw [toList_documentText]
  refine (reads_opening fun xml => ?_).append (line.append nodes)
  rw [List.append_assoc]
  exact bounded_doctypeLine _ (h.bounded_content (.inl xml))

theorem unmarked_documentText : Unmarked (Print.documentText doc).toList := by
  rw [toList_documentText, opening]
  cases format : doc.format with
  | xml =>
    rw [toList_declaration]
    exact unmarked_bracket _
  | html =>
    cases doctype : doc.doctype with
    | none =>
      have content := format ▸ h.content
      have first := unmarked_nodes content bounded_nil
      rw [List.append_nil] at first
      exact first
    | some body =>
      have bounded := h.bounded_content (.inr (by rw [doctype]; exact nofun))
      rw [List.append_nil, format] at bounded
      exact (bounded_doctypeLine (some body) bounded).unmarked

/-- A first text is kept where no declaration stands before it. -/
theorem keeps_content (content : String) (nodes : List Node)
    (first : doc.content = .text content :: nodes) :
    Builder.Keeps { doctype := doc.doctype } content := by
  obtain ⟨-, -, blank⟩ := h.start content nodes first
  rw [Builder.Keeps, blank, Bool.and_false]

/-- The text of a document is read back, its encoding apart. -/
theorem parseText_documentText :
    parseText doc.format (Print.documentText doc).toList =
      .ok { format := doc.format, content := doc.content, doctype := doc.doctype } := by
  have stream := h.reads_documentText 0
  rw [List.append_nil] at stream
  let last : Builder := { top := doc.content.reverse, doctype := doc.doctype }
  have built : Builder.run doc.format { doctype := doc.doctype }
      (Node.allEvents doc.format doc.content) = .ok last := by
    rw [Builder.run_allEvents doc.format _ h.content h.keeps_content, Builder.pushAll_top,
      List.append_nil]
  have finished : ∀ format, last.finish format = .ok last := by
    intro format
    cases format <;> rfl
  rw [parseText, Stream.ofSource, streamFrom_of_unmarked _ _ h.unmarked_documentText, stream,
    readOn_nil, Stream.build]
  simp only [Stream.after, List.append_nil, run_front, built, finished, Except.map, Builder.content]
  rw [List.reverse_reverse]

end Document.WellFormed

/-- **A well-formed document** is read back from its bytes. -/
theorem parse_bytes {doc : Document} (h : doc.WellFormed) : parse doc.format doc.bytes = .ok doc := by
  rw [parse, Document.bytes, Encoding.decode_encode _ h.unmarked_documentText]
  simp only [h.parseText_documentText]
  rfl

/-- A page in UTF-16 whose nodes end much like the marks around them. -/
def trickyPage : Document where
  format := .html
  encoding := .utf16 .little
  doctype := some "html"
  content :=
    [.element "p" [⟨"title", "\"<&>'"⟩, ⟨"x:y", ""⟩]
        [.text " 1 < 2", .element "br" [] [], .comment "a--", .cdata "]]"],
      .element "SCRIPT" [] [.text "</scripts"], .text "\n", .instruction "xmlns?"]

theorem parse_trickyPage :
    trickyPage.WellFormed ∧ parse .html trickyPage.bytes = .ok trickyPage := by
  have lineBreak : Node.WellFormed .html (.element "br" [] []) := by
    refine ⟨by decide, ⟨nofun, by decide⟩, ?_⟩
    rw [if_pos (by decide +kernel)]
  have children : Node.AllWellFormed .html
      [.text " 1 < 2", .element "br" [] [], .comment "a--", .cdata "]]"] :=
    ⟨⟨by decide, nofun⟩, fun _ m hm => by cases hm; rfl, lineBreak, nofun,
      (by decide : ¬ ['-', '-', '>'] <:+: "a--".toList), nofun,
      (by decide : ¬ [']', ']', '>'] <:+: "]]".toList), nofun, trivial⟩
  have paragraph : Node.WellFormed .html (.element "p" [⟨"title", "\"<&>'"⟩, ⟨"x:y", ""⟩]
      [.text " 1 < 2", .element "br" [] [], .comment "a--", .cdata "]]"]) := by
    refine ⟨by decide, ⟨by simp; decide, by decide⟩, ?_⟩
    simp only
    rw [if_neg (by decide +kernel), if_neg (by decide +kernel)]
    exact children
  have script : Node.WellFormed .html (.element "SCRIPT" [] [.text "</scripts"]) := by
    refine ⟨by decide, ⟨nofun, by decide⟩, ?_⟩
    simp only
    rw [if_neg (by decide +kernel), if_pos (by decide +kernel)]
    exact .inr ⟨"</scripts", rfl, by decide, by decide⟩
  have well : trickyPage.WellFormed :=
    { content :=
        ⟨paragraph, nofun, script, nofun, ⟨by decide, nofun⟩, fun _ m hm => by cases hm; rfl,
          ⟨by decide, by decide, by decide⟩, nofun, trivial⟩
      doctype := by
        rintro body ⟨rfl⟩
        exact ⟨by decide, by decide, by decide, by decide⟩
      start := nofun }
  exact ⟨well, parse_bytes well⟩

end Templating.Markup
