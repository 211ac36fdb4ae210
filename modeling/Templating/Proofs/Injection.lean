import Templating.Proofs.Expansion.Parameters
import Templating.Proofs.Markup.Writable

/-!
# Values put no markup into a page

Where nothing but texts is bound, a page is the template filled with them (`render_fills`),
and what is written of it is read back up to its texts (`parse_settles`), for a filled template
can be written as the template can. So of the markup of the page that is read, its
skeleton, no value decides anything (`values_add_no_markup`): a value only ever
stands in a text or in the value of an attribute.
-/

namespace Templating

open Markup

/-! ### Skeletons -/

namespace Markup.Node

mutual

/-- The node without texts and without the values of attributes. The content of a raw text
element is kept: as far as values are concerned it is markup. -/
def skeleton (format : Format) : Node → List Node
  | element name as cs =>
    [element name (as.map fun a => ⟨a.name, ""⟩)
      (if format = .html ∧ isRawText name then [text (textOfAll cs)]
        else skeletonAll format cs)]
  | text _ => []
  | leaf => [leaf]

/-- The nodes without texts and without the values of attributes. -/
def skeletonAll (format : Format) : List Node → List Node
  | [] => []
  | n :: ns => skeleton format n ++ skeletonAll format ns

end

section

variable (format : Format)

theorem skeletonAll_joinText (content : String) (ns : List Node) :
    skeletonAll format (joinText content ns) = skeletonAll format ns := by
  rcases head_cases ns with ⟨next, rest, rfl⟩ | head
  · rfl
  · rw [joinText_of_head content head]
    split <;> rfl

theorem skeletonAll_attach (n : Node) (ns : List Node) :
    skeletonAll format (attach n ns) = skeleton format n ++ skeletonAll format ns := by
  cases n with
  | text content => exact skeletonAll_joinText format content ns
  | _ => rfl

theorem skeletonAll_trimStart (ns : List Node) :
    skeletonAll format (trimStart ns) = skeletonAll format ns := by
  rcases head_cases ns with ⟨next, rest, rfl⟩ | head
  · rw [trimStart]
    split <;> rfl
  · rw [trimStart_of_head head]

mutual

theorem skeleton_settle : ∀ n : Node, skeleton format n.settle = skeleton format n
  | element name as cs => by
    rw [settle, skeleton, skeleton, textOfAll_settleAll, skeletonAll_settleAll cs]
  | text _ | comment _ | cdata _ | instruction _ => rfl

/-- Settling changes nothing but texts. -/
theorem skeletonAll_settleAll : ∀ ns : List Node,
    skeletonAll format (settleAll ns) = skeletonAll format ns
  | [] => rfl
  | n :: ns => by
    rw [settleAll, skeletonAll_attach, skeleton_settle n, skeletonAll_settleAll ns, skeletonAll]

end

end

end Markup.Node

/-- The document without texts and without the values of attributes. -/
def Markup.Document.skeleton (doc : Document) : Document :=
  { doc with content := Node.skeletonAll doc.format doc.content }

theorem Markup.Document.skeleton_settled (doc : Document) :
    doc.settled.skeleton = { doc.skeleton with doctype := doc.settled.doctype } := by
  have content : Node.skeletonAll doc.format doc.settled.content =
      Node.skeletonAll doc.format doc.content := by
    rw [settled, Node.skeletonAll_trimStart, Node.skeletonAll_joinText, Node.skeletonAll_settleAll]
  rw [skeleton, skeleton, ← content]
  rfl

/-! ### Filled templates -/

theorem Markup.Node.Writable.raw {name : String} {as : List Attribute} {cs : List Node}
    (h : (element name as cs).Writable .html) (raw : isRawText name = true) :
    cs = [] ∨ ∃ body, cs = [text body] ∧ IsRawText name.toList body.toList := by
  rw [Node.Writable] at h
  obtain ⟨-, -, content⟩ := h
  by_cases void : isVoid name = true
  · exact .inl (by simpa only [if_pos void] using content)
  · simpa only [if_neg void, if_pos raw] using content

theorem Markup.Node.Writable.children {format : Format} {name : String} {as : List Attribute}
    {cs : List Node} (h : (element name as cs).Writable format)
    (raw : ¬ (format = .html ∧ isRawText name = true)) : AllWritable format cs := by
  cases format with
  | xml =>
    rw [Node.Writable] at h
    exact h.2.2
  | html =>
    rw [Node.Writable] at h
    obtain ⟨-, -, content⟩ := h
    by_cases void : isVoid name = true
    · rw [if_pos void] at content
      rw [content]
      trivial
    · rw [if_neg void, if_neg fun raw' => raw ⟨rfl, raw'⟩] at content
      exact content

namespace Parameters

variable {params : Parameters}

/-- No text has a byte order mark among its characters. -/
def Plain (params : Parameters) : Prop :=
  ∀ name, ∀ value ∈ params name, '\uFEFF' ∉ value.toList

theorem plain_of {names : List String} {value : String → String}
    (h : ∀ name ∈ names, '\uFEFF' ∉ (value name).toList) : Plain (.of names value) := by
  intro name text ht
  rw [of] at ht
  split at ht
  · rename_i bound
    cases ht
    exact h name bound
  · cases ht

theorem areAttributes_fill {as : List Attribute} (h : AreAttributes as) :
    AreAttributes (as.map params.fillAttribute) where
  named a ha := by
    obtain ⟨b, hb, rfl⟩ := List.mem_map.mp ha
    exact h.named b hb
  distinct := by
    rw [List.map_map]
    exact h.distinct

/-- The content of a raw text element is not filled. -/
theorem fillNodes_raw {cs : List Node} {p : String → Prop}
    (h : cs = [] ∨ ∃ body, cs = [.text body] ∧ p body) : params.fillNodes cs = cs := by
  rcases h with rfl | ⟨body, rfl, -⟩ <;> rfl

mutual

theorem writable_fillNode (plain : params.Plain) (format : Format) : ∀ {n : Node},
    n.Writable format → (params.fillNode n).Writable format
  | .element name as cs, h => by
    rw [fillNode]
    cases hp : params name with
    | some value => exact plain name value hp
    | none =>
      cases format with
      | xml =>
        rw [Node.Writable] at h ⊢
        exact ⟨h.1, areAttributes_fill h.2.1, writable_fillNodes plain .xml h.2.2⟩
      | html =>
        rw [Node.Writable] at h ⊢
        obtain ⟨hn, ha, content⟩ := h
        refine ⟨hn, areAttributes_fill ha, ?_⟩
        by_cases void : isVoid name = true
        · simp only [if_pos void] at content ⊢
          rw [content, fillNodes]
        by_cases raw : isRawText name = true
        · simp only [if_neg void, if_pos raw] at content ⊢
          rw [fillNodes_raw content]
          exact content
        · simp only [if_neg void, if_neg raw] at content ⊢
          exact writable_fillNodes plain .html content
  | .text _, h | .comment _, h | .cdata _, h | .instruction _, h => h

/-- Filled nodes can be written if they can be written unfilled. -/
theorem writable_fillNodes (plain : params.Plain) (format : Format) : ∀ {ns : List Node},
    Node.AllWritable format ns → Node.AllWritable format (params.fillNodes ns)
  | [], _ => trivial
  | n :: ns, h => by
    rw [Node.AllWritable] at h
    rw [fillNodes, Node.AllWritable]
    exact ⟨writable_fillNode plain format h.1, writable_fillNodes plain format h.2⟩

end

/-- A filled template can be written if the template can. -/
theorem writable_fill (plain : params.Plain) {doc : Document} (h : doc.Writable) :
    (params.fill doc).Writable where
  content := writable_fillNodes plain doc.format h.content
  noOpening := h.noOpening
  noClosing := h.noClosing
  visible := h.visible

/-- The two bind the same names. -/
def SameNames (params params' : Parameters) : Prop :=
  ∀ name, (params name).isSome = (params' name).isSome

theorem sameNames_of (names : List String) (value value' : String → String) :
    SameNames (.of names value) (.of names value') := by
  intro name
  rw [of, of]
  split <;> rfl

theorem map_fillAttribute (params : Parameters) (as : List Attribute) :
    ((as.map params.fillAttribute).map fun a => (⟨a.name, ""⟩ : Attribute)) =
      as.map fun a => ⟨a.name, ""⟩ := by
  rw [List.map_map]
  rfl

variable {params' : Parameters}

mutual

theorem skeleton_fillNode (same : SameNames params params') (format : Format) : ∀ {n : Node},
    n.Writable format →
      (params.fillNode n).skeleton format = (params'.fillNode n).skeleton format
  | .element name as cs, h => by
    have bound := same name
    rw [fillNode, fillNode]
    cases hp : params name with
    | some value =>
      rw [hp] at bound
      obtain ⟨value', hp'⟩ := Option.isSome_iff_exists.mp bound.symm
      rw [hp']
      rfl
    | none =>
      rw [hp] at bound
      have hp' : params' name = none := Option.isNone_iff_eq_none.mp (by simpa using bound.symm)
      rw [hp']
      simp only [Node.skeleton, map_fillAttribute]
      by_cases raw : format = .html ∧ isRawText name = true
      · obtain ⟨rfl, raw⟩ := raw
        rw [fillNodes_raw (h.raw raw), fillNodes_raw (h.raw raw)]
      · rw [if_neg raw, if_neg raw, skeleton_fillNodes same format (h.children raw)]
  | .text _, _ | .comment _, _ | .cdata _, _ | .instruction _, _ => rfl

/-- The skeleton of filled nodes does not depend on what they are filled with. -/
theorem skeleton_fillNodes (same : SameNames params params') (format : Format) :
    ∀ {ns : List Node}, Node.AllWritable format ns →
      Node.skeletonAll format (params.fillNodes ns) = Node.skeletonAll format (params'.fillNodes ns)
  | [], _ => rfl
  | n :: ns, h => by
    rw [Node.AllWritable] at h
    rw [fillNodes, fillNodes, Node.skeletonAll, Node.skeletonAll,
      skeleton_fillNode same format h.1, skeleton_fillNodes same format h.2]

end

/-- The skeleton of a page does not depend on what its template is filled with. -/
theorem skeleton_fill (same : SameNames params params') {doc : Document} (h : doc.Writable) :
    (params.fill doc).settled.skeleton = (params'.fill doc).settled.skeleton := by
  have nodes := skeleton_fillNodes same doc.format h.content
  rw [Document.skeleton_settled, Document.skeleton_settled, Document.skeleton, Document.skeleton]
  simp only [fill, nodes, Document.settled]

end Parameters

/-! ### Pages -/

/-- Rendering the template of a name gives bytes that are read as the page. -/
def Engine.RendersTo (s : Stage) (name : String) (page : Document) : Prop :=
  ∃ rendered s', Run.EndsIn (fun n => (ofFuel n).render name) s (some rendered) s' ∧
    parse page.format rendered.bytes = .ok page

/-- The stage with names bound to texts. -/
def Stage.withTexts (s : Stage) (names : List String) (value : String → String) : Stage :=
  { s with state := s.state.bindTexts (names.map fun name => (name, value name)) }

/-- **Values put no markup into a page**: where nothing is bound but names to texts, and
there are no hooks, the bytes of a template that can be written are read as the
template filled with these texts, whatever they are, as long as there is no byte order mark among
their characters. With other texts for the names, the page is the same but for texts and for the
values of attributes. -/
theorem values_add_no_markup {s : Stage} (unbound : s.state.splices = ∅)
    (before : s.state.preRun = []) (after : s.state.postRun = []) {name : String}
    {template : Template} {directory : Path}
    (found : s.state.lookup name = some (template, directory))
    (writable : template.document.Writable) (names : List String) (value value' : String → String)
    (plain : ∀ n ∈ names, '\uFEFF' ∉ (value n).toList ∧ '\uFEFF' ∉ (value' n).toList) :
    let page := ((Parameters.of names value).fill template.document).settled
    let page' := ((Parameters.of names value').fill template.document).settled
    Engine.RendersTo (s.withTexts names value) name page ∧
      Engine.RendersTo (s.withTexts names value') name page' ∧ page.skeleton = page'.skeleton := by
  have renders : ∀ value : String → String, (∀ n ∈ names, '\uFEFF' ∉ (value n).toList) →
      Engine.RendersTo (s.withTexts names value) name
        ((Parameters.of names value).fill template.document).settled := by
    intro value plain
    have bound := State.bindTexts_bindsOnly unbound names value
    obtain ⟨s', ends⟩ := Engine.render_fills (s := s.withTexts names value) bound before after found
    have filled := Parameters.writable_fill (Parameters.plain_of plain) writable
    exact ⟨_, s', ends, Document.parse_settles filled⟩
  exact ⟨renders value fun n hn => (plain n hn).1, renders value' fun n hn => (plain n hn).2,
    Parameters.skeleton_fill (Parameters.sameNames_of names value value') writable⟩

/-- A page with a parameter wherever one can stand, and where it stands for nothing. -/
def greeting : Document where
  format := .html
  doctype := some "html"
  content :=
    [.element "who" [] [], .element "p" [⟨"title", "$(who)"⟩] [.element "who" [] [], .text "!"],
      .comment "$(who)", .element "script" [] [.text "who()"]]

/-- The state that has nothing but this page. -/
def greetingStage : Stage where
  state := State.empty.addTemplate "greeting" greeting

theorem greeting_adds_no_markup :
    let page (value : String) := ((Parameters.of ["who"] fun _ => value).fill greeting).settled
    Engine.RendersTo (greetingStage.withTexts ["who"] fun _ => "\"></p><script>") "greeting"
        (page "\"></p><script>") ∧
      Engine.RendersTo (greetingStage.withTexts ["who"] fun _ => "") "greeting" (page "") ∧
      (page "\"></p><script>").skeleton = (page "").skeleton := by
  have found : greetingStage.state.lookup "greeting" = some ({ document := greeting }, .root) := rfl
  have parameter : Node.Writable .html (.element "who" [] []) := by
    refine ⟨by decide, ⟨nofun, by decide⟩, ?_⟩
    simp only
    rw [if_neg (by decide +kernel), if_neg (by decide +kernel)]
    trivial
  have exclamation : Node.Writable .html (.text "!") := (by decide : '\uFEFF' ∉ "!".toList)
  have paragraph : Node.Writable .html
      (.element "p" [⟨"title", "$(who)"⟩] [.element "who" [] [], .text "!"]) := by
    refine ⟨by decide, ⟨by simp; decide, by decide⟩, ?_⟩
    simp only
    rw [if_neg (by decide +kernel), if_neg (by decide +kernel)]
    exact ⟨parameter, exclamation, trivial⟩
  have comment : Node.Writable .html (.comment "$(who)") :=
    (by decide : ¬ ['-', '-', '>'] <:+: "$(who)".toList)
  have script : Node.Writable .html (.element "script" [] [.text "who()"]) := by
    refine ⟨by decide, ⟨nofun, by decide⟩, ?_⟩
    simp only
    rw [if_neg (by decide +kernel), if_pos (by decide +kernel)]
    exact .inr ⟨"who()", rfl, by decide⟩
  have writable : greeting.Writable :=
    { content := ⟨parameter, paragraph, comment, script, trivial⟩
      noOpening := by
        rintro body ⟨rfl⟩
        decide
      noClosing := by
        rintro body ⟨rfl⟩
        decide
      visible := by
        rintro body ⟨rfl⟩
        decide }
  exact values_add_no_markup (s := greetingStage) rfl rfl rfl found writable ["who"]
    (fun _ => "\"></p><script>") (fun _ => "") (by decide)

end Templating
