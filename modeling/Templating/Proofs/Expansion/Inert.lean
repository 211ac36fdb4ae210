import Templating.Proofs.Expansion.Frame
import Templating.Proofs.Expansion.Step
import Templating.Proofs.Interpolation

/-!
# Nodes that expansion leaves alone

Nodes are inert under splices if no element among them, at any level, has a bound name,
and no attribute value mentions a placeholder, not even behind a backslash. Expanding
inert nodes gives them back and does nothing else (`expandNodes_of_inert`). No other
nodes are left alone like that: if a run gives back what it was given and writes
nothing into the journal, what it was given is inert (`expandNodes_quiet`). So these are
the nodes on which expansion is the identity (`unchanged_iff_inert`).

For that converse it has to be excluded that what one part of the nodes loses another
one adds. Nothing is added without invoking a splice, which the journal tells, since it
only grows; and a value with a placeholder that no splice fills gets shorter.
-/

namespace Templating

open Markup (Attribute Node)

/-! ### Inert nodes -/

section

variable (splices : Splices)

mutual

/-- No element of the node is bound, and no value mentions a placeholder. -/
def InertNode : Node → Prop
  | .element name as cs =>
    splices.get? name = none ∧
      (∀ a ∈ as, Interpolation.mentionsPlaceholder a.value.toList = false) ∧ Inert cs
  | _ => True

/-- No element of the nodes is bound, and no value mentions a placeholder. -/
def Inert : List Node → Prop
  | [] => True
  | node :: nodes => InertNode node ∧ Inert nodes

end

end

namespace Engine

open Run

section

variable (e : Engine) {s : Stage}

theorem substitute_of_plain {raw : String}
    (h : Interpolation.mentionsPlaceholder raw.toList = false) :
    e.substitute raw s = some (raw, s) := by
  rw [Engine.substitute, Interpolation.substitute, if_neg (by rw [h]; decide), pure_apply]

theorem attributes_of_plain : ∀ {as : List Attribute},
    (∀ a ∈ as, Interpolation.mentionsPlaceholder a.value.toList = false) →
      e.attributes as s = some (as, s)
  | [], _ => rfl
  | a :: as, h => by
    have first := e.substitute_of_plain (s := s) (h a List.mem_cons_self)
    have rest : e.attributes as s = some (as, s) :=
      attributes_of_plain fun b hb => h b (List.mem_cons_of_mem a hb)
    rw [attributes, bind_apply, first, Option.bind_some, bind_apply, rest]
    rfl

mutual

theorem expandNode_of_inert : ∀ {node : Node}, InertNode s.state.splices node →
    e.expandNode node s = some ([node], s)
  | .element name as cs, h => by
    rw [InertNode] at h
    obtain ⟨unbound, plain, inert⟩ := h
    rw [e.expandNode_of_unbound (e.attributes_of_plain plain) unbound, expandNodes_of_inert inert]
    rfl
  | .text _, _ | .comment _, _ | .cdata _, _ | .instruction _, _ => rfl

/-- **Inert nodes** stay as they are, and so does the stage. -/
theorem expandNodes_of_inert : ∀ {nodes : List Node}, Inert s.state.splices nodes →
    e.expandNodes nodes s = some (nodes, s)
  | [], _ => rfl
  | node :: nodes, h => by
    rw [Inert] at h
    rw [expandNodes, bind_apply, expandNode_of_inert h.1, Option.bind_some, bind_apply,
      expandNodes_of_inert h.2]
    rfl

end

end

/-! ### Runs that write nothing -/

/-- Nothing has been written into the journal from the one stage to the other. -/
def Quiet (s s' : Stage) : Prop := s'.ledger.journal = s.ledger.journal

/-- Where nothing is written on the whole way, nothing is written on its parts. -/
theorem Quiet.split {s t s' : Stage} (h : JournalGrows s t) (h' : JournalGrows t s')
    (q : Quiet s s') : Quiet s t ∧ Quiet t s' := by
  have hs : t.ledger.journal <:+ s.ledger.journal := q ▸ h'
  have same : t.ledger.journal = s.ledger.journal :=
    hs.eq_of_length (Nat.le_antisymm hs.length_le h.length_le)
  exact ⟨same, q.trans same.symm⟩

/-- The invocation of a splice is written into the journal. -/
theorem not_quiet_of_entered {s s' : Stage} {name : String}
    (h : JournalGrows (s.entered name) s') : ¬ Quiet s s' := by
  intro q
  have := h.length_le
  rw [q] at this
  exact absurd this (Nat.not_succ_le_self _)

section

variable {e : Engine} (grows : e.Related (fun _ r _ => Moves JournalGrows r) e) {s s' : Stage}

include grows

theorem placeholder_quiet {name : String} {found : Option (List Node)}
    (h : e.placeholder name s = some (found, s')) (q : Quiet s s') : found = none ∧ s' = s := by
  cases hb : s.state.splices.get? name with
  | none =>
    rw [e.placeholder_of_unbound hb] at h
    cases h
    exact ⟨rfl, rfl⟩
  | some splice =>
    rw [e.placeholder_of_bound hb, Option.map_eq_some_iff] at h
    obtain ⟨⟨out, t⟩, ht, h⟩ := h
    cases h
    exact absurd q (not_quiet_of_entered (grows.call splice _ _ _ t ht))

theorem fill_quiet : ∀ {pieces : List Interpolation.Piece} {s s' : Stage} {value : String},
    Interpolation.fill e.placeholder pieces s = some (value, s') → Quiet s s' →
      value.length = Interpolation.literalLength pieces ∧ s' = s
  | [], s, s', value, h, _ => by
    cases h
    exact ⟨rfl, rfl⟩
  | .literal text :: pieces, s, s', value, h, q => by
    rw [Interpolation.fill, bind_eq_some] at h
    obtain ⟨rest, t, ht, h⟩ := h
    cases h
    obtain ⟨length, rfl⟩ := fill_quiet ht q
    rw [String.length_append, length]
    exact ⟨rfl, rfl⟩
  | .placeholder name :: pieces, s, s', value, h, q => by
    rw [Interpolation.fill, bind_eq_some] at h
    obtain ⟨found, t, ht, h⟩ := h
    rw [bind_eq_some] at h
    obtain ⟨rest, t', ht', h⟩ := h
    cases h
    have looked := placeholder_related journalGrows_congruence grows
    have filled := @fill_related _ moves_sequential.chaining e.placeholder e.placeholder looked pieces
    obtain ⟨q₁, q₂⟩ := q.split (looked name s _ t ht) (filled t _ s' ht')
    obtain ⟨rfl, rfl⟩ := placeholder_quiet grows ht q₁
    obtain ⟨length, rfl⟩ := fill_quiet ht' q₂
    rw [String.length_append, length]
    exact ⟨Nat.zero_add _, rfl⟩

/-- A value that mentions a placeholder does not come back if no splice is invoked. -/
theorem substitute_quiet {raw value : String} (h : e.substitute raw s = some (value, s'))
    (q : Quiet s s') : s' = s ∧
      (value = raw → Interpolation.mentionsPlaceholder raw.toList = false) := by
  unfold Engine.substitute Interpolation.substitute at h
  by_cases mentions : Interpolation.mentionsPlaceholder raw.toList = true
  · rw [if_pos mentions] at h
    cases hp : Interpolation.parse? raw with
    | none =>
      rw [hp] at h
      cases h
      refine ⟨rfl, ?_⟩
      rintro rfl
      rfl
    | some pieces =>
      rw [hp] at h
      obtain ⟨length, rfl⟩ := fill_quiet grows h q
      refine ⟨rfl, ?_⟩
      rintro rfl
      have shorter := Interpolation.literalLength_lt (Interpolation.piecesFrom_of_parse? hp) rfl
        mentions
      rw [← length, List.length_nil, String.length_toList] at shorter
      omega
  · rw [if_neg mentions] at h
    cases h
    exact ⟨rfl, fun _ => eq_false_of_ne_true mentions⟩

theorem attributes_quiet : ∀ {as out : List Attribute} {s s' : Stage},
    e.attributes as s = some (out, s') → Quiet s s' → s' = s ∧
      (out = as → ∀ a ∈ as, Interpolation.mentionsPlaceholder a.value.toList = false)
  | [], out, s, s', h, _ => by
    cases h
    exact ⟨rfl, fun _ _ ha => nomatch ha⟩
  | a :: as, out, s, s', h, q => by
    rw [attributes, bind_eq_some] at h
    obtain ⟨value, t, ht, h⟩ := h
    rw [bind_eq_some] at h
    obtain ⟨rest, t', ht', h⟩ := h
    cases h
    have c := journalGrows_congruence
    obtain ⟨q₁, q₂⟩ := q.split (substitute_related c grows a.value s _ t ht)
      (attributes_related c grows as t _ s' ht')
    obtain ⟨rfl, first⟩ := substitute_quiet grows ht q₁
    obtain ⟨rfl, others⟩ := attributes_quiet ht' q₂
    refine ⟨rfl, fun same => ?_⟩
    obtain ⟨ha, has⟩ := List.cons.inj same
    intro b hb
    rcases List.mem_cons.mp hb with rfl | hb
    · exact first (congrArg Attribute.value ha)
    · exact others has b hb

mutual

theorem expandNode_quiet : ∀ {node : Node} {out : List Node} {s s' : Stage},
    e.expandNode node s = some (out, s') → Quiet s s' →
      s' = s ∧ ∃ node', out = [node'] ∧ (node' = node → InertNode s.state.splices node)
  | .element name as cs, out, s, s', h, q => by
    have c := journalGrows_congruence
    have h₀ := h
    rw [expandNode, bind_eq_some] at h
    obtain ⟨as', t, ht, h⟩ := h
    have first : JournalGrows s t := attributes_related c grows as s as' t ht
    cases hb : t.state.splices.get? name with
    | none =>
      rw [e.expandNode_of_unbound ht hb, Option.map_eq_some_iff] at h₀
      obtain ⟨⟨cs', t'⟩, ht', h₀⟩ := h₀
      cases h₀
      obtain ⟨q₁, q₂⟩ := q.split first (expandNodes_related c grows cs t cs' _ ht')
      obtain ⟨rfl, plain⟩ := attributes_quiet grows ht q₁
      obtain ⟨rfl, inert⟩ := expandNodes_quiet ht' q₂
      refine ⟨rfl, _, rfl, fun same => ?_⟩
      injection same with _ ha hc
      rw [InertNode]
      exact ⟨hb, plain ha, inert hc⟩
    | some splice =>
      rw [e.expandNode_of_bound ht hb, e.invoke_apply, Option.map_eq_some_iff] at h₀
      obtain ⟨⟨out', t'⟩, ht', h₀⟩ := h₀
      cases h₀
      obtain ⟨⟨result, u⟩, hu, ht'⟩ := Option.bind_eq_some_iff.mp ht'
      have later : JournalGrows (t.entered name) t' :=
        (grows.call splice _ _ _ u hu).trans (expandResult_related c grows result u _ t' ht')
      have grown : JournalGrows t t' := (List.suffix_cons _ _).trans later
      exact absurd (q.split first grown).2 (not_quiet_of_entered later)
  | .text _, out, s, s', h, _ | .comment _, out, s, s', h, _ | .cdata _, out, s, s', h, _
  | .instruction _, out, s, s', h, _ => by
    cases h
    exact ⟨rfl, _, rfl, fun _ => by simp [InertNode]⟩

/-- **Only inert nodes** come back from a run that writes nothing into the journal. -/
theorem expandNodes_quiet : ∀ {nodes out : List Node} {s s' : Stage},
    e.expandNodes nodes s = some (out, s') → Quiet s s' →
      s' = s ∧ (out = nodes → Inert s.state.splices nodes)
  | [], out, s, s', h, _ => by
    cases h
    exact ⟨rfl, fun _ => trivial⟩
  | node :: nodes, out, s, s', h, q => by
    rw [expandNodes, bind_eq_some] at h
    obtain ⟨first, t, ht, h⟩ := h
    rw [bind_eq_some] at h
    obtain ⟨rest, t', ht', h⟩ := h
    cases h
    have c := journalGrows_congruence
    obtain ⟨q₁, q₂⟩ := q.split (expandNode_related c grows node s _ t ht)
      (expandNodes_related c grows nodes t _ s' ht')
    obtain ⟨rfl, node', rfl, inert⟩ := expandNode_quiet ht q₁
    obtain ⟨rfl, inerts⟩ := expandNodes_quiet ht' q₂
    refine ⟨rfl, fun same => ?_⟩
    obtain ⟨hn, hns⟩ := List.cons.inj same
    exact ⟨inert hn, inerts hns⟩

end

end

end Engine

/-! ### Expansion as the identity -/

/-- The splice that an entry tells of being run, for an element, for a placeholder or for another
splice, and the depth. -/
def Entry.invocation? : Entry → Option (String × Nat)
  | .invoked name depth | .called name depth => some (name, depth)
  | _ => none

/-- The splices that were run so far, with the depths at which they were, the oldest first. -/
def Stage.invocations (s : Stage) : List (String × Nat) :=
  (s.ledger.journal.filterMap Entry.invocation?).reverse

namespace Engine

open Run

/-- Going down and coming back around nodes that are left alone leaves all but the journal as it
was, and so does the depth limit when it holds them back. -/
theorem exists_descend_of_alone (s : Stage) (nodes : List Node) :
    ∃ s' : Stage, s'.state = s.state ∧ s'.invocations = s.invocations ∧ ∀ e : Engine,
      e.expand nodes s.descended = some (nodes, s.descended) →
        e.descend nodes s = some (nodes, s') := by
  by_cases deep : depthLimit ≤ s.state.depth
  · exact ⟨s.refused, rfl, rfl, fun e _ => e.descend_of_le nodes deep⟩
  · refine ⟨s.descended.ascended, rfl, rfl, fun e alone => ?_⟩
    rw [e.descend_of_lt nodes (Nat.lt_of_not_le deep), alone]
    rfl

/-- **Expansion is the identity** on inert nodes and on no others: expanding them gives them back
and leaves the whole stage as it was, the journal too. Expanded one level deeper, or held back
from that, they come back as well, no splice is run, and the state is as it was. -/
theorem unchanged_iff_inert (s : Stage) (nodes : List Node) :
    (EndsIn (fun n => (ofFuel n).expand nodes) s nodes s ↔ Inert s.state.splices nodes) ∧
    (Inert s.state.splices nodes → ∃ s', EndsIn (fun n => (ofFuel n).descend nodes) s nodes s' ∧
      s'.state = s.state ∧ s'.invocations = s.invocations) := by
  refine ⟨⟨fun ⟨n, run⟩ => ?_, fun inert => ?_⟩, fun inert => ?_⟩
  · have last : (ofFuel n).expandNodes nodes s = some (nodes, s) := run (n + 1) (Nat.le_succ n)
    exact (expandNodes_quiet (ofFuel_moves journalGrows_frame n) last rfl).2 rfl
  · exact EndsIn.of_succ (endsIn_of_eq fun n => (ofFuel n).expandNodes_of_inert inert)
  · obtain ⟨s', state, invocations, down⟩ := exists_descend_of_alone s nodes
    refine ⟨s', EndsIn.of_succ (endsIn_of_eq fun n => down _ ?_), state, invocations⟩
    exact (ofFuel n).expandNodes_of_inert inert

/-- A note with a backslash and dollar signs in its values, and a name that is bound only where no
element has it. -/
def pricedNote : List Node :=
  [.element "p" [⟨"class", "C:\\dir"⟩, ⟨"price", "$5 (net) $"⟩]
    [.text "$(b)", .element "br" [] [], .comment "$(b)", .element "i" [⟨"b", "\\"⟩] []]]

/-- A stage of standard splices and one that stops recursion, right above the depth limit. -/
def crowdedStage : Stage where
  state :=
    { State.standard.bind "b" (fun _ => .stop <| .done []) with
      context := .parse "q", recursing := false, depth := 49 }

theorem pricedNote_unchanged :
    Inert crowdedStage.state.splices pricedNote ∧
      EndsIn (fun n => (ofFuel n).expand pricedNote) crowdedStage pricedNote crowdedStage ∧
      ∃ s', EndsIn (fun n => (ofFuel n).descend pricedNote) crowdedStage pricedNote s' ∧
        s'.state = crowdedStage.state ∧ s'.invocations = [] := by
  have inert : Inert crowdedStage.state.splices pricedNote :=
    ⟨⟨rfl, by decide, trivial, ⟨rfl, nofun, trivial⟩, trivial, ⟨rfl, by decide, trivial⟩, trivial⟩,
      trivial⟩
  obtain ⟨unchanged, deeper⟩ := unchanged_iff_inert crowdedStage pricedNote
  exact ⟨inert, unchanged.mpr inert, deeper inert⟩

end Engine

end Templating
