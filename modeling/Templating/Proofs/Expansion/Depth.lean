import Templating.Loading
import Templating.Proofs.Expansion.Control
import Templating.Proofs.Expansion.Frame
import Templating.Proofs.Expansion.Fuel

/-!
# The depth stays within the limit

Whatever splices do, and whether or not a run comes to its end, the depth is never beyond
the limit, it is never counted down from zero, and nothing is expanded one level deeper
but from below the limit (`depth_within_limit`).

A run that does not end gives no answer to speak of, and the stages in the middle of one
that does are not seen in its answer. So runs are watched: the engine `watched n` stops
short `n` calls down, where it answers at once, and refuses every call on a stage beyond
the limit. It answers always, which means that no call is refused, and it answers as
`ofFuel n` does where that gives an answer. What it writes into the journal are the entries
that a run writes in its first `n` levels of calls, and all of them are within the limit.

Two steps change the depth. Going deeper is kept to stages below the limit, and coming back
follows on it. So a watched run that begins within the limit leaves the depth as it was. This is
shown of one level of calls from the next (`lockstep_level`, `descend_lockstep`), and so of any
number of levels (`cutAt_lockstep`). A run that is only cut short and not watched answers as
`ofFuel n` does where that ends (`ofFuel_below_cutAt`), so that what is watched is the run itself
(`perform_keepsToLimit`).
-/

namespace Templating

open Markup (Node)

/-! ### Within the limit -/

/-- The entry is about a depth within the limit; going deeper began below it, coming back did
not begin at zero, and nodes were left as they were at the limit only. -/
def Entry.WithinLimit : Entry → Prop
  | .invoked _ depth | .called _ depth => depth ≤ depthLimit
  | .descended depth => depth < depthLimit
  | .ascended depth => 0 < depth ∧ depth ≤ depthLimit
  | .refused depth => depth = depthLimit
  | .hooked _ _ => True

/-- The later journal is the earlier one and what was written since, all within the limit. -/
def ExtendsWithin (earlier later : List Entry) : Prop :=
  ∃ entries, later = entries ++ earlier ∧ ∀ entry ∈ entries, entry.WithinLimit

theorem ExtendsWithin.refl (journal : List Entry) : ExtendsWithin journal journal :=
  ⟨[], rfl, fun _ mem => nomatch mem⟩

theorem extendsWithin_cons {entry : Entry} (h : entry.WithinLimit) (journal : List Entry) :
    ExtendsWithin journal (entry :: journal) := by
  refine ⟨[entry], rfl, fun other mem => ?_⟩
  rwa [List.mem_singleton.mp mem]

theorem ExtendsWithin.trans {js ks ls : List Entry} (h : ExtendsWithin js ks) (h' : ExtendsWithin ks ls) :
    ExtendsWithin js ls := by
  obtain ⟨xs, rfl, hx⟩ := h
  obtain ⟨ys, rfl, hy⟩ := h'
  refine ⟨ys ++ xs, (List.append_assoc ys xs js).symm, fun entry mem => ?_⟩
  exact (List.mem_append.mp mem).elim (hy entry) (hx entry)

/-- From the one stage to the other, the depth has stayed, and what was written since is
within the limit. -/
structure Holds (s s' : Stage) : Prop where
  depth : s'.state.depth = s.state.depth
  journal : ExtendsWithin s.ledger.journal s'.ledger.journal

theorem Holds.refl (s : Stage) : Holds s s := ⟨rfl, .refl _⟩

theorem Holds.trans {s t u : Stage} (h : Holds s t) (h' : Holds t u) : Holds s u :=
  ⟨h'.depth.trans h.depth, h.journal.trans h'.journal⟩

namespace Run

variable {α β : Type}

/-- From every stage within the limit both runs answer the same, and keep to the limit. -/
def Lockstep (r r' : Run α) : Prop :=
  ∀ s : Stage, s.state.depth ≤ depthLimit →
    ∃ a s', r s = some (a, s') ∧ r' s = some (a, s') ∧ Holds s s'

theorem lockstep_of_eq {r : Run α}
    (h : ∀ s : Stage, s.state.depth ≤ depthLimit → ∃ a s', r s = some (a, s') ∧ Holds s s') :
    Lockstep r r := by
  intro s hs
  obtain ⟨a, s', ha, holds⟩ := h s hs
  exact ⟨a, s', ha, ha, holds⟩

theorem Lockstep.bind {r r' : Run α} {f f' : α → Run β} (hr : Lockstep r r')
    (hf : ∀ a, Lockstep (f a) (f' a)) : Lockstep (r >>= f) (r' >>= f') := by
  intro s hs
  obtain ⟨a, t, h, h', holds⟩ := hr s hs
  obtain ⟨b, u, g, g', holds'⟩ := hf a t (holds.depth ▸ hs)
  exact ⟨b, u, bind_eq_some.mpr ⟨a, t, h, g⟩, bind_eq_some.mpr ⟨a, t, h', g'⟩,
    holds.trans holds'⟩

theorem lockstep_record {entry : State → Entry}
    (h : ∀ σ : State, σ.depth ≤ depthLimit → (entry σ).WithinLimit) :
    Lockstep (record entry) (record entry) :=
  lockstep_of_eq fun s hs => ⟨(), _, rfl, rfl, extendsWithin_cons (h s.state hs) _⟩

theorem lockstep_level : Level fun _ => Lockstep where
  pure a := lockstep_of_eq fun s _ => ⟨a, s, rfl, .refl s⟩
  bind := .bind
  state := lockstep_of_eq fun s _ => ⟨s.state, s, rfl, .refl s⟩
  change _ depth := lockstep_of_eq fun s _ => ⟨(), _, rfl, depth s.state, .refl _⟩
  invoked _ := lockstep_record fun _ h => h
  called _ := lockstep_record fun _ h => h
  newCell := lockstep_of_eq fun _ _ => ⟨_, _, rfl, rfl, .refl _⟩
  tick _ := lockstep_of_eq fun _ _ => ⟨_, _, rfl, rfl, .refl _⟩
  applyHooks slot nodes := by
    refine lockstep_of_eq fun s _ => ⟨_, _, rfl, rfl, ?_⟩
    obtain ⟨counts, hc⟩ :=
      (s.ledger.record (.hooked slot nodes)).exists_applyHooks (s.state.hooks slot) nodes
    have within : (Entry.hooked slot nodes).WithinLimit := trivial
    rw [hc]
    exact extendsWithin_cons within _
  keepingControl h := by
    intro s hs
    obtain ⟨a, t, ht, ht', holds⟩ := h s hs
    refine ⟨a, t.withControl s.state.control, ?_, ?_, rfl, holds.journal⟩
    · rw [keepingControl_apply, ht]
      rfl
    · rw [keepingControl_apply, ht']
      rfl
  keepingSplices h := by
    intro s hs
    obtain ⟨a, t, ht, ht', holds⟩ := h s hs
    refine ⟨a, t.withSplices s.state.splices, ?_, ?_, holds.depth, holds.journal⟩
    · rw [keepingSplices_apply, ht]
      rfl
    · rw [keepingSplices_apply, ht']
      rfl

end Run

namespace Engine

open Run

/-! ### One level more -/

section

variable {e e' : Engine} (h : e.Related (fun _ => Lockstep) e')

include h

/-- Below the limit, what is expanded one level deeper is still within it, and comes back. -/
theorem descend_lockstep (nodes : List Node) : Lockstep (e.descend nodes) (e'.descend nodes) := by
  intro s hs
  by_cases hd : s.state.depth < depthLimit
  · obtain ⟨out, t, ht, ht', holds⟩ := h.expand nodes s.descended hd
    have depth : t.state.depth = s.state.depth + 1 := holds.depth
    have down : (Entry.descended s.state.depth).WithinLimit := hd
    have up : (Entry.ascended t.state.depth).WithinLimit := ⟨by omega, by omega⟩
    refine ⟨out, t.ascended, ?_, ?_, congrArg (· - 1) depth, ?_⟩
    · rw [descend_of_lt _ nodes hd, ht]
      rfl
    · rw [descend_of_lt _ nodes hd, ht']
      rfl
    · exact (extendsWithin_cons down _).trans (holds.journal.trans (extendsWithin_cons up _))
  · have full : (Entry.refused s.state.depth).WithinLimit :=
      Nat.le_antisymm hs (Nat.not_lt.mp hd)
    have refused (e : Engine) := e.descend_of_le nodes (Nat.not_lt.mp hd)
    exact ⟨nodes, s.refused, refused e, refused e', rfl, extendsWithin_cons full _⟩

/-- What a splice gives is expanded one level deeper from below the limit only. It does not
come back by itself. -/
theorem expandResult_lockstep (result : List Node) (s : Stage) (hs : s.state.depth ≤ depthLimit) :
    ∃ out t, e.expandResult result s = some (out, t) ∧ e'.expandResult result s = some (out, t) ∧
      ExtendsWithin s.ledger.journal t.ledger.journal := by
  cases hr : s.state.recursing with
  | false =>
    have stopped (e : Engine) := e.expandResult_of_stopped result hr
    exact ⟨result, s, stopped e, stopped e', .refl _⟩
  | true =>
    by_cases hd : s.state.depth < depthLimit
    · obtain ⟨out, t, ht, ht', holds⟩ := h.expand result s.descended hd
      have down : (Entry.descended s.state.depth).WithinLimit := hd
      exact ⟨out, t, (e.expandResult_of_lt result hr hd).trans ht,
        (e'.expandResult_of_lt result hr hd).trans ht',
        (extendsWithin_cons down _).trans holds.journal⟩
    · have full : (Entry.refused s.state.depth).WithinLimit :=
        Nat.le_antisymm hs (Nat.not_lt.mp hd)
      have refused (e : Engine) := e.expandResult_of_le result hr (Nat.not_lt.mp hd)
      exact ⟨result, s.refused, refused e, refused e', extendsWithin_cons full _⟩

theorem invoke_lockstep (name : String) (splice : Splice) (node : Node) :
    Lockstep (e.invoke name splice node) (e'.invoke name splice node) := by
  intro s hs
  have entered : (Entry.invoked name s.state.depth).WithinLimit := hs
  obtain ⟨result, t, ht, ht', holds⟩ := h.call splice node (s.entered name) hs
  obtain ⟨out, u, hu, hu', later⟩ :=
    expandResult_lockstep h result t (holds.depth ▸ hs)
  refine ⟨out, u.withControl s.state.control, ?_, ?_, rfl,
    (extendsWithin_cons entered _).trans (holds.journal.trans later)⟩
  · rw [invoke_apply, ht, Option.bind_some, hu]
    rfl
  · rw [invoke_apply, ht', Option.bind_some, hu']
    rfl

theorem Related.next_lockstep : e.next.Related (fun _ => Lockstep) e'.next where
  expand := expandNodes_walk lockstep_level.chaining (placeholder_plain lockstep_level.plain h)
    (replace_related lockstep_level.toSequential (invoke_lockstep h))
  call splice node := perform_level lockstep_level h (descend_lockstep h) (splice node)

end

/-! ### Watched runs -/

/-- The engine that answers every call at once. -/
def cut : Engine where
  expand nodes := pure nodes
  call _ _ := pure []

/-- The engine that refuses calls on stages beyond the limit. -/
def watching (e : Engine) : Engine where
  expand nodes := fun s => if s.state.depth ≤ depthLimit then e.expand nodes s else none
  call splice node := fun s => if s.state.depth ≤ depthLimit then e.call splice node s else none

/-- The engine that stops short `n` calls down, and refuses calls beyond the limit. -/
def watched : Nat → Engine
  | 0 => cut
  | n + 1 => (watched n).next.watching

/-- The engine that stops short `n` calls down. -/
def cutAt : Nat → Engine
  | 0 => cut
  | n + 1 => (cutAt n).next

theorem Related.watching {e e' : Engine} (h : e.Related (fun _ => Lockstep) e') :
    e.Related (fun _ => Lockstep) e'.watching where
  expand nodes s hs := by
    obtain ⟨a, t, ht, ht', holds⟩ := h.expand nodes s hs
    exact ⟨a, t, ht, (if_pos hs).trans ht', holds⟩
  call splice node s hs := by
    obtain ⟨a, t, ht, ht', holds⟩ := h.call splice node s hs
    exact ⟨a, t, ht, (if_pos hs).trans ht', holds⟩

/-- Watching refuses nothing. -/
theorem cutAt_lockstep : ∀ n, (cutAt n).Related (fun _ => Lockstep) (watched n)
  | 0 => ⟨fun nodes => lockstep_level.pure nodes, fun _ _ => lockstep_level.pure []⟩
  | n + 1 => (Related.next_lockstep (cutAt_lockstep n)).watching

/-- Stopping short changes no answer. -/
theorem ofFuel_below_cutAt : ∀ n, (ofFuel n).Related (fun _ => Below) (cutAt n)
  | 0 => ⟨fun _ _ _ h => (nomatch h), fun _ _ _ _ h => (nomatch h)⟩
  | n + 1 => Related.next below_congruence (ofFuel_below_cutAt n)

/-- The watched run answers and keeps to the limit, and a run with that much fuel answers the
same if it answers. -/
def KeepsToLimit (n : Nat) (s : Stage) {α : Type} (r : Engine → Run α) : Prop :=
  ∃ a s', r (watched n) s = some (a, s') ∧ Holds s s' ∧ ∀ x, r (ofFuel n) s = some x → x = (a, s')

theorem keepsToLimit_of_lockstep {n : Nat} {s : Stage} (hs : s.state.depth ≤ depthLimit) {α : Type}
    {r : Engine → Run α} (step : Lockstep (r (cutAt n)) (r (watched n)))
    (below : Below (r (ofFuel n)) (r (cutAt n))) : KeepsToLimit n s r := by
  obtain ⟨a, t, ht, ht', holds⟩ := step s hs
  refine ⟨a, t, ht', holds, fun x hx => ?_⟩
  have same := (below s x hx).symm.trans ht
  cases same
  rfl

/-- A render begins at depth zero, on a copy of the state. -/
theorem render_lockstep {e e' : Engine} (h : e.Related (fun _ => Lockstep) e') (name : String) :
    Lockstep (e.render name) (e'.render name) := by
  intro s hs
  cases hl : s.state.lookup name with
  | none =>
    have missing (e : Engine) : e.render name s = some (none, s) := by simp [render, hl]
    exact ⟨none, s, missing e, missing e', .refl s⟩
  | some found =>
    obtain ⟨template, directory⟩ := found
    let copy : Stage := { s with state := s.state.forRender }
    obtain ⟨content, t, ht, ht', holds⟩ :=
      evaluate_level lockstep_level h name copy (Nat.zero_le depthLimit)
    let page := content.map fun content => Rendered.ofDocument
      { template.document with content, doctype := t.state.doctypes.getLast? }
    have rendered (e : Engine) (ht : e.evaluate name copy = some (content, t)) :
        e.render name s = some (page, { t with state := s.state }) :=
      (e.render_of_found hl).trans (congrArg (Option.map _) ht)
    exact ⟨page, { t with state := s.state }, rendered e ht, rendered e' ht', rfl, holds.journal⟩

theorem renderWith_lockstep {e e' : Engine} (h : e.Related (fun _ => Lockstep) e') (name : String)
    (args : List (String × String)) : Lockstep (e.renderWith name args) (e'.renderWith name args) :=
  lockstep_level.keepingSplices
    ((lockstep_level.change (.bindTexts args) fun _ => rfl).bind fun _ => render_lockstep h name)

end Engine

/-! ### Reachable states -/

/-- The states that come of the one without templates, splices and hooks by the operations on
states and by the requests that scripts are made of. -/
inductive State.Reachable : State → Prop where
  | empty : Reachable .empty
  | bind {σ : State} (name : String) (splice : Splice) : σ.Reachable →
      (σ.bind name splice).Reachable
  | bindAll {σ : State} (bindings : List (String × Splice)) : σ.Reachable →
      (σ.bindAll bindings).Reachable
  | bindTexts {σ : State} (args : List (String × String)) : σ.Reachable →
      (σ.bindTexts args).Reachable
  | addTemplate {σ : State} (name : String) (document : Markup.Document) : σ.Reachable →
      (σ.addTemplate name document).Reachable
  | setTemplates {σ : State} (documents : List (String × Markup.Document)) : σ.Reachable →
      (σ.setTemplates documents).Reachable
  | addHook {σ : State} (slot : HookSlot) (hook : Hook) : σ.Reachable →
      (σ.addHook slot hook).Reachable
  | load {σ τ : State} {extensions : Extensions} {ledger : Ledger} {files : List SourceFile} :
      σ.Reachable → (σ.load extensions ledger files).1 = .ok τ → τ.Reachable
  | reload {σ τ : State} {extensions : Extensions} {ledger : Ledger} {files : List SourceFile} :
      σ.Reachable → (σ.reload extensions ledger files).1 = .ok τ → τ.Reachable
  | perform {σ : State} {n : Nat} {script : Script} {ledger : Ledger} {out : List Node} {s : Stage} :
      σ.Reachable → (Engine.ofFuel n).perform script ⟨σ, ledger⟩ = some (out, s) →
        s.state.Reachable

namespace Engine

open Run

theorem perform_keepsToLimit {s : Stage} (hs : s.state.depth ≤ depthLimit) (n : Nat) (script : Script) :
    KeepsToLimit n s (·.perform script) :=
  keepsToLimit_of_lockstep hs
    (perform_level lockstep_level (cutAt_lockstep n) (descend_lockstep (cutAt_lockstep n)) script)
    (perform_related below_congruence (ofFuel_below_cutAt n) script)

end Engine

/-- Between operations the depth is zero. -/
theorem State.Reachable.depth_eq_zero {σ : State} (h : σ.Reachable) : σ.depth = 0 := by
  induction h with
  | empty => rfl
  | bind | bindAll | bindTexts | addTemplate | setTemplates => assumption
  | addHook slot hook _ ih => cases slot <;> exact ih
  | @load σ τ extensions ledger files _ eq ih =>
    cases hl : (loadListing extensions σ.onLoad ledger files).1 <;>
      simp only [State.load, hl, Except.map] at eq <;> cases eq
    exact ih
  | @reload σ τ extensions ledger files _ eq ih =>
    cases hl : (loadListing extensions σ.onLoad ledger files).1 <;>
      simp only [State.reload, hl, Except.map] at eq <;> cases eq
    exact ih
  | @perform σ n script ledger out s _ run ih =>
    have within : (⟨σ, ledger⟩ : Stage).state.depth ≤ depthLimit := ih ▸ Nat.zero_le depthLimit
    obtain ⟨out', s', -, holds, same⟩ := Engine.perform_keepsToLimit within n script
    cases same _ run
    exact holds.depth.trans ih

namespace Engine

open Run

/-- **The depth stays within the limit**: between operations it is, in every reachable state,
and from there, or from any stage within the limit, it is throughout every run that performs
a script or renders a template, with or without arguments, and whether or not the run ends.
A run that is watched for `n` levels of calls refuses no call, leaves the depth as it was and
writes only of depths within the limit; and it is the run with that much fuel, if that one
has an answer. -/
theorem depth_within_limit :
    (∀ σ : State, σ.Reachable → σ.depth ≤ depthLimit) ∧
    ∀ s : Stage, s.state.depth ≤ depthLimit → ∀ n,
      (∀ script, KeepsToLimit n s (·.perform script)) ∧ (∀ name, KeepsToLimit n s (·.render name)) ∧
        ∀ name args, KeepsToLimit n s (·.renderWith name args) := by
  refine ⟨fun σ h => h.depth_eq_zero ▸ Nat.zero_le depthLimit, fun s hs n =>
    ⟨perform_keepsToLimit hs n, fun name => ?_, fun name args => ?_⟩⟩
  · exact keepsToLimit_of_lockstep hs (render_lockstep (cutAt_lockstep n) name)
      ((ofFuel_below_cutAt n).render name)
  · exact keepsToLimit_of_lockstep hs (renderWith_lockstep (cutAt_lockstep n) name args)
      (below_congruence.keepingSplices
        (Below.bind (.refl _) fun _ => (ofFuel_below_cutAt n).render name))

/-- A splice that expands its own element one level deeper and then calls itself, for ever. -/
def plunging : Stage where
  state := State.empty.bind "x" fun node =>
    .descend [.element "x" [] []] fun _ => .call "x" node fun _ => .done []

theorem plunging_keepsToLimit :
    plunging.state.Reachable ∧ plunging.state.depth ≤ depthLimit ∧
      KeepsToLimit 60 plunging (·.perform (.expand [.element "x" [] []] .done)) :=
  ⟨.bind _ _ .empty, depth_within_limit.1 _ (.bind _ _ .empty),
    (depth_within_limit.2 plunging (by decide) 60).1 (.expand [.element "x" [] []] .done)⟩

end Engine

end Templating
