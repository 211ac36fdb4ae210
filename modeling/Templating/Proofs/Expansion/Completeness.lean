import Templating.Proofs.Expansion.Control
import Templating.Proofs.Expansion.Frame
import Templating.Proofs.Expansion.Fuel
import Templating.Proofs.Expansion.Termination

/-!
# Nothing bound is left

Where nothing but texts, nodes, the standard splices and bound tags is bound, expansion
is complete: unless a splice is invoked at the depth limit, no element of what it gives,
at any level, has a name that was bound when it began (`standard_expansion_complete`).

An element comes out of expansion in one of two ways. Either it was rebuilt, because its
name was not bound when it was reached; then the name was not bound at the beginning,
since names stay bound: what is bound while a body is expanded is undone to what was bound
before. Or a splice gave it, and what a splice gives has been expanded: by the splice
itself, if it stops recursion, or afterwards, one level deeper. Only the depth limit could
hold either back.
-/

namespace Templating

open Markup (Attribute Node)

/-! ### Nodes without some names -/

section

variable (names : String → Prop)

mutual

/-- No element of the node has one of the names. -/
def FreeNode : Node → Prop
  | .element name _ cs => ¬ names name ∧ Free cs
  | _ => True

/-- No element of the nodes, at any level, has one of the names. -/
def Free : List Node → Prop
  | [] => True
  | node :: nodes => FreeNode node ∧ Free nodes

end

theorem free_append {xs ys : List Node} (hx : Free names xs) (hy : Free names ys) :
    Free names (xs ++ ys) := by
  induction xs with
  | nil => exact hy
  | cons x xs ih =>
    rw [Free] at hx
    exact ⟨hx.1, ih hx.2⟩

end

/-- Whether the name is bound. -/
def State.Binds (σ : State) (name : String) : Prop := (σ.splices.get? name).isSome = true

theorem State.binds_bind {σ : State} {name query : String} (splice : Splice)
    (h : σ.Binds query) : (σ.bind name splice).Binds query := by
  simp only [State.Binds, State.bind, Registry.get?_insert]
  split
  · rfl
  · exact h

/-! ### Runs that stay below the limit -/

/-- From the one stage to the other, no splice was invoked at the depth limit. -/
def BelowLimit (s s' : Stage) : Prop :=
  ∃ entries, s'.ledger.journal = entries ++ s.ledger.journal ∧
    ∀ name, Entry.invoked name depthLimit ∉ entries

/-- A way that stays below the limit does so on both of its parts. -/
theorem BelowLimit.split {s t s' : Stage} (h : JournalGrows s t) (h' : JournalGrows t s')
    (below : BelowLimit s s') : BelowLimit s t ∧ BelowLimit t s' := by
  obtain ⟨first, hf⟩ := h
  obtain ⟨later, hl⟩ := h'
  obtain ⟨entries, he, none⟩ := below
  have parts : entries = later ++ first := by
    rw [← hl, ← hf, ← List.append_assoc] at he
    exact (List.append_cancel_right he).symm
  subst parts
  exact ⟨⟨first, hf.symm, fun name mem => none name (List.mem_append_right _ mem)⟩,
    ⟨later, hl.symm, fun name mem => none name (List.mem_append_left _ mem)⟩⟩

/-- A splice that is invoked below the limit has room to go deeper. -/
theorem BelowLimit.depth_ne {s s' : Stage} {name : String} (h : JournalGrows (s.entered name) s')
    (below : BelowLimit s s') : s.state.depth ≠ depthLimit := by
  intro depth
  obtain ⟨later, hl⟩ := h
  obtain ⟨entries, he, none⟩ := below
  have written : (s.entered name).ledger.journal =
      .invoked name s.state.depth :: s.ledger.journal := rfl
  have parts : entries = later ++ [.invoked name s.state.depth] := by
    rw [written, ← List.singleton_append, ← List.append_assoc, he] at hl
    exact (List.append_cancel_right hl).symm
  refine none name ?_
  rw [parts, depth]
  exact List.mem_append_right _ List.mem_cons_self

namespace Run

variable {α β : Type} {I I' : Stage → Prop} {J Q : α → Stage → Prop}

/-- If the run begins in `I` and stays below the limit, its answer and the stage that it
leaves are in `Q`. -/
structure Leaves (I : Stage → Prop) (r : Run α) (Q : α → Stage → Prop) : Prop where
  grows : Moves JournalGrows r
  leaves : ∀ {s a s'}, I s → r s = some (a, s') → BelowLimit s s' → Q a s'

theorem leaves_failure : Leaves I (failure : Run α) Q := ⟨moves_failure, fun _ h => nomatch h⟩

theorem leaves_pure (a : α) : Leaves I (pure a) fun b s => I s ∧ b = a where
  grows := moves_pure a
  leaves hs run _ := by
    cases run
    exact ⟨hs, rfl⟩

theorem leaves_state : Leaves I state fun σ s => I s ∧ s.state = σ where
  grows := moves_state
  leaves hs run _ := by
    cases run
    exact ⟨hs, rfl⟩

theorem leaves_modifyState {f : State → State} {K : Stage → Prop}
    (h : ∀ s, I s → K { s with state := f s.state }) : Leaves I (modifyState f) fun _ => K where
  grows := moves_modifyState fun _ => List.suffix_refl _
  leaves hs run _ := by
    cases run
    exact h _ hs

theorem Leaves.bind {r : Run α} {f : α → Run β} {K : β → Stage → Prop} (hr : Leaves I r J)
    (hf : ∀ a, Leaves (J a) (f a) K) : Leaves I (r >>= f) K where
  grows := hr.grows.bind fun a => (hf a).grows
  leaves {s b s''} hs run below := by
    obtain ⟨a, s', h, h'⟩ := bind_eq_some.mp run
    obtain ⟨first, later⟩ := below.split (hr.grows s a s' h) ((hf a).grows s' b s'' h')
    exact (hf a).leaves (hr.leaves hs h first) h' later

theorem Leaves.imp {r : Run α} (h : Leaves I r J) (pre : ∀ s, I' s → I s)
    (post : ∀ a s, J a s → Q a s) : Leaves I' r Q :=
  ⟨h.grows, fun hs run below => post _ _ (h.leaves (pre _ hs) run below)⟩

/-- What is known beforehand may be taken out of the stage that a run begins with. -/
theorem Leaves.of_and {p : Prop} {r : Run α} (grows : Moves JournalGrows r)
    (h : p → Leaves I r Q) : Leaves (fun s => I s ∧ p) r Q :=
  ⟨grows, fun hs run below => (h hs.2).leaves hs.1 run below⟩

end Run

/-! ### Stages that cover some names -/

/-- A stage of standard splices in which all of the names are bound. -/
structure Covers (names : String → Prop) (s : Stage) : Prop where
  standard : s.state.IsStandard
  binds : ∀ name, names name → s.state.Binds name

/-- A stage that covers the names, at a depth. -/
structure CoversAt (names : String → Prop) (d : Nat) (s : Stage) : Prop extends Covers names s where
  depth : s.state.depth = d

section

variable {names : String → Prop} {d d' : Nat} {s t : Stage}

theorem CoversAt.bind (h : CoversAt names d s) (name : String) {splice : Splice}
    (hs : splice.IsStandard) : CoversAt names d { s with state := s.state.bind name splice } where
  standard := h.standard.bind name hs
  binds query hq := State.binds_bind splice (h.binds query hq)
  depth := h.depth

theorem CoversAt.withControl (hs : CoversAt names d s) (ht : Covers names t) :
    CoversAt names d (t.withControl s.state.control) := ⟨⟨ht.standard, ht.binds⟩, hs.depth⟩

theorem CoversAt.withSplices (hs : CoversAt names d s) (ht : CoversAt names d' t) :
    CoversAt names d' (t.withSplices s.state.splices) := ⟨⟨hs.standard, hs.binds⟩, ht.depth⟩

theorem CoversAt.entered (h : CoversAt names d s) (name : String) :
    CoversAt names d (s.entered name) := ⟨⟨h.standard, h.binds⟩, h.depth⟩

theorem CoversAt.descended (h : CoversAt names d s) : CoversAt names (d + 1) s.descended :=
  ⟨⟨h.standard, h.binds⟩, congrArg (· + 1) h.depth⟩

theorem CoversAt.ascended (h : CoversAt names (d + 1) s) : CoversAt names d s.ascended :=
  ⟨⟨h.standard, h.binds⟩, congrArg (· - 1) h.depth⟩

end

namespace Engine

open Run

/-- The engine leaves none of the names: what it expands is free of them, and what a splice
gives is, unless it is still to be expanded. -/
structure Completes (names : String → Prop) (e : Engine) : Prop where
  grows : e.Related (fun _ r _ => Moves JournalGrows r) e
  expand : ∀ {d}, d ≤ depthLimit → ∀ nodes,
    Leaves (CoversAt names d) (e.expand nodes) fun out s => CoversAt names d s ∧ Free names out
  call : ∀ {d}, d < depthLimit → ∀ {splice : Splice}, splice.IsStandard → ∀ node,
    Leaves (fun s => CoversAt names d s ∧ s.state.recursing = true) (e.call splice node)
      fun out s => CoversAt names d s ∧ (s.state.recursing = false → Free names out)

section

variable {names : String → Prop} {e : Engine} (c : Completes names e) {d : Nat}

/-! ### Scripts -/

/-- Performing the script leaves none of the names. -/
def Finishes (names : String → Prop) (e : Engine) (d : Nat) (script : Script) : Prop :=
  Leaves (CoversAt names d) (e.perform script) fun out s => CoversAt names d s ∧ Free names out

section

variable {next : Script}

theorem finishes_done {nodes : List Node} (h : Free names nodes) :
    Finishes names e d (.done nodes) :=
  (leaves_pure nodes).imp (fun _ hs => hs) fun _ _ hs => ⟨hs.1, hs.2 ▸ h⟩

theorem finishes_nothing : Finishes names e d (.done []) := finishes_done trivial

theorem Finishes.stop (h : Finishes names e d next) : Finishes names e d (.stop next) :=
  (leaves_modifyState fun _ hs => ⟨⟨hs.standard, hs.binds⟩, hs.depth⟩).bind fun _ => h

theorem Finishes.setContext (h : Finishes names e d next) (context : Path) :
    Finishes names e d (.setContext context next) :=
  (leaves_modifyState fun _ hs => ⟨⟨hs.standard, hs.binds⟩, hs.depth⟩).bind fun _ => h

theorem Finishes.addDoctype (h : Finishes names e d next) (body : String) :
    Finishes names e d (.addDoctype body next) :=
  (leaves_modifyState fun _ hs => ⟨⟨hs.standard, hs.binds⟩, hs.depth⟩).bind fun _ => h

theorem Finishes.bind (h : Finishes names e d next) (name : String) {splice : Splice}
    (hs : splice.IsStandard) : Finishes names e d (.bind name splice next) :=
  (leaves_modifyState fun _ covers => covers.bind name hs).bind fun _ => h

theorem finishes_look {next : View → Script} (h : ∀ view, Finishes names e d (next view)) :
    Finishes names e d (.look next) :=
  leaves_state.bind fun σ => (h σ.view).imp (fun _ hs => hs.1) fun _ _ hs => hs

/-- What a scope binds is undone, but what was bound before it stays bound. -/
theorem finishes_scope {inner : Script} (h : Finishes names e d inner) :
    Finishes names e d (.scope inner .done) := by
  refine Leaves.bind (J := fun out s => CoversAt names d s ∧ Free names out) ?_ fun out => ?_
  · refine ⟨@Congruence.keepingSplices _ journalGrows_congruence _ _ (e.perform inner) h.grows,
      fun hs run below => ?_⟩
    rw [keepingSplices_apply, Option.map_eq_some_iff] at run
    obtain ⟨⟨out, t⟩, run, ht⟩ := run
    cases ht
    obtain ⟨covers, free⟩ := h.leaves hs run below
    exact ⟨hs.withSplices covers, free⟩
  · exact (leaves_pure out).imp (fun _ hs => hs) fun _ _ hs => ⟨hs.1.1, hs.2 ▸ hs.1.2⟩

end

include c

theorem finishes_expand (hd : d ≤ depthLimit) (nodes : List Node) {next : List Node → Script}
    (h : ∀ out, Finishes names e d (next out)) : Finishes names e d (.expand nodes next) :=
  (c.expand hd nodes).bind fun out => (h out).imp (fun _ hs => hs.1) fun _ _ hs => hs

/-- Below the limit, nodes are expanded one level deeper. -/
theorem finishes_descend (hd : d < depthLimit) (nodes : List Node) :
    Finishes names e d (.descend nodes .done) := by
  refine Leaves.bind (J := fun out s => CoversAt names d s ∧ Free names out) ?_ fun out => ?_
  · refine ⟨descend_related journalGrows_congruence c.grows nodes,
      fun {s out s'} hs run below => ?_⟩
    rw [e.descend_of_lt nodes (hs.depth ▸ hd), Option.map_eq_some_iff] at run
    obtain ⟨⟨out, t⟩, run, ht⟩ := run
    cases ht
    have deeper := c.expand (Nat.succ_le_of_lt hd) nodes
    have down : JournalGrows s s.descended := List.suffix_cons _ _
    have inner : JournalGrows s.descended t := deeper.grows _ _ _ run
    have up : JournalGrows t t.ascended := List.suffix_cons _ _
    have below := (below.split (down.trans inner) up).1
    obtain ⟨covers, free⟩ := deeper.leaves hs.descended run (below.split down inner).2
    exact ⟨covers.ascended, free⟩
  · exact (leaves_pure out).imp (fun _ hs => hs) fun _ _ hs => ⟨hs.1.1, hs.2 ▸ hs.1.2⟩

theorem finishes_expandBody (hd : d < depthLimit) (context : Path) (body content : List Node) :
    Finishes names e d (Splice.expandBody context body content) := by
  refine Finishes.setContext (finishes_scope ?_) context
  exact (finishes_descend c hd body).bind _ (.nodes content)

/-- What a standard splice gives is free of the names, or is still to be expanded. -/
theorem perform_leaves (hd : d < depthLimit) {splice : Splice} (h : splice.IsStandard)
    (node : Node) :
    Leaves (fun s => CoversAt names d s ∧ s.state.recursing = true) (e.perform (splice node))
      fun out s => CoversAt names d s ∧ (s.state.recursing = false → Free names out) := by
  have given (nodes : List Node) :
      Leaves (fun s => CoversAt names d s ∧ s.state.recursing = true) (e.perform (.done nodes))
        fun out s => CoversAt names d s ∧ (s.state.recursing = false → Free names out) :=
    (leaves_pure nodes).imp (fun _ hs => hs) fun _ s hs =>
      ⟨hs.1.1, fun stopped => absurd hs.1.2 (by rw [stopped]; decide)⟩
  have expanded {script : Script} (h : Finishes names e d script) :
      Leaves (fun s => CoversAt names d s ∧ s.state.recursing = true) (e.perform script)
        fun out s => CoversAt names d s ∧ (s.state.recursing = false → Free names out) :=
    Leaves.imp h (fun _ hs => hs.1) fun _ _ hs => ⟨hs.1, fun _ => hs.2⟩
  cases h with
  | text value => exact given _
  | nodes ns => exact given _
  | ignore => exact given _
  | boundTag context body =>
    exact expanded (Finishes.stop (finishes_expand c (Nat.le_of_lt hd) _ fun content =>
      finishes_expandBody c hd context body content))
  | bind =>
    refine expanded (Finishes.stop ?_)
    cases node.attribute? "tag" with
    | none => exact finishes_nothing
    | some tag =>
      exact finishes_look fun view => (finishes_nothing).bind tag (.boundTag view.context _)
  | apply =>
    refine expanded (Finishes.stop ?_)
    cases node.attribute? "template" with
    | none => exact finishes_nothing
    | some name =>
      refine finishes_expand c (Nat.le_of_lt hd) _ fun content => finishes_look fun view => ?_
      split
      · exact finishes_nothing
      · rename_i template directory _
        have body := finishes_expandBody c hd directory template.document.content content
        cases template.document.doctype with
        | none => exact body
        | some doctype => exact body.addDoctype doctype

/-! ### Placeholders -/

theorem placeholder_leaves (hd : d ≤ depthLimit) (name : String) :
    Leaves (CoversAt names d) (e.placeholder name) fun _ => CoversAt names d where
  grows := placeholder_related journalGrows_congruence c.grows name
  leaves {s found s'} hs run below := by
    cases hb : s.state.splices.get? name with
    | none =>
      rw [e.placeholder_of_unbound hb] at run
      cases run
      exact hs
    | some splice =>
      rw [e.placeholder_of_bound hb, Option.map_eq_some_iff] at run
      obtain ⟨⟨out, t⟩, run, ht⟩ := run
      cases ht
      have entered : JournalGrows s (s.entered name) := List.suffix_cons _ _
      have called : JournalGrows (s.entered name) t := c.grows.call splice _ _ _ t run
      have room : d < depthLimit := Nat.lt_of_le_of_ne hd (hs.depth ▸ below.depth_ne called)
      have covers := (c.call room (hs.standard name splice hb) _).leaves
        ⟨hs.entered name, rfl⟩ run (below.split entered called).2
      exact hs.withControl covers.1.toCovers

theorem attributes_leaves (hd : d ≤ depthLimit) (as : List Attribute) :
    Leaves (CoversAt names d) (e.attributes as) fun _ => CoversAt names d := by
  have sequential : Sequential fun _ r _ =>
      Leaves (CoversAt names d) r fun _ => CoversAt names d :=
    { pure := fun a => (leaves_pure a).imp (fun _ hs => hs) fun _ _ hs => hs.1
      bind := Leaves.bind
      state := leaves_state.imp (fun _ hs => hs) fun _ _ hs => hs.1 }
  exact @attributes_walk _ sequential.chaining e e (placeholder_leaves c hd) as

/-! ### Elements -/

/-- The result of a splice is expanded one level deeper, unless the splice has done so. -/
theorem expandResult_leaves (hd : d < depthLimit) (result : List Node) :
    Leaves (fun s => CoversAt names d s ∧ (s.state.recursing = false → Free names result))
      (e.expandResult result) fun out s => Covers names s ∧ Free names out where
  grows := expandResult_related journalGrows_congruence c.grows result
  leaves {s out s'} hs run below := by
    obtain ⟨covers, finished⟩ := hs
    cases hr : s.state.recursing with
    | false =>
      rw [e.expandResult_of_stopped result hr] at run
      cases run
      exact ⟨covers.toCovers, finished hr⟩
    | true =>
      rw [e.expandResult_of_lt result hr (covers.depth ▸ hd)] at run
      have deeper := c.expand (Nat.succ_le_of_lt hd) result
      have down : JournalGrows s s.descended := List.suffix_cons _ _
      have below := (below.split down (deeper.grows _ _ _ run)).2
      obtain ⟨covers, free⟩ := deeper.leaves covers.descended run below
      exact ⟨covers.toCovers, free⟩

theorem invoke_leaves (hd : d ≤ depthLimit) (name : String) {splice : Splice}
    (h : splice.IsStandard) (node : Node) :
    Leaves (CoversAt names d) (e.invoke name splice node)
      fun out s => CoversAt names d s ∧ Free names out where
  grows := invoke_related journalGrows_congruence c.grows name splice node
  leaves {s out s'} hs run below := by
    rw [e.invoke_apply, Option.map_eq_some_iff] at run
    obtain ⟨⟨out, t⟩, run, ht⟩ := run
    cases ht
    have run : (e.call splice node >>= e.expandResult) (s.entered name) = some (out, t) := run
    have entered : JournalGrows s (s.entered name) := List.suffix_cons _ _
    have body : JournalGrows (s.entered name) t :=
      ((c.grows.call splice node).bind fun result =>
        expandResult_related journalGrows_congruence c.grows result) _ _ _ run
    have room : d < depthLimit := Nat.lt_of_le_of_ne hd (hs.depth ▸ below.depth_ne body)
    have expanded := (c.call room h node).bind (expandResult_leaves c room)
    obtain ⟨covers, free⟩ := expanded.leaves
      ⟨hs.entered name, rfl⟩ run (below.split entered body).2
    exact ⟨hs.withControl covers, free⟩

end

mutual

theorem expandNode_leaves {names : String → Prop} {e : Engine} (c : Completes names e) {d : Nat}
    (hd : d ≤ depthLimit) : ∀ node,
      Leaves (CoversAt names d) (e.expandNode node)
        fun out s => CoversAt names d s ∧ Free names out
  | .element name as cs => by
    refine (attributes_leaves c hd as).bind fun as => ⟨?_, fun {s out s'} hs run below => ?_⟩
    · refine moves_state.bind fun σ => ?_
      cases σ.splices.get? name with
      | none => exact (expandNodes_leaves c hd cs).grows.bind fun _ => moves_pure _
      | some splice => exact invoke_related journalGrows_congruence c.grows name splice _
    · simp only [bind_apply, state_apply, Option.bind_some] at run
      cases hb : s.state.splices.get? name with
      | none =>
        rw [hb] at run
        obtain ⟨cs', t, ht, run⟩ := bind_eq_some.mp run
        cases run
        obtain ⟨covers, free⟩ := (expandNodes_leaves c hd cs).leaves hs ht below
        have unbound : ¬ names name := fun bound => by
          have binds := hs.binds name bound
          rw [State.Binds, hb] at binds
          cases binds
        exact ⟨covers, ⟨unbound, free⟩, trivial⟩
      | some splice =>
        rw [hb] at run
        exact (invoke_leaves c hd name (hs.standard name splice hb) _).leaves hs run below
  | .text _ | .comment _ | .cdata _ | .instruction _ =>
    (leaves_pure _).imp (fun _ hs => hs) fun _ _ hs => ⟨hs.1, hs.2 ▸ ⟨trivial, trivial⟩⟩

theorem expandNodes_leaves {names : String → Prop} {e : Engine} (c : Completes names e) {d : Nat}
    (hd : d ≤ depthLimit) : ∀ nodes,
      Leaves (CoversAt names d) (e.expandNodes nodes)
        fun out s => CoversAt names d s ∧ Free names out
  | [] => (leaves_pure _).imp (fun _ hs => hs) fun _ _ hs => ⟨hs.1, hs.2 ▸ trivial⟩
  | node :: nodes => by
    refine (expandNode_leaves c hd node).bind fun out => ?_
    have rest := expandNodes_leaves c hd nodes
    refine Leaves.of_and (rest.grows.bind fun _ => moves_pure _) fun free => ?_
    refine rest.bind fun more => (leaves_pure _).imp (fun _ hs => hs) fun _ _ hs => ?_
    exact ⟨hs.1.1, hs.2 ▸ free_append names free hs.1.2⟩

end

theorem Completes.next {names : String → Prop} {e : Engine} (c : Completes names e) :
    Completes names e.next where
  grows := Related.next journalGrows_congruence c.grows
  expand hd nodes := expandNodes_leaves c hd nodes
  call hd _ h node := perform_leaves c hd h node

theorem ofFuel_completes (names : String → Prop) : ∀ n, Completes names (ofFuel n)
  | 0 =>
    { grows := ofFuel_moves journalGrows_frame 0
      expand := fun _ _ => leaves_failure
      call := fun _ _ _ _ => leaves_failure }
  | n + 1 => (ofFuel_completes names n).next

/-! ### Templates -/

/-- Without hooks behind it, the evaluation of a template leaves none of the names. -/
theorem evaluate_leaves {names : String → Prop} (n : Nat) {s s' : Stage} {d : Nat}
    (hs : CoversAt names d s) (hd : d ≤ depthLimit) (hooks : s.state.hooks .postRun = [])
    {name : String} {template : Template} {directory : Path} {out : List Node}
    (hl : s.state.lookup name = some (template, directory))
    (run : (ofFuel n).evaluate name s = some (some out, s')) (below : BelowLimit s s') :
    Free names out := by
  let before :=
    (s.evaluating template.document.doctype).hooked .preRun template.document.content
  have covers : CoversAt names d (before.2.located directory) :=
    ⟨⟨hs.standard, hs.binds⟩, hs.depth⟩
  rw [evaluate_of_found _ hl rfl, Option.map_eq_some_iff] at run
  obtain ⟨⟨out, t⟩, run, ht⟩ := run
  have kept : (t.withControl s.state.control).state.hooks .postRun = [] := by
    have same : SameHooks (before.2.located directory) t :=
      (ofFuel_moves sameHooks_frame n).expand _ _ _ _ run
    exact (congrFun same .postRun).trans hooks
  rw [Stage.hooked_of_nil kept] at ht
  cases ht
  have expanded := (ofFuel_completes names n).expand hd before.1
  have first : JournalGrows s (before.2.located directory) :=
    journalGrows_congruence.applyHooks .preRun template.document.content
      (s.evaluating template.document.doctype) before.1 before.2 rfl
  have inner : JournalGrows (before.2.located directory) t := expanded.grows _ _ _ run
  have after : JournalGrows t
      { t with ledger := t.ledger.record (.hooked .postRun out) } := List.suffix_cons _ _
  have below : BelowLimit s t := (below.split (first.trans inner) after).1
  exact (expanded.leaves covers run (below.split first inner).2).2

/-- **Standard expansion is complete**: where nothing but texts, nodes, `apply`, `bind`,
`ignore` and bound tags is bound, expanding nodes ends, and if no splice was invoked at the
depth limit meanwhile, no element of what it gives, at any level, has a name that was bound
when it began. Without hooks behind a run, the same holds of the page that a template is
rendered to. -/
theorem standard_expansion_complete (s : Stage) (h : s.state.IsStandard)
    (depth : s.state.depth ≤ depthLimit) :
    (∀ nodes, ∃ out s', EndsIn (fun n => (ofFuel n).expand nodes) s out s' ∧
      (BelowLimit s s' → Free s.state.Binds out)) ∧
    (s.state.hooks .postRun = [] → ∀ name found, s.state.lookup name = some found →
      ∃ page s',
        EndsIn (fun n => (ofFuel n).render name) s (some (Rendered.ofDocument page)) s' ∧
          (BelowLimit s s' → Free s.state.Binds page.content)) := by
  refine ⟨fun nodes => ?_, fun hooks name ⟨template, directory⟩ hl => ?_⟩
  · obtain ⟨out, s', ends, -⟩ := expandsAt _ nodes s ⟨h, rfl⟩
    refine ⟨out, s', ends, fun below => ?_⟩
    obtain ⟨n, hn⟩ := ends
    have covers : CoversAt s.state.Binds s.state.depth s := ⟨⟨h, fun _ hb => hb⟩, rfl⟩
    exact (((ofFuel_completes s.state.Binds n).expand depth nodes).leaves covers
      (hn n (Nat.le_refl n)) below).2
  · let copy : Stage := { s with state := s.state.forRender }
    obtain ⟨found, t, ends, -⟩ := evaluate_ends 0 name copy ⟨h, rfl⟩
    obtain ⟨n, hn⟩ := ends
    have run : (ofFuel n).evaluate name copy = some (found, t) := hn n (Nat.le_refl n)
    obtain ⟨out, rfl⟩ := isSome_of_evaluate _ (s := copy) hl run
    refine ⟨{ template.document with content := out, doctype := t.state.doctypes.getLast? },
      { t with state := s.state }, ?_, fun below => ?_⟩
    · exact EndsIn.map ⟨n, hn⟩ (fun p => (p.1.map fun content => Rendered.ofDocument
        { template.document with content, doctype := p.2.state.doctypes.getLast? },
        { p.2 with state := s.state })) fun n => render_of_found _ hl
    · have covers : CoversAt s.state.Binds 0 copy := ⟨⟨h, fun _ hb => hb⟩, rfl⟩
      exact evaluate_leaves n covers (Nat.zero_le _) hooks hl run below

/-- A layout around the content of a page, with nothing else to see. -/
def layout : Markup.Document where
  format := .html
  content := [.element "main" [] [.element "content" [] []], .element "ignore" [] []]

/-- A page that puts a parameter into a box, inside the layout. -/
def boxedPage : Markup.Document where
  format := .html
  content :=
    [.element "bind" [⟨"tag", "box"⟩] [.element "p" [] [.element "content" [] []]],
      .element "apply" [⟨"template", "layout"⟩] [.element "box" [] [.element "title" [] []]]]

/-- The standard splices, the parameter and both templates. -/
def boxedStage : Stage where
  state :=
    ((State.standard.bind "title" (.text "T")).addTemplate "layout" layout).addTemplate "page"
      boxedPage

theorem boxedStage_complete :
    boxedStage.state.IsStandard ∧ ∃ page s',
      EndsIn (fun n => (ofFuel n).render "page") boxedStage (some (Rendered.ofDocument page)) s' ∧
        Free boxedStage.state.Binds page.content := by
  have h : boxedStage.state.IsStandard := State.standard_isStandard.bind "title" (.text "T")
  obtain ⟨page, s', ends, complete⟩ := (standard_expansion_complete boxedStage h (by decide)).2 rfl
    "page" _ rfl
  obtain ⟨rendered, t, run, room⟩ : ∃ rendered t,
      (ofFuel 12).render "page" boxedStage = some (rendered, t) ∧
        (t.ledger.journal.all fun | .invoked _ depth => depth < depthLimit | _ => true) = true :=
    ⟨_, _, rfl, rfl⟩
  obtain ⟨-, rfl⟩ := ends.unique (render_endsIn run)
  have below : BelowLimit boxedStage s' :=
    ⟨s'.ledger.journal, (List.append_nil _).symm, fun name mem => by
      have deeper := List.all_eq_true.mp room _ mem
      simp at deeper⟩
  exact ⟨h, page, s', ends, complete below⟩

end Engine

end Templating
