import Templating.Proofs.Expansion.Completeness

/-!
# The same run elsewhere

The standard splices look at the templates, the directory and the bindings of a state, and at
nothing else. So where only these splices are bound, a run does not notice how deep it is, nor
which doctypes were recorded before it, as long as it does not come to the depth limit: the same
run on a stage that is some levels less deep gives the same nodes, binds the same names and
records the same doctypes (`depth_shows_at_limit_only`).

Two stages of this kind differ by a shift (`State.Shifted`). That a run on the one is a run on the
other has to be said of its answer and of the stages it leaves at once (`Run.Tracks`), since
nothing is known of the second run but what the first one tells. What could part the two is the
depth limit, which the deeper one meets first. But it holds nothing back without a splice having
been invoked at the limit, and of that the journal of the first run tells (`Shift.Clear`). A shift
of no levels is clear anyhow: then both runs meet the limit together.
-/

namespace Templating

open Markup (Attribute Node)

/-! ### Stages that differ by a shift -/

/-- How one state differs from another: it is some levels less deep, and other doctypes were
recorded in it at the beginning. -/
structure Shift where
  levels : Nat
  /-- The doctypes of the deeper state at the beginning. -/
  doctypes : List String
  /-- The doctypes of the other state at the beginning. -/
  others : List String

/-- The state `σ` of standard splices is at the depth `d`, and `τ` is the same state but for the
shift. -/
structure State.Shifted (Δ : Shift) (d : Nat) (σ τ : State) : Prop where
  standard : σ.IsStandard
  templates : τ.templates = σ.templates
  splices : τ.splices = σ.splices
  context : τ.context = σ.context
  recursing : τ.recursing = σ.recursing
  hooks : τ.hooks = σ.hooks
  depth : σ.depth = d
  levels : τ.depth + Δ.levels = d
  doctypes : ∃ later, σ.doctypes = Δ.doctypes ++ later ∧ τ.doctypes = Δ.others ++ later

/-- The stage at another depth. -/
def Stage.atDepth (s : Stage) (depth : Nat) : Stage := { s with state := { s.state with depth } }

/-- The states of the stages differ by a shift. -/
def Stage.Shifted (Δ : Shift) (d : Nat) (s t : Stage) : Prop := s.state.Shifted Δ d t.state

namespace Stage.Shifted

variable {Δ : Shift} {d d' : Nat} {s t s' t' : Stage}

theorem withControl (h : s.Shifted Δ d t) (h' : s'.Shifted Δ d' t') :
    (s'.withControl s.state.control).Shifted Δ d (t'.withControl t.state.control) :=
  { h' with
    context := h.context, recursing := h.recursing, depth := h.depth, levels := h.levels }

theorem withSplices (h : s.Shifted Δ d t) (h' : s'.Shifted Δ d' t') :
    (s'.withSplices s.state.splices).Shifted Δ d' (t'.withSplices t.state.splices) :=
  { h' with standard := h.standard, splices := h.splices }

theorem entered (h : s.Shifted Δ d t) (name : String) :
    (s.entered name).Shifted Δ d (t.entered name) := { h with recursing := rfl }

theorem descended (h : s.Shifted Δ d t) : s.descended.Shifted Δ (d + 1) t.descended :=
  { h with
    depth := congrArg (· + 1) h.depth
    levels := (Nat.add_right_comm _ _ _).trans (congrArg (· + 1) h.levels) }

/-- Coming back from one level deeper. -/
theorem ascended (h : s.Shifted Δ d t) (h' : s'.Shifted Δ (d + 1) t') :
    s'.ascended.Shifted Δ d t'.ascended :=
  { h' with
    depth := congrArg (· - 1) h'.depth
    levels := by
      have first := h.levels
      have deeper := h'.levels
      have room : Δ.levels ≤ d := by omega
      simp only [Stage.ascended]
      omega }

theorem bind (h : s.Shifted Δ d t) (name : String) {splice : Splice} (hs : splice.IsStandard) :
    Shifted Δ d { s with state := s.state.bind name splice }
      { t with state := t.state.bind name splice } :=
  { h with
    standard := h.standard.bind name hs
    splices := congrArg (·.insert name splice) h.splices }

theorem addDoctypes (h : s.Shifted Δ d t) (bodies : List String) :
    Shifted Δ d { s with state := { s.state with doctypes := s.state.doctypes ++ bodies } }
      { t with state := { t.state with doctypes := t.state.doctypes ++ bodies } } := by
  obtain ⟨later, hs, ht⟩ := h.doctypes
  refine { h with doctypes := ⟨later ++ bodies, ?_, ?_⟩ }
  · rw [← List.append_assoc, ← hs]
  · rw [← List.append_assoc, ← ht]

end Stage.Shifted

/-- States are the same but for the depth and the doctypes, if all other parts are. -/
theorem State.eq_of_parts {σ τ : State} (templates : τ.templates = σ.templates)
    (splices : τ.splices = σ.splices) (hooks : τ.hooks = σ.hooks) (context : τ.context = σ.context)
    (recursing : τ.recursing = σ.recursing) :
    τ = { σ with depth := τ.depth, doctypes := τ.doctypes } := by
  have onLoad : τ.onLoad = σ.onLoad := congrFun hooks .onLoad
  have preRun : τ.preRun = σ.preRun := congrFun hooks .preRun
  have postRun : τ.postRun = σ.postRun := congrFun hooks .postRun
  rw [← templates, ← splices, ← context, ← recursing, ← onLoad, ← preRun, ← postRun]

/-- States that differ by a shift are the same but for the depth and the doctypes. -/
theorem State.Shifted.eq {Δ : Shift} {d : Nat} {σ τ : State} (h : σ.Shifted Δ d τ) :
    τ = { σ with depth := τ.depth, doctypes := τ.doctypes } :=
  State.eq_of_parts h.templates h.splices h.hooks h.context h.recursing

/-! ### Runs that the depth limit does not part -/

namespace Shift

variable (Δ : Shift)

/-- The depth is within the limit, if that matters. -/
def Within (d : Nat) : Prop := Δ.levels = 0 ∨ d ≤ depthLimit

/-- From the depth it is possible to go deeper, if that matters. -/
def Room (d : Nat) : Prop := Δ.levels = 0 ∨ d < depthLimit

/-- From the one stage to the other nothing has parted the two runs: there is nothing between
them, or no splice was invoked at the depth limit. -/
def Clear (s s' : Stage) : Prop := Δ.levels = 0 ∨ BelowLimit s s'

variable {Δ} {d : Nat} {s s' t : Stage}

theorem Room.within (h : Δ.Room d) : Δ.Within d := h.imp_right Nat.le_of_lt

theorem Room.deeper (h : Δ.Room d) : Δ.Within (d + 1) := h.imp_right Nat.succ_le_of_lt

theorem Clear.split (h : JournalGrows s t) (h' : JournalGrows t s') (clear : Δ.Clear s s') :
    Δ.Clear s t ∧ Δ.Clear t s' :=
  clear.elim (fun level => ⟨.inl level, .inl level⟩) fun below =>
    let ⟨first, later⟩ := below.split h h'
    ⟨.inr first, .inr later⟩

/-- Where a splice is invoked on the way, there is room to go deeper. -/
theorem Clear.room {name : String} (h : JournalGrows (s.entered name) s') (clear : Δ.Clear s s')
    (within : Δ.Within s.state.depth) : Δ.Room s.state.depth := by
  rcases clear with level | below
  · exact .inl level
  · exact within.imp_right fun limit => Nat.lt_of_le_of_ne limit (below.depth_ne h)

end Shift

namespace Run

variable {Δ : Shift} {α β : Type} {I J K : Stage → Stage → Prop} {d : Nat}

/-- Wherever the run answers on the first of two stages in `I`, and nothing parts the two, it
answers the same on the second one, and leaves stages in `J`. -/
structure Tracks (Δ : Shift) (I J : Stage → Stage → Prop) (r : Run α) : Prop where
  grows : Moves JournalGrows r
  tracks : ∀ {s t a s'}, I s t → r s = some (a, s') → Δ.Clear s s' →
    ∃ t', r t = some (a, t') ∧ J s' t'

/-- A run that tracks at a depth. -/
abbrev TracksAt (Δ : Shift) (d : Nat) (r : Run α) : Prop :=
  Tracks Δ (Stage.Shifted Δ d) (Stage.Shifted Δ d) r

theorem tracks_failure : Tracks Δ I J (failure : Run α) := ⟨moves_failure, fun _ h => nomatch h⟩

theorem tracks_pure (a : α) : Tracks Δ I I (pure a) where
  grows := moves_pure a
  tracks hs run _ := by
    cases run
    exact ⟨_, rfl, hs⟩

theorem Tracks.bind {r : Run α} {f : α → Run β} (hr : Tracks Δ I J r)
    (hf : ∀ a, Tracks Δ J K (f a)) : Tracks Δ I K (r >>= f) where
  grows := hr.grows.bind fun a => (hf a).grows
  tracks {s t b s''} hs run clear := by
    obtain ⟨a, s', first, rest⟩ := bind_eq_some.mp run
    obtain ⟨here, later⟩ := clear.split (hr.grows s a s' first) ((hf a).grows s' b s'' rest)
    obtain ⟨t', first', hs'⟩ := hr.tracks hs first here
    obtain ⟨t'', rest', hs''⟩ := (hf a).tracks hs' rest later
    exact ⟨t'', bind_eq_some.mpr ⟨a, t', first', rest'⟩, hs''⟩

theorem tracksAt_chaining : Chaining fun _ r _ => TracksAt Δ d r where
  pure := tracks_pure
  bind := Tracks.bind

theorem tracks_modifyState {f : State → State}
    (h : ∀ {s t : Stage}, s.Shifted Δ d t →
      Stage.Shifted Δ d { s with state := f s.state } { t with state := f t.state }) :
    TracksAt Δ d (modifyState f) where
  grows := moves_modifyState fun _ => List.suffix_refl _
  tracks hs run _ := by
    cases run
    exact ⟨_, rfl, h hs⟩

theorem Tracks.keepingSplices {r : Run α} (h : TracksAt Δ d r) :
    TracksAt Δ d (keepingSplices r) where
  grows := @Congruence.keepingSplices _ journalGrows_congruence _ _ r h.grows
  tracks {s t a s'} hs run clear := by
    rw [keepingSplices_apply, Option.map_eq_some_iff] at run
    obtain ⟨⟨a, u⟩, run, same⟩ := run
    cases same
    obtain ⟨v, run', hv⟩ := h.tracks hs run clear
    refine ⟨v.withSplices t.state.splices, ?_, hs.withSplices hv⟩
    rw [keepingSplices_apply, run']
    rfl

end Run

namespace Engine

open Run

/-- The calls of the engine track, if nothing but standard splices is called. -/
structure Follows (Δ : Shift) (e : Engine) : Prop where
  grows : e.Related (fun _ r _ => Moves JournalGrows r) e
  expand : ∀ {d}, Δ.Within d → ∀ nodes, TracksAt Δ d (e.expand nodes)
  call : ∀ {d}, Δ.Room d → ∀ {splice : Splice}, splice.IsStandard → ∀ node,
    TracksAt Δ d (e.call splice node)

section

variable {Δ : Shift} {e : Engine} {d : Nat}

/-- What a script does with what it sees of a state tracks, if it looks at nothing that the shift
changes. -/
theorem look_tracks {next : View → Script}
    (same : ∀ {σ τ : State}, σ.Shifted Δ d τ → next τ.view = next σ.view)
    (h : ∀ view, TracksAt Δ d (e.perform (next view))) :
    TracksAt Δ d (e.perform (.look next)) where
  grows := moves_state.bind fun σ => (h σ.view).grows
  tracks {s t out s'} hs run clear := by
    obtain ⟨t', run', hs'⟩ := (h s.state.view).tracks hs run clear
    rw [← same hs] at run'
    exact ⟨t', run', hs'⟩

variable (f : Follows Δ e)

include f

/-! ### Scripts -/

/-- Where there is room, nodes are expanded one level deeper on both stages, or on neither. -/
theorem descend_tracks (room : Δ.Room d) (nodes : List Node) : TracksAt Δ d (e.descend nodes) where
  grows := descend_related journalGrows_congruence f.grows nodes
  tracks {s t out s'} hs run clear := by
    have levels := hs.levels
    by_cases hd : s.state.depth < depthLimit
    · rw [e.descend_of_lt nodes hd, Option.map_eq_some_iff] at run
      obtain ⟨⟨out, u⟩, run, same⟩ := run
      cases same
      have deeper := f.expand room.deeper nodes
      have down : JournalGrows s s.descended := List.suffix_cons _ _
      have inner : JournalGrows s.descended u := deeper.grows _ _ _ run
      have up : JournalGrows u u.ascended := List.suffix_cons _ _
      have clear := (clear.split (down.trans inner) up).1
      obtain ⟨v, run', hv⟩ := deeper.tracks hs.descended run (clear.split down inner).2
      refine ⟨v.ascended, ?_, hs.ascended hv⟩
      rw [e.descend_of_lt nodes (by rw [hs.depth] at hd; omega), run']
      rfl
    · rw [e.descend_of_le nodes (Nat.not_lt.mp hd)] at run
      cases run
      -- At the limit there is room only for a shift of no levels: both stages are at the limit.
      have level : Δ.levels = 0 := room.resolve_right (hs.depth ▸ hd)
      refine ⟨t.refused, e.descend_of_le nodes ?_, hs⟩
      rw [hs.depth] at hd
      omega

theorem expandBody_tracks (room : Δ.Room d) (context : Path) (body content : List Node) :
    TracksAt Δ d (e.perform (Splice.expandBody context body content)) := by
  refine (tracks_modifyState fun hs => { hs with context := rfl }).bind fun _ => ?_
  refine Tracks.bind (Tracks.keepingSplices ?_) fun out => tracks_pure out
  refine (tracks_modifyState fun hs => hs.bind _ (.nodes content)).bind fun _ => ?_
  exact (descend_tracks f room body).bind fun out => tracks_pure out

/-- What a standard splice does tracks, where there is room. -/
theorem perform_tracks (room : Δ.Room d) {splice : Splice} (h : splice.IsStandard) (node : Node) :
    TracksAt Δ d (e.perform (splice node)) := by
  have stop {script : Script} (next : TracksAt Δ d (e.perform script)) :
      TracksAt Δ d (e.perform (.stop script)) :=
    (tracks_modifyState fun hs => { hs with recursing := rfl }).bind fun _ => next
  have expand (nodes : List Node) {next : List Node → Script}
      (rest : ∀ out, TracksAt Δ d (e.perform (next out))) :
      TracksAt Δ d (e.perform (.expand nodes next)) := (f.expand room.within nodes).bind rest
  cases h with
  | text value => exact tracks_pure _
  | nodes ns => exact tracks_pure _
  | ignore => exact tracks_pure _
  | boundTag context body =>
    exact stop (expand _ fun content => expandBody_tracks f room context body content)
  | bind =>
    refine stop ?_
    cases node.attribute? "tag" with
    | none => exact tracks_pure _
    | some tag =>
      refine look_tracks (fun hs => by simp only [State.view, hs.context]) fun view => ?_
      refine (tracks_modifyState fun hs => hs.bind tag (.boundTag view.context _)).bind
        fun _ => tracks_pure _
  | apply =>
    refine stop ?_
    cases node.attribute? "template" with
    | none => exact tracks_pure _
    | some name =>
      refine expand _ fun content => look_tracks (fun hs => ?_) fun view => ?_
      · simp only [State.view, hs.templates, hs.context]
      · split
        · exact tracks_pure _
        · rename_i template directory _
          have body := expandBody_tracks f room directory template.document.content content
          cases template.document.doctype with
          | none => exact body
          | some doctype =>
            exact (tracks_modifyState fun hs => hs.addDoctypes [doctype]).bind fun _ => body

/-! ### Elements -/

theorem placeholder_tracks (within : Δ.Within d) (name : String) :
    TracksAt Δ d (e.placeholder name) where
  grows := placeholder_related journalGrows_congruence f.grows name
  tracks {s t found s'} hs run clear := by
    cases hb : s.state.splices.get? name with
    | none =>
      rw [e.placeholder_of_unbound hb] at run
      cases run
      exact ⟨t, e.placeholder_of_unbound (hs.splices ▸ hb), hs⟩
    | some splice =>
      rw [e.placeholder_of_bound hb, Option.map_eq_some_iff] at run
      obtain ⟨⟨out, u⟩, run, same⟩ := run
      cases same
      have entered : JournalGrows s (s.entered name) := List.suffix_cons _ _
      have called : JournalGrows (s.entered name) u := f.grows.call splice _ _ _ u run
      have room : Δ.Room d := hs.depth ▸ clear.room called (hs.depth ▸ within)
      obtain ⟨v, run', hv⟩ := (f.call room (hs.standard name splice hb) _).tracks
        (hs.entered name) run (clear.split entered called).2
      refine ⟨v.withControl t.state.control, ?_, hs.withControl hv⟩
      rw [e.placeholder_of_bound (hs.splices ▸ hb), run']
      rfl

/-- The result of a splice is expanded one level deeper on both stages, or on neither. -/
theorem expandResult_tracks (room : Δ.Room d) (result : List Node) :
    Tracks Δ (Stage.Shifted Δ d) (fun s t => ∃ d', s.Shifted Δ d' t) (e.expandResult result) where
  grows := expandResult_related journalGrows_congruence f.grows result
  tracks {s t out s'} hs run clear := by
    have levels := hs.levels
    cases hr : s.state.recursing with
    | false =>
      rw [e.expandResult_of_stopped result hr] at run
      cases run
      exact ⟨t, e.expandResult_of_stopped result (hs.recursing.trans hr), d, hs⟩
    | true =>
      have hr' : t.state.recursing = true := hs.recursing.trans hr
      by_cases hd : s.state.depth < depthLimit
      · rw [e.expandResult_of_lt result hr hd] at run
        have deeper := f.expand room.deeper result
        have down : JournalGrows s s.descended := List.suffix_cons _ _
        have clear := (clear.split down (deeper.grows _ _ _ run)).2
        obtain ⟨v, run', hv⟩ := deeper.tracks hs.descended run clear
        refine ⟨v, ?_, d + 1, hv⟩
        rw [e.expandResult_of_lt result hr' (by rw [hs.depth] at hd; omega), run']
      · rw [e.expandResult_of_le result hr (Nat.not_lt.mp hd)] at run
        cases run
        have level : Δ.levels = 0 := room.resolve_right (hs.depth ▸ hd)
        refine ⟨t.refused, e.expandResult_of_le result hr' ?_, d, hs⟩
        rw [hs.depth] at hd
        omega

theorem invoke_tracks (within : Δ.Within d) (name : String) {splice : Splice}
    (h : splice.IsStandard) (node : Node) : TracksAt Δ d (e.invoke name splice node) where
  grows := invoke_related journalGrows_congruence f.grows name splice node
  tracks {s t out s'} hs run clear := by
    rw [e.invoke_apply, Option.map_eq_some_iff] at run
    obtain ⟨⟨out, u⟩, run, same⟩ := run
    cases same
    have run : (e.call splice node >>= e.expandResult) (s.entered name) = some (out, u) := run
    have entered : JournalGrows s (s.entered name) := List.suffix_cons _ _
    have body : JournalGrows (s.entered name) u :=
      ((f.grows.call splice node).bind fun result =>
        expandResult_related journalGrows_congruence f.grows result) _ _ _ run
    have room : Δ.Room d := hs.depth ▸ clear.room body (hs.depth ▸ within)
    obtain ⟨v, run', d', hv⟩ := ((f.call room h node).bind (expandResult_tracks f room)).tracks
      (hs.entered name) run (clear.split entered body).2
    have run' : (e.call splice node (t.entered name)).bind (fun p => e.expandResult p.1 p.2) =
      some (out, v) := run'
    refine ⟨v.withControl t.state.control, ?_, hs.withControl hv⟩
    rw [e.invoke_apply, run']
    rfl

theorem replace_tracks (within : Δ.Within d) (name : String) (node : Node)
    {rebuilt : Run (List Node)} (h : TracksAt Δ d rebuilt) :
    TracksAt Δ d (e.replace name node rebuilt) where
  grows := @replace_related _ moves_sequential e e
    (invoke_related journalGrows_congruence f.grows) name node rebuilt rebuilt h.grows
  tracks {s t out s'} hs run clear := by
    rw [replace_apply] at run
    simp only [replace_apply, hs.splices]
    cases hb : s.state.splices.get? name with
    | none =>
      rw [hb] at run
      exact h.tracks hs run clear
    | some splice =>
      rw [hb] at run
      exact (invoke_tracks f within name (hs.standard name splice hb) node).tracks hs run clear

theorem Follows.next : Follows Δ e.next where
  grows := Related.next journalGrows_congruence f.grows
  expand within := @expandNodes_walk _ tracksAt_chaining e e (placeholder_tracks f within)
    fun name node _ _ h => replace_tracks f within name node h
  call room _ h node := perform_tracks f room h node

end

theorem ofFuel_follows (Δ : Shift) : ∀ n, Follows Δ (ofFuel n)
  | 0 =>
    { grows := ofFuel_moves journalGrows_frame 0
      expand := fun _ _ => tracks_failure
      call := fun _ _ _ _ => tracks_failure }
  | n + 1 => (ofFuel_follows Δ n).next

/-- What a run of standard splices ends in, it ends in on a shifted stage. -/
theorem expand_endsIn_shifted {Δ : Shift} {s t s' : Stage} {nodes out : List Node}
    (hs : s.Shifted Δ s.state.depth t) (within : Δ.Within s.state.depth)
    (ends : EndsIn (fun n => (ofFuel n).expand nodes) s out s') (clear : Δ.Clear s s') :
    ∃ t', EndsIn (fun n => (ofFuel n).expand nodes) t out t' ∧
      s'.Shifted Δ s.state.depth t' := by
  obtain ⟨n, hn⟩ := ends
  obtain ⟨t', run, hs'⟩ :=
    ((ofFuel_follows Δ n).expand within nodes).tracks hs (hn n (Nat.le_refl n)) clear
  exact ⟨t', expand_endsIn run, hs'⟩

/-! ### The same run at another depth -/

/-- **The depth shows at the limit only.** Where nothing but standard splices is bound, expanding
nodes ends. If no splice is invoked at the depth limit meanwhile, it ends in the same nodes at
every lesser depth, and in the same state but for the depth: with the same splices bound and the
same doctypes recorded. -/
theorem depth_shows_at_limit_only (s : Stage) (standard : s.state.IsStandard)
    (limit : s.state.depth ≤ depthLimit) (nodes : List Node) :
    ∃ out s', EndsIn (fun n => (ofFuel n).expand nodes) s out s' ∧
      s'.state.depth = s.state.depth ∧
      (BelowLimit s s' → ∀ d ≤ s.state.depth, ∃ t',
        EndsIn (fun n => (ofFuel n).expand nodes) (s.atDepth d) out t' ∧
          t'.state = { s'.state with depth := d }) := by
  obtain ⟨out, s', ends, -, depth⟩ := expandsAt _ nodes s ⟨standard, rfl⟩
  refine ⟨out, s', ends, depth, fun below d hd => ?_⟩
  let Δ : Shift := ⟨s.state.depth - d, s.state.doctypes, s.state.doctypes⟩
  have start : s.Shifted Δ s.state.depth (s.atDepth d) :=
    { standard := standard, templates := rfl, splices := rfl, context := rfl, recursing := rfl,
      hooks := rfl, depth := rfl, levels := Nat.add_sub_cancel' hd
      doctypes := ⟨[], by simp [Δ], by simp [Δ, Stage.atDepth]⟩ }
  obtain ⟨t', ends', after⟩ := expand_endsIn_shifted start (.inr limit) ends (.inr below)
  refine ⟨t', ends', ?_⟩
  have levels : t'.state.depth + (s.state.depth - d) = s.state.depth := after.levels
  have level : t'.state.depth = d := by omega
  obtain ⟨later, here, there⟩ := after.doctypes
  have doctypes : t'.state.doctypes = s'.state.doctypes := there.trans here.symm
  rw [after.eq, level, doctypes]

/-- A note that is bound, and used inside of a frame. -/
def framedNote : List Node :=
  [.element "bind" [⟨"tag", "note"⟩]
      [.element "p" [⟨"title", "$(title)"⟩] [.element "content" [] []]],
    .element "apply" [⟨"template", "frame"⟩] [.element "note" [] [.element "title" [] []]]]

/-- A stage three levels above the depth limit, with a title and the frame. -/
def lowStage : Stage where
  state :=
    { (State.standard.bind "title" (.text "T")).addTemplate "frame"
        { format := .html
          doctype := some "html"
          content := [.element "main" [] [.element "content" [] []]] } with
      depth := 47 }

theorem framedNote_embedded :
    lowStage.state.IsStandard ∧ lowStage.state.depth ≤ depthLimit ∧
      ∃ s' t', BelowLimit lowStage s' ∧
        EndsIn (fun n => (ofFuel n).expand framedNote) lowStage
          [.element "main" [] [.element "p" [⟨"title", "T"⟩] [.text "T"]]] s' ∧
        EndsIn (fun n => (ofFuel n).expand framedNote) (lowStage.atDepth 0)
          [.element "main" [] [.element "p" [⟨"title", "T"⟩] [.text "T"]]] t' ∧
        t'.state = { s'.state with depth := 0 } := by
  have standard : lowStage.state.IsStandard := State.standard_isStandard.bind "title" (.text "T")
  have limit : lowStage.state.depth ≤ depthLimit := by decide
  obtain ⟨out, s', ends, -, alike⟩ := depth_shows_at_limit_only lowStage standard limit framedNote
  have direct : ((ofFuel 12).expand framedNote lowStage).map (fun p => (p.1,
      p.2.ledger.journal.all fun | .invoked _ depth => depth < depthLimit | _ => true)) =
      some ([.element "main" [] [.element "p" [⟨"title", "T"⟩] [.text "T"]]], true) := by
    decide +kernel
  obtain ⟨⟨_, t⟩, run, same⟩ := Option.map_eq_some_iff.mp direct
  obtain ⟨rfl, room⟩ := Prod.mk.inj same
  obtain ⟨rfl, rfl⟩ := ends.unique (expand_endsIn run)
  have below : BelowLimit lowStage s' :=
    ⟨s'.ledger.journal, (List.append_nil _).symm, fun name mem => by
      have deeper := List.all_eq_true.mp room _ mem
      simp at deeper⟩
  obtain ⟨t', ends', state⟩ := alike below 0 (Nat.zero_le _)
  exact ⟨standard, limit, s', t', below, ends, ends', state⟩

end Engine

end Templating
