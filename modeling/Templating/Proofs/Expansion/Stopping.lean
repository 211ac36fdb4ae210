import Templating.Proofs.Expansion.Control
import Templating.Proofs.Expansion.Fuel

/-!
# Stopping

Whether the result of a splice is expanded is one flag in the state. All invocations that are
under way share it: each sets it when it begins, and a splice that stops clears it. And yet the
flag that a splice leaves is a matter of its own code alone (`perform_recursing_iff`). What
counts is that the script stops, in a scope that it opens or in a splice that it calls as a part
of itself (`StopsItself`); whatever it has the engine do — expanding nodes, filling a value,
evaluating a template — puts the flag back, however the splices invoked there have left it, and
whether the script has stopped before or stops after (`request_recursing_of_delegates`).

The flag decides over this one result only. A stopped result stands as it is, and nothing more is
invoked. One that is not stopped is expanded one level deeper, in the directory and with the
bindings that its splice has left. Either way what follows the element is expanded in the
directory, under the flag and at the depth from before it (`stopping_total_and_local`).
-/

namespace Templating

open Markup (Attribute Node)

/-- The stage when a splice has called the splice of a name as a part of itself. -/
def Stage.called (s : Stage) (name : String) : Stage :=
  { s with ledger := s.ledger.record (.called name s.state.depth) }

/-- The script begins with a request on which the engine expands or fills something. -/
def Script.Delegates : Script → Prop
  | .expand _ _ | .descend _ _ | .substitute _ _ | .evaluate _ _ | .evaluateWith _ _ _ => True
  | _ => False

namespace Engine

open Run

/-! ### One request after the other -/

/-- Makes the first request of a script, and gives the script that is left. -/
def request (e : Engine) : Script → Run Script
  | .done _ => failure
  | .stop next => do
    Run.modifyState fun σ => { σ with recursing := false }
    return next
  | .setContext context next => do
    Run.modifyState fun σ => { σ with context }
    return next
  | .addDoctype body next => do
    Run.modifyState fun σ => { σ with doctypes := σ.doctypes ++ [body] }
    return next
  | .bind name splice next => do
    Run.modifyState (·.bind name splice)
    return next
  | .look next => do
    let σ ← Run.state
    return next σ.view
  | .newCell next => do
    let cell ← Run.newCell
    return next cell
  | .tick cell next => do
    let n ← Run.tick cell
    return next n
  | .expand nodes next => do
    let out ← e.expand nodes
    return next out
  | .descend nodes next => do
    let out ← e.descend nodes
    return next out
  | .substitute raw next => do
    let value ← e.substitute raw
    return next value
  | .evaluate name next => do
    let found ← e.evaluate name
    return next found
  | .evaluateWith name args next => do
    let found ← e.evaluateWith name args
    return next found
  | .call name node next => do
    let found ← e.callBound name node
    return next found
  | .scope inner next => do
    let out ← Run.keepingSplices (e.perform inner)
    return next out

/-- Performing a script is making its first request and performing what is left. -/
theorem perform_eq_request (e : Engine) {script : Script} (h : ∀ nodes, script ≠ .done nodes) :
    e.perform script = e.request script >>= e.perform := by
  cases script with
  | done nodes => exact absurd rfl (h nodes)
  | _ => simp [perform, request]

theorem Related.request {e e' : Engine} (h : e.Related (fun _ => Below) e') (script : Script) :
    Below (e.request script) (e'.request script) := by
  have c := below_congruence
  have again {α : Type} {r r' : Run α} {next : α → Script} (below : Below r r') :
      Below (r >>= fun a => pure (next a)) (r' >>= fun a => pure (next a)) :=
    below.bind fun _ => .refl _
  cases script with
  | expand nodes next => exact again (h.expand nodes)
  | descend nodes next => exact again (descend_related c h nodes)
  | substitute raw next => exact again (substitute_related c h raw)
  | evaluate name next => exact again (evaluate_related c h name)
  | evaluateWith name args next => exact again (evaluateWith_level c.level h name args)
  | call name node next => exact again (callBound_plain c.level.plain h name node)
  | scope inner next => exact again (c.keepingSplices (perform_related c h inner))
  | _ => exact .refl _

theorem request_endsIn {n : Nat} {script rest : Script} {s t : Stage}
    (h : (ofFuel n).request script s = some (rest, t)) :
    EndsIn (fun n => (ofFuel n).request script) s rest t :=
  endsIn_of_below (fun more => (ofFuel_below more).request script) h

/-! ### Scripts that stop -/

mutual

/-- The first request of the script, made on this stage, stops. -/
inductive StopsFirst : Script → Stage → Prop where
  | stop {next : Script} {s : Stage} : StopsFirst (.stop next) s
  | inScope {inner : Script} {next : List Node → Script} {s : Stage} (stops : StopsItself inner s) :
      StopsFirst (.scope inner next) s
  | inCall {name : String} {node : Node} {next : Option (List Node) → Script} {splice : Splice}
      {s : Stage} (bound : s.state.splices.get? name = some splice)
      (stops : StopsItself (splice node) (s.called name)) : StopsFirst (.call name node next) s

/-- Performed on this stage, the script stops: itself, in a scope that it opens or in a splice
that it calls as a part of itself. What the engine invokes for it does not count. -/
inductive StopsItself : Script → Stage → Prop where
  | first {script : Script} {s : Stage} (stops : StopsFirst script s) : StopsItself script s
  | later {script rest : Script} {s t : Stage}
      (asked : EndsIn (fun n => (ofFuel n).request script) s rest t)
      (stops : StopsItself rest t) : StopsItself script s

end

theorem stopsItself_iff {script rest : Script} {s t : Stage}
    (asked : EndsIn (fun n => (ofFuel n).request script) s rest t) :
    StopsItself script s ↔ StopsFirst script s ∨ StopsItself rest t := by
  constructor
  · rintro (first | ⟨asked', later⟩)
    · exact .inl first
    · obtain ⟨rfl, rfl⟩ := asked.unique asked'
      exact .inr later
  · exact fun h => h.elim .first (.later asked)

theorem not_stopsItself_done {nodes : List Node} {s : Stage} : ¬ StopsItself (.done nodes) s := by
  rintro (first | ⟨asked, -⟩)
  · cases first
  · exact not_endsIn_of_eq_none (fun _ => rfl) asked

/-! ### The flag that a script leaves -/

/-- Two stages with the same flag. -/
def SameFlag (s t : Stage) : Prop := t.state.recursing = s.state.recursing

theorem SameFlag.of_control {α : Type} {r : Run α} (h : Moves SameControl r) : Moves SameFlag r :=
  h.imp (congrArg Control.recursing)

/-- What the engine does for a script puts the flag back. -/
theorem request_recursing_of_delegates {script : Script} (h : script.Delegates) (n : Nat) :
    Moves SameFlag ((ofFuel n).request script) := by
  have again {α : Type} {r : Run α} {next : α → Script} (moves : Moves SameControl r) :
      Moves SameFlag (r >>= fun a => pure (next a)) :=
    .of_control (moves.bind fun _ => moves_pure _)
  have keeps := ofFuel_expand_moves n
  cases script with
  | expand nodes next => exact again (keeps nodes)
  | descend nodes next => exact again ((ofFuel n).descend_moves keeps nodes)
  | substitute raw next => exact again ((ofFuel n).substitute_moves raw)
  | evaluate name next => exact again ((ofFuel n).evaluate_moves name)
  | evaluateWith name args next => exact again ((ofFuel n).evaluateWith_moves name args)
  | _ => exact h.elim

/-- With fuel `n`, the script leaves the flag cleared if and only if it was so or the script
stops. -/
def TellsFlag (n : Nat) (script : Script) : Prop :=
  ∀ s out u, (ofFuel n).perform script s = some (out, u) →
    (u.state.recursing = false ↔ s.state.recursing = false ∨ StopsItself script s)

section

variable {n : Nat} {script : Script} (unfinished : ∀ nodes, script ≠ .done nodes)
  (ih : ∀ s rest t, (ofFuel n).request script s = some (rest, t) → TellsFlag n rest)

include unfinished ih

theorem TellsFlag.of_first
    (first : ∀ s rest t, (ofFuel n).request script s = some (rest, t) →
      (t.state.recursing = false ↔ s.state.recursing = false ∨ StopsFirst script s)) :
    TellsFlag n script := by
  intro s out u run
  rw [(ofFuel n).perform_eq_request unfinished] at run
  obtain ⟨rest, t, asked, later⟩ := bind_eq_some.mp run
  rw [stopsItself_iff (request_endsIn asked), ih s rest t asked t out u later,
    first s rest t asked, or_assoc]

/-- A first request that keeps the flag tells nothing. -/
theorem TellsFlag.of_sameFlag (keeps : Moves SameFlag ((ofFuel n).request script))
    (never : ∀ s, ¬ StopsFirst script s) : TellsFlag n script := by
  refine of_first unfinished ih fun s rest t asked => ?_
  rw [show t.state.recursing = s.state.recursing from keeps s rest t asked, or_iff_left (never s)]

end

/-- What is left of a script by its first request is what follows an answer. -/
theorem tellsFlag_of_answer {n : Nat} {α : Type} {r : Run α} {next : α → Script}
    (ih : ∀ a, TellsFlag n (next a)) (s : Stage) (rest : Script) (t : Stage)
    (asked : (r >>= fun a => pure (next a)) s = some (rest, t)) : TellsFlag n rest := by
  obtain ⟨a, u, -, same⟩ := bind_eq_some.mp asked
  cases same
  exact ih a

/-- A splice that is called tells by the flag whether it stops. -/
theorem callBound_recursing_iff {n : Nat} {name : String} {node : Node}
    {next : Option (List Node) → Script} {s t : Stage} {found : Option (List Node)}
    (calls : ∀ m < n, ∀ script, TellsFlag m script)
    (run : (ofFuel n).callBound name node s = some (found, t)) :
    t.state.recursing = false ↔
      s.state.recursing = false ∨ StopsFirst (.call name node next) s := by
  cases hb : s.state.splices.get? name with
  | none =>
    have never : ¬ StopsFirst (.call name node next) s := by
      rintro ⟨⟩
      simp_all
    simp only [callBound, bind_apply, state_apply, Option.bind_some, hb] at run
    cases run
    rw [or_iff_left never]
  | some splice =>
    simp only [callBound, bind_apply, state_apply, Option.bind_some, hb, record_apply] at run
    obtain ⟨⟨out, u⟩, called, same⟩ := Option.bind_eq_some_iff.mp run
    cases same
    have stops : StopsFirst (.call name node next) s ↔ StopsItself (splice node) (s.called name) := by
      constructor
      · rintro (_ | _ | ⟨bound, stops⟩)
        obtain rfl := Option.some.inj (hb.symm.trans bound)
        exact stops
      · exact .inCall hb
    rw [stops]
    cases n with
    | zero => cases called
    | succ m => exact calls m (Nat.lt_succ_self m) (splice node) (s.called name) out u called

/-- **The flag that a splice leaves** is cleared if and only if it was so or the script stops. The
induction is on fuel, for the splices that it calls, and along the script. -/
theorem perform_recursing_iff (n : Nat) (script : Script) : TellsFlag n script := by
  induction n using Nat.strongRecOn generalizing script with
  | ind n calls =>
    induction script with
    | done nodes =>
      intro s out u run
      cases run
      rw [or_iff_left not_stopsItself_done]
    | stop next ih =>
      refine .of_first nofun (tellsFlag_of_answer fun _ => ih) fun s rest t asked => ?_
      cases asked
      exact iff_of_true rfl (.inr .stop)
    | setContext _ _ ih | addDoctype _ _ ih | bind _ _ _ _ ih =>
      refine .of_sameFlag nofun (tellsFlag_of_answer fun _ => ih) (fun s _ t asked => ?_) nofun
      cases asked
      rfl
    | look _ ih | newCell _ ih | tick _ _ ih =>
      refine .of_sameFlag nofun (tellsFlag_of_answer fun _ => ih _) (fun s _ t asked => ?_) nofun
      cases asked
      rfl
    | expand _ _ ih | descend _ _ ih | substitute _ _ ih | evaluate _ _ ih
    | evaluateWith _ _ _ ih =>
      refine .of_sameFlag nofun (tellsFlag_of_answer ih) (request_recursing_of_delegates ?_ n) nofun
      trivial
    | call name node next ih =>
      refine .of_first nofun (tellsFlag_of_answer ih) fun s rest t asked => ?_
      obtain ⟨found, u, answered, same⟩ := bind_eq_some.mp asked
      cases same
      exact callBound_recursing_iff calls answered
    | scope inner next ihInner ih =>
      refine .of_first nofun (tellsFlag_of_answer ih) fun s rest t asked => ?_
      obtain ⟨out, v, answered, same⟩ := bind_eq_some.mp asked
      cases same
      rw [keepingSplices_apply, Option.map_eq_some_iff] at answered
      obtain ⟨⟨out', u⟩, inside, same⟩ := answered
      cases same
      have stops : StopsFirst (.scope inner next) s ↔ StopsItself inner s :=
        ⟨fun | .inScope stops => stops, .inScope⟩
      rw [stops]
      exact ihInner s out' u inside

/-! ### The depth that a splice leaves -/

/-- Two stages at the same depth. -/
def SameDepth (s t : Stage) : Prop := t.state.depth = s.state.depth

instance : IsPreorder Stage SameDepth where
  refl _ := rfl
  trans _ _ _ h h' := Eq.trans h' h

theorem sameDepth_level : Level fun _ r _ => Moves SameDepth r where
  toSequential := moves_sequential
  change _ keeps := moves_modifyState fun s => keeps s.state
  invoked _ := moves_record fun _ => rfl
  called _ := moves_record fun _ => rfl
  newCell := fun _ _ _ h => by
    cases h
    rfl
  tick _ := fun _ _ _ h => by
    cases h
    rfl
  applyHooks _ _ := moves_applyHooks fun _ _ => rfl
  keepingControl _ := (moves_keepingControl _).imp (congrArg Control.depth)
  keepingSplices h := by
    intro s a t run
    rw [keepingSplices_apply, Option.map_eq_some_iff] at run
    obtain ⟨⟨a', u⟩, run, same⟩ := run
    cases same
    exact h s a' u run

theorem SameDepth.of_control {α : Type} {r : Run α} (h : Moves SameControl r) :
    Moves SameDepth r := h.imp (congrArg Control.depth)

/-- No request changes the depth. -/
theorem perform_moves_depth {e : Engine} (keeps : ∀ nodes, Moves SameControl (e.expand nodes))
    (calls : ∀ splice node, Moves SameDepth (e.call splice node)) (script : Script) :
    Moves SameDepth (e.perform script) := by
  have related : e.Related (fun _ r _ => Moves SameDepth r) e :=
    ⟨fun nodes => .of_control (keeps nodes), calls⟩
  exact perform_level sameDepth_level related (fun nodes => .of_control (e.descend_moves keeps nodes))
    script

theorem ofFuel_call_moves_depth : ∀ n splice node, Moves SameDepth ((ofFuel n).call splice node)
  | 0, _, _ => moves_failure
  | n + 1, splice, node =>
    perform_moves_depth (ofFuel_expand_moves n) (ofFuel_call_moves_depth n) (splice node)

/-! ### The element and what follows it -/

theorem expand_cons (n : Nat) (node : Node) (nodes : List Node) :
    (ofFuel n).expand (node :: nodes) = (ofFuel n).expand [node] >>= fun out =>
      (ofFuel n).expand nodes >>= fun rest => pure (out ++ rest) := by
  cases n with
  | zero => rfl
  | succ n =>
    change (ofFuel n).expandNodes (node :: nodes) = (ofFuel n).expandNodes [node] >>= _
    simp [expandNodes]
    rfl

/-- Nodes are expanded in order, and each expansion begins with the control state that the one
before it began with. -/
theorem expand_cons_endsIn {node : Node} {nodes out : List Node} {s s' : Stage} :
    EndsIn (fun n => (ofFuel n).expand (node :: nodes)) s out s' ↔
      ∃ first v rest, EndsIn (fun n => (ofFuel n).expand [node]) s first v ∧
        v.state.control = s.state.control ∧ EndsIn (fun n => (ofFuel n).expand nodes) v rest s' ∧
        out = first ++ rest := by
  have grow (nodes : List Node) {n m : Nat} (more : n ≤ m) :
      Below ((ofFuel n).expand nodes) ((ofFuel m).expand nodes) := (ofFuel_below more).expand nodes
  simp only [expand_cons _ node nodes]
  rw [endsIn_bind_iff (grow [node]) fun more out => (grow nodes more).bind fun _ => .refl _]
  constructor
  · rintro ⟨first, v, here, n, hn⟩
    obtain ⟨rest, w, behind, same⟩ := bind_eq_some.mp (hn n (Nat.le_refl n))
    cases same
    obtain ⟨k, hk⟩ := here
    have control := ofFuel_expand_moves k [node] s first v (hk k (Nat.le_refl k))
    exact ⟨first, v, rest, ⟨k, hk⟩, control, expand_endsIn behind, rfl⟩
  · rintro ⟨first, v, rest, here, -, behind, rfl⟩
    exact ⟨first, v, here, behind.bind (endsIn_of_eq fun _ => rfl)⟩

section

variable {s t u : Stage} {name : String} {splice : Splice} {as as' : List Attribute}
  {cs result : List Node}
  (filled : EndsIn (fun n => (ofFuel n).attributes as) s as' t)
  (bound : t.state.splices.get? name = some splice)
  (returned : EndsIn (fun n => (ofFuel n).perform (splice (.element name as' cs)))
    (t.entered name) result u)

include filled bound returned

/-- With enough fuel, an element is replaced by what becomes of the result of its splice. -/
theorem expand_bound_eq : ∃ N, ∀ n, N ≤ n →
    (ofFuel (n + 1)).expand [.element name as cs] s =
      ((ofFuel n).expandResult result u).map fun p => (p.1, p.2.withControl s.state.control) := by
  obtain ⟨j, hj⟩ := filled
  obtain ⟨k, hk⟩ := returned
  refine ⟨max j (k + 1), fun n hn => ?_⟩
  obtain ⟨n, rfl⟩ : ∃ m, n = m + 1 := ⟨n - 1, by omega⟩
  have filled : (ofFuel (n + 1)).attributes as s = some (as', t) := hj _ (by omega)
  have called : (ofFuel (n + 1)).call splice (.element name as' cs) (t.entered name) =
      some (result, u) := hk n (by omega)
  have control : t.state.control = s.state.control :=
    (ofFuel (n + 1)).attributes_moves as s as' t filled
  change (ofFuel (n + 1)).expandNodes [.element name as cs] s = _
  simp only [expandNodes, bind_apply, expandNode_of_bound _ filled bound, invoke_apply, called,
    control, Option.bind_some]
  cases (ofFuel (n + 1)).expandResult result u <;> simp

theorem expand_bound_endsIn {out : List Node} {s' : Stage} :
    EndsIn (fun n => (ofFuel n).expand [.element name as cs]) s out s' ↔
      ∃ v, EndsIn (fun n => (ofFuel n).expandResult result) u out v ∧
        s' = v.withControl s.state.control := by
  obtain ⟨N, eq⟩ := expand_bound_eq filled bound returned
  constructor
  · rintro ⟨k, hk⟩
    have replaced := (eq _ (Nat.le_max_left N k)).symm.trans (hk (max N k + 1) (by omega))
    obtain ⟨⟨out', v⟩, run, same⟩ := Option.map_eq_some_iff.mp replaced
    cases same
    refine ⟨v, endsIn_of_below (fun more => ?_) run, rfl⟩
    exact expandResult_related below_congruence (ofFuel_below more) result
  · rintro ⟨v, ⟨k, hk⟩, rfl⟩
    refine EndsIn.of_succ ⟨max N k, fun m hm => (eq m (by omega)).trans ?_⟩
    rw [show (ofFuel m).expandResult result u = some (out, v) from hk m (by omega)]
    rfl

omit bound in
/-- The splice begins at the depth of the element, and leaves it. -/
theorem depth_of_returned : u.state.depth = s.state.depth := by
  obtain ⟨n, hn⟩ := returned
  obtain ⟨k, hk⟩ := filled
  have control := (ofFuel k).attributes_moves as s as' t (hk k (Nat.le_refl k))
  have same := perform_moves_depth (ofFuel_expand_moves n) (ofFuel_call_moves_depth n) _ _ _ _
    (hn n (Nat.le_refl n))
  exact same.trans (congrArg Control.depth control)

omit filled bound in
/-- The splice begins with the flag set. -/
theorem recursing_iff_of_returned :
    u.state.recursing = false ↔ StopsItself (splice (.element name as' cs)) (t.entered name) := by
  obtain ⟨n, hn⟩ := returned
  have entered : (t.entered name).state.recursing = true := rfl
  rw [perform_recursing_iff n _ _ _ _ (hn n (Nat.le_refl n)), entered]
  simp

/-- **Stopping is total and local.** Of an element whose splice returns: the flag that the splice
leaves is cleared if and only if it stops by itself, and what it has the engine do never changes
the flag. If it stops, its result takes the place of the element, and nothing more happens. If
not, the result is expanded one level deeper, on the stage that the splice has left, or stands as
it is at the depth limit. What follows the element is expanded with the control state from
before it. -/
theorem stopping_total_and_local :
    (u.state.recursing = false ↔ StopsItself (splice (.element name as' cs)) (t.entered name)) ∧
    (∀ script : Script, script.Delegates → ∀ r rest r',
      EndsIn (fun n => (ofFuel n).request script) r rest r' →
        r'.state.recursing = r.state.recursing) ∧
    (StopsItself (splice (.element name as' cs)) (t.entered name) →
      EndsIn (fun n => (ofFuel n).expand [.element name as cs]) s result
        (u.withControl s.state.control)) ∧
    (¬ StopsItself (splice (.element name as' cs)) (t.entered name) →
      (s.state.depth < depthLimit → ∀ out s',
        EndsIn (fun n => (ofFuel n).expand [.element name as cs]) s out s' ↔
          ∃ v, EndsIn (fun n => (ofFuel n).expand result) u.descended out v ∧
            s' = v.withControl s.state.control) ∧
      (depthLimit ≤ s.state.depth →
        EndsIn (fun n => (ofFuel n).expand [.element name as cs]) s result
          (u.refused.withControl s.state.control))) ∧
    u.state.depth = s.state.depth ∧
    ∀ siblings out s',
      EndsIn (fun n => (ofFuel n).expand (.element name as cs :: siblings)) s out s' ↔
        ∃ first v rest, EndsIn (fun n => (ofFuel n).expand [.element name as cs]) s first v ∧
          v.state.control = s.state.control ∧
          EndsIn (fun n => (ofFuel n).expand siblings) v rest s' ∧ out = first ++ rest := by
  have becomes {out : List Node} {s' : Stage} :
      EndsIn (fun n => (ofFuel n).expand [.element name as cs]) s out s' ↔ _ :=
    expand_bound_endsIn filled bound returned
  have flag := recursing_iff_of_returned returned
  have depth := depth_of_returned filled returned
  refine ⟨flag, ?_, fun stops => ?_, fun goesOn => ?_, depth, fun siblings out s' => ?_⟩
  · intro script delegates r rest r' ⟨n, hn⟩
    exact request_recursing_of_delegates delegates n r rest r' (hn n (Nat.le_refl n))
  · have stopped := flag.mpr stops
    exact becomes.mpr ⟨u, endsIn_of_eq fun n => expandResult_of_stopped _ result stopped, rfl⟩
  · have recursing : u.state.recursing = true := by
      rw [← Bool.not_eq_false]
      exact fun cleared => goesOn (flag.mp cleared)
    refine ⟨fun below out s' => ?_, fun limit => becomes.mpr ⟨u.refused, ?_, rfl⟩⟩
    · have deeper (n : Nat) : (ofFuel n).expandResult result u = (ofFuel n).expand result u.descended :=
        expandResult_of_lt _ result recursing (depth ▸ below)
      rw [becomes]
      simp only [EndsIn, deeper]
    · exact endsIn_of_eq fun n => expandResult_of_le _ result recursing (depth ▸ limit)
  · exact expand_cons_endsIn

end

/-- Stops, and gives an element. -/
def quiet : Splice := fun _ => .stop <| .done [.element "x" [] []]

/-- Calls the splice of `quiet`, and has elements expanded and a value filled behind that. -/
def hush : Splice := fun node =>
  .call "quiet" node fun found =>
    .expand [.element "loud" [] []] fun _ => .substitute "$(x)" fun _ => .done (found.getD [])

/-- Has the engine invoke the splice of `quiet`, and goes elsewhere. -/
def loud : Splice := fun _ =>
  .expand [.element "quiet" [] []] fun out => .setContext (.parse "elsewhere") <| .done out

/-- A stage where a splice has stopped, with these three splices and a text. -/
def hushedStage : Stage where
  state :=
    { ((((State.empty.bind "quiet" quiet).bind "hush" hush).bind "loud" loud).bind "x"
        (Splice.text "X")) with
      recursing := false, depth := 7 }

theorem hush_stops_loud_does_not :
    (∃ u, EndsIn (fun n => (ofFuel n).perform (hush (.element "hush" [] [])))
        (hushedStage.entered "hush") [.element "x" [] []] u ∧
      StopsItself (hush (.element "hush" [] [])) (hushedStage.entered "hush") ∧
      EndsIn (fun n => (ofFuel n).expand [.element "hush" [] []]) hushedStage [.element "x" [] []]
        (u.withControl hushedStage.state.control)) ∧
    (∃ u, EndsIn (fun n => (ofFuel n).perform (loud (.element "loud" [] [])))
        (hushedStage.entered "loud") [.element "x" [] []] u ∧
      ¬ StopsItself (loud (.element "loud" [] [])) (hushedStage.entered "loud") ∧
      ∃ s', EndsIn (fun n => (ofFuel n).expand [.element "loud" [] []]) hushedStage [.text "X"] s' ∧
        s'.state.control = hushedStage.state.control) := by
  have filled : EndsIn (fun n => (ofFuel n).attributes []) hushedStage [] hushedStage :=
    endsIn_of_eq fun _ => rfl
  have hush_bound : hushedStage.state.splices.get? "hush" = some hush := rfl
  have loud_bound : hushedStage.state.splices.get? "loud" = some loud := rfl
  constructor
  · obtain ⟨u, run⟩ : ∃ u, (ofFuel 4).perform (hush (.element "hush" [] []))
        (hushedStage.entered "hush") = some ([.element "x" [] []], u) := ⟨_, rfl⟩
    have returned := perform_endsIn run
    have stops : StopsItself (hush (.element "hush" [] [])) (hushedStage.entered "hush") :=
      .first (.inCall rfl (.first .stop))
    obtain ⟨-, -, stopped, -⟩ :=
      stopping_total_and_local filled hush_bound returned
    exact ⟨u, returned, stops, stopped stops⟩
  · obtain ⟨u, v, run, recursing, deeper⟩ : ∃ u v,
        (ofFuel 4).perform (loud (.element "loud" [] [])) (hushedStage.entered "loud") =
          some ([.element "x" [] []], u) ∧ u.state.recursing = true ∧
        (ofFuel 4).expand [.element "x" [] []] u.descended = some ([.text "X"], v) :=
      ⟨_, _, rfl, rfl, rfl⟩
    have returned := perform_endsIn run
    obtain ⟨flag, -, -, goesOn, -⟩ :=
      stopping_total_and_local filled loud_bound returned
    have never : ¬ StopsItself (loud (.element "loud" [] [])) (hushedStage.entered "loud") := by
      rw [← flag, recursing]
      exact Bool.noConfusion
    have below : hushedStage.state.depth < depthLimit := by decide
    refine ⟨u, returned, never, v.withControl hushedStage.state.control, ?_, rfl⟩
    exact ((goesOn never).1 below _ _).mpr ⟨v, expand_endsIn deeper, rfl⟩

end Engine

end Templating
