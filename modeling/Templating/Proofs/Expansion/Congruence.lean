import Templating.Proofs.Expansion.Run

/-!
# What all runs are made of

Every operation of expansion is put together from a few basic runs by doing one after
the other, and by putting the control state or the splices back. So a relation between
runs that these respect (`Congruence`) holds between an operation over one engine and
the same operation over another, if it holds between the calls of the two engines.
Walking over values needs no more than that it respects doing one run after the other
(`Chaining`), and so does walking over nodes, if it holds of what takes the place of their
elements; if it respects looking at the state too (`Sequential`), it need only hold of
invocations. All operations but going one level deeper need no more
than that it respects what keeps the depth (`Level`), and all but the evaluation of
templates no more than that it respects all runs but hooks (`Unhooked`). Scripts need what
these two have in common (`Plain`), with any way to evaluate templates (`performWith`).

Two relations are congruences: that one run answers whatever the other does (`Fuel`),
and that a run changes the stage in certain ways only (`Frame`). That a run leaves the
control state as it was is sequential, but no congruence, since single steps change
that state (`Control`); that it stays within the depth limit is a relation of one level,
but no congruence, since going deeper needs room (`Depth`); that hooks are applied by
whole evaluations of templates is respected by all but hooks (`Hooking`).
-/

namespace Templating

open Markup (Attribute Node)

/-- The ways in which a run changes the state. -/
inductive Change : (State → State) → Prop where
  | recursing (recursing : Bool) : Change fun σ => { σ with recursing }
  | context (context : Path) : Change fun σ => { σ with context }
  | deeper : Change fun σ => { σ with depth := σ.depth + 1 }
  | shallower : Change fun σ => { σ with depth := σ.depth - 1 }
  | doctypes (bodies : List String) : Change fun σ => { σ with doctypes := σ.doctypes ++ bodies }
  | bind (name : String) (splice : Splice) : Change (·.bind name splice)
  | bindTexts (args : List (String × String)) : Change (·.bindTexts args)

/-- A relation between runs that answers and doing one run after the other respect. -/
structure Chaining (P : ∀ α : Type, Run α → Run α → Prop) : Prop where
  pure : ∀ {α : Type} (a : α), P α (pure a) (pure a)
  bind : ∀ {α β : Type} {r r' : Run α} {f f' : α → Run β},
    P α r r' → (∀ a, P β (f a) (f' a)) → P β (r >>= f) (r' >>= f')

/-- A relation between runs that doing one after the other respects. -/
structure Sequential (P : ∀ α : Type, Run α → Run α → Prop) : Prop where
  pure : ∀ {α : Type} (a : α), P α (pure a) (pure a)
  bind : ∀ {α β : Type} {r r' : Run α} {f f' : α → Run β},
    P α r r' → (∀ a, P β (f a) (f' a)) → P β (r >>= f) (r' >>= f')
  state : P State Run.state Run.state

/-- A relation between runs that respects all that scripts are made of but hooks and going one
level deeper. -/
structure Plain (P : ∀ α : Type, Run α → Run α → Prop) : Prop extends Sequential P where
  change : ∀ {f : State → State}, Change f → (∀ σ, (f σ).depth = σ.depth) →
    P Unit (Run.modifyState f) (Run.modifyState f)
  invoked : ∀ name, P Unit (Run.record fun σ => .invoked name σ.depth)
    (Run.record fun σ => .invoked name σ.depth)
  called : ∀ name, P Unit (Run.record fun σ => .called name σ.depth)
    (Run.record fun σ => .called name σ.depth)
  newCell : P Nat Run.newCell Run.newCell
  tick : ∀ cell, P Nat (Run.tick cell) (Run.tick cell)
  keepingControl : ∀ {α : Type} {r r' : Run α},
    P α r r' → P α (Run.keepingControl r) (Run.keepingControl r')
  keepingSplices : ∀ {α : Type} {r r' : Run α},
    P α r r' → P α (Run.keepingSplices r) (Run.keepingSplices r')

/-- A relation between runs that respects all they are made of which keeps the depth. -/
structure Level (P : ∀ α : Type, Run α → Run α → Prop) : Prop extends Sequential P where
  change : ∀ {f : State → State}, Change f → (∀ σ, (f σ).depth = σ.depth) →
    P Unit (Run.modifyState f) (Run.modifyState f)
  invoked : ∀ name, P Unit (Run.record fun σ => .invoked name σ.depth)
    (Run.record fun σ => .invoked name σ.depth)
  called : ∀ name, P Unit (Run.record fun σ => .called name σ.depth)
    (Run.record fun σ => .called name σ.depth)
  newCell : P Nat Run.newCell Run.newCell
  tick : ∀ cell, P Nat (Run.tick cell) (Run.tick cell)
  applyHooks : ∀ slot nodes, P _ (Run.applyHooks slot nodes) (Run.applyHooks slot nodes)
  keepingControl : ∀ {α : Type} {r r' : Run α},
    P α r r' → P α (Run.keepingControl r) (Run.keepingControl r')
  keepingSplices : ∀ {α : Type} {r r' : Run α},
    P α r r' → P α (Run.keepingSplices r) (Run.keepingSplices r')

/-- A relation between runs that all they are made of respects. -/
structure Congruence (P : ∀ α : Type, Run α → Run α → Prop) : Prop extends Sequential P where
  change : ∀ {f : State → State}, Change f → P Unit (Run.modifyState f) (Run.modifyState f)
  record : ∀ entry, P Unit (Run.record entry) (Run.record entry)
  newCell : P Nat Run.newCell Run.newCell
  tick : ∀ cell, P Nat (Run.tick cell) (Run.tick cell)
  applyHooks : ∀ slot nodes, P _ (Run.applyHooks slot nodes) (Run.applyHooks slot nodes)
  keepingControl : ∀ {α : Type} {r r' : Run α},
    P α r r' → P α (Run.keepingControl r) (Run.keepingControl r')
  keepingSplices : ∀ {α : Type} {r r' : Run α},
    P α r r' → P α (Run.keepingSplices r) (Run.keepingSplices r')

/-- A relation between runs that all they are made of but hooks respects. -/
structure Unhooked (P : ∀ α : Type, Run α → Run α → Prop) : Prop extends Sequential P where
  change : ∀ {f : State → State}, Change f → P Unit (Run.modifyState f) (Run.modifyState f)
  record : ∀ {entry : State → Entry}, (∀ σ slot nodes, entry σ ≠ .hooked slot nodes) →
    P Unit (Run.record entry) (Run.record entry)
  newCell : P Nat Run.newCell Run.newCell
  tick : ∀ cell, P Nat (Run.tick cell) (Run.tick cell)
  keepingControl : ∀ {α : Type} {r r' : Run α},
    P α r r' → P α (Run.keepingControl r) (Run.keepingControl r')
  keepingSplices : ∀ {α : Type} {r r' : Run α},
    P α r r' → P α (Run.keepingSplices r) (Run.keepingSplices r')

theorem Sequential.chaining {P : ∀ α : Type, Run α → Run α → Prop} (q : Sequential P) :
    Chaining P := ⟨q.pure, q.bind⟩

theorem Level.plain {P : ∀ α : Type, Run α → Run α → Prop} (l : Level P) : Plain P where
  toSequential := l.toSequential
  change := l.change
  invoked := l.invoked
  called := l.called
  newCell := l.newCell
  tick := l.tick
  keepingControl := l.keepingControl
  keepingSplices := l.keepingSplices

theorem Unhooked.plain {P : ∀ α : Type, Run α → Run α → Prop} (u : Unhooked P) : Plain P where
  toSequential := u.toSequential
  change h _ := u.change h
  invoked _ := u.record fun _ _ _ => nofun
  called _ := u.record fun _ _ _ => nofun
  newCell := u.newCell
  tick := u.tick
  keepingControl := u.keepingControl
  keepingSplices := u.keepingSplices

theorem Congruence.unhooked {P : ∀ α : Type, Run α → Run α → Prop} (c : Congruence P) :
    Unhooked P where
  toSequential := c.toSequential
  change := c.change
  record _ := c.record _
  newCell := c.newCell
  tick := c.tick
  keepingControl := c.keepingControl
  keepingSplices := c.keepingSplices

theorem Congruence.level {P : ∀ α : Type, Run α → Run α → Prop} (c : Congruence P) : Level P where
  toSequential := c.toSequential
  change h _ := c.change h
  invoked _ := c.record _
  called _ := c.record _
  newCell := c.newCell
  tick := c.tick
  applyHooks := c.applyHooks
  keepingControl := c.keepingControl
  keepingSplices := c.keepingSplices

/-- Runs that are put together from runs that move the stage by a preorder move it so. -/
theorem Run.moves_sequential {R : Stage → Stage → Prop} [IsPreorder Stage R] :
    Sequential fun _ r _ => Moves R r where
  pure := moves_pure
  bind := .bind
  state := moves_state

namespace Engine

/-! ### Walking over values and nodes -/

/-- What takes the place of an element whose attributes are filled: what the splice of its name
makes of it, or the element rebuilt if the name is not bound. -/
def replace (e : Engine) (name : String) (node : Node) (rebuilt : Run (List Node)) :
    Run (List Node) := do
  match (← Run.state).splices.get? name with
  | some splice => e.invoke name splice node
  | none => rebuilt

theorem replace_apply (e : Engine) (name : String) (node : Node) (rebuilt : Run (List Node))
    (s : Stage) :
    e.replace name node rebuilt s =
      match s.state.splices.get? name with
      | some splice => e.invoke name splice node s
      | none => rebuilt s := by
  simp only [replace, Run.bind_apply, Run.state_apply, Option.bind_some]
  cases s.state.splices.get? name <;> rfl

theorem expandNode_element (e : Engine) (name : String) (as : List Attribute) (cs : List Node) :
    e.expandNode (.element name as cs) = e.attributes as >>= fun as =>
      e.replace name (.element name as cs) (e.expandNodes cs >>= fun cs =>
        pure [.element name as cs]) := by
  rw [expandNode]
  refine congrArg (e.attributes as >>= ·) (funext fun as => congrArg (Run.state >>= ·) ?_)
  funext σ
  cases σ.splices.get? name <;> rfl

section

variable {P : ∀ α : Type, Run α → Run α → Prop} (q : Chaining P) {e e' : Engine}

include q

theorem fill_related {lookup lookup' : String → Run (Option (List Node))}
    (hl : ∀ name, P _ (lookup name) (lookup' name)) :
    ∀ pieces, P _ (Interpolation.fill lookup pieces) (Interpolation.fill lookup' pieces)
  | [] => q.pure _
  | .literal _ :: pieces => q.bind (fill_related hl pieces) fun _ => q.pure _
  | .placeholder _ :: pieces =>
    q.bind (hl _) fun _ => q.bind (fill_related hl pieces) fun _ => q.pure _

variable (hp : ∀ name, P _ (e.placeholder name) (e'.placeholder name))

include hp

theorem substitute_walk (raw : String) : P _ (e.substitute raw) (e'.substitute raw) := by
  unfold Engine.substitute Interpolation.substitute
  split
  · split
    · exact q.pure _
    · exact fill_related q hp _
  · exact q.pure _

theorem attributes_walk : ∀ as, P _ (e.attributes as) (e'.attributes as)
  | [] => q.pure _
  | a :: rest =>
    q.bind (substitute_walk q hp a.value) fun _ =>
      q.bind (attributes_walk rest) fun _ => q.pure _

end

mutual

theorem expandNode_walk {P : ∀ α : Type, Run α → Run α → Prop} (q : Chaining P)
    {e e' : Engine} (hp : ∀ name, P _ (e.placeholder name) (e'.placeholder name))
    (hr : ∀ name node {r r' : Run (List Node)}, P _ r r' →
      P _ (e.replace name node r) (e'.replace name node r')) :
    ∀ node, P _ (e.expandNode node) (e'.expandNode node)
  | .element name as cs => by
    rw [expandNode_element, expandNode_element]
    refine q.bind (attributes_walk q hp as) fun as => hr name _ ?_
    exact q.bind (expandNodes_walk q hp hr cs) fun cs => q.pure _
  | .text _ | .comment _ | .cdata _ | .instruction _ => q.pure _

/-- What holds of placeholders and of what takes the place of elements holds of walking over
nodes. -/
theorem expandNodes_walk {P : ∀ α : Type, Run α → Run α → Prop} (q : Chaining P)
    {e e' : Engine} (hp : ∀ name, P _ (e.placeholder name) (e'.placeholder name))
    (hr : ∀ name node {r r' : Run (List Node)}, P _ r r' →
      P _ (e.replace name node r) (e'.replace name node r')) :
    ∀ nodes, P _ (e.expandNodes nodes) (e'.expandNodes nodes)
  | [] => q.pure _
  | node :: nodes =>
    q.bind (expandNode_walk q hp hr node) fun _ =>
      q.bind (expandNodes_walk q hp hr nodes) fun _ => q.pure _

end

/-- Where looking at the state is respected too, it is enough that invocations are related. -/
theorem replace_related {P : ∀ α : Type, Run α → Run α → Prop} (q : Sequential P) {e e' : Engine}
    (hi : ∀ name splice node, P _ (e.invoke name splice node) (e'.invoke name splice node))
    (name : String) (node : Node) {r r' : Run (List Node)} (h : P _ r r') :
    P _ (e.replace name node r) (e'.replace name node r') := by
  refine q.bind q.state fun σ => ?_
  cases σ.splices.get? name with
  | none => exact h
  | some splice => exact hi name splice node

/-! ### Related engines -/

/-- The relation holds between the calls of two engines. -/
structure Related (P : ∀ α : Type, Run α → Run α → Prop) (e e' : Engine) : Prop where
  expand : ∀ nodes, P _ (e.expand nodes) (e'.expand nodes)
  call : ∀ splice node, P _ (e.call splice node) (e'.call splice node)

/-! ### Scripts with another way to evaluate templates -/

/-- Runs a script, with `evaluate` for the evaluation of templates. -/
def performWith (e : Engine) (evaluate : String → Run (Option (List Node))) :
    Script → Run (List Node)
  | .done nodes => return nodes
  | .stop next => do
    Run.modifyState fun σ => { σ with recursing := false }
    performWith e evaluate next
  | .setContext context next => do
    Run.modifyState fun σ => { σ with context }
    performWith e evaluate next
  | .addDoctype body next => do
    Run.modifyState fun σ => { σ with doctypes := σ.doctypes ++ [body] }
    performWith e evaluate next
  | .bind name splice next => do
    Run.modifyState (·.bind name splice)
    performWith e evaluate next
  | .look next => do
    let σ ← Run.state
    performWith e evaluate (next σ.view)
  | .newCell next => do
    let cell ← Run.newCell
    performWith e evaluate (next cell)
  | .tick cell next => do
    let n ← Run.tick cell
    performWith e evaluate (next n)
  | .expand nodes next => do
    let out ← e.expand nodes
    performWith e evaluate (next out)
  | .descend nodes next => do
    let out ← e.descend nodes
    performWith e evaluate (next out)
  | .substitute raw next => do
    let value ← e.substitute raw
    performWith e evaluate (next value)
  | .evaluate name next => do
    let found ← evaluate name
    performWith e evaluate (next found)
  | .evaluateWith name args next => do
    let found ← Run.keepingSplices do
      Run.modifyState (·.bindTexts args)
      evaluate name
    performWith e evaluate (next found)
  | .call name node next => do
    let found ← e.callBound name node
    performWith e evaluate (next found)
  | .scope inner next => do
    let out ← Run.keepingSplices (performWith e evaluate inner)
    performWith e evaluate (next out)

theorem perform_eq (e : Engine) (script : Script) :
    e.perform script = e.performWith e.evaluate script := by
  induction script with
  | done => rfl
  | stop _ ih | setContext _ _ ih | addDoctype _ _ ih | bind _ _ _ _ ih =>
    exact congrArg (Run.modifyState _ >>= ·) (funext fun _ => ih)
  | look _ ih => exact congrArg (Run.state >>= ·) (funext fun σ => ih σ.view)
  | newCell _ ih => exact congrArg (Run.newCell >>= ·) (funext ih)
  | tick cell _ ih => exact congrArg (Run.tick cell >>= ·) (funext ih)
  | expand nodes _ ih => exact congrArg (e.expand nodes >>= ·) (funext ih)
  | descend nodes _ ih => exact congrArg (e.descend nodes >>= ·) (funext ih)
  | substitute raw _ ih => exact congrArg (e.substitute raw >>= ·) (funext ih)
  | evaluate name _ ih => exact congrArg (e.evaluate name >>= ·) (funext ih)
  | evaluateWith name args _ ih =>
    exact congrArg (e.evaluateWith name args >>= ·) (funext ih)
  | call name node _ ih => exact congrArg (e.callBound name node >>= ·) (funext ih)
  | scope inner next ihInner ih =>
    rw [perform, performWith, ihInner]
    exact congrArg (Run.keepingSplices _ >>= ·) (funext ih)

/-! ### One level -/

section

variable {P : ∀ α : Type, Run α → Run α → Prop} (p : Plain P) {e e' : Engine}

include p

theorem enter_plain (name : String) : P _ (enter name) (enter name) :=
  p.bind (p.invoked name) fun _ => p.change (.recursing true) fun _ => rfl

variable (h : e.Related P e')

include h

theorem placeholder_plain (name : String) : P _ (e.placeholder name) (e'.placeholder name) := by
  refine p.bind p.state fun σ => ?_
  cases σ.splices.get? name with
  | none => exact p.pure _
  | some splice =>
    exact p.keepingControl
      (p.bind (enter_plain p name) fun _ => p.bind (h.call splice _) fun _ => p.pure _)

theorem substitute_plain (raw : String) : P _ (e.substitute raw) (e'.substitute raw) :=
  substitute_walk p.chaining (placeholder_plain p h) raw

theorem callBound_plain (name : String) (node : Node) :
    P _ (e.callBound name node) (e'.callBound name node) := by
  refine p.bind p.state fun σ => ?_
  cases σ.splices.get? name with
  | none => exact p.pure _
  | some splice =>
    exact p.bind (p.called name) fun _ => p.bind (h.call splice node) fun _ => p.pure _

/-- What holds of going one level deeper and of two ways to evaluate templates holds of
performing scripts in these ways. -/
theorem performWith_plain (hd : ∀ nodes, P _ (e.descend nodes) (e'.descend nodes))
    {evaluate evaluate' : String → Run (Option (List Node))}
    (he : ∀ name, P _ (evaluate name) (evaluate' name)) (script : Script) :
    P _ (e.performWith evaluate script) (e'.performWith evaluate' script) := by
  induction script with
  | done nodes => exact p.pure nodes
  | stop next ih => exact p.bind (p.change (.recursing false) fun _ => rfl) fun _ => ih
  | setContext context next ih =>
    exact p.bind (p.change (.context context) fun _ => rfl) fun _ => ih
  | addDoctype body next ih => exact p.bind (p.change (.doctypes [body]) fun _ => rfl) fun _ => ih
  | bind name splice next _ ih =>
    exact p.bind (p.change (.bind name splice) fun _ => rfl) fun _ => ih
  | look next ih => exact p.bind p.state fun σ => ih σ.view
  | newCell next ih => exact p.bind p.newCell ih
  | tick cell next ih => exact p.bind (p.tick cell) ih
  | expand nodes next ih => exact p.bind (h.expand nodes) ih
  | descend nodes next ih => exact p.bind (hd nodes) ih
  | substitute raw next ih => exact p.bind (substitute_plain p h raw) ih
  | evaluate name next ih => exact p.bind (he name) ih
  | evaluateWith name args next ih =>
    refine p.bind (p.keepingSplices ?_) ih
    exact p.bind (p.change (.bindTexts args) fun _ => rfl) fun _ => he name
  | call name node next ih => exact p.bind (callBound_plain p h name node) ih
  | scope inner next ihInner ih => exact p.bind (p.keepingSplices ihInner) ih

end

section

variable {P : ∀ α : Type, Run α → Run α → Prop} (l : Level P) {e e' : Engine}
  (h : e.Related P e')

include l h

theorem evaluate_level (name : String) : P _ (e.evaluate name) (e'.evaluate name) := by
  refine l.bind l.state fun σ => ?_
  split
  · exact l.pure _
  · refine l.bind (l.change (.doctypes _) fun _ => rfl) fun _ =>
      l.bind (l.applyHooks _ _) fun body => ?_
    refine l.bind (l.keepingControl ?_) fun _ => l.bind (l.applyHooks _ _) fun _ => l.pure _
    exact l.bind (l.change (.context _) fun _ => rfl) fun _ => h.expand body

theorem evaluateWith_level (name : String) (args : List (String × String)) :
    P _ (e.evaluateWith name args) (e'.evaluateWith name args) :=
  l.keepingSplices
    (l.bind (l.change (.bindTexts args) fun _ => rfl) fun _ => evaluate_level l h name)

/-- What holds of going one level deeper holds of performing scripts. -/
theorem perform_level (hd : ∀ nodes, P _ (e.descend nodes) (e'.descend nodes)) (script : Script) :
    P _ (e.perform script) (e'.perform script) := by
  rw [perform_eq, perform_eq]
  exact performWith_plain l.plain h hd (evaluate_level l h) script

end

/-! ### All levels -/

section

variable {P : ∀ α : Type, Run α → Run α → Prop} (u : Unhooked P) {e e' : Engine}
  (h : e.Related P e')

include u h

theorem expandResult_unhooked (result : List Node) :
    P _ (e.expandResult result) (e'.expandResult result) := by
  refine u.bind u.state fun σ => ?_
  split
  · exact u.pure _
  · split
    · exact u.bind (u.record fun _ _ _ => nofun) fun _ => u.pure _
    · exact u.bind (u.record fun _ _ _ => nofun) fun _ =>
        u.bind (u.change .deeper) fun _ => h.expand result

theorem invoke_unhooked (name : String) (splice : Splice) (node : Node) :
    P _ (e.invoke name splice node) (e'.invoke name splice node) :=
  u.keepingControl (u.bind (enter_plain u.plain name) fun _ =>
    u.bind (h.call splice node) fun _ => expandResult_unhooked u h _)

theorem descend_unhooked (nodes : List Node) : P _ (e.descend nodes) (e'.descend nodes) := by
  refine u.bind u.state fun σ => ?_
  split
  · exact u.bind (u.record fun _ _ _ => nofun) fun _ => u.pure _
  · refine u.bind (u.record fun _ _ _ => nofun) fun _ => u.bind (u.change .deeper) fun _ => ?_
    exact u.bind (h.expand nodes) fun _ =>
      u.bind (u.record fun _ _ _ => nofun) fun _ => u.bind (u.change .shallower) fun _ => u.pure _

theorem expandNodes_unhooked (nodes : List Node) :
    P _ (e.expandNodes nodes) (e'.expandNodes nodes) :=
  expandNodes_walk u.chaining (placeholder_plain u.plain h)
    (replace_related u.toSequential (invoke_unhooked u h)) nodes

end

section

variable {P : ∀ α : Type, Run α → Run α → Prop} (c : Congruence P) {e e' : Engine}
  (h : e.Related P e')

include c h

theorem placeholder_related (name : String) : P _ (e.placeholder name) (e'.placeholder name) :=
  placeholder_plain c.level.plain h name

theorem substitute_related (raw : String) : P _ (e.substitute raw) (e'.substitute raw) :=
  substitute_plain c.level.plain h raw

theorem attributes_related (as : List Attribute) : P _ (e.attributes as) (e'.attributes as) :=
  attributes_walk c.chaining (placeholder_related c h) as

theorem expandResult_related (result : List Node) :
    P _ (e.expandResult result) (e'.expandResult result) :=
  expandResult_unhooked c.unhooked h result

theorem invoke_related (name : String) (splice : Splice) (node : Node) :
    P _ (e.invoke name splice node) (e'.invoke name splice node) :=
  invoke_unhooked c.unhooked h name splice node

theorem descend_related (nodes : List Node) : P _ (e.descend nodes) (e'.descend nodes) :=
  descend_unhooked c.unhooked h nodes

theorem evaluate_related (name : String) : P _ (e.evaluate name) (e'.evaluate name) :=
  evaluate_level c.level h name

theorem perform_related (script : Script) : P _ (e.perform script) (e'.perform script) :=
  perform_level c.level h (descend_related c h) script

theorem expandNode_related (node : Node) : P _ (e.expandNode node) (e'.expandNode node) :=
  expandNode_walk c.chaining (placeholder_related c h)
    (replace_related c.toSequential (invoke_related c h)) node

theorem expandNodes_related (nodes : List Node) :
    P _ (e.expandNodes nodes) (e'.expandNodes nodes) := expandNodes_unhooked c.unhooked h nodes

/-- What respects all that runs are made of goes on to one call further up. -/
theorem Related.next : e.next.Related P e'.next where
  expand := expandNodes_related c h
  call splice node := perform_related c h (splice node)

end

/-- It holds of every amount of fuel, if it holds of runs without an answer. -/
theorem ofFuel_related {P : ∀ α : Type, Run α → Run α → Prop} (c : Congruence P)
    (hf : ∀ α, P α failure failure) : ∀ n, (ofFuel n).Related P (ofFuel n)
  | 0 => ⟨fun _ => hf _, fun _ _ => hf _⟩
  | n + 1 => Related.next c (ofFuel_related c hf n)

end Engine

end Templating
