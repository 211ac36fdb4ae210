import Templating.Proofs.Expansion.Deepening
import Templating.Proofs.Expansion.Growth
import Templating.Proofs.Expansion.Stopping

/-!
# Splices that give their own element again

A splice that does not stop recursion and gives an element of its own name is invoked again for
that element, one level deeper, and so on up to the depth limit. How often it is invoked is known
in advance (`regrowth_counts`): if each call gives `b` such elements, there are `b ^ i` calls at
the level `i`, for as many levels as there are up to the limit. What the calls at the limit give
stands as it is.

The splice need not give the same at every call, and it may have nodes expanded by itself, bind
names and count. What has to be known is a condition on stages under which it gives a result with
`b` buds, with nothing else to be expanded in it, and which it keeps (`Regrows`). The induction is
on the levels that are left, and for each level on the nodes of the result (`Grows`).
-/

namespace Templating

open Markup (Attribute Node)

namespace Engine

open Run

/-! ### Runs that grow -/

/-- No value of the attributes mentions a placeholder. -/
def PlainValues (as : List Attribute) : Prop :=
  ∀ a ∈ as, Interpolation.mentionsPlaceholder a.value.toList = false

section

variable (K : Stage → Prop) (tag : String)

mutual

/-- Nothing in the node is expanded but its buds: no value mentions a placeholder, and outside of
the elements of the name no element is bound where the condition holds. -/
def BuddingNode : Node → Prop
  | .element name as cs =>
    PlainValues as ∧ (name = tag ∨ (∀ s, K s → s.state.splices.get? name = none) ∧ Budding cs)
  | _ => True

/-- Nothing in the nodes is expanded but their buds. -/
def Budding : List Node → Prop
  | [] => True
  | node :: nodes => BuddingNode node ∧ Budding nodes

end

variable (splice : Splice)

/-- Wherever the condition holds the name is bound to the splice, which gives a result with `b`
buds for each element of the name, does not stop recursion, and keeps the condition. The control
state and the journal do not matter for the condition. -/
structure Regrows (b : Nat) : Prop where
  bound : ∀ s, K s → s.state.splices.get? tag = some splice
  steady : ∀ s (c : Control) (journal : List Entry), K s →
    K { s.withControl c with ledger := { s.ledger with journal } }
  returns : ∀ s, K s → s.state.depth ≤ depthLimit → ∀ as cs, PlainValues as → ∃ result s',
    EndsIn (fun n => (ofFuel n).perform (splice (.element tag as cs))) (s.entered tag) result s' ∧
      s'.state.recursing = true ∧ K s' ∧ Budding K tag result ∧ buds tag result = b

/-- The splice returned like this from an element of the name at the depth. -/
def Returned {b : Nat} (d : Nat) (call : Call tag b) : Prop :=
  ∃ s as cs s', K s ∧ s.state.depth = d ∧
    EndsIn (fun n => (ofFuel n).perform (splice (.element tag as cs))) (s.entered tag)
      call.result s' ∧
    s'.invocations = (s.entered tag).invocations ++ call.within

/-- Expanding the nodes, with some levels left up to the depth limit, lets a tree of calls grow
from each of their buds, and keeps the condition. -/
def Grows (b levels : Nat) (nodes : List Node) : Prop :=
  ∀ s, K s → s.state.depth + levels = depthLimit → ∃ (gs : List (Growth tag b levels)) (s' : Stage),
    gs.length = buds tag nodes ∧
    EndsIn (fun n => (ofFuel n).expand nodes) s (graft tag nodes (gs.map (·.output))) s' ∧
    K s' ∧ s'.invocations = s.invocations ++ gs.flatMap (·.runs s.state.depth) ∧
    ∀ g ∈ gs, ∀ call ∈ g.calls s.state.depth, Returned K tag splice call.1 call.2

/-- All elements of the name grow, with some levels left. -/
def BudsGrow (b levels : Nat) : Prop :=
  ∀ as cs, PlainValues as → Grows K tag splice b levels [.element tag as cs]

end

section

variable {K : Stage → Prop} {tag : String} {splice : Splice} {b levels : Nat}

/-! ### Nodes around the buds -/

theorem grows_nil : Grows K tag splice b levels [] := by
  refine fun s hs _ => ⟨[], s, rfl, EndsIn.of_succ (endsIn_of_eq fun _ => rfl), hs, ?_, nofun⟩
  rw [List.flatMap_nil, List.append_nil]

/-- Siblings grow one after the other. -/
theorem Grows.cons {node : Node} {nodes : List Node} (h : Grows K tag splice b levels [node])
    (h' : Grows K tag splice b levels nodes) : Grows K tag splice b levels (node :: nodes) := by
  intro s hs depth
  obtain ⟨gs, v, length, here, hv, runs, returned⟩ := h s hs depth
  have control := control_of_expand here
  have level : v.state.depth = s.state.depth := congrArg Control.depth control
  obtain ⟨gs', s', length', behind, hs', runs', returned'⟩ := h' v hv (level.symm ▸ depth)
  rw [level] at runs' returned'
  rw [buds_singleton] at length
  refine ⟨gs ++ gs', s', ?_, ?_, hs', ?_, fun g mem => ?_⟩
  · rw [List.length_append, length, length', buds]
  · rw [List.map_append, graft_cons (by rw [List.length_map, length])]
    exact expand_cons_endsIn.mpr ⟨_, v, _, here, control, behind, rfl⟩
  · rw [runs', runs, List.flatMap_append, List.append_assoc]
  · exact (List.mem_append.mp mem).elim (returned g) (returned' g)

theorem grows_leaf {leaf : Node} (h : leaf.name? = none) :
    Grows K tag splice b levels [leaf] := by
  refine fun s hs _ => ⟨[], s, ?_, EndsIn.of_succ (endsIn_of_eq fun n => ?_), hs, ?_, nofun⟩
  · cases leaf <;> first | rfl | cases h
  · cases leaf <;> first | rfl | cases h
  · rw [List.flatMap_nil, List.append_nil]

/-- An element that is not bound is rebuilt around what its children come to. -/
theorem expand_unbound (n : Nat) {s : Stage} {name : String} {as : List Attribute} (cs : List Node)
    (plain : PlainValues as)
    (unbound : s.state.splices.get? name = none) :
    (ofFuel n).expand [.element name as cs] s =
      ((ofFuel n).expand cs s).map fun p => ([.element name as p.1], p.2) := by
  cases n with
  | zero => rfl
  | succ n =>
    have rebuilt : (ofFuel n).expandNode (.element name as cs) s =
        ((ofFuel n).expandNodes cs s).map fun p => ([.element name as p.1], p.2) :=
      expandNode_of_unbound _ ((ofFuel n).attributes_of_plain plain) unbound
    change (ofFuel n).expandNodes [.element name as cs] s = ((ofFuel n).expandNodes cs s).map _
    simp only [expandNodes, bind_apply, rebuilt]
    cases (ofFuel n).expandNodes cs s <;> simp

theorem Grows.element {name : String} {as : List Attribute} {cs : List Node} (other : name ≠ tag)
    (plain : PlainValues as)
    (unbound : ∀ s, K s → s.state.splices.get? name = none) (h : Grows K tag splice b levels cs) :
    Grows K tag splice b levels [.element name as cs] := by
  intro s hs depth
  obtain ⟨gs, s', length, inside, rest⟩ := h s hs depth
  have same : buds tag [.element name as cs] = buds tag cs := by
    rw [buds_singleton, budsOf, if_neg other]
  refine ⟨gs, s', length.trans same.symm, ?_, rest⟩
  rw [graft_singleton (by rw [List.length_map, length, budsOf, if_neg other]), graftOn,
    if_neg other]
  have rebuilt (n : Nat) := expand_unbound n cs plain (unbound s hs)
  exact inside.map (fun p : List Node × Stage => ([Node.element name as p.1], p.2)) rebuilt

mutual

/-- If the elements of the name grow, so does a node in which nothing else is expanded. -/
theorem grows_node (tags : BudsGrow K tag splice b levels) :
    ∀ {node : Node}, BuddingNode K tag node → Grows K tag splice b levels [node]
  | .element name as cs, h => by
    rw [BuddingNode] at h
    obtain ⟨plain, inside⟩ := h
    by_cases named : name = tag
    -- What is inside of an element of the name is left to its splice.
    · exact named ▸ tags as cs plain
    · obtain ⟨unbound, budding⟩ := inside.resolve_left named
      exact .element named plain unbound (grows_nodes tags budding)
  | .text _, _ | .comment _, _ | .cdata _, _ | .instruction _, _ => grows_leaf rfl

/-- If the elements of the name grow, so do nodes in which nothing else is expanded. -/
theorem grows_nodes (tags : BudsGrow K tag splice b levels) :
    ∀ {nodes : List Node}, Budding K tag nodes → Grows K tag splice b levels nodes
  | [], _ => grows_nil
  | node :: nodes, h => by
    rw [Budding] at h
    exact (grows_node tags h.1).cons (grows_nodes tags h.2)

end

/-! ### Buds -/

variable (r : Regrows K tag splice b)

include r

theorem Regrows.descended {s : Stage} (hs : K s) : K s.descended :=
  r.steady s ⟨s.state.context, s.state.recursing, s.state.depth + 1⟩ _ hs

/-- One call for an element of the name, and what becomes of its result. -/
theorem Regrows.call {s : Stage} (hs : K s) (limit : s.state.depth ≤ depthLimit)
    {as : List Attribute} (cs : List Node) (plain : PlainValues as) :
    ∃ (call : Call tag b) (u : Stage), Returned K tag splice s.state.depth call ∧
      Budding K tag call.result ∧ K u ∧ u.state.recursing = true ∧ u.state.depth = s.state.depth ∧
      u.invocations = s.invocations ++ (tag, s.state.depth) :: call.within ∧
      ∀ {out v}, EndsIn (fun n => (ofFuel n).expandResult call.result) u out v →
        EndsIn (fun n => (ofFuel n).expand [.element tag as cs]) s out
          (v.withControl s.state.control) := by
  obtain ⟨result, u, returned, recursing, hu, budding, count⟩ := r.returns s hs limit as cs plain
  have filled : EndsIn (fun n => (ofFuel n).attributes as) s as s :=
    endsIn_of_eq fun n => (ofFuel n).attributes_of_plain plain
  have deepens : Deepens (s.entered tag) u := by
    obtain ⟨n, hn⟩ := returned
    exact (ofFuel_deepens (n + 1)).call splice (.element tag as cs) _ result u
      (hn n (Nat.le_refl n))
  obtain ⟨within, since, -⟩ := deepens.runs
  have first : (s.entered tag).invocations = s.invocations ++ [(tag, s.state.depth)] :=
    s.invocations_record (.invoked tag s.state.depth)
  refine ⟨⟨result, count, within⟩, u, ⟨s, as, cs, u, hs, rfl, returned, since⟩, budding, hu,
    recursing, deepens.depth, ?_, fun ends => ?_⟩
  · rw [since, first, List.append_assoc, List.singleton_append]
  · exact (expand_bound_endsIn filled (r.bound s hs) returned).mpr ⟨_, ends, rfl⟩

/-- At the depth limit the result of a bud stands as it is. -/
theorem Regrows.grows_last : BudsGrow K tag splice b 0 := by
  intro as cs plain s hs depth
  obtain ⟨call, u, returned, -, hu, recursing, level, runs, becomes⟩ :=
    r.call hs (Nat.le_of_eq depth) cs plain
  have refused : EndsIn (fun n => (ofFuel n).expandResult call.result) u call.result u.refused :=
    endsIn_of_eq fun n => (ofFuel n).expandResult_of_le _ recursing (by rw [level, ← depth]; rfl)
  refine ⟨[.last call], u.refused.withControl s.state.control, ?_, ?_, ?_, ?_, ?_⟩
  · simp [buds, budsOf]
  · simpa [graft, graftOn, budsOf, Growth.output] using becomes refused
  · exact r.steady u s.state.control (u.refused.ledger.journal) hu
  · change u.invocations = _
    simp [runs, Growth.runs, Growth.calls]
  · intro g mem made made'
    obtain rfl := List.mem_singleton.mp mem
    obtain rfl := List.mem_singleton.mp made'
    exact returned

omit r in
/-- As many as there are buds, listed by their number. -/
theorem exists_ofFn {α : Type} {n : Nat} {xs : List α} (h : xs.length = n) :
    ∃ f : Fin n → α, xs = List.ofFn f := by
  subst h
  exact ⟨xs.get, (List.ofFn_get xs).symm⟩

/-- Before the limit the buds of the result of a bud grow, one level deeper. -/
theorem Regrows.grows_next (tags : BudsGrow K tag splice b levels) :
    BudsGrow K tag splice b (levels + 1) := by
  intro as cs plain s hs depth
  obtain ⟨call, u, returned, budding, hu, recursing, level, runs, becomes⟩ :=
    r.call hs (by omega) cs plain
  have deeper : u.descended.state.depth = s.state.depth + 1 := congrArg (· + 1) level
  obtain ⟨gs, v, length, ends, hv, later, returned'⟩ :=
    grows_nodes tags budding u.descended (r.descended hu) (by rw [deeper]; omega)
  obtain ⟨shoots, rfl⟩ := exists_ofFn (length.trans call.count)
  rw [deeper] at later returned'
  have expanded : EndsIn (fun n => (ofFuel n).expandResult call.result) u
      (Growth.grown call shoots).output v := by
    rw [Growth.output, ← Function.comp_def Growth.output shoots, ← List.map_ofFn]
    exact ends.congr fun n => (ofFuel n).expandResult_of_lt _ recursing (by omega)
  refine ⟨[.grown call shoots], v.withControl s.state.control, ?_, ?_, ?_, ?_, ?_⟩
  · simp [buds, budsOf]
  · simpa [graft, graftOn, budsOf] using becomes expanded
  · exact r.steady v s.state.control v.ledger.journal hv
  · change v.invocations = _
    rw [later, show u.descended.invocations = u.invocations from rfl, runs]
    simp [Growth.runs_grown]
  · intro g mem made made'
    obtain rfl := List.mem_singleton.mp mem
    rw [Growth.calls, List.mem_cons] at made'
    rcases made' with rfl | above
    · exact returned
    · obtain ⟨calls, shoot, made'⟩ := List.mem_flatten.mp above
      obtain ⟨i, rfl⟩ := List.mem_ofFn.mp shoot
      exact returned' _ (List.mem_ofFn.mpr ⟨i, rfl⟩) made made'

/-- An element of the name grows, whatever the levels that are left. -/
theorem Regrows.budsGrow : ∀ levels, BudsGrow K tag splice b levels
  | 0 => r.grows_last
  | levels + 1 => r.grows_next (Regrows.budsGrow levels)

/-- **How often a splice is invoked that gives its own element again**: where a splice does not
stop recursion and each call of it gives `b` elements of its name and nothing else to be expanded,
expanding one element of the name ends. The calls make up a tree with as many levels as there are
from the depth of the element up to the limit, and all of them are calls of this splice. At the
level `i` there are `b ^ i` calls, so that there are `1 + b + b ^ 2 + …` altogether; those of the
last level are made at the depth limit, and what they give stands as it is where it was put, while
all other results have what comes of their elements in the place of these. So the elements of the
name that the last calls give are left. The splice is run by the calls of the tree, in this order,
and otherwise only if a call runs it by itself. All splices are run at the depth of the element or
deeper and within the limit, and the depth afterwards is that of the element. -/
theorem regrowth_counts (s : Stage) (hs : K s) (limit : s.state.depth ≤ depthLimit)
    (as : List Attribute) (cs : List Node) (plain : PlainValues as) :
    ∃ (g : Growth tag b (depthLimit - s.state.depth)) (s' : Stage),
      EndsIn (fun n => (ofFuel n).expand [.element tag as cs]) s g.output s' ∧
      s'.state.depth = s.state.depth ∧
      (∀ call ∈ g.calls s.state.depth, Returned K tag splice call.1 call.2) ∧
      (g.calls s.state.depth).length =
        ∑ i ∈ Finset.range (depthLimit - s.state.depth + 1), b ^ i ∧
      (∀ i ≤ depthLimit - s.state.depth,
        (g.calls s.state.depth).countP (fun call => call.1 = s.state.depth + i) = b ^ i) ∧
      buds tag g.output = b ^ (depthLimit - s.state.depth + 1) ∧
      s'.invocations = s.invocations ++ g.runs s.state.depth ∧
      ((∀ call ∈ g.calls s.state.depth, ∀ run ∈ call.2.within, run.1 ≠ tag) →
        s'.invocations.countP (fun run => run.1 = tag) =
          s.invocations.countP (fun run => run.1 = tag) +
            ∑ i ∈ Finset.range (depthLimit - s.state.depth + 1), b ^ i) ∧
      ∀ run ∈ g.runs s.state.depth, s.state.depth ≤ run.2 ∧ run.2 ≤ depthLimit := by
  obtain ⟨gs, s', length, ends, -, runs, returned⟩ :=
    r.budsGrow _ as cs plain s hs (Nat.add_sub_cancel' limit)
  rw [buds_singleton, budsOf, if_pos rfl] at length
  obtain ⟨g, rfl⟩ := List.length_eq_one_iff.mp length
  have output : graft tag [.element tag as cs] ([g].map (·.output)) = g.output := by
    simp [graft, graftOn, budsOf]
  rw [output] at ends
  rw [List.flatMap_cons, List.flatMap_nil, List.append_nil] at runs
  have depth : s'.state.depth = s.state.depth := congrArg Control.depth (control_of_expand ends)
  refine ⟨g, s', ends, depth, returned g List.mem_cons_self, g.length_calls _,
    fun i hi => g.countP_calls _ hi, g.buds_output, runs, fun alone => ?_,
    depth_of_expand limit ends runs⟩
  rw [runs, List.countP_append, g.countP_runs _ alone, g.length_calls]

end

/-- Gives two elements of its name, at every other call one of them inside of another element. -/
def sprouting : Splice := fun _ =>
  .tick 0 fun count => .done <|
    if count % 2 = 0 then [.element "t" [] [], .element "t" [] []]
    else [.element "p" [] [.text "odd", .element "t" [] []], .element "t" [] []]

/-- A stage two levels above the depth limit, with that splice and its counter. -/
def sproutingStage : Stage where
  state := { State.empty.bind "t" sprouting with depth := 48 }
  ledger := { counts := #[0] }

theorem sprouting_regrows :
    Regrows (fun s => s.state.splices = sproutingStage.state.splices) "t" sprouting 2 where
  bound s hs := by
    rw [hs]
    rfl
  steady _ _ _ hs := hs
  returns s hs _ as cs _ := by
    refine ⟨_, _, endsIn_of_eq fun _ => rfl, rfl, hs, ?_, ?_⟩
    · have unbound : ∀ s : Stage, s.state.splices = sproutingStage.state.splices →
          s.state.splices.get? "p" = none := by
        intro s hs
        rw [hs]
        rfl
      split
      · simp [Budding, BuddingNode, PlainValues]
      · simpa [Budding, BuddingNode, PlainValues] using unbound
    · split <;> simp [buds, budsOf]

theorem sprouting_seven_runs :
    ∃ out s', EndsIn (fun n => (ofFuel n).expand [.element "t" [] []]) sproutingStage out s' ∧
      buds "t" out = 8 ∧ s'.state.depth = 48 ∧
      s'.invocations.countP (fun run => run.1 = "t") = 7 ∧
      ∀ run ∈ s'.invocations, 48 ≤ run.2 ∧ run.2 ≤ 50 := by
  obtain ⟨g, s', ends, depth, returned, -, -, left, runs, alone, within⟩ :=
    regrowth_counts sprouting_regrows sproutingStage rfl (by decide) [] [] nofun
  have quiet : ∀ call ∈ g.calls 48, ∀ run ∈ call.2.within, run.1 ≠ "t" := by
    intro call mem run inside
    obtain ⟨s, as, cs, u, -, -, ends, since⟩ := returned call mem
    obtain ⟨-, rfl⟩ := ends.unique (endsIn_of_eq fun _ => rfl)
    rw [List.self_eq_append_right.mp since] at inside
    cases inside
  have all : s'.invocations = g.runs 48 := runs
  exact ⟨g.output, s', ends, left, depth, alone quiet, fun run mem => within run (all ▸ mem)⟩

end Engine

end Templating
