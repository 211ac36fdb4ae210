import Mathlib.Algebra.BigOperators.Fin
import Templating.Markup.Node

/-!
# Calls that grow out of each other

If what a splice gives for an element has elements of the same name in it, the splice is called
again for these. Such elements are the buds of the result, and what comes of them is grafted into
the result in their place (`graft`). The calls make up a tree. If every call gives `b` buds, but
for those of the last level, where nothing comes of the buds any more, the tree is known but for
what the calls give (`Growth`): at the level `i` there are `b ^ i` calls
(`Growth.countP_calls`, `Growth.length_calls`), and after the last level `b` times as many buds are
left as there are calls in it (`Growth.buds_output`).
-/

namespace Templating

open Markup (Attribute Node)

/-! ### Buds and grafts -/

mutual

/-- How many elements of the name there are in the node, not counting those inside of others. -/
def budsOf (tag : String) : Node → Nat
  | .element name _ cs => if name = tag then 1 else buds tag cs
  | _ => 0

/-- How many elements of the name there are in the nodes, not counting those inside of others. -/
def buds (tag : String) : List Node → Nat
  | [] => 0
  | node :: nodes => budsOf tag node + buds tag nodes

end

mutual

/-- The node with shoots in the place of its buds, in order. -/
def graftOn (tag : String) : Node → List (List Node) → List Node
  | .element name as cs, shoots =>
    if name = tag then shoots.flatten else [.element name as (graft tag cs shoots)]
  | leaf, _ => [leaf]

/-- The nodes with shoots in the place of their buds, in order. -/
def graft (tag : String) : List Node → List (List Node) → List Node
  | [], _ => []
  | node :: nodes, shoots =>
    graftOn tag node (shoots.take (budsOf tag node)) ++
      graft tag nodes (shoots.drop (budsOf tag node))

end

section

variable {tag name : String} {as : List Attribute} {cs nodes : List Node} {node : Node}

theorem buds_singleton (tag : String) (node : Node) : buds tag [node] = budsOf tag node := by
  simp [buds]

theorem graft_singleton {shoots : List (List Node)} (h : shoots.length = budsOf tag node) :
    graft tag [node] shoots = graftOn tag node shoots := by
  rw [graft, graft, List.append_nil, ← h, List.take_length]

/-- Shoots for a node and the nodes behind it. -/
theorem graft_cons {first rest : List (List Node)} (h : first.length = budsOf tag node) :
    graft tag (node :: nodes) (first ++ rest) =
      graft tag [node] first ++ graft tag nodes rest := by
  rw [graft_singleton h, graft, ← h, List.take_left, List.drop_left]

end

section

variable {tag : String}

theorem buds_append (tag : String) (xs ys : List Node) :
    buds tag (xs ++ ys) = buds tag xs + buds tag ys := by
  induction xs with
  | nil => simp [buds]
  | cons node xs ih => rw [List.cons_append, buds, buds, ih, Nat.add_assoc]

mutual

theorem buds_graftOn : ∀ {node : Node} {shoots : List (List Node)},
    shoots.length = budsOf tag node →
      buds tag (graftOn tag node shoots) = (shoots.map (buds tag)).sum
  | .element name as cs, shoots, h => by
    rw [budsOf] at h
    rw [graftOn]
    split at h
    · obtain ⟨shoot, rfl⟩ := List.length_eq_one_iff.mp h
      rw [if_pos ‹_›]
      simp
    · rw [if_neg ‹_›, buds_singleton, budsOf, if_neg ‹_›, buds_graft h]
  | .text _, shoots, h | .comment _, shoots, h | .cdata _, shoots, h
  | .instruction _, shoots, h => by
    rw [List.eq_nil_of_length_eq_zero h]
    rfl

/-- After grafting there are the buds of the shoots, and no others. -/
theorem buds_graft : ∀ {nodes : List Node} {shoots : List (List Node)},
    shoots.length = buds tag nodes →
      buds tag (graft tag nodes shoots) = (shoots.map (buds tag)).sum
  | [], shoots, h => by
    rw [List.eq_nil_of_length_eq_zero h]
    rfl
  | node :: nodes, shoots, h => by
    rw [buds] at h
    have here : (shoots.take (budsOf tag node)).length = budsOf tag node := by
      rw [List.length_take]
      omega
    have behind : (shoots.drop (budsOf tag node)).length = buds tag nodes := by
      rw [List.length_drop]
      omega
    rw [graft, buds_append, buds_graftOn here, buds_graft behind, ← List.sum_append,
      ← List.map_append, List.take_append_drop]

end

end

/-! ### Trees of calls -/

/-- A call of a splice that gave `b` elements of its name. -/
structure Call (tag : String) (b : Nat) where
  /-- What the splice gave. -/
  result : List Node
  count : buds tag result = b
  /-- The splices that were run by the call itself, with the depths at which they were. -/
  within : List (String × Nat)

/-- The calls of a splice of which each gives `b` elements of its name, and those for these
elements in turn, for a number of levels. -/
inductive Growth (tag : String) (b : Nat) : Nat → Type where
  /-- A call at the depth limit. -/
  | last (call : Call tag b) : Growth tag b 0
  | grown {levels : Nat} (call : Call tag b) (shoots : Fin b → Growth tag b levels) :
    Growth tag b (levels + 1)

namespace Growth

variable {tag : String} {b levels : Nat}

/-- What comes of the element: what the last calls gave stands as it is. -/
def output : {levels : Nat} → Growth tag b levels → List Node
  | _, .last call => call.result
  | _, .grown call shoots => graft tag call.result (List.ofFn fun i => (shoots i).output)

/-- The calls, each before those above it, with the depths at which they are made, if the first
one is made at the depth `d`. -/
def calls : {levels : Nat} → Growth tag b levels → Nat → List (Nat × Call tag b)
  | _, .last call, d => [(d, call)]
  | _, .grown call shoots, d => (d, call) :: (List.ofFn fun i => (shoots i).calls (d + 1)).flatten

/-- The elements of the name that the last calls gave are left. -/
theorem buds_output : ∀ {levels : Nat} (g : Growth tag b levels),
    buds tag g.output = b ^ (levels + 1)
  | _, .last call => by rw [output, call.count, Nat.zero_add, pow_one]
  | levels + 1, .grown call shoots => by
    have above (i : Fin b) : buds tag (shoots i).output = b ^ (levels + 1) := buds_output (shoots i)
    rw [output, buds_graft (by rw [List.length_ofFn, call.count]), List.map_ofFn]
    simp [Function.comp_def, above, pow_succ']

/-- The splices that are run, in order: the one of the name by each call, and those that the
call runs by itself. -/
def runs (g : Growth tag b levels) (d : Nat) : List (String × Nat) :=
  (g.calls d).flatMap fun call => (tag, call.1) :: call.2.within

theorem runs_grown (call : Call tag b) (shoots : Fin b → Growth tag b levels) (d : Nat) :
    (grown call shoots).runs d =
      (tag, d) :: call.within ++ (List.ofFn shoots).flatMap (·.runs (d + 1)) := by
  rw [runs, calls, List.flatMap_cons, List.flatten_eq_flatMap, List.flatMap_assoc, List.flatMap_def,
    List.flatMap_def, List.map_ofFn, List.map_ofFn]
  rfl

/-- If no call runs the splice of the name by itself, that splice is run once by each call. -/
theorem countP_runs (g : Growth tag b levels) (d : Nat)
    (alone : ∀ call ∈ g.calls d, ∀ run ∈ call.2.within, run.1 ≠ tag) :
    (g.runs d).countP (fun run => run.1 = tag) = (g.calls d).length := by
  have once (calls : List (Nat × Call tag b))
      (h : ∀ call ∈ calls, ∀ run ∈ call.2.within, run.1 ≠ tag) :
      (calls.flatMap fun call => (tag, call.1) :: call.2.within).countP (fun run => run.1 = tag) =
        calls.length := by
    induction calls with
    | nil => rfl
    | cons call calls ih =>
      have others : call.2.within.countP (fun run => run.1 = tag) = 0 := by
        simpa [List.countP_eq_zero] using h call List.mem_cons_self
      rw [List.flatMap_cons, List.countP_append, ih fun c hc => h c (List.mem_cons_of_mem _ hc),
        List.countP_cons, others]
      simp [Nat.add_comm]
  exact once _ alone

/-- The calls are made from the first depth on, level by level. -/
theorem depth_of_mem_calls {call : Nat × Call tag b} :
    ∀ {levels : Nat} (g : Growth tag b levels) {d : Nat}, call ∈ g.calls d →
      d ≤ call.1 ∧ call.1 ≤ d + levels
  | _, .last _, d, mem => by
    obtain rfl := List.mem_singleton.mp mem
    exact ⟨Nat.le_refl d, Nat.le_refl d⟩
  | _, .grown first shoots, d, mem => by
    rcases List.mem_cons.mp mem with rfl | mem
    · exact ⟨Nat.le_refl d, Nat.le_add_right d _⟩
    · obtain ⟨calls, made, mem⟩ := List.mem_flatten.mp mem
      obtain ⟨i, rfl⟩ := List.mem_ofFn.mp made
      obtain ⟨above, below⟩ := depth_of_mem_calls (shoots i) mem
      omega

/-- At the level `i` there are `b ^ i` calls. -/
theorem countP_calls : ∀ {levels : Nat} (g : Growth tag b levels) (d : Nat) {i : Nat}, i ≤ levels →
    (g.calls d).countP (fun call => call.1 = d + i) = b ^ i
  | _, .last call, d, i, h => by
    obtain rfl : i = 0 := Nat.le_zero.mp h
    simp [calls]
  | _, .grown call shoots, d, 0, _ => by
    have above (i : Fin b) : ((shoots i).calls (d + 1)).countP (fun call => call.1 = d) = 0 := by
      refine List.countP_eq_zero.mpr fun call mem => ?_
      have := (depth_of_mem_calls (shoots i) mem).1
      simp only [decide_eq_true_eq]
      omega
    simp [calls, List.countP_flatten, List.map_ofFn, Function.comp_def, above]
  | _, .grown call shoots, d, i + 1, h => by
    have above (j : Fin b) :
        ((shoots j).calls (d + 1)).countP (fun call => call.1 = d + (i + 1)) = b ^ i := by
      rw [← Nat.add_assoc, Nat.add_right_comm]
      exact countP_calls (shoots j) (d + 1) (Nat.le_of_succ_le_succ h)
    simp [calls, List.countP_flatten, List.map_ofFn, Function.comp_def, above, pow_succ']

/-- How many calls there are. -/
theorem length_calls : ∀ {levels : Nat} (g : Growth tag b levels) (d : Nat),
    (g.calls d).length = ∑ i ∈ Finset.range (levels + 1), b ^ i
  | _, .last call, d => by simp [calls]
  | levels + 1, .grown call shoots, d => by
    have above (i : Fin b) :
        ((shoots i).calls (d + 1)).length = ∑ i ∈ Finset.range (levels + 1), b ^ i :=
      length_calls (shoots i) (d + 1)
    simp only [calls, List.length_cons, List.length_flatten, List.map_ofFn, Function.comp_def,
      above, List.sum_ofFn, Finset.sum_const, Finset.card_univ, Fintype.card_fin, smul_eq_mul]
    rw [Finset.sum_range_succ' _ (levels + 1), Finset.mul_sum, pow_zero]
    simp only [pow_succ']

end Growth

end Templating
