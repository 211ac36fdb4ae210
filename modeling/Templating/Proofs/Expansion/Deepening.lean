import Templating.Proofs.Expansion.Depth
import Templating.Proofs.Expansion.Inert

/-!
# The depths at which splices are run

The journal tells which splices were run, and at which depth. A run that expands nodes at some
depth runs splices there or deeper, and not beyond the limit (`depth_of_expand`). That it is not
beyond the limit is known of the whole journal (`Depth`). That it is not less deep is known of
one run after the other, if each leaves the depth as it was (`Deepens`); only going deeper and
coming back do not, and they go the right way.
-/

namespace Templating

open Markup (Node)

theorem Stage.invocations_record (s : Stage) (entry : Entry) :
    Stage.invocations { s with ledger := s.ledger.record entry } =
      s.invocations ++ entry.invocation?.toList := by
  simp only [Stage.invocations, Ledger.record, List.filterMap_cons]
  cases entry.invocation? <;> simp

/-- From the one stage to the other splices were run at the depth `d` or deeper. -/
def RunsFrom (d : Nat) (s s' : Stage) : Prop :=
  ∃ runs, s'.invocations = s.invocations ++ runs ∧ ∀ run ∈ runs, d ≤ run.2

theorem runsFrom_of_eq {d : Nat} {s s' : Stage} (h : s'.invocations = s.invocations) :
    RunsFrom d s s' := ⟨[], by rw [h, List.append_nil], fun _ mem => nomatch mem⟩

theorem RunsFrom.trans {d : Nat} {s t u : Stage} (h : RunsFrom d s t) (h' : RunsFrom d t u) :
    RunsFrom d s u := by
  obtain ⟨first, hs, deep⟩ := h
  obtain ⟨later, ht, deep'⟩ := h'
  refine ⟨first ++ later, by rw [ht, hs, List.append_assoc], fun run mem => ?_⟩
  exact (List.mem_append.mp mem).elim (deep run) (deep' run)

theorem RunsFrom.mono {d d' : Nat} {s t : Stage} (h : RunsFrom d' s t) (deeper : d ≤ d') :
    RunsFrom d s t := by
  obtain ⟨runs, hs, deep⟩ := h
  exact ⟨runs, hs, fun run mem => Nat.le_trans deeper (deep run mem)⟩

theorem runsFrom_record {d : Nat} {entry : Entry} (h : ∀ run ∈ entry.invocation?, d ≤ run.2)
    (s : Stage) : RunsFrom d s { s with ledger := s.ledger.record entry } :=
  ⟨entry.invocation?.toList, s.invocations_record entry,
    fun run mem => h run (Option.mem_toList.mp mem)⟩

/-- From the one stage to the other the depth has stayed, and splices were run at this depth or
deeper. -/
structure Deepens (s s' : Stage) : Prop where
  depth : s'.state.depth = s.state.depth
  runs : RunsFrom s.state.depth s s'

instance : IsPreorder Stage Deepens where
  refl _ := ⟨rfl, runsFrom_of_eq rfl⟩
  trans _ _ _ h h' := ⟨h'.depth.trans h.depth, h.runs.trans (h.depth ▸ h'.runs)⟩

namespace Run

theorem deepens_level : Level fun _ r _ => Moves Deepens r where
  toSequential := moves_sequential
  change _ keeps := moves_modifyState fun s => ⟨keeps s.state, runsFrom_of_eq rfl⟩
  invoked name := moves_record fun s => ⟨rfl, runsFrom_record (by simp [Entry.invocation?]) s⟩
  called name := moves_record fun s => ⟨rfl, runsFrom_record (by simp [Entry.invocation?]) s⟩
  newCell := fun _ _ _ h => by
    cases h
    exact ⟨rfl, runsFrom_of_eq rfl⟩
  tick _ := fun _ _ _ h => by
    cases h
    exact ⟨rfl, runsFrom_of_eq rfl⟩
  applyHooks slot nodes := fun s _ _ h => by
    cases h
    obtain ⟨counts, hc⟩ :=
      (s.ledger.record (.hooked slot nodes)).exists_applyHooks (s.state.hooks slot) nodes
    rw [hc]
    exact ⟨rfl, runsFrom_of_eq rfl⟩
  keepingControl h := by
    intro s a s' run
    rw [keepingControl_apply, Option.map_eq_some_iff] at run
    obtain ⟨⟨_, t⟩, run, same⟩ := run
    cases same
    exact ⟨rfl, (h s _ t run).runs⟩
  keepingSplices h := by
    intro s a s' run
    rw [keepingSplices_apply, Option.map_eq_some_iff] at run
    obtain ⟨⟨_, t⟩, run, same⟩ := run
    cases same
    exact ⟨(h s _ t run).depth, (h s _ t run).runs⟩

end Run

namespace Engine

open Run

section

variable {e : Engine} (h : e.Related (fun _ r _ => Moves Deepens r) e)

include h

theorem descend_deepens (nodes : List Node) : Moves Deepens (e.descend nodes) := by
  intro s out s' run
  by_cases hd : s.state.depth < depthLimit
  · rw [e.descend_of_lt nodes hd, Option.map_eq_some_iff] at run
    obtain ⟨⟨_, t⟩, run, same⟩ := run
    cases same
    have deeper := h.expand nodes s.descended _ t run
    exact ⟨congrArg (· - 1) deeper.depth, deeper.runs.mono (Nat.le_succ _)⟩
  · rw [e.descend_of_le nodes (Nat.not_lt.mp hd)] at run
    cases run
    exact ⟨rfl, runsFrom_of_eq rfl⟩

theorem expandResult_runsFrom {result out : List Node} {s s' : Stage}
    (run : e.expandResult result s = some (out, s')) : RunsFrom s.state.depth s s' := by
  cases hr : s.state.recursing with
  | false =>
    rw [e.expandResult_of_stopped result hr] at run
    cases run
    exact runsFrom_of_eq rfl
  | true =>
    by_cases hd : s.state.depth < depthLimit
    · rw [e.expandResult_of_lt result hr hd] at run
      exact (h.expand result s.descended out s' run).runs.mono (Nat.le_succ _)
    · rw [e.expandResult_of_le result hr (Nat.not_lt.mp hd)] at run
      cases run
      exact runsFrom_of_eq rfl

theorem invoke_deepens (name : String) (splice : Splice) (node : Node) :
    Moves Deepens (e.invoke name splice node) := by
  intro s out s' run
  rw [e.invoke_apply, Option.map_eq_some_iff] at run
  obtain ⟨⟨_, t⟩, run, same⟩ := run
  cases same
  obtain ⟨⟨result, u⟩, called, expanded⟩ := Option.bind_eq_some_iff.mp run
  have entry : ∀ run ∈ (Entry.invoked name s.state.depth).invocation?, s.state.depth ≤ run.2 := by
    simp [Entry.invocation?]
  have first : RunsFrom s.state.depth s (s.entered name) := runsFrom_record entry s
  have call := h.call splice node (s.entered name) result u called
  have rest := expandResult_runsFrom h expanded
  rw [show u.state.depth = s.state.depth from call.depth] at rest
  exact ⟨rfl, first.trans (call.runs.trans rest)⟩

theorem Related.next_deepens : e.next.Related (fun _ r _ => Moves Deepens r) e.next where
  expand := @expandNodes_walk _ deepens_level.chaining e e (placeholder_plain deepens_level.plain h)
    (@replace_related _ deepens_level.toSequential e e (invoke_deepens h))
  call splice node := perform_level deepens_level h (descend_deepens h) (splice node)

end

theorem ofFuel_deepens : ∀ n, (ofFuel n).Related (fun _ r _ => Moves Deepens r) (ofFuel n)
  | 0 => ⟨fun _ => moves_failure, fun _ _ => moves_failure⟩
  | n + 1 => Related.next_deepens (ofFuel_deepens n)

/-- Splices are run at the depth of the run or deeper, and within the limit. -/
theorem depth_of_expand {s s' : Stage} {nodes out : List Node} (limit : s.state.depth ≤ depthLimit)
    (ends : EndsIn (fun n => (ofFuel n).expand nodes) s out s') {runs : List (String × Nat)}
    (since : s'.invocations = s.invocations ++ runs) :
    ∀ run ∈ runs, s.state.depth ≤ run.2 ∧ run.2 ≤ depthLimit := by
  obtain ⟨n, hn⟩ := ends
  have answer := hn n (Nat.le_refl n)
  intro run mem
  constructor
  · obtain ⟨deeper, hd, deep⟩ := ((ofFuel_deepens n).expand nodes s out s' answer).runs
    exact deep run (List.append_cancel_left (since.symm.trans hd) ▸ mem)
  · obtain ⟨out', t, -, holds, same⟩ := keepsToLimit_of_lockstep (r := (·.expand nodes)) limit
      ((cutAt_lockstep n).expand nodes) ((ofFuel_below_cutAt n).expand nodes)
    cases same _ answer
    obtain ⟨entries, written, within⟩ := holds.journal
    have later : runs = (entries.filterMap Entry.invocation?).reverse := by
      rw [Stage.invocations, Stage.invocations, written, List.filterMap_append,
        List.reverse_append] at since
      exact (List.append_cancel_left since).symm
    rw [later, List.mem_reverse, List.mem_filterMap] at mem
    obtain ⟨entry, mem, told⟩ := mem
    have bound := within entry mem
    cases entry <;> cases told <;> exact bound

end Engine

end Templating
