import Templating.Command
import Templating.Proofs.FileTree
import Templating.Proofs.Result
import Templating.Proofs.Site

/-!
# Commands that fail

A command fails if and only if something stands in its way (`exists_fails_iff`): a parameter
at fault, wherever it stands among the others, a site that does not load, a name without a
template, an expansion without end, or a file that cannot be written. Writing comes last
(`renderSite_eq`), when all that could have been printed is there.

So a command that fails leaves the tree as it was and prints nothing (`run_of_failure`), and one
that writes a file writes what it would have printed, and prints nothing (`run_of_output`).
-/

namespace Templating.Command

open Site (Fault)

variable {t : FileTree} {root name path : String} {output config : Option String}
  {params : List String} {command : Command} {fault : Fault} {outcome : Outcome}

/-! ### What is rendered -/

/-- What a render gives, before it is written or printed. -/
def rendered (t : FileTree) (root name : String) (params : List String) (config : Option String) :
    Except Fault Rendered :=
  ((params.mapM parseParam).mapError .param).bind fun args =>
    (Site.load t root config).bind fun σ => Site.render σ name args

/-- What becomes of it: it is printed, or written if a file is named. -/
def deliver (t : FileTree) (output : Option String) (r : Rendered) : Except Fault Outcome :=
  match output with
  | none => .ok { files := t, printed := r.bytes }
  | some path => ((t.write path r.bytes).mapError (.unwritable path)).map fun files => { files }

/-- **A render** is delivered last. -/
theorem renderSite_eq : renderSite t root name output params config =
    (rendered t root name params config).bind (deliver t output) := by
  rw [renderSite, rendered, mapM_mapError]
  cases (params.mapM parseParam).mapError Fault.param with
  | error fault => rfl
  | ok args =>
    change (Site.load t root config).bind _ = ((Site.load t root config).bind _).bind _
    cases Site.load t root config with
    | error fault => rfl
    | ok σ =>
      change (Site.render σ name args).bind _ = (Site.render σ name args).bind _
      cases Site.render σ name args with
      | error fault => rfl
      | ok r =>
        cases output with
        | none => rfl
        | some path =>
          change ((t.write path r.bytes).mapError _).bind _ =
            ((t.write path r.bytes).mapError _).map _
          cases t.write path r.bytes <;> rfl

/-- What a command comes to, or why it fails. -/
def attempt (t : FileTree) : Command → Except Fault Outcome
  | .render root name output params config =>
    (rendered t root name params config).bind (deliver t output)
  | .check root config => checkSite t root config
  | .list root config => listSite t root config

theorem run_eq (t : FileTree) (command : Command) :
    command.run t = match attempt t command with
      | .ok outcome => outcome
      | .error fault => .failing t fault := by
  cases command with
  | render root name output params config =>
    have same : attempt t (render root name output params config) =
        renderSite t root name output params config := renderSite_eq.symm
    exact same ▸ rfl
  | check root config | list root config => rfl

theorem checkSite_eq : checkSite t root config = (Site.load t root config).map fun σ =>
    .printing t s!"{σ.templates.size} templates OK\n" := by
  rw [checkSite]
  cases Site.load t root config <;> rfl

theorem listSite_eq : listSite t root config = (Site.load t root config).map fun σ =>
    .printing t (String.join (σ.templateNames.map (· ++ "\n"))) := by
  rw [listSite]
  cases Site.load t root config <;> rfl

/-- A command that comes to something has not failed. -/
theorem code_of_attempt (h : attempt t command = .ok outcome) : outcome.code = 0 := by
  cases command with
  | render root name output params config =>
    obtain ⟨r, -, delivered⟩ := exists_of_bind_eq_ok h
    cases output with
    | none =>
      cases delivered
      rfl
    | some path =>
      obtain ⟨files, -, rfl⟩ := exists_of_map_eq_ok delivered
      rfl
  | check root config =>
    rw [attempt, checkSite_eq] at h
    obtain ⟨σ, -, rfl⟩ := exists_of_map_eq_ok h
    rfl
  | list root config =>
    rw [attempt, listSite_eq] at h
    obtain ⟨σ, -, rfl⟩ := exists_of_map_eq_ok h
    rfl

theorem run_of_code_eq_zero (h : (command.run t).code = 0) :
    attempt t command = .ok (command.run t) := by
  rw [run_eq] at h ⊢
  cases attempted : attempt t command with
  | ok outcome => rfl
  | error fault =>
    rw [attempted] at h
    cases h

theorem run_of_code_ne_zero (h : (command.run t).code ≠ 0) :
    ∃ fault, attempt t command = .error fault ∧ command.run t = .failing t fault := by
  rw [run_eq] at h ⊢
  cases attempted : attempt t command with
  | ok outcome =>
    rw [attempted] at h
    exact absurd (code_of_attempt attempted) h
  | error fault => exact ⟨fault, rfl, rfl⟩

/-! ### What stands in the way of a command -/

/-- What makes a command fail. -/
inductive Fails (t : FileTree) : Command → Fault → Prop
  /-- A parameter is at fault, wherever it stands. -/
  | param {root name : String} {output config : Option String} {params : List String}
      {raw : String} {cause : ParamFault} (mem : raw ∈ params)
      (failed : parseParam raw = .error cause) :
      Fails t (.render root name output params config) (.param cause)
  | site {command : Command} {fault : Fault}
      (failed : Site.Fails t command.root command.config? fault) : Fails t command fault
  | noTemplate {root name : String} {output config : Option String} {params : List String}
      {σ : State} (loaded : Site.load t root config = .ok σ) (missing : σ.lookup name = none) :
      Fails t (.render root name output params config) (.noTemplate name)
  | endless {root name : String} {output config : Option String} {params : List String}
      {args : List (String × String)} {σ : State} (read : params.mapM parseParam = .ok args)
      (loaded : Site.load t root config = .ok σ)
      (endless : (Engine.ofFuel Site.fuel).renderWith name args { state := σ } = none) :
      Fails t (.render root name output params config) (.endless name)
  /-- What the command would print cannot be written. -/
  | unwritable {root name path : String} {config : Option String} {params : List String}
      {cause : FileTree.Fault}
      (failed : t.write path ((Command.render root name none params config).run t).printed =
        .error cause) :
      Fails t (.render root name (some path) params config) (.unwritable path cause)

theorem fails_of_rendered (h : rendered t root name params config = .error fault) :
    Fails t (.render root name output params config) fault := by
  rcases error_of_bind h with unread | ⟨args, read, h⟩
  · obtain ⟨cause, failed, rfl⟩ := exists_of_mapError_eq_error unread
    obtain ⟨raw, mem, failed⟩ := exists_of_mapM_eq_error failed
    exact .param mem failed
  · rcases error_of_bind h with loaded | ⟨σ, loaded, h⟩
    · exact .site (Site.fails_of_load loaded)
    · rcases Site.fails_of_render h with ⟨rfl, missing⟩ | ⟨rfl, endless⟩
      · exact .noTemplate loaded missing
      · exact .endless (mapError_eq_ok_iff.mp read) loaded endless

/-- What would be printed is what is rendered. -/
theorem printed_of_rendered {r : Rendered} (h : rendered t root name params config = .ok r) :
    (Command.render root name none params config).run t = { files := t, printed := r.bytes } := by
  rw [run_eq, attempt, h]
  rfl

theorem fails_of_attempt (h : attempt t command = .error fault) : Fails t command fault := by
  cases command with
  | render root name output params config =>
    rcases error_of_bind h with failed | ⟨r, ok, delivered⟩
    · exact fails_of_rendered failed
    · cases output with
      | none => cases delivered
      | some path =>
        obtain ⟨cause, failed, rfl⟩ := exists_of_mapError_eq_error (error_of_map delivered)
        refine .unwritable ?_
        rw [printed_of_rendered ok]
        exact failed
  | check root config =>
    rw [attempt, checkSite_eq] at h
    exact .site (Site.fails_of_load (error_of_map h))
  | list root config =>
    rw [attempt, listSite_eq] at h
    exact .site (Site.fails_of_load (error_of_map h))

/-- What comes to something has a site. -/
theorem loads_of_attempt (h : attempt t command = .ok outcome) :
    ∃ σ, Site.load t command.root command.config? = .ok σ := by
  cases command with
  | render root name output params config =>
    obtain ⟨r, ok, -⟩ := exists_of_bind_eq_ok h
    obtain ⟨args, -, ok⟩ := exists_of_bind_eq_ok ok
    obtain ⟨σ, loaded, -⟩ := exists_of_bind_eq_ok ok
    exact ⟨σ, loaded⟩
  | check root config =>
    rw [attempt, checkSite_eq] at h
    obtain ⟨σ, loaded, -⟩ := exists_of_map_eq_ok h
    exact ⟨σ, loaded⟩
  | list root config =>
    rw [attempt, listSite_eq] at h
    obtain ⟨σ, loaded, -⟩ := exists_of_map_eq_ok h
    exact ⟨σ, loaded⟩

/-- What stands in the way of a command makes it fail, whatever else does. -/
theorem Fails.attempt_ne_ok (h : Fails t command fault) : attempt t command ≠ .ok outcome := by
  intro attempted
  cases h with
  | param mem failed =>
    obtain ⟨r, ok, -⟩ := exists_of_bind_eq_ok attempted
    obtain ⟨args, read, -⟩ := exists_of_bind_eq_ok ok
    obtain ⟨arg, parsed⟩ := exists_of_mapM_eq_ok (mapError_eq_ok_iff.mp read) mem
    rw [failed] at parsed
    cases parsed
  | site failed =>
    obtain ⟨σ, loaded⟩ := loads_of_attempt attempted
    exact failed.load_ne_ok loaded
  | noTemplate loaded missing =>
    obtain ⟨r, ok, -⟩ := exists_of_bind_eq_ok attempted
    obtain ⟨args, -, ok⟩ := exists_of_bind_eq_ok ok
    rw [loaded] at ok
    rw [Except.bind, Site.render_of_missing args missing] at ok
    cases ok
  | endless read loaded endless =>
    obtain ⟨r, ok, -⟩ := exists_of_bind_eq_ok attempted
    rw [rendered, mapError_eq_ok_iff.mpr read, loaded] at ok
    rw [Except.bind, Except.bind, Site.render_of_endless endless] at ok
    cases ok
  | unwritable failed =>
    obtain ⟨r, ok, delivered⟩ := exists_of_bind_eq_ok attempted
    obtain ⟨files, written, -⟩ := exists_of_map_eq_ok delivered
    rw [printed_of_rendered ok] at failed
    rw [mapError_eq_ok_iff.mp written] at failed
    cases failed

/-! ### Effects -/

/-- **A command fails** if and only if something stands in its way. -/
theorem exists_fails_iff : (command.run t).code ≠ 0 ↔ ∃ fault, Fails t command fault := by
  constructor
  · intro h
    obtain ⟨fault, failed, -⟩ := run_of_code_ne_zero h
    exact ⟨fault, fails_of_attempt failed⟩
  · rintro ⟨fault, fails⟩ success
    exact fails.attempt_ne_ok (run_of_code_eq_zero success)

/-- **A command that fails** prints nothing and leaves the tree as it was. -/
theorem run_of_failure (h : (command.run t).code ≠ 0) :
    (command.run t).printed = [] ∧ (command.run t).files = t := by
  obtain ⟨fault, -, failed⟩ := run_of_code_ne_zero h
  rw [failed]
  exact ⟨rfl, rfl⟩

/-- **A command that writes a file** prints nothing, and writes what it would have printed. -/
theorem run_of_output (h : ((render root name (some path) params config).run t).code = 0) :
    ((render root name (some path) params config).run t).printed = [] ∧
      ((render root name none params config).run t).code = 0 ∧
      t.Rewritten path ((render root name none params config).run t).printed
        ((render root name (some path) params config).run t).files := by
  obtain ⟨r, ok, delivered⟩ := exists_of_bind_eq_ok (run_of_code_eq_zero h)
  obtain ⟨files, written, same⟩ := exists_of_map_eq_ok delivered
  rw [← same, printed_of_rendered ok]
  exact ⟨rfl, rfl, FileTree.rewritten_of_write (mapError_eq_ok_iff.mp written)⟩

end Templating.Command
