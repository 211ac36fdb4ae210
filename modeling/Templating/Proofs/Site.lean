import Templating.Proofs.Expansion.Step
import Templating.Proofs.Result
import Templating.Site

/-!
# Sites that load and templates that render

A site loads if and only if it is a directory, its configuration can be had and so can all of its
templates (`load_eq_ok_iff`), and otherwise the fault is the first of these (`fails_of_load`). A
render of a loaded site fails only where the name means no template, or where the expansion takes
more nested calls than it is given (`fails_of_render`).
-/

namespace Templating

namespace Engine

variable {e : Engine} {name : String} {s s' : Stage}

theorem render_of_missing (h : s.state.lookup name = none) : e.render name s = some (none, s) := by
  simp [render, h]

/-- A template that a name means is rendered, if it is expanded at all. -/
theorem lookup_of_render (h : e.render name s = some (none, s')) :
    s.state.lookup name = none := by
  cases found : s.state.lookup name with
  | none => rfl
  | some held =>
    obtain ⟨template, directory⟩ := held
    let copy : Stage := { s with state := s.state.forRender }
    have again : copy.state.lookup name = some (template, directory) := found
    rw [e.render_of_found found] at h
    obtain ⟨⟨content?, after⟩, evaluated, same⟩ := Option.map_eq_some_iff.mp h
    obtain ⟨content, rfl⟩ := e.isSome_of_evaluate (s := copy) again evaluated
    cases same

/-- Texts are bound to names of splices, so that they do not change what names of templates
mean. -/
theorem lookup_of_renderWith {args : List (String × String)}
    (h : e.renderWith name args s = some (none, s')) : s.state.lookup name = none := by
  rw [renderWith, Run.keepingSplices_apply] at h
  obtain ⟨⟨rendered, after⟩, ran, same⟩ := Option.map_eq_some_iff.mp h
  cases same
  rw [Run.bind_apply, Run.modifyState_apply, Option.bind_some] at ran
  exact lookup_of_render (s := { s with state := s.state.bindTexts args }) ran

theorem renderWith_of_missing (args : List (String × String)) (h : s.state.lookup name = none) :
    e.renderWith name args s = some (none, s) := by
  have missing : e.render name { s with state := s.state.bindTexts args } =
      some (none, { s with state := s.state.bindTexts args }) := render_of_missing h
  rw [renderWith, Run.keepingSplices_apply, Run.bind_apply, Run.modifyState_apply,
    Option.bind_some, missing]
  rfl

end Engine

namespace Site

variable {t : FileTree} {root : String} {config : Option String} {σ : State} {fault : Fault}

/-! ### Loading -/

/-- What keeps a site from being loaded. -/
inductive Fails (t : FileTree) (root : String) (config : Option String) : Fault → Prop
  | noRoot : t.isDirectory root = false → Fails t root config (.noRoot root)
  | config {cause : Config.Fault} : Config.load t root config = .error cause →
      Fails t root config (.config cause)
  | templates {c : Config} {error : LoadError} : Config.load t root config = .ok c →
      (c.state.load c.extensions {} (t.listing c.extensions root)).1 = .error error →
        Fails t root config (.templates root error)

theorem load_eq : load t root config =
    if t.isDirectory root = true then
      match Config.load t root config with
      | .error cause => .error (.config cause)
      | .ok c =>
        (c.state.load c.extensions {} (t.listing c.extensions root)).1.mapError (.templates root)
    else .error (.noRoot root) := by
  rw [load]
  cases t.isDirectory root with
  | false => rfl
  | true => cases Config.load t root config <;> rfl

/-- **A site loads** if it is a directory, with a configuration and templates that can be had. -/
theorem load_eq_ok_iff : load t root config = .ok σ ↔
    t.isDirectory root = true ∧ ∃ c, Config.load t root config = .ok c ∧
      (c.state.load c.extensions {} (t.listing c.extensions root)).1 = .ok σ := by
  rw [load_eq]
  by_cases directory : t.isDirectory root = true
  · rw [if_pos directory]
    cases Config.load t root config with
    | error cause => simp
    | ok c =>
      simp only [directory, true_and, Except.ok.injEq, exists_eq_left', mapError_eq_ok_iff]
  · simp [directory]

/-- The fault of a site that does not load is one that it has. -/
theorem fails_of_load (h : load t root config = .error fault) : Fails t root config fault := by
  rw [load_eq] at h
  by_cases directory : t.isDirectory root = true
  · rw [if_pos directory] at h
    cases configured : Config.load t root config with
    | error cause =>
      rw [configured] at h
      cases h
      exact .config configured
    | ok c =>
      simp only [configured] at h
      cases loaded : (c.state.load c.extensions {} (t.listing c.extensions root)).1 with
      | error error =>
        rw [loaded] at h
        cases h
        exact .templates configured loaded
      | ok σ =>
        rw [loaded] at h
        cases h
  · rw [if_neg directory] at h
    cases h
    exact .noRoot (eq_false_of_ne_true directory)

/-- A site with a fault does not load. -/
theorem Fails.load_ne_ok (h : Fails t root config fault) : load t root config ≠ .ok σ := by
  intro loads
  obtain ⟨directory, c, configured, loaded⟩ := load_eq_ok_iff.mp loads
  cases h with
  | noRoot missing =>
    rw [directory] at missing
    cases missing
  | config failed =>
    rw [configured] at failed
    cases failed
  | templates configured' failed =>
    rw [configured] at configured'
    cases configured'
    rw [loaded] at failed
    cases failed

/-! ### Rendering -/

theorem render_of_missing {name : String} (params : List (String × String))
    (h : σ.lookup name = none) : render σ name params = .error (.noTemplate name) := by
  have missing : (Stage.mk σ {}).state.lookup name = none := h
  rw [render, StateT.run, Engine.renderWith_of_missing params missing]

theorem render_of_endless {name : String} {params : List (String × String)}
    (h : (Engine.ofFuel fuel).renderWith name params { state := σ } = none) :
    render σ name params = .error (.endless name) := by
  rw [render, StateT.run, h]

/-- A render fails where there is no template, or where the fuel does not suffice. -/
theorem fails_of_render {name : String} {params : List (String × String)}
    (h : render σ name params = .error fault) :
    (fault = .noTemplate name ∧ σ.lookup name = none) ∨
      (fault = .endless name ∧
        (Engine.ofFuel fuel).renderWith name params { state := σ } = none) := by
  rw [render, StateT.run] at h
  cases ran : (Engine.ofFuel fuel).renderWith name params { state := σ } with
  | none =>
    rw [ran] at h
    cases h
    exact .inr ⟨rfl, rfl⟩
  | some answer =>
    obtain ⟨rendered, after⟩ := answer
    rw [ran] at h
    cases rendered with
    | none =>
      cases h
      exact .inl ⟨rfl, Engine.lookup_of_renderWith ran⟩
    | some rendered => cases h

end Site

end Templating
