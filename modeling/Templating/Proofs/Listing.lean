import Templating.Proofs.Keeping

/-!
# Listed names and the templates they mean

The names of the templates of a state are its keys as they are displayed, in ascending order.
Where the segments of all keys can be told apart, each name stands there once, and from the
root it means the template under its key. So it is after every load into a state without
templates, whatever the files are called, since the templates of files have such paths.

One key is left out. The path without segments is displayed as the empty name, and that name
means nothing. A load registers a template there if a dot or two are all that is left of the
path of its file. So every name that is listed is found if and only if there is no such file
(`listing_spec`).
-/

namespace Templating

namespace State

variable {σ τ : State} {extensions : Extensions} {ledger : Ledger} {files : List SourceFile}

theorem templateNames_perm (σ : State) :
    σ.templateNames.Perm (σ.templates.keys.map Path.display) :=
  List.mergeSort_perm _ _

/-- Where the segments of all keys can be told apart, the listed names strictly ascend. -/
theorem templateNames_ascending (spelled : ∀ key ∈ σ.templates.keys, key.IsSpelled) :
    σ.templateNames.Pairwise fun a b => compare a b = .lt := by
  have once : σ.templateNames.Nodup := by
    refine (templateNames_perm σ).nodup_iff.mpr (σ.templates.keys_nodup.map_on ?_)
    intro key mem key' mem' same
    rw [← Path.parse_display (spelled key mem), same, Path.parse_display (spelled key' mem')]
  have total (a b : String) : (compare a b).isLE || (compare b a).isLE := by
    have swapped : compare b a = (compare a b).swap := Std.OrientedCmp.eq_swap
    rw [swapped]
    cases compare a b <;> rfl
  have sorted : σ.templateNames.Pairwise fun a b => (compare a b).isLE :=
    List.pairwise_mergeSort (fun _ _ _ => Std.TransCmp.isLE_trans) total _
  refine (sorted.and once).imp fun {a b} ⟨le, ne⟩ => ?_
  have apart : compare a b ≠ .eq := fun eq => ne (Std.LawfulEqCmp.eq_of_compare eq)
  cases order : compare a b with
  | lt => rfl
  | eq => exact absurd order apart
  | gt =>
    rw [order] at le
    cases le

theorem lookup_display (spelled : ∀ key ∈ σ.templates.keys, key.IsSpelled) {key : Path}
    {template : Template} (holds : σ.templates.get? key = some template) (named : key ≠ .root) :
    lookup { σ with context := .root } key.display = some (template, key.parent) := by
  have mem : key ∈ σ.templates.keys := Registry.mem_keys_iff.mpr (holds ▸ Option.some_ne_none _)
  exact resolve_display (spelled key mem) named holds

/-- The empty name means nothing, even if there is a template under the path that it displays. -/
theorem lookup_empty (spelled : ∀ key ∈ σ.templates.keys, key.IsSpelled) (context : Path) :
    lookup { σ with context } "" = none :=
  resolve_of_unnamed rfl fun key mem empty => (spelled key mem "" empty).1 rfl

/-- All listed names are found from the root unless the empty one is listed. -/
theorem listed_found_iff (spelled : ∀ key ∈ σ.templates.keys, key.IsSpelled) :
    (∀ name ∈ σ.templateNames, (lookup { σ with context := .root } name).isSome) ↔
      .root ∉ σ.templates.keys := by
  have listed {name : String} : name ∈ σ.templateNames ↔ ∃ key ∈ σ.templates.keys,
      key.display = name := (templateNames_perm σ).mem_iff.trans List.mem_map
  constructor
  · intro found mem
    have some := found "" (listed.mpr ⟨.root, mem, rfl⟩)
    rw [lookup_empty spelled] at some
    cases some
  · intro unregistered name mem
    obtain ⟨key, held, rfl⟩ := listed.mp mem
    obtain ⟨template, holds⟩ := Option.ne_none_iff_exists'.mp (Registry.mem_keys_iff.mp held)
    rw [lookup_display spelled holds fun root => unregistered (root ▸ held)]
    rfl

/-- What a load registers in a state without templates are the paths that files name. -/
theorem mem_keys_of_load (fresh : σ.templates = ∅)
    (loaded : (σ.load extensions ledger files).1 = .ok τ) {key : Path} :
    key ∈ τ.templates.keys ↔ key ∈ extensions.names files := by
  rw [(templates_of_load loaded).1, Registry.mem_keys_insertAll, keys_of_load loaded, fresh]
  exact or_iff_right List.not_mem_nil

/-- **Listed names after a load** into a state without templates. Every key has segments that are
not empty and hold no separator; each is listed once as it is displayed, in ascending order; and
each but the root means, from the root, the template under it. All that is listed is found if
and only if no template file names the root, which a file with an ordinary path does if a dot or
two are all that is left of it. -/
theorem listing_spec (fresh : σ.templates = ∅)
    (loaded : (σ.load extensions ledger files).1 = .ok τ) :
    (∀ key ∈ τ.templates.keys, key.IsSpelled) ∧
    τ.templateNames.Perm (τ.templates.keys.map Path.display) ∧
    (τ.templateNames.Pairwise fun a b => compare a b = .lt) ∧
    (∀ key template, τ.templates.get? key = some template → key ≠ .root →
      lookup { τ with context := .root } key.display = some (template, key.parent)) ∧
    lookup { τ with context := .root } Path.root.display = none ∧
    ((∀ name ∈ τ.templateNames, (lookup { τ with context := .root } name).isSome) ↔
      ∀ file ∈ extensions.select files, FileName.templatePath file.path ≠ .root) ∧
    ∀ file ∈ extensions.select files, FileName.IsOrdinary file.path →
      (FileName.templatePath file.path = .root ↔
        FileName.unextended file.path = ["."] ∨ FileName.unextended file.path = [".."]) := by
  have keys {key : Path} : key ∈ τ.templates.keys ↔ key ∈ extensions.names files :=
    mem_keys_of_load fresh loaded
  have spelled : ∀ key ∈ τ.templates.keys, key.IsSpelled := by
    intro key mem
    obtain ⟨file, -, rfl⟩ := List.mem_map.mp (keys.mp mem)
    exact FileName.templatePath_isSpelled file.path
  refine ⟨spelled, templateNames_perm τ, templateNames_ascending spelled,
    fun key template holds named => lookup_display spelled holds named,
    lookup_empty spelled .root, ?_, fun file accepted ordinary => ?_⟩
  · rw [listed_found_iff spelled, keys, Extensions.names, List.mem_map]
    simp
  · obtain ⟨-, format, hf⟩ := Extensions.mem_select.mp accepted
    exact ordinary.templatePath_eq_root_iff (Extensions.extension_of_format hf)

/-- The names of a page and a feed are listed and found. -/
theorem pageAndFeed_listed :
    ∃ τ, (State.standard.load {} {} pageAndFeed).1 = .ok τ ∧
      ∀ name ∈ τ.templateNames, (lookup { τ with context := .root } name).isSome := by
  obtain ⟨τ, loaded⟩ := exists_load_of_empty .standard {} {} pageAndFeed_empty
  obtain ⟨-, -, -, -, -, found, -⟩ := listing_spec rfl loaded
  exact ⟨τ, loaded, found.mpr (by decide)⟩

/-- A file of whose name a dot is left. -/
def dotFile : List SourceFile := [⟨"..tpl", .ok []⟩]

/-- Its template is listed under the empty name, and not found under that. -/
theorem dotFile_unreachable :
    ∃ τ, (State.empty.load {} {} dotFile).1 = .ok τ ∧ τ.Keeps "..tpl" ∧
      "" ∈ τ.templateNames ∧ lookup { τ with context := .root } "" = none := by
  have empty : ∀ file ∈ dotFile, file.contents = .ok [] := by simp [dotFile]
  obtain ⟨τ, loaded⟩ := exists_load_of_empty .empty {} {} empty
  have keys {key : Path} : key ∈ τ.templates.keys ↔ key = .root :=
    (mem_keys_of_load rfl loaded).trans List.mem_singleton
  have spelled : ∀ key ∈ τ.templates.keys, key.IsSpelled := by
    intro key mem
    rw [keys.mp mem]
    exact nofun
  have accepted : ⟨"..tpl", .ok []⟩ ∈ Extensions.select {} dotFile :=
    Extensions.mem_select.mpr ⟨List.mem_singleton.mpr rfl, .html, by decide⟩
  exact ⟨τ, loaded, (keeps_iff loaded accepted).mpr (by decide),
    (templateNames_perm τ).mem_iff.mpr (List.mem_map.mpr ⟨.root, keys.mpr rfl, rfl⟩),
    lookup_empty spelled .root⟩

end State

end Templating
