import Templating.Proofs.FileName
import Templating.Proofs.Insertion
import Templating.Proofs.Loading

/-!
# Which files a load keeps

A load registers the template of a file under the path that the file names, and reports only
files that cannot be read or hold no document. Of two files that name the same path it keeps
the later one, and says nothing of the other. So it keeps all templates if and only if their
files name different paths (`load_keeps_iff`).

Files with different paths may do otherwise. If their steps are ordinary, there are two
reasons: the one file has the extension for HTML and the other that for XML, and they differ
in nothing else; or a dot or two are left of a file without its extension, which are no
names, so that the template is registered under the path of the directory.
-/

namespace Templating

open Markup (Format)

/-- The extension of files in a format. -/
def Extensions.of (extensions : Extensions) : Format → String
  | .html => extensions.html
  | .xml => extensions.xml

theorem Extensions.extension_of_format {extensions : Extensions} {path : String} {format : Format}
    (h : extensions.format? path = some format) :
    FileName.extension? path = some (extensions.of format) := by
  rw [Extensions.format?] at h
  cases he : FileName.extension? path with
  | none =>
    rw [he] at h
    cases h
  | some extension =>
    simp only [he] at h
    split at h
    · rename_i html
      cases h
      exact congrArg some html
    · split at h
      · rename_i xml
        cases h
        exact congrArg some xml
      · cases h

theorem Extensions.mem_select {extensions : Extensions} {files : List SourceFile}
    {file : SourceFile} : file ∈ extensions.select files ↔
      file ∈ files ∧ ∃ format, extensions.format? file.path = some format := by
  rw [select, List.mem_filter, Option.isSome_iff_exists]

/-- The paths that the templates in a listing are registered under, in order. -/
def Extensions.names (extensions : Extensions) (files : List SourceFile) : List Path :=
  (extensions.select files).map fun file => FileName.templatePath file.path

theorem SourceFile.IsSound.isSome_document? {extensions : Extensions} {file : SourceFile}
    (h : file.IsSound extensions) :
    (file.document? extensions).isSome = (extensions.format? file.path).isSome := by
  obtain ⟨bytes, read, parsed⟩ := h
  rw [document?, read]
  cases hf : extensions.format? file.path with
  | none => rfl
  | some format =>
    obtain ⟨document, hp⟩ := parsed format hf
    simp only [hp]
    rfl

/-- Where no file is at fault, all templates of the listing are registered, each with its file. -/
theorem prepare_files {extensions : Extensions} (onLoad : List Hook) {files : List SourceFile}
    (sound : ∀ file ∈ files, file.IsSound extensions) (ledger : Ledger) :
    (prepare extensions onLoad ledger files).1.map (fun e => (e.1, e.2.file)) =
      (extensions.select files).map fun file =>
        (FileName.templatePath file.path, some file.path) := by
  induction files generalizing ledger with
  | nil => rfl
  | cons file files ih =>
    obtain ⟨first, rest⟩ := List.forall_mem_cons.mp sound
    have accepted := first.isSome_document?
    rw [prepare, Extensions.select, List.filter_cons, ← accepted]
    cases file.document? extensions with
    | none => exact ih rest ledger
    | some document => exact congrArg _ (ih rest _)

namespace State

variable {σ τ : State} {extensions : Extensions} {ledger : Ledger} {files : List SourceFile}

/-- Empty files hold empty documents, so that they can be loaded. -/
theorem exists_load_of_empty (σ : State) (extensions : Extensions) (ledger : Ledger)
    (empty : ∀ file ∈ files, file.contents = .ok []) :
    ∃ τ, (σ.load extensions ledger files).1 = .ok τ := by
  have sound : ∀ file ∈ files, file.IsSound extensions := fun file mem =>
    ⟨[], empty file mem, fun format _ => ⟨_, Markup.parse_nil format⟩⟩
  rw [load_eq, if_pos ((messages_eq_nil_iff extensions files).mpr sound)]
  exact ⟨_, rfl⟩

/-- A load that succeeds registers the templates of the listing. -/
theorem templates_of_load (loaded : (σ.load extensions ledger files).1 = .ok τ) :
    τ.templates = σ.templates.insertAll (prepare extensions σ.onLoad ledger files).1 ∧
      (prepare extensions σ.onLoad ledger files).1.map (fun e => (e.1, e.2.file)) =
        (extensions.select files).map fun file =>
          (FileName.templatePath file.path, some file.path) := by
  rw [load_eq] at loaded
  split at loaded
  · rename_i none
    cases loaded
    exact ⟨rfl, prepare_files _ ((messages_eq_nil_iff extensions files).mp none) ledger⟩
  · cases loaded

theorem keys_of_load (loaded : (σ.load extensions ledger files).1 = .ok τ) :
    (prepare extensions σ.onLoad ledger files).1.map (·.1) = extensions.names files := by
  have keys := congrArg (List.map (·.1)) (templates_of_load loaded).2
  rwa [List.map_map, List.map_map] at keys

/-- After a load, what is registered was registered before, or is the template of a file. -/
theorem origin_of_load (loaded : (σ.load extensions ledger files).1 = .ok τ) {key : Path}
    {template : Template} (holds : τ.templates.get? key = some template) :
    σ.templates.get? key = some template ∨ ∃ file ∈ extensions.select files,
      key = FileName.templatePath file.path ∧ template.file = some file.path := by
  obtain ⟨templates, entries⟩ := templates_of_load loaded
  rw [templates, Registry.get?_insertAll] at holds
  rcases Option.or_eq_some_iff.mp holds with new | ⟨-, old⟩
  · have mem := List.mem_map_of_mem (f := fun e => (e.1, e.2.file))
      (List.mem_reverse.mp (Registry.mem_of_find_eq_some new))
    rw [entries] at mem
    obtain ⟨file, accepted, entry⟩ := List.mem_map.mp mem
    obtain ⟨keys, values⟩ := Prod.mk.inj entry
    exact .inr ⟨file, accepted, keys.symm, values.symm⟩
  · exact .inl old

/-- Whether the template under the path that a file names is that of the file. -/
def Keeps (σ : State) (path : String) : Prop :=
  ∃ template, σ.templates.get? (FileName.templatePath path) = some template ∧
    template.file = some path

/-- A load keeps a template if it is the last one under its path. -/
theorem keeps_iff (loaded : (σ.load extensions ledger files).1 = .ok τ) {file : SourceFile}
    (accepted : file ∈ extensions.select files) :
    τ.Keeps file.path ↔
      Registry.last? (FileName.templatePath file.path) ((extensions.select files).map fun file =>
        (FileName.templatePath file.path, some file.path)) = some (some file.path) := by
  obtain ⟨templates, entries⟩ := templates_of_load loaded
  have named : FileName.templatePath file.path ∈
      (prepare extensions σ.onLoad ledger files).1.map (·.1) := by
    rw [keys_of_load loaded]
    exact List.mem_map_of_mem (f := fun file : SourceFile => FileName.templatePath file.path)
      accepted
  rw [Keeps, templates, Registry.get?_insertAll, ← entries, Registry.last?_map_snd]
  cases last : Registry.last? (FileName.templatePath file.path)
      (prepare extensions σ.onLoad ledger files).1 with
  | none => exact absurd named (Registry.last?_eq_none_iff.mp last)
  | some template => simp

end State

/-- Whether no two template files of a listing have the one the extension for HTML, the other
that for XML, and no other difference. -/
def Extensions.TellsApart (extensions : Extensions) (files : List SourceFile) : Prop :=
  ∀ file ∈ extensions.select files, ∀ other ∈ extensions.select files,
    extensions.format? file.path = some .html → extensions.format? other.path = some .xml →
      FileName.unextended file.path ≠ FileName.unextended other.path

instance (extensions : Extensions) (files : List SourceFile) :
    Decidable (extensions.TellsApart files) :=
  inferInstanceAs <| Decidable <|
    ∀ file ∈ extensions.select files, ∀ other ∈ extensions.select files, _ → _ → _ ≠ _

/-- The templates of files with ordinary paths of which no dots are left are registered under
different paths if and only if these differ in more than the extension. -/
theorem Extensions.names_nodup_iff {extensions : Extensions} {files : List SourceFile}
    (ordinary : ∀ file ∈ files, FileName.IsOrdinary file.path)
    (distinct : (files.map (·.path)).Nodup)
    (undotted : ∀ file ∈ extensions.select files, ¬ FileName.IsDotted file.path) :
    (extensions.names files).Nodup ↔ extensions.TellsApart files := by
  have names {file : SourceFile} (accepted : file ∈ extensions.select files) :
      FileName.templatePath file.path = .ofSegments (FileName.unextended file.path) := by
    obtain ⟨mem, format, hf⟩ := mem_select.mp accepted
    exact FileName.templatePath_eq ((ordinary file mem).isName_unextended
      (extension_of_format hf) (undotted file accepted))
  constructor
  · intro nodup file accepted other accepted' html xml same
    have paths : FileName.templatePath file.path = FileName.templatePath other.path := by
      rw [names accepted, names accepted', same]
    obtain rfl := List.inj_on_of_nodup_map nodup accepted accepted' paths
    rw [html] at xml
    cases xml
  · intro apart
    refine List.Nodup.map_on (fun file accepted other accepted' paths => ?_)
      (distinct.of_map.filter _)
    rw [names accepted, names accepted', Path.ofSegments, Path.ofSegments, Path.mk.injEq,
      List.reverse_inj] at paths
    obtain ⟨mem, format, hf⟩ := mem_select.mp accepted
    obtain ⟨mem', format', hf'⟩ := mem_select.mp accepted'
    have equal {format : Format} (hf : extensions.format? file.path = some format)
        (hf' : extensions.format? other.path = some format) : file = other :=
      List.inj_on_of_nodup_map distinct mem mem' (FileName.eq_of_unextended (ordinary file mem)
        (ordinary other mem') (extension_of_format hf) (extension_of_format hf') paths)
    -- files of one format have one extension, so that they differ in something else
    cases format <;> cases format'
    · exact equal hf hf'
    · exact absurd paths (apart file accepted other accepted' hf hf')
    · exact absurd paths.symm (apart other accepted' file accepted hf' hf)
    · exact equal hf hf'

/-- **What a load keeps**: of files with different paths it keeps every template under the path
that its file names if and only if these paths are different, and then it grows the registry by
as many as there are templates, if nothing was registered there. A template that is not kept
there is kept nowhere else. If the paths of the files are ordinary and no dots are left of them,
different files name the same path only if they differ in their extension alone. -/
theorem load_keeps_iff {σ τ : State} {extensions : Extensions} {ledger : Ledger}
    {files : List SourceFile} (distinct : (files.map (·.path)).Nodup)
    (loaded : (σ.load extensions ledger files).1 = .ok τ) :
    ((∀ file ∈ extensions.select files, τ.Keeps file.path) ↔ (extensions.names files).Nodup) ∧
    ((∀ key ∈ extensions.names files, σ.templates.get? key = none) →
      (τ.templates.size = σ.templates.size + (extensions.select files).length ↔
        (extensions.names files).Nodup)) ∧
    (∀ file ∈ extensions.select files, ∀ key template, τ.templates.get? key = some template →
      template.file = some file.path →
        key = FileName.templatePath file.path ∨ σ.templates.get? key = some template) ∧
    ((∀ file ∈ files, FileName.IsOrdinary file.path) →
      (∀ file ∈ extensions.select files, ¬ FileName.IsDotted file.path) →
      ((extensions.names files).Nodup ↔ extensions.TellsApart files)) := by
  refine ⟨?_, fun new => ?_, fun file _ key template holds origin => ?_,
    fun ordinary undotted => Extensions.names_nodup_iff ordinary distinct undotted⟩
  · have accepted : ((extensions.select files).map (·.path)).Nodup :=
      distinct.sublist (List.filter_sublist.map _)
    have values : ((extensions.select files).map fun file => some file.path).Nodup :=
      accepted.of_map.map_on fun file mem other mem' same =>
        List.inj_on_of_nodup_map accepted mem mem' (Option.some.inj same)
    have counts : (∀ file ∈ extensions.select files, Registry.last?
        (FileName.templatePath file.path) ((extensions.select files).map fun file =>
          (FileName.templatePath file.path, some file.path)) = some (some file.path)) ↔
        (extensions.names files).Nodup := Registry.last?_eq_iff_nodup values
    rw [← counts]
    exact forall₂_congr fun file mem => State.keeps_iff loaded mem
  · have keys := State.keys_of_load loaded
    have grown : τ.templates.size = σ.templates.size + (extensions.names files).dedup.length := by
      rw [(State.templates_of_load loaded).1, Registry.size_insertAll fun e mem => ?_, keys]
      exact new _ (keys ▸ List.mem_map_of_mem mem)
    have count : (extensions.names files).length = (extensions.select files).length :=
      List.length_map _
    rw [grown, Nat.add_left_cancel_iff, ← count, ← List.dedup_eq_self]
    exact ⟨(List.dedup_sublist _).eq_of_length, congrArg List.length⟩
  · rcases State.origin_of_load loaded holds with old | ⟨other, -, rfl, made⟩
    · exact .inr old
    · rw [made] at origin
      rw [Option.some.inj origin]
      exact .inl rfl

/-- An empty page and an empty feed. -/
def pageAndFeed : List SourceFile := [⟨"blog/post.tpl", .ok []⟩, ⟨"blog/feed.xtpl", .ok []⟩]

theorem pageAndFeed_empty : ∀ file ∈ pageAndFeed, file.contents = .ok [] := by
  simp [pageAndFeed]

theorem pageAndFeed_kept :
    (pageAndFeed.map (·.path)).Nodup ∧ ∃ τ, (State.standard.load {} {} pageAndFeed).1 = .ok τ ∧
      τ.Keeps "blog/post.tpl" ∧ τ.Keeps "blog/feed.xtpl" ∧ τ.templates.size = 2 := by
  have distinct : (pageAndFeed.map (·.path)).Nodup := by decide
  obtain ⟨τ, loaded⟩ := State.exists_load_of_empty .standard {} {} pageAndFeed_empty
  have ordinary : ∀ file ∈ pageAndFeed, FileName.IsOrdinary file.path := by
    simp only [pageAndFeed, List.forall_mem_cons]
    exact ⟨⟨["blog", "post.tpl"], by decide, by decide, rfl⟩,
      ⟨["blog", "feed.xtpl"], by decide, by decide, rfl⟩, nofun⟩
  obtain ⟨kept, grown, -, apart⟩ := load_keeps_iff distinct loaded
  have names := (apart ordinary (by decide)).mpr (by decide)
  have both := kept.mpr names
  have selected : Extensions.select {} pageAndFeed = pageAndFeed := rfl
  rw [selected, pageAndFeed, List.forall_mem_cons, List.forall_mem_cons] at both
  exact ⟨distinct, τ, loaded, both.1, both.2.1, (grown (by decide)).mpr names⟩

/-- A page and a feed that differ in their extension alone. -/
def pageOverFeed : List SourceFile := [⟨"a.tpl", .ok []⟩, ⟨"a.xtpl", .ok []⟩]

/-- The load succeeds, and one of the two templates is nowhere. -/
theorem pageOverFeed_loses :
    (∀ file ∈ pageOverFeed, FileName.IsOrdinary file.path) ∧ (pageOverFeed.map (·.path)).Nodup ∧
      ∃ τ, (State.empty.load {} {} pageOverFeed).1 = .ok τ ∧
        ∀ key template, τ.templates.get? key = some template → template.file ≠ some "a.tpl" := by
  have ordinary : ∀ file ∈ pageOverFeed, FileName.IsOrdinary file.path := by
    simp only [pageOverFeed, List.forall_mem_cons]
    exact ⟨⟨["a.tpl"], by decide, by decide, rfl⟩, ⟨["a.xtpl"], by decide, by decide, rfl⟩, nofun⟩
  have empty : ∀ file ∈ pageOverFeed, file.contents = .ok [] := by simp [pageOverFeed]
  obtain ⟨τ, loaded⟩ := State.exists_load_of_empty .empty {} {} empty
  refine ⟨ordinary, by decide, τ, loaded, fun key template holds file => ?_⟩
  rcases State.origin_of_load loaded holds with old | ⟨other, -, rfl, made⟩
  · cases old
  · have path : "a.tpl" = other.path := Option.some.inj (file.symm.trans made)
    have kept : τ.Keeps "a.tpl" := ⟨template, path ▸ holds, file⟩
    have accepted : ⟨"a.tpl", .ok []⟩ ∈ Extensions.select {} pageOverFeed :=
      Extensions.mem_select.mpr ⟨List.mem_cons_self, .html, by decide⟩
    have last := (State.keeps_iff loaded accepted).mp kept
    revert last
    decide

end Templating
