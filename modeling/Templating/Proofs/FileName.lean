import Templating.FileName
import Templating.Proofs.Lookup

/-!
# Names of files and of their templates

A path of template names that hold no separator and are not empty is read back from the
name that it is displayed as (`Path.parse_display`), and under that name the template at the
path is found from the root, unless the path has no segments (`resolve_display`). The
templates of files have such paths, whatever the files are called (`templatePath_isSpelled`).

A path of ordinary steps is what its steps spell (`IsOrdinary.intercalate_steps`). So two of
them with the same extension are the same if they are without it
(`eq_of_unextended`). Where the steps that are left are names, they are the path of the
template (`templatePath_eq`). They need not be, since a dot or two may be left of the name
of the file.
-/

namespace Templating

/-! ### Paths and the names that spell them -/

namespace Path

theorem splitName_ne_nil (cs : List Char) : splitName cs ≠ [] := by
  cases cs with
  | nil => exact List.cons_ne_nil _ _
  | cons c cs =>
    rw [splitName]
    split
    · exact List.cons_ne_nil _ _
    · split <;> exact List.cons_ne_nil _ _

/-- A separator ends a piece wherever it stands. -/
theorem splitName_append (cs ds : List Char) :
    splitName (cs ++ '/' :: ds) = splitName cs ++ splitName ds := by
  induction cs with
  | nil => simp [splitName]
  | cons c cs ih =>
    rw [List.cons_append, splitName, splitName, ih]
    by_cases separator : c = '/'
    · rw [if_pos separator, if_pos separator, List.cons_append]
    · rw [if_neg separator, if_neg separator]
      -- the first piece of both is the one that goes on
      cases pieces : splitName cs with
      | nil => exact absurd pieces (splitName_ne_nil cs)
      | cons piece rest => rfl

/-- Pieces without separators are what lies between separators. -/
theorem splitName_intercalate : ∀ {pieces : List (List Char)}, pieces ≠ [] →
    (∀ piece ∈ pieces, '/' ∉ piece) → splitName (List.intercalate ['/'] pieces) = pieces
  | [piece], _, bare => by
    rw [List.intercalate_singleton]
    exact splitName_of_not_mem (bare piece List.mem_cons_self)
  | piece :: next :: pieces, _, bare => by
    rw [List.intercalate_cons_cons, List.append_assoc, List.singleton_append, splitName_append,
      splitName_of_not_mem (bare piece List.mem_cons_self), List.singleton_append,
      splitName_intercalate (List.cons_ne_nil _ _) fun p mem => bare p (List.mem_cons_of_mem _ mem)]

theorem not_mem_of_mem_splitName {cs : List Char} :
    ∀ {piece : List Char}, piece ∈ splitName cs → '/' ∉ piece := by
  induction cs with
  | nil => simp [splitName]
  | cons c cs ih =>
    intro piece mem
    rw [splitName] at mem
    split at mem
    · rcases List.mem_cons.mp mem with rfl | mem
      · exact List.not_mem_nil
      · exact ih mem
    · rename_i other
      cases parts : splitName cs with
      | nil =>
        rw [parts, List.mem_singleton] at mem
        simpa [mem] using Ne.symm other
      | cons first rest =>
        rw [parts] at ih mem
        rcases List.mem_cons.mp mem with rfl | mem
        · simpa using ⟨Ne.symm other, ih List.mem_cons_self⟩
        · exact ih (List.mem_cons_of_mem _ mem)

/-- Whether the segments can be told apart where they are displayed. -/
def IsSpelled (p : Path) : Prop := ∀ segment ∈ p.segments, segment ≠ "" ∧ '/' ∉ segment.toList

theorem toList_display (p : Path) :
    p.display.toList = List.intercalate ['/'] (p.segments.map String.toList) :=
  String.toList_intercalate

/-- **What is displayed** is read back. -/
theorem parse_display {p : Path} (spelled : p.IsSpelled) : parse p.display = p := by
  obtain ⟨inward⟩ := p
  by_cases root : inward = []
  · rw [root]
    rfl
  · have pieces : splitName (display ⟨inward⟩).toList = inward.reverse.map String.toList := by
      rw [toList_display]
      refine splitName_intercalate (by simpa [segments] using root) fun piece mem => ?_
      obtain ⟨segment, held, rfl⟩ := List.mem_map.mp mem
      exact (spelled segment held).2
    have kept : (inward.reverse.map String.toList).filter (· ≠ []) =
        inward.reverse.map String.toList := by
      refine List.filter_eq_self.mpr fun piece mem => ?_
      obtain ⟨segment, held, rfl⟩ := List.mem_map.mp mem
      simpa using (spelled segment held).1
    rw [parse, pieces, kept, List.map_map]
    simp [ofSegments, Function.comp_def]

end Path

/-- **A displayed path** is a name of the template at the path, from the root. -/
theorem resolve_display {templates : Templates} {key : Path} {template : Template}
    (spelled : key.IsSpelled) (named : key ≠ .root) (holds : templates.get? key = some template) :
    resolve templates .root key.display = some (template, key.parent) := by
  have parsed := Path.parse_display spelled
  by_cases qualified : '/' ∈ key.display.toList
  · have nested : Path.root.nest key = key := congrArg Path.mk (List.append_nil _)
    rw [resolve_of_qualified qualified (parsed.symm ▸ named), parsed, nested, holds]
    rfl
  · have nonempty : key.display ≠ "" := fun empty => named (by rw [← parsed, empty]; rfl)
    have single : Path.root.child key.display = key :=
      (Path.parse_of_bare nonempty qualified).symm.trans parsed
    rw [resolve, candidates_of_bare nonempty qualified]
    change firstHit templates key.display [.root] = _
    rw [firstHit, single, holds, ← single]
    rfl

/-! ### Names of files -/

namespace FileName

/-- A name with a dot is what stands before its last one, the dot, and what follows it. -/
theorem eq_of_splitAtLastDot {name stem extension : String}
    (h : splitAtLastDot name = some (stem, extension)) : name = stem ++ "." ++ extension := by
  -- the name is taken apart from behind, so that what is dropped begins with its last dot
  have whole := List.takeWhile_append_dropWhile (p := (· ≠ '.')) (l := name.toList.reverse)
  have head := List.head?_dropWhile_not (· ≠ '.') name.toList.reverse
  rw [splitAtLastDot] at h
  generalize name.toList.reverse.takeWhile (· ≠ '.') = after at h whole
  cases before : name.toList.reverse.dropWhile (· ≠ '.') with
  | nil =>
    rw [before] at h
    cases h
  | cons c rest =>
    rw [before] at h head whole
    have dot : c = '.' := by simpa using head
    obtain ⟨rfl, rfl⟩ := Prod.mk.inj (Option.some.inj h)
    rw [← String.toList_inj, ← List.reverse_inj, ← whole, dot]
    simp

/-- The part of a name before its extension is that name, or what stands before a dot and the
extension. -/
theorem splitExtension_cases (name : String) : splitExtension name = (name, none) ∨
    ∃ stem extension, stem ≠ "" ∧ name = stem ++ "." ++ extension ∧
      splitExtension name = (stem, some extension) := by
  rw [splitExtension]
  cases parts : splitAtLastDot name with
  | none => exact .inl rfl
  | some both =>
    obtain ⟨stem, extension⟩ := both
    by_cases empty : stem = ""
    · exact .inl (if_pos empty)
    · exact .inr ⟨stem, extension, empty, eq_of_splitAtLastDot parts, if_neg empty⟩

/-- The steps of a path, the last one without its extension. -/
def unextended (path : String) : List String :=
  match last? path with
  | none => steps path
  | some name => (steps path).dropLast ++ [(splitExtension name).1]

/-- Whether a dot or two are left of a step without its extension. -/
def IsDotted (path : String) : Prop := "." ∈ unextended path ∨ ".." ∈ unextended path

instance (path : String) : Decidable (IsDotted path) := instDecidableOr

/-- Whether a step is the name of a file or directory in the directory where it is made. -/
def IsName (step : String) : Prop := step ≠ "" ∧ step ≠ "." ∧ step ≠ ".."

instance (step : String) : Decidable (IsName step) := instDecidableAnd

theorem not_isName_iff {step : String} : ¬ IsName step ↔ step = "" ∨ step = "." ∨ step = ".." := by
  by_cases empty : step = "" <;> by_cases dot : step = "." <;> simp [IsName, empty, dot]

/-- The path of a template is made of those steps that are names. -/
theorem templatePath_eq_filter (path : String) :
    templatePath path = .ofSegments ((unextended path).filter (IsName ·)) := rfl

theorem templatePath_eq {path : String} (named : ∀ step ∈ unextended path, IsName step) :
    templatePath path = .ofSegments (unextended path) := by
  have kept := List.filter_eq_self.mpr fun step mem => decide_eq_true (named step mem)
  rw [templatePath_eq_filter, kept]

theorem templatePath_eq_root_iff {path : String} :
    templatePath path = .root ↔ ∀ step ∈ unextended path, ¬ IsName step := by
  simp [templatePath_eq_filter, Path.ofSegments, Path.root, List.filter_eq_nil_iff]

/-- Where there is an extension, it is what the path has more than `unextended`. -/
theorem steps_of_extension {path extension : String} (h : extension? path = some extension) :
    ∃ directories stem, steps path = directories ++ [stem ++ "." ++ extension] ∧
      unextended path = directories ++ [stem] ∧ stem ≠ "" := by
  obtain ⟨name, last, split⟩ := Option.bind_eq_some_iff.mp h
  obtain ⟨ends, -⟩ := Option.filter_eq_some_iff.mp last
  obtain ⟨directories, parts⟩ := List.getLast?_eq_some_iff.mp ends
  obtain none | ⟨stem, _, nonempty, rfl, both⟩ := splitExtension_cases name
  · rw [none] at split
    cases split
  · rw [both] at split
    cases split
    refine ⟨directories, stem, parts, ?_, nonempty⟩
    simp only [unextended, last, both, parts, List.dropLast_concat]

theorem not_mem_of_mem_steps {path step : String} (h : step ∈ steps path) : '/' ∉ step.toList := by
  obtain ⟨piece, mem, rfl⟩ := List.mem_map.mp (List.mem_filter.mp h).1
  rw [String.toList_ofList]
  exact Path.not_mem_of_mem_splitName mem

theorem not_mem_of_mem_unextended {path step : String} (h : step ∈ unextended path) :
    '/' ∉ step.toList := by
  cases last : last? path with
  | none =>
    rw [unextended, last] at h
    exact not_mem_of_mem_steps h
  | some name =>
    rw [unextended, last] at h
    rcases List.mem_append.mp h with mem | mem
    · exact not_mem_of_mem_steps (List.dropLast_subset _ mem)
    · obtain rfl := List.mem_singleton.mp mem
      have bare : '/' ∉ name.toList :=
        not_mem_of_mem_steps (List.mem_of_getLast? (Option.filter_eq_some_iff.mp last).1)
      obtain whole | ⟨stem, _, _, rfl, both⟩ := splitExtension_cases name
      · rwa [whole]
      · rw [both]
        simp only [String.toList_append, List.mem_append, not_or] at bare
        exact bare.1.1

/-- **The template of a file** has a path that can be displayed, whatever the file is called. -/
theorem templatePath_isSpelled (path : String) : (templatePath path).IsSpelled := by
  intro segment mem
  rw [templatePath_eq_filter, Path.segments, Path.ofSegments, List.reverse_reverse] at mem
  obtain ⟨mem, named⟩ := List.mem_filter.mp mem
  exact ⟨(of_decide_eq_true named).1, not_mem_of_mem_unextended mem⟩

/-! ### Paths of ordinary steps -/

/-- Whether the path leads from a directory to something below it, one name after the other. -/
def IsOrdinary (path : String) : Prop :=
  ∃ names, names ≠ [] ∧ (∀ name ∈ names, IsName name ∧ '/' ∉ name.toList) ∧
    path = "/".intercalate names

theorem steps_intercalate {names : List String} (nonempty : names ≠ [])
    (ordinary : ∀ name ∈ names, IsName name ∧ '/' ∉ name.toList) :
    steps ("/".intercalate names) = names := by
  have pieces : Path.splitName ("/".intercalate names).toList = names.map String.toList := by
    rw [String.toList_intercalate]
    refine Path.splitName_intercalate (by simpa using nonempty) fun piece mem => ?_
    obtain ⟨name, held, rfl⟩ := List.mem_map.mp mem
    exact (ordinary name held).2
  rw [steps, pieces, List.map_map]
  simp only [Function.comp_def, String.ofList_toList, List.map_id']
  exact List.filter_eq_self.mpr fun name mem =>
    decide_eq_true ⟨(ordinary name mem).1.1, (ordinary name mem).1.2.1⟩

/-- Such a path is what its steps spell. -/
theorem IsOrdinary.intercalate_steps {path : String} (h : IsOrdinary path) :
    "/".intercalate (steps path) = path := by
  obtain ⟨names, nonempty, ordinary, rfl⟩ := h
  rw [steps_intercalate nonempty ordinary]

theorem IsOrdinary.isName {path : String} (h : IsOrdinary path) :
    ∀ step ∈ steps path, IsName step := by
  obtain ⟨names, nonempty, ordinary, rfl⟩ := h
  rw [steps_intercalate nonempty ordinary]
  exact fun step mem => (ordinary step mem).1

/-- Unless a dot or two are left of the file, nothing but names is. -/
theorem IsOrdinary.isName_unextended {path extension : String} (h : IsOrdinary path)
    (he : extension? path = some extension) (undotted : ¬ IsDotted path) :
    ∀ step ∈ unextended path, IsName step := by
  obtain ⟨directories, stem, parts, without, nonempty⟩ := steps_of_extension he
  intro step mem
  refine ⟨?_, fun dot => undotted (.inl (dot ▸ mem)), fun dots => undotted (.inr (dots ▸ mem))⟩
  rw [without] at mem
  rcases List.mem_append.mp mem with above | last
  · exact (h.isName step (parts ▸ List.mem_append_left _ above)).1
  · rwa [List.mem_singleton.mp last]

/-- **Paths that differ** differ without their extension, if that is the same. -/
theorem eq_of_unextended {path path' extension : String} (h : IsOrdinary path)
    (h' : IsOrdinary path') (he : extension? path = some extension)
    (he' : extension? path' = some extension) (same : unextended path = unextended path') :
    path = path' := by
  obtain ⟨directories, stem, parts, without, -⟩ := steps_of_extension he
  obtain ⟨directories', stem', parts', without', -⟩ := steps_of_extension he'
  rw [without, without'] at same
  obtain ⟨rfl, stems⟩ := List.append_inj' same rfl
  cases stems
  rw [← h.intercalate_steps, ← h'.intercalate_steps, parts, parts']

/-- The path of a template has no segments if one dot or two are left of its file. -/
theorem IsOrdinary.templatePath_eq_root_iff {path extension : String} (h : IsOrdinary path)
    (he : extension? path = some extension) :
    templatePath path = .root ↔ unextended path = ["."] ∨ unextended path = [".."] := by
  obtain ⟨directories, stem, parts, without, nonempty⟩ := steps_of_extension he
  rw [FileName.templatePath_eq_root_iff, without]
  constructor
  · intro none
    -- what leads to the file are names, so nothing does
    have top : directories = [] := List.eq_nil_iff_forall_not_mem.mpr fun name mem =>
      none name (List.mem_append_left _ mem)
        (h.isName name (parts ▸ List.mem_append_left _ mem))
    have dots : ¬ IsName stem := none stem (by simp)
    subst top
    simpa [not_isName_iff, nonempty] using dots
  · rintro (dots | dots) <;> rw [dots] <;> simp [IsName]

end FileName

end Templating
