import Templating.Loading
import Templating.Proofs.Markup.Reading
import Templating.Proofs.Registry

/-!
# What a load makes of a listing

A load goes through its files once. Of each it makes a template, a message or nothing at
all, whatever the other files are, except that the hooks for loading may count the
templates before it (`foldl_add`). So it succeeds if no file is at fault, and then registers
every template; otherwise it reports every file at fault and registers nothing
(`load_spec`). Reloading is loading without the templates that were there.
-/

namespace Templating

open Markup (Document Node)

/-! ### Single files -/

/-- No bytes are an empty document. -/
theorem Markup.parse_nil (format : Markup.Format) :
    Markup.parse format [] = .ok { format, content := [] } := by
  have empty : Markup.Encoding.decode [] = .ok (.utf8, []) := rfl
  rw [Markup.parse, empty]
  simp only [Markup.parseText, Markup.Stream.ofSource, Markup.streamFrom_nil]
  cases format <;> rfl

namespace SourceFile

variable (extensions : Extensions) (file : SourceFile)

/-- The file can be read, and holds a document if its extension is that of a template. -/
def IsSound : Prop :=
  ∃ bytes, file.contents = .ok bytes ∧ ∀ format, extensions.format? file.path = some format →
    ∃ document, Markup.parse format bytes = .ok document

/-- The document of a template, if the file is one and can be read. -/
def document? : Option Document :=
  match file.contents, extensions.format? file.path with
  | .ok bytes, some format => (Markup.parse format bytes).toOption
  | _, _ => none

/-- Why the file is at fault, if it is: it could not be read, or it is a template without a
document. -/
def fault? : Option String :=
  match file.contents, extensions.format? file.path with
  | .error reason, _ => some reason
  | .ok _, none => none
  | .ok bytes, some format =>
    match Markup.parse format bytes with
    | .error e => some e.message
    | .ok _ => none

/-- The message about the file, if it is at fault. -/
def message? : Option String := (file.fault? extensions).map (file.path ++ ": " ++ ·)

theorem isSound_iff : file.IsSound extensions ↔ file.message? extensions = none := by
  rw [IsSound, message?, Option.map_eq_none_iff, fault?]
  cases file.contents with
  | error reason => simp
  | ok bytes =>
    cases extensions.format? file.path with
    | none => simp
    | some format => cases hp : Markup.parse format bytes <;> simp [hp]

/-- What a load makes of a file: a message if it is at fault, a template if it holds the
document of one, and nothing otherwise. -/
theorem read_eq : file.read extensions =
    match file.fault? extensions with
    | some reason => .failed reason
    | none =>
      match file.document? extensions with
      | some document => .loaded (FileName.templatePath file.path) ⟨document, some file.path⟩
      | none => .passedOver := by
  rw [read, fault?, document?]
  cases file.contents with
  | error reason => rfl
  | ok bytes =>
    cases extensions.format? file.path with
    | none => rfl
    | some format => cases hp : Markup.parse format bytes <;> simp [hp, Except.toOption]

theorem document?_of_fault {reason : String} (h : file.fault? extensions = some reason) :
    file.document? extensions = none := by
  rw [fault?] at h
  rw [document?]
  cases hc : file.contents with
  | error reason => rfl
  | ok bytes =>
    cases hf : extensions.format? file.path with
    | none => rfl
    | some format =>
      rw [hc, hf] at h
      cases hp : Markup.parse format bytes with
      | error e => simp only [hp, Except.toOption]
      | ok document =>
        simp only [hp] at h
        cases h

end SourceFile

/-! ### Listings -/

/-- The templates in files, in order, under the paths that their files name, and the ledger
behind the last one: to the content of each, the hooks for loading have been applied. -/
def prepare (extensions : Extensions) (onLoad : List Hook) :
    Ledger → List SourceFile → List (Path × Template) × Ledger
  | ledger, [] => ([], ledger)
  | ledger, file :: files =>
    match file.document? extensions with
    | none => prepare extensions onLoad ledger files
    | some document =>
      let (content, ledger) := ledger.applyHooks onLoad document.content
      let (templates, ledger) := prepare extensions onLoad ledger files
      ((FileName.templatePath file.path, ⟨{ document with content }, some file.path⟩) :: templates,
        ledger)

section

variable (extensions : Extensions) (onLoad : List Hook)

/-- A load in progress has the templates and the messages of the files so far. -/
theorem foldl_add (files : List SourceFile) (l : Loading) :
    files.foldl (Loading.add extensions onLoad) l =
      { ledger := (prepare extensions onLoad l.ledger files).2
        templates := l.templates.insertAll (prepare extensions onLoad l.ledger files).1
        messages := (files.filterMap (·.message? extensions)).reverse ++ l.messages } := by
  induction files generalizing l with
  | nil => rfl
  | cons file files ih =>
    rw [List.foldl_cons, ih, Loading.add, file.read_eq, prepare]
    cases hf : file.fault? extensions with
    | some reason =>
      have message : file.message? extensions = some (file.path ++ ": " ++ reason) := by
        rw [SourceFile.message?, hf]
        rfl
      rw [file.document?_of_fault extensions hf, List.filterMap_cons_some message,
        List.reverse_cons, List.append_assoc]
      rfl
    | none =>
      have message : file.message? extensions = none := by
        rw [SourceFile.message?, hf]
        rfl
      rw [List.filterMap_cons_none message]
      cases file.document? extensions <;> rfl

theorem loadListing_eq (ledger : Ledger) (files : List SourceFile) :
    loadListing extensions onLoad ledger files =
      (if files.filterMap (·.message? extensions) = [] then
        .ok (.ofList (prepare extensions onLoad ledger files).1)
      else .error ⟨files.filterMap (·.message? extensions)⟩,
        (prepare extensions onLoad ledger files).2) := by
  rw [loadListing, foldl_add]
  simp only [List.append_nil, List.reverse_eq_nil_iff, List.reverse_reverse]
  rfl

theorem messages_eq_nil_iff (files : List SourceFile) :
    files.filterMap (·.message? extensions) = [] ↔ ∀ file ∈ files, file.IsSound extensions := by
  rw [List.filterMap_eq_nil_iff]
  exact forall₂_congr fun file _ => (file.isSound_iff extensions).symm

end

namespace State

variable (σ : State) (extensions : Extensions) (ledger : Ledger) (files : List SourceFile)

/-- The state after a load with an outcome: as it was, if that failed. -/
def after : Except LoadError State → State
  | .ok σ' => σ'
  | .error _ => σ

theorem load_eq : σ.load extensions ledger files =
    (if files.filterMap (·.message? extensions) = [] then
      .ok { σ with
        templates := σ.templates.insertAll (prepare extensions σ.onLoad ledger files).1 }
    else .error ⟨files.filterMap (·.message? extensions)⟩,
      (prepare extensions σ.onLoad ledger files).2) := by
  rw [load, loadListing_eq]
  by_cases none : files.filterMap (·.message? extensions) = []
  · rw [if_pos none, if_pos none]
    simp only [Except.map, Registry.insertAll_ofList]
  · rw [if_neg none, if_neg none]
    rfl

/-- Reloading is loading without the templates that were there. -/
theorem reload_eq_load : σ.reload extensions ledger files =
    load { σ with templates := ∅ } extensions ledger files := by
  rw [load_eq, reload, loadListing_eq]
  by_cases none : files.filterMap (·.message? extensions) = []
  · rw [if_pos none, if_pos none]
    rfl
  · rw [if_neg none, if_neg none]
    rfl

end State

/-- An empty template, a file that is none, and one that cannot be read. -/
def mixedListing : List SourceFile :=
  [⟨"a/page.tpl", .ok []⟩, ⟨"notes.txt", .ok [0xff]⟩, ⟨"a", .error "denied"⟩]

end Templating
