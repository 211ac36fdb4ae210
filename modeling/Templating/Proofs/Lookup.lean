import Templating.Lookup
import Templating.Proofs.Registry

/-!
# Where names are looked for

A name without a separator means the template of that name in the nearest directory that
has one: the directory from which it is looked for or, failing that, the longest one above
it (`resolve_spec`). The directories that are tried are all of these, each once, and
the deepest first (`mem_ancestors`, `ancestors_descend`), so that the first hit is the
nearest one. A name with a separator means what is registered under the one path that it
spells below the directory.
-/

namespace Templating

namespace Path

/-! ### Directories above a path -/

/-- The path lies in the directory, at any depth, or is the directory itself. -/
def Within (p dir : Path) : Prop := ∃ inner, p = dir.nest inner

theorem within_iff {p dir : Path} : p.Within dir ↔ dir.inward <:+ p.inward := by
  constructor
  · rintro ⟨inner, rfl⟩
    exact ⟨inner.inward, rfl⟩
  · rintro ⟨inner, h⟩
    exact ⟨⟨inner⟩, congrArg Path.mk h.symm⟩

theorem mem_ancestors_go {dir : Path} : ∀ {inward : List String},
    dir ∈ ancestors.go inward ↔ dir.inward <:+ inward
  | [] => by
    rw [ancestors.go, List.mem_singleton, List.suffix_nil]
    exact ⟨fun h => congrArg Path.inward h, fun h => congrArg Path.mk h⟩
  | name :: inward => by
    rw [ancestors.go, List.mem_cons, mem_ancestors_go, List.suffix_cons_iff]
    exact or_congr_left ⟨fun h => congrArg Path.inward h, fun h => congrArg Path.mk h⟩

/-- **The ancestors** of a path are the directories that it lies in. -/
theorem mem_ancestors {p dir : Path} : dir ∈ p.ancestors ↔ p.Within dir :=
  mem_ancestors_go.trans within_iff.symm

theorem length_ancestors_go : ∀ inward : List String,
    (ancestors.go inward).length = inward.length + 1
  | [] => rfl
  | _ :: inward => congrArg (· + 1) (length_ancestors_go inward)

theorem length_ancestors (p : Path) : p.ancestors.length = p.length + 1 :=
  length_ancestors_go p.inward

/-- **The ancestors** stand with the deepest first. -/
theorem ancestors_descend (p : Path) : p.ancestors.Pairwise fun a b => b.length < a.length := by
  have descend : ∀ inward, (ancestors.go inward).Pairwise fun a b => b.length < a.length := by
    intro inward
    induction inward with
    | nil => exact List.pairwise_singleton _ _
    | cons name inward ih =>
      refine List.pairwise_cons.mpr ⟨fun dir hd => ?_, ih⟩
      exact Nat.lt_succ_of_le (mem_ancestors_go.mp hd).length_le
  exact descend p.inward

/-! ### Paths that names spell -/

theorem splitName_of_not_mem : ∀ {cs : List Char}, '/' ∉ cs → splitName cs = [cs]
  | [], _ => rfl
  | c :: cs, h => by
    have other : c ≠ '/' := fun eq => h (eq ▸ List.mem_cons_self)
    have rest := splitName_of_not_mem fun mem => h (List.mem_cons_of_mem c mem)
    rw [splitName, if_neg other, rest]

/-- A name without a separator spells itself. -/
theorem parse_of_bare {name : String} (nonempty : name ≠ "") (bare : '/' ∉ name.toList) :
    parse name = ⟨[name]⟩ := by
  have chars : name.toList ≠ [] := fun h => nonempty (String.toList_eq_nil_iff.mp h)
  rw [parse, splitName_of_not_mem bare]
  simp [ofSegments, chars]

theorem splitName_all_nil_iff {cs : List Char} :
    (∀ piece ∈ splitName cs, piece = []) ↔ ∀ c ∈ cs, c = '/' := by
  induction cs with
  | nil => simp [splitName]
  | cons c cs ih =>
    rw [splitName]
    by_cases separator : c = '/'
    · simp [separator, ih]
    · rw [if_neg separator]
      cases splitName cs <;> simp [separator]

/-- A name spells the root if it has no segment but empty ones. -/
theorem parse_eq_root_iff {name : String} : parse name = root ↔ ∀ c ∈ name.toList, c = '/' := by
  rw [← splitName_all_nil_iff, parse, ofSegments, root, Path.mk.injEq, List.reverse_eq_nil_iff,
    List.map_eq_nil_iff, List.filter_eq_nil_iff]
  simp

end Path

/-! ### The first hit -/

section

variable {templates : Templates} {leaf : String}

theorem firstHit_eq_none_iff : ∀ {directories : List Path},
    firstHit templates leaf directories = none ↔
      ∀ dir ∈ directories, templates.get? (dir.child leaf) = none
  | [] => by simp [firstHit]
  | dir :: directories => by
    rw [firstHit, List.forall_mem_cons, ← firstHit_eq_none_iff]
    cases templates.get? (dir.child leaf) <;> simp

/-- The first hit comes behind directories without one. -/
theorem firstHit_eq_some_iff {template : Template} {dir : Path} : ∀ {directories : List Path},
    firstHit templates leaf directories = some (template, dir) ↔
      ∃ before after, directories = before ++ dir :: after ∧
        templates.get? (dir.child leaf) = some template ∧
          ∀ other ∈ before, templates.get? (other.child leaf) = none
  | [] => by simp [firstHit]
  | first :: directories => by
    rw [firstHit]
    cases hf : templates.get? (first.child leaf) with
    | some found =>
      constructor
      · intro h
        cases h
        exact ⟨[], directories, rfl, hf, fun _ mem => nomatch mem⟩
      · rintro ⟨before, after, parts, hd, none⟩
        cases before with
        | nil =>
          cases parts
          rw [hf] at hd
          cases hd
          rfl
        | cons other before =>
          cases parts
          rw [none first List.mem_cons_self] at hf
          cases hf
    | none =>
      constructor
      · intro h
        obtain ⟨before, after, rfl, hd, none⟩ := firstHit_eq_some_iff.mp h
        exact ⟨first :: before, after, rfl, hd, List.forall_mem_cons.mpr ⟨hf, none⟩⟩
      · rintro ⟨before, after, parts, hd, none⟩
        cases before with
        | nil =>
          cases parts
          rw [hf] at hd
          cases hd
        | cons other before =>
          cases parts
          exact firstHit_eq_some_iff.mpr
            ⟨before, after, rfl, hd, fun d mem => none d (List.mem_cons_of_mem _ mem)⟩

end

/-! ### What a name means -/

/-- The template is that of the name in `dir`, and `dir` is the longest directory that has
one of those that the context lies in. -/
structure IsNearest (templates : Templates) (context : Path) (name : String)
    (template : Template) (dir : Path) : Prop where
  within : context.Within dir
  holds : templates.get? (dir.child name) = some template
  longest : ∀ other, context.Within other → templates.get? (other.child name) ≠ none →
    other.length ≤ dir.length

section

variable {templates : Templates} {context : Path} {name : String}

theorem candidates_of_bare (nonempty : name ≠ "") (bare : '/' ∉ name.toList) :
    candidates context name = ⟨name, context.ancestors⟩ := by
  have unqualified : isQualified name = false := by simpa [isQualified] using bare
  rw [candidates, Path.parse_of_bare nonempty bare, unqualified]
  rfl

/-- Among the ancestors, the first hit is the nearest one. -/
theorem firstHit_ancestors_iff {template : Template} {dir : Path} :
    firstHit templates name context.ancestors = some (template, dir) ↔
      IsNearest templates context name template dir := by
  have descend := context.ancestors_descend
  rw [firstHit_eq_some_iff]
  constructor
  · rintro ⟨before, after, parts, holds, none⟩
    rw [parts] at descend
    have behind := (List.pairwise_cons.mp (List.pairwise_append.mp descend).2.1).1
    refine ⟨Path.mem_ancestors.mp (parts ▸ by simp), holds, fun other within some => ?_⟩
    have mem := Path.mem_ancestors.mpr within
    rw [parts, List.mem_append, List.mem_cons] at mem
    rcases mem with mem | rfl | mem
    · exact absurd (none other mem) some
    · exact Nat.le_refl _
    · exact Nat.le_of_lt (behind other mem)
  · rintro ⟨within, holds, longest⟩
    obtain ⟨before, after, parts⟩ := List.append_of_mem (Path.mem_ancestors.mpr within)
    rw [parts] at descend
    refine ⟨before, after, parts, holds, fun other mem => ?_⟩
    have deeper : dir.length < other.length :=
      (List.pairwise_append.mp descend).2.2 other mem dir List.mem_cons_self
    have above : context.Within other :=
      Path.mem_ancestors.mp (parts ▸ List.mem_append_left _ mem)
    exact Classical.byContradiction fun some =>
      absurd (longest other above some) (Nat.not_le.mpr deeper)

/-- What a bare name means is registered under it in some directory. -/
theorem get?_of_resolve (nonempty : name ≠ "") (bare : '/' ∉ name.toList) {template : Template}
    {dir : Path} (h : resolve templates context name = some (template, dir)) :
    templates.get? (dir.child name) = some template := by
  rw [resolve, candidates_of_bare nonempty bare, firstHit_ancestors_iff] at h
  exact h.holds

/-- A bare name that is registered at the root only means the same from everywhere. -/
theorem resolve_of_root (nonempty : name ≠ "") (bare : '/' ∉ name.toList) {template : Template}
    (holds : templates.get? (Path.root.child name) = some template)
    (only : ∀ dir : Path, templates.get? (dir.child name) ≠ none → dir = .root) :
    resolve templates context name = some (template, .root) := by
  rw [resolve, candidates_of_bare nonempty bare, firstHit_ancestors_iff]
  refine ⟨⟨context, ?_⟩, holds, fun other _ some => ?_⟩
  · rw [Path.nest, Path.root, List.append_nil]
  · exact Nat.le_of_eq (congrArg Path.length (only other some))

/-- A name with a separator is looked for in one place. -/
theorem resolve_of_qualified (qualified : '/' ∈ name.toList) (named : Path.parse name ≠ .root) :
    resolve templates context name =
      (templates.get? (context.nest (.parse name))).map fun template =>
        (template, (context.nest (.parse name)).parent) := by
  have qualified : isQualified name = true := by simpa [isQualified] using qualified
  rw [resolve, candidates, qualified]
  generalize Path.parse name = path at named
  obtain ⟨inward⟩ := path
  cases inward with
  | nil => exact absurd rfl named
  | cons leaf directory =>
    change firstHit templates leaf [context.nest ⟨directory⟩] =
      (templates.get? ((context.nest ⟨directory⟩).child leaf)).map _
    rw [firstHit]
    cases templates.get? ((context.nest ⟨directory⟩).child leaf) <;> rfl

/-- A name without a segment is looked for as an empty one. -/
theorem resolve_of_unnamed (unnamed : Path.parse name = .root)
    (keys : ∀ key ∈ templates.keys, "" ∉ key.segments) :
    resolve templates context name = none := by
  have leaf : (candidates context name).leaf = "" := by
    rw [candidates, unnamed]
    rfl
  rw [resolve, firstHit_eq_none_iff, leaf]
  refine fun dir _ => Classical.byContradiction fun found => ?_
  have key := keys _ (Registry.mem_keys_iff.mpr found)
  simp [Path.segments, Path.child] at key

end

/-! ### Mounting templates -/

namespace Path

theorem nest_injective (p : Path) : Function.Injective p.nest := by
  intro a b h
  exact congrArg Path.mk (List.append_cancel_right (congrArg Path.inward h))

theorem nest_nest (p q r : Path) : (p.nest q).nest r = p.nest (q.nest r) :=
  congrArg Path.mk (List.append_assoc _ _ _).symm

theorem nest_child (p q : Path) (name : String) : (p.nest q).child name = p.nest (q.child name) :=
  rfl

theorem ancestors_eq_cons (p : Path) : p.ancestors = p :: p.ancestors.tail := by
  obtain ⟨_ | ⟨name, rest⟩⟩ := p <;> rfl

/-- Above a nested path are the nested ancestors, and then what is above the directory. -/
theorem ancestors_nest (p q : Path) :
    (p.nest q).ancestors = q.ancestors.map p.nest ++ p.ancestors.tail := by
  have above : ∀ inward : List String, ancestors.go (inward ++ p.inward) =
      (ancestors.go inward).map p.nest ++ p.ancestors.tail := by
    intro inward
    induction inward with
    | nil =>
      obtain ⟨_ | ⟨name, rest⟩⟩ := p <;> rfl
    | cons name inward ih =>
      rw [List.cons_append, ancestors.go, ih]
      rfl
  exact above q.inward

end Path

/-- The templates, each below the directory. -/
def mount (p : Path) (templates : Templates) : Templates := templates.mapKeys p.nest

theorem get?_mount (p q : Path) (templates : Templates) :
    (mount p templates).get? (p.nest q) = templates.get? q :=
  Registry.get?_mapKeys p.nest_injective templates q

/-- Above the directory nothing is mounted, if there is no template without a name. -/
theorem get?_mount_above {p dir : Path} {templates : Templates}
    (named : templates.get? .root = none) (above : dir ∈ p.ancestors.tail) (name : String) :
    (mount p templates).get? (dir.child name) = none := by
  refine Registry.get?_mapKeys_of_ne fun key mem eq => ?_
  have descend := p.ancestors_descend
  rw [Path.ancestors_eq_cons, List.pairwise_cons] at descend
  have shorter : dir.inward.length < p.inward.length := descend.1 dir above
  have lengths := congrArg (·.inward.length) eq
  simp only [Path.nest, Path.child, List.length_append, List.length_cons] at lengths
  have unnamed : key = .root := congrArg Path.mk (List.length_eq_zero_iff.mp (by omega))
  exact Registry.mem_keys_iff.mp mem (unnamed ▸ named)

theorem firstHit_mount {p : Path} {templates : Templates} {leaf : String} (above : List Path)
    (missed : ∀ dir ∈ above, (mount p templates).get? (dir.child leaf) = none) :
    ∀ directories : List Path,
      firstHit (mount p templates) leaf (directories.map p.nest ++ above) =
        (firstHit templates leaf directories).map fun found => (found.1, p.nest found.2)
  | [] => firstHit_eq_none_iff.mpr missed
  | dir :: directories => by
    rw [List.map_cons, List.cons_append, firstHit, firstHit, Path.nest_child, get?_mount]
    cases templates.get? (dir.child leaf) with
    | none => exact firstHit_mount above missed directories
    | some template => rfl

/-- **Mounted templates** are found as they were found, below the directory. -/
theorem resolve_mount {p : Path} {templates : Templates} (named : templates.get? .root = none)
    (context : Path) (name : String) :
    resolve (mount p templates) (p.nest context) name =
      (resolve templates context name).map fun found => (found.1, p.nest found.2) := by
  simp only [resolve, candidates, Path.nest_nest]
  split
  · exact firstHit_mount [] (fun _ mem => nomatch mem) [_]
  · rw [Path.ancestors_nest]
    exact firstHit_mount _ (fun dir above => get?_mount_above named above _) _

/-- **Resolution** finds the nearest template. A name without a separator means the template
of that name in the longest directory that has one, of those in which the context lies, and
nothing if none has one; these directories are tried with the deepest first, each once. A
name with a separator means what is registered under the path that it spells from the
context, found in the directory of that path, whatever else is registered. A name without
a segment means nothing, unless keys have empty segments. -/
theorem resolve_spec (templates : Templates) (context : Path) (name : String) :
    (name ≠ "" → '/' ∉ name.toList →
      (∀ template dir, resolve templates context name = some (template, dir) ↔
        IsNearest templates context name template dir) ∧
      (resolve templates context name = none ↔
        ∀ dir, context.Within dir → templates.get? (dir.child name) = none) ∧
      (candidates context name).leaf = name ∧
      (∀ dir, dir ∈ (candidates context name).directories ↔ context.Within dir) ∧
      ((candidates context name).directories.Pairwise fun a b => b.length < a.length) ∧
      (candidates context name).directories.length = context.length + 1) ∧
    ('/' ∈ name.toList → Path.parse name ≠ .root →
      resolve templates context name =
        (templates.get? (context.nest (.parse name))).map fun template =>
          (template, (context.nest (.parse name)).parent)) ∧
    ((∀ c ∈ name.toList, c = '/') → (∀ key ∈ templates.keys, "" ∉ key.segments) →
      resolve templates context name = none) := by
  refine ⟨fun nonempty bare => ?_, resolve_of_qualified, fun separators keys => ?_⟩
  · rw [resolve, candidates_of_bare nonempty bare]
    refine ⟨fun template dir => firstHit_ancestors_iff, ?_, rfl, fun dir => Path.mem_ancestors,
      context.ancestors_descend, context.length_ancestors⟩
    rw [firstHit_eq_none_iff]
    exact forall_congr' fun dir => imp_congr_left Path.mem_ancestors
  · exact resolve_of_unnamed (Path.parse_eq_root_iff.mpr separators) keys

/-- A page with a text. -/
def pageOf (content : String) : Template where
  document := { format := .html, content := [.text content] }

/-- Pages at the root, in `a` and below `a/b`. -/
def pages : Templates :=
  .ofList [(.ofSegments ["page"], pageOf "root"), (.ofSegments ["a", "page"], pageOf "a"),
    (.ofSegments ["a", "b", "x", "page"], pageOf "x")]

theorem resolve_pages :
    IsNearest pages (.ofSegments ["a", "b", "c"]) "page" (pageOf "a") (.ofSegments ["a"]) ∧
      resolve pages (.ofSegments ["a"]) "/b//x/page" = some (pageOf "x", .parse "a/b/x") ∧
      resolve pages (.ofSegments ["a", "b"]) "//" = none := by
  have bare := (resolve_spec pages (.ofSegments ["a", "b", "c"]) "page").1 (by decide) (by decide)
  have named : Path.parse "/b//x/page" ≠ .root := by decide +kernel
  have qualified := (resolve_spec pages (.ofSegments ["a"]) "/b//x/page").2.1 (by decide) named
  have separators : ∀ c ∈ "//".toList, c = '/' :=
    fun c mem => List.eq_of_mem_replicate (n := 2) mem
  have keys : ∀ key ∈ pages.keys, "" ∉ key.segments := by decide
  have unnamed := (resolve_spec pages (.ofSegments ["a", "b"]) "//").2.2 separators keys
  exact ⟨(bare.1 _ _).mp rfl, qualified, unnamed⟩

end Templating
