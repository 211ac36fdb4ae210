import Templating.Proofs.FileName

/-!
# Names, paths and nesting

Joining two names by a separator nests the path of the second in that of the first
(`Path.parse_append`), whatever separators the names have at their ends. What a name spells
has segments that can be told apart (`Path.isSpelled_parse`), so that the path of a name is
read back from what it is displayed as.

Paths under nesting are sequences under concatenation. So a name with a separator, seen from
a directory, means what is registered under the path that the displayed directory and the
name spell together (`resolve_joined`).
-/

namespace Templating

namespace Path

/-! ### Joined names -/

/-- **Joined names** spell nested paths. -/
theorem parse_append (outer inner : String) :
    parse (outer ++ "/" ++ inner) = (parse outer).nest (parse inner) := by
  have joined : (outer ++ "/" ++ inner).toList = outer.toList ++ '/' :: inner.toList := by simp
  rw [parse, joined, splitName_append, List.filter_append, List.map_append, ofSegments,
    List.reverse_append]
  rfl

/-- **What a name spells** has segments that can be told apart. -/
theorem isSpelled_parse (name : String) : (parse name).IsSpelled := by
  intro segment mem
  rw [segments, parse, ofSegments, List.reverse_reverse] at mem
  obtain ⟨piece, kept, rfl⟩ := List.mem_map.mp mem
  obtain ⟨held, nonempty⟩ := List.mem_filter.mp kept
  refine ⟨?_, ?_⟩
  · simpa using nonempty
  · rw [String.toList_ofList]
    exact not_mem_of_mem_splitName held

/-! ### Nesting -/

theorem root_nest (p : Path) : root.nest p = p := congrArg mk (List.append_nil _)

theorem nest_root (p : Path) : p.nest root = p := rfl

end Path

/-! ### Names seen from a directory -/

section

variable {templates : Templates} {context : Path} {name : String}

/-- A name with a separator means what the directory and the name spell together. -/
theorem resolve_joined (spelled : context.IsSpelled) (qualified : isQualified name = true)
    (named : ∃ c ∈ name.toList, c ≠ '/') :
    resolve templates context name =
      (templates.get? (.parse (context.display ++ "/" ++ name))).map fun template =>
        (template, (Path.parse (context.display ++ "/" ++ name)).parent) := by
  have separator : '/' ∈ name.toList := by simpa [isQualified] using qualified
  have segment : Path.parse name ≠ .root := by
    obtain ⟨c, mem, other⟩ := named
    exact fun root => other (Path.parse_eq_root_iff.mp root c mem)
  rw [Path.parse_append, Path.parse_display spelled]
  exact resolve_of_qualified separator segment

end

/-- **Reading, displaying and nesting paths.** Joining names by a separator nests their paths. A
path whose segments are not empty and hold no separator is read back from what it is displayed
as, and so is the path of every name. Nesting is associative, with the root as identity on both
sides. So a name with a separator and a segment, seen from a directory with such segments, means
the template that is registered under the path that the displayed directory and the name spell
together, found in the directory of that path, and nothing if none is. -/
theorem spelling_respects_nesting :
    (∀ outer inner : String,
      Path.parse (outer ++ "/" ++ inner) = (Path.parse outer).nest (Path.parse inner)) ∧
    (∀ p : Path, p.IsSpelled → Path.parse p.display = p) ∧
    (∀ name : String, Path.parse (Path.parse name).display = Path.parse name) ∧
    (∀ p q r : Path, (p.nest q).nest r = p.nest (q.nest r)) ∧
    (∀ p : Path, Path.root.nest p = p ∧ p.nest .root = p) ∧
    ∀ (templates : Templates) (context : Path) (name : String),
      context.IsSpelled → isQualified name = true → (∃ c ∈ name.toList, c ≠ '/') →
      resolve templates context name =
        (templates.get? (.parse (context.display ++ "/" ++ name))).map fun template =>
          (template, (Path.parse (context.display ++ "/" ++ name)).parent) := by
  refine ⟨Path.parse_append, fun p spelled => Path.parse_display spelled,
    fun name => Path.parse_display (Path.isSpelled_parse name), Path.nest_nest,
    fun p => ⟨p.root_nest, p.nest_root⟩, ?_⟩
  intro templates context name spelled qualified named
  exact resolve_joined spelled qualified named

/-- From `a`, a name with separators too many means the page at `a/b/x/page`. -/
theorem pages_found_joined :
    Path.parse (Path.display (.ofSegments ["a"])) = .ofSegments ["a"] ∧
      resolve pages (.ofSegments ["a"]) "/b//x/page/" =
        (pages.get? (.parse ("a" ++ "/" ++ "/b//x/page/"))).map fun template =>
          (template, (Path.parse ("a" ++ "/" ++ "/b//x/page/")).parent) := by
  have spelled : Path.IsSpelled (.ofSegments ["a"]) := by
    intro segment mem
    obtain rfl := List.mem_singleton.mp mem
    decide
  obtain ⟨-, readBack, -, -, -, found⟩ := spelling_respects_nesting
  exact ⟨readBack _ spelled,
    found pages (.ofSegments ["a"]) "/b//x/page/" spelled (by decide) ⟨'b', by decide, by decide⟩⟩

end Templating
