import Templating.Proofs.Expansion.Step
import Templating.Proofs.Interpolation.Scanning

/-!
# Filling values

A value is read first, as a whole, and its placeholders are filled then. So a value in which
nothing opens a placeholder, or which cannot be read, asks for no name at all; and any other asks
for the names of its placeholders, each once and in order, whatever effects a lookup has
(`fill_eq_fillInOrder`). What is found counts by its text alone: the character data of the leaves
(`textOfAll_eq_join`).

On a stage, the lookup invokes splices. `Engine.Fills` says what that comes to, piece by piece:
the splice of a placeholder is given an empty text, on the stage that the pieces before it have
left, and the text of its nodes stands in the value as it is.
-/

namespace Templating

open Markup (Node)

/-! ### The text of nodes -/

namespace Markup.Node

mutual

/-- The leaves of a tree in document order. -/
def leaves : Node → List Node
  | element _ _ children => allLeaves children
  | leaf => [leaf]

/-- The leaves of nodes in document order. -/
def allLeaves : List Node → List Node
  | [] => []
  | node :: nodes => leaves node ++ allLeaves nodes

end

/-- The character data of a leaf: comments and instructions have none. -/
def characterData : Node → String
  | text content | cdata content => content
  | _ => ""

mutual

theorem textContent_eq_join : ∀ n : Node, n.textContent = String.join (n.leaves.map characterData)
  | element _ _ cs => textOfAll_eq_join cs
  | text _ | comment _ | cdata _ | instruction _ => by
    simp [textContent, leaves, characterData]

/-- **The text of nodes** is the character data of their leaves. -/
theorem textOfAll_eq_join : ∀ ns : List Node,
    textOfAll ns = String.join ((allLeaves ns).map characterData)
  | [] => rfl
  | n :: ns => by
    rw [textOfAll, allLeaves, textContent_eq_join n, textOfAll_eq_join ns, List.map_append,
      String.join_append]

end

end Markup.Node

/-! ### Values and lookups -/

namespace Interpolation

theorem mentionsPlaceholder_iff (cs : List Char) :
    mentionsPlaceholder cs = true ↔ ['$', '('] <:+: cs := by
  induction cs with
  | nil => simp [mentionsPlaceholder]
  | cons c cs ih =>
    rw [List.infix_cons_iff]
    by_cases opening : c = '$' ∧ cs.head? = some '('
    · obtain ⟨rfl, opens⟩ := opening
      obtain ⟨cs, rfl⟩ := List.head?_eq_some_iff.mp opens
      exact iff_of_true rfl (.inl (List.prefix_append ['$', '('] cs))
    · have elsewhere : ¬ ['$', '('] <+: c :: cs := by
        rintro ⟨rest, same⟩
        cases same
        exact opening ⟨rfl, rfl⟩
      rw [mentionsPlaceholder, ih]
      · exact (or_iff_right elsewhere).symm
      · rintro ds rfl rfl
        exact opening ⟨rfl, rfl⟩

/-- A value without backslashes and placeholders is read as it is written. -/
theorem scans_of_plain {cs : List Char} (unescaped : '\\' ∉ cs) (lone : ¬ ['$', '('] <:+: cs) :
    Scans cs (cs.map .char) [] := by
  induction cs with
  | nil => exact .here []
  | cons c cs ih =>
    rw [List.mem_cons, not_or] at unescaped
    rw [List.infix_cons_iff, not_or] at lone
    refine .plain (Ne.symm unescaped.1) ?_ (ih unescaped.2 lone.2)
    rintro ⟨rfl, opens⟩
    obtain ⟨cs, rfl⟩ := List.head?_eq_some_iff.mp opens
    exact lone.1 (List.prefix_append ['$', '('] cs)

theorem parse?_of_plain {raw : String} (nonempty : raw ≠ "") (unescaped : '\\' ∉ raw.toList)
    (lone : ¬ ['$', '('] <:+: raw.toList) : parse? raw = some [.literal raw] := by
  have canonical : Canonical [.literal raw] := by
    refine ⟨⟨?_, ?_, List.isChain_singleton _⟩, List.cons_ne_nil _ _⟩
    · intro text mem
      cases List.mem_singleton.mp mem
      exact nonempty
    · intro name mem
      cases List.mem_singleton.mp mem
  refine parse?_of_scans canonical ?_
  rw [List.flatMap_singleton]
  exact scans_of_plain unescaped lone

/-- The names of the placeholders, in order. -/
def names : List Piece → List String
  | [] => []
  | .literal _ :: pieces => names pieces
  | .placeholder name :: pieces => name :: names pieces

/-- The text of pieces, where `found` has an answer for each placeholder. -/
def assemble : List Piece → List (Option (List Node)) → String
  | .literal text :: pieces, found => text ++ assemble pieces found
  | .placeholder _ :: pieces, answer :: found =>
    Node.textOfAll (answer.getD []) ++ assemble pieces found
  | _, _ => ""

section

variable {m : Type → Type} [Monad m] (lookup : String → m (Option (List Node)))

/-- Looks up the names of the placeholders, each once and in order, and puts the text together
from what is found. -/
def fillInOrder (pieces : List Piece) : m String := do
  let found ← (names pieces).mapM lookup
  return assemble pieces found

theorem fill_eq_fillInOrder [LawfulMonad m] (pieces : List Piece) :
    fill lookup pieces = fillInOrder lookup pieces := by
  unfold fillInOrder
  induction pieces with
  | nil => simp [fill, names, assemble]
  | cons p pieces ih =>
    cases p with
    | literal text => simp [fill, names, assemble, ih]
    | placeholder name => simp [fill, names, assemble, ih]

theorem substitute_of_unmentioned {raw : String} (lone : ¬ ['$', '('] <:+: raw.toList) :
    substitute lookup raw = pure raw := by
  rw [substitute, if_neg (mt (mentionsPlaceholder_iff _).mp lone)]

theorem substitute_of_broken {raw : String} (opens : ['$', '('] <:+: raw.toList)
    (broken : parse? raw = none) : substitute lookup raw = pure "" := by
  rw [substitute, if_pos ((mentionsPlaceholder_iff _).mpr opens), broken]

theorem substitute_of_parsed [LawfulMonad m] {raw : String} {pieces : List Piece}
    (opens : ['$', '('] <:+: raw.toList) (parsed : parse? raw = some pieces) :
    substitute lookup raw = fillInOrder lookup pieces := by
  rw [substitute, if_pos ((mentionsPlaceholder_iff _).mpr opens), parsed]
  exact fill_eq_fillInOrder lookup pieces

end

end Interpolation

/-! ### Values and splices -/

namespace Engine

open Interpolation Run

/-- What filling pieces comes to on a stage: its text, and the stage that it leaves. -/
inductive Fills (e : Engine) : List Piece → Stage → String → Stage → Prop where
  | nil (s : Stage) : Fills e [] s "" s
  | literal (text : String) {pieces : List Piece} {s s' : Stage} {value : String} :
      Fills e pieces s value s' → Fills e (.literal text :: pieces) s (text ++ value) s'
  /-- The placeholder of a name that is not bound adds nothing. -/
  | unbound {name : String} {pieces : List Piece} {s s' : Stage} {value : String}
      (free : s.state.splices.get? name = none) :
      Fills e pieces s value s' → Fills e (.placeholder name :: pieces) s value s'
  /-- The splice of a bound name is called with an empty text, and the text of its nodes is added.
  What it binds stays; directory, recursion and depth are put back. -/
  | bound {name : String} {splice : Splice} {nodes : List Node} {pieces : List Piece}
      {s t s' : Stage} {value : String} (bound : s.state.splices.get? name = some splice)
      (called : e.call splice (.text "") (s.entered name) = some (nodes, t)) :
      Fills e pieces (t.withControl s.state.control) value s' →
        Fills e (.placeholder name :: pieces) s (Node.textOfAll nodes ++ value) s'

variable (e : Engine) {pieces : List Piece} {s s' : Stage} {value : String}

theorem fill_literal_eq_some (text : String) :
    fill e.placeholder (.literal text :: pieces) s = some (value, s') ↔
      ∃ rest, fill e.placeholder pieces s = some (rest, s') ∧ value = text ++ rest := by
  rw [fill, bind_eq_some]
  constructor
  · rintro ⟨rest, t, filled, same⟩
    cases same
    exact ⟨rest, filled, rfl⟩
  · rintro ⟨rest, filled, rfl⟩
    exact ⟨rest, s', filled, rfl⟩

theorem fill_placeholder_eq_some (name : String) :
    fill e.placeholder (.placeholder name :: pieces) s = some (value, s') ↔
      ∃ found t rest, e.placeholder name s = some (found, t) ∧
        fill e.placeholder pieces t = some (rest, s') ∧
        value = Node.textOfAll (found.getD []) ++ rest := by
  rw [fill, bind_eq_some]
  constructor
  · rintro ⟨found, t, looked, filled⟩
    obtain ⟨rest, t', filled, same⟩ := bind_eq_some.mp filled
    cases same
    exact ⟨found, t, rest, looked, filled, rfl⟩
  · rintro ⟨found, t, rest, looked, filled, rfl⟩
    exact ⟨found, t, looked, bind_eq_some.mpr ⟨rest, s', filled, rfl⟩⟩

/-- Pieces are filled one after the other. -/
theorem fill_eq_some_iff :
    fill e.placeholder pieces s = some (value, s') ↔ Fills e pieces s value s' := by
  constructor
  · intro filled
    induction pieces generalizing s value with
    | nil =>
      cases filled
      exact .nil _
    | cons p pieces ih =>
      cases p with
      | literal text =>
        obtain ⟨rest, behind, rfl⟩ := (e.fill_literal_eq_some text).mp filled
        exact .literal text (ih behind)
      | placeholder name =>
        obtain ⟨found, t, rest, looked, behind, rfl⟩ := (e.fill_placeholder_eq_some name).mp filled
        cases h : s.state.splices.get? name with
        | none =>
          rw [e.placeholder_of_unbound h] at looked
          cases looked
          rw [Option.getD_none, Node.textOfAll, String.empty_append]
          exact .unbound h (ih behind)
        | some splice =>
          rw [e.placeholder_of_bound h, Option.map_eq_some_iff] at looked
          obtain ⟨⟨nodes, t'⟩, called, same⟩ := looked
          cases same
          exact .bound h called (ih behind)
  · intro fills
    induction fills with
    | nil s => rfl
    | literal text _ ih => exact (e.fill_literal_eq_some text).mpr ⟨_, ih, rfl⟩
    | unbound free _ ih =>
      refine (e.fill_placeholder_eq_some _).mpr ⟨none, _, _, e.placeholder_of_unbound free, ih, ?_⟩
      rw [Option.getD_none, Node.textOfAll, String.empty_append]
    | bound bound called _ ih =>
      refine (e.fill_placeholder_eq_some _).mpr ⟨some _, _, _, ?_, ih, rfl⟩
      rw [e.placeholder_of_bound bound, called]
      rfl

/-- How the engine expands nodes does not matter to values. -/
theorem substitute_congr {e e' : Engine} (same : e'.call = e.call) (raw : String) :
    e'.substitute raw = e.substitute raw := by
  have placeholders : e'.placeholder = e.placeholder := by
    funext name
    simp only [Engine.placeholder, same]
  rw [Engine.substitute, Engine.substitute, placeholders]

/-- **A value is filled once, or not at all.** For every lookup, whatever its effects: where
nothing opens a placeholder, the value stays and no name is looked up, and filling its pieces
comes to the same if it has any and no backslash; where the value cannot be read, it becomes empty
and no name is looked up; and otherwise the names of its placeholders are looked up, each once and
in order, and the value is put together from its literal texts and the text of what is found,
which is the character data of the leaves.

An engine looks up names by invoking their splices, so that a value with placeholders is filled
piece by piece, and it expands nothing for that. -/
theorem values_filled_once {m : Type → Type} [Monad m] [LawfulMonad m]
    (lookup : String → m (Option (List Node))) (raw : String) :
    (¬ ['$', '('] <:+: raw.toList →
      Interpolation.substitute lookup raw = pure raw ∧
        (raw ≠ "" → '\\' ∉ raw.toList →
          ∃ pieces, parse? raw = some pieces ∧ fillInOrder lookup pieces = pure raw) ∧
        ∀ (e : Engine) (s : Stage), e.substitute raw s = some (raw, s)) ∧
    (['$', '('] <:+: raw.toList → parse? raw = none →
      Interpolation.substitute lookup raw = pure "" ∧
        ∀ (e : Engine) (s : Stage), e.substitute raw s = some ("", s)) ∧
    (∀ pieces, ['$', '('] <:+: raw.toList → parse? raw = some pieces →
      Interpolation.substitute lookup raw = fillInOrder lookup pieces ∧
        ∀ (e : Engine) (s s' : Stage) (value : String),
          e.substitute raw s = some (value, s') ↔ e.Fills pieces s value s') ∧
    (∀ nodes, Node.textOfAll nodes = String.join ((Node.allLeaves nodes).map Node.characterData)) ∧
    ∀ e e' : Engine, e'.call = e.call → e'.substitute raw = e.substitute raw := by
  refine ⟨fun lone => ⟨substitute_of_unmentioned lookup lone, fun nonempty unescaped => ?_, ?_⟩,
    fun opens broken => ⟨substitute_of_broken lookup opens broken, ?_⟩,
    fun pieces opens parsed => ⟨substitute_of_parsed lookup opens parsed, ?_⟩,
    Node.textOfAll_eq_join, fun e e' same => substitute_congr same raw⟩
  · refine ⟨_, parse?_of_plain nonempty unescaped lone, ?_⟩
    simp [fillInOrder, names, assemble]
  · intro e s
    rw [Engine.substitute, substitute_of_unmentioned _ lone, pure_apply]
  · intro e s
    rw [Engine.substitute, substitute_of_broken _ opens broken, pure_apply]
  · intro e s s' value
    rw [Engine.substitute, substitute_of_parsed _ opens parsed, ← fill_eq_fillInOrder,
      fill_eq_some_iff]

/-- A splice that binds the name `x` to a text that looks like a placeholder. -/
def bindingX : Splice := fun node =>
  .bind "x" (Splice.text "$(y)") (.done [.element "y" [] [node, .cdata "<", .comment "c"]])

/-- A stage where `b` is bound to it, and `y` to a text. -/
def bindingStage : Stage where
  state := (State.empty.bind "b" bindingX).bind "y" (Splice.text "Y")

/-- The element `y` that the splice gives is not expanded, what it binds is seen behind it, and the
text that looks like a placeholder is not read again. The splice is not invoked for a value that
breaks off behind its placeholder. -/
theorem bindingStage_filled :
    (∃ s', (ofFuel 2).substitute "\\$$(b)-$(x)$(none)" bindingStage = some ("$<-$(y)", s') ∧
      (ofFuel 2).Fills [.literal "$", .placeholder "b", .literal "-", .placeholder "x",
        .placeholder "none"] bindingStage "$<-$(y)" s') ∧
    (ofFuel 2).substitute "$(b)$(x" bindingStage = some ("", bindingStage) ∧
    (ofFuel 2).substitute "C:\\b" bindingStage = some ("C:\\b", bindingStage) := by
  have once := values_filled_once (m := Id) fun _ => none
  refine ⟨?_, ?_, ?_⟩
  · have opens : ['$', '('] <:+: "\\$$(b)-$(x)$(none)".toList := by decide +kernel
    have parsed : parse? "\\$$(b)-$(x)$(none)" = some [.literal "$", .placeholder "b",
      .literal "-", .placeholder "x", .placeholder "none"] := by decide +kernel
    have text : ((ofFuel 2).substitute "\\$$(b)-$(x)$(none)" bindingStage).map Prod.fst =
        some "$<-$(y)" := by
      decide +kernel
    obtain ⟨⟨_, s'⟩, filled, rfl⟩ := Option.map_eq_some_iff.mp text
    exact ⟨s', filled, (((once _).2.2.1 _ opens parsed).2 _ _ _ _).mp filled⟩
  · have opens : ['$', '('] <:+: "$(b)$(x".toList := by decide +kernel
    have broken : parse? "$(b)$(x" = none := by decide +kernel
    exact ((once _).2.1 opens broken).2 _ _
  · have lone : ¬ ['$', '('] <:+: "C:\\b".toList := by decide +kernel
    exact ((once _).1 lone).2.2 _ _

end Engine

end Templating
