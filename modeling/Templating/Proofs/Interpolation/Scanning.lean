import Mathlib.Data.List.Chain
import Templating.Proofs.Interpolation

/-!
# The grammar of values

A value is made of items: characters, which a backslash may stand before, and placeholders.
`Scans cs items rest` says that reading `cs` from left to right gives these items and leaves
`rest`, and knows of no pieces. Every value can be read up to its end or up to a place where
reading breaks off (`exists_scans`): a backslash with nothing behind it, or a placeholder that is
not closed.

The pieces of a value are its items, with as many characters in one literal piece as there can
be (`group`, `piecesFrom_of_scans`). So they are in canonical form, and are the only pieces in
that form that the value can be read as. A list of pieces in canonical form is read back from
its spelling (`parse?_unique_and_complete`).
-/

namespace Templating.Interpolation

/-! ### Items -/

/-- What a value is made of. -/
inductive Item where
  | char (c : Char)
  | placeholder (name : String)
  deriving DecidableEq

/-- The items of a piece. -/
def Piece.items : Piece → List Item
  | .literal text => text.toList.map .char
  | .placeholder name => [.placeholder name]

/-- Reading `cs` from left to right gives `items` and leaves `rest`, both outside of
placeholders. -/
inductive Scans : List Char → List Item → List Char → Prop where
  | here (cs : List Char) : Scans cs [] cs
  | plain {c : Char} {cs rest : List Char} {items : List Item} (unescaped : c ≠ '\\')
      (lone : ¬ (c = '$' ∧ cs.head? = some '(')) :
      Scans cs items rest → Scans (c :: cs) (.char c :: items) rest
  | escaped (c : Char) {cs rest : List Char} {items : List Item} :
      Scans cs items rest → Scans ('\\' :: c :: cs) (.char c :: items) rest
  | placeholder {name cs rest : List Char} {items : List Item} (inside : ')' ∉ name) :
      Scans cs items rest →
        Scans ('$' :: '(' :: (name ++ ')' :: cs)) (.placeholder (String.ofList name) :: items) rest

/-- Where reading breaks off. -/
inductive Broken : List Char → Prop where
  /-- Nothing stands behind a backslash. -/
  | backslash : Broken ['\\']
  /-- No parenthesis closes a placeholder. -/
  | unclosed {cs : List Char} (never : ')' ∉ cs) : Broken ('$' :: '(' :: cs)

/-- Every value is read up to its end, or up to where reading breaks off. -/
theorem exists_scans (cs : List Char) :
    ∃ items rest, Scans cs items rest ∧ (rest = [] ∨ Broken rest) := by
  induction length : cs.length using Nat.strongRecOn generalizing cs with
  | ind n ih =>
    subst length
    cases cs with
    | nil => exact ⟨[], [], .here [], .inl rfl⟩
    | cons c cs =>
      by_cases escape : c = '\\'
      · subst escape
        cases cs with
        | nil => exact ⟨[], _, .here _, .inr .backslash⟩
        | cons d cs =>
          obtain ⟨items, rest, scans, stop⟩ := ih cs.length (by simp only [List.length_cons]; omega) cs rfl
          exact ⟨_, rest, .escaped d scans, stop⟩
      · by_cases opening : c = '$' ∧ cs.head? = some '('
        · obtain ⟨rfl, opens⟩ := opening
          obtain ⟨cs, rfl⟩ := List.head?_eq_some_iff.mp opens
          by_cases closes : ')' ∈ cs
          · obtain ⟨name, behind, rfl, inside⟩ := List.eq_append_cons_of_mem closes
            have shorter : behind.length < (name ++ ')' :: behind).length + 2 := by
              simp only [List.length_append, List.length_cons]
              omega
            obtain ⟨items, rest, scans, stop⟩ := ih behind.length shorter behind rfl
            exact ⟨_, rest, .placeholder inside scans, stop⟩
          · exact ⟨[], _, .here _, .inr (.unclosed closes)⟩
        · obtain ⟨items, rest, scans, stop⟩ := ih cs.length (Nat.lt_succ_self _) cs rfl
          exact ⟨_, rest, .plain escape opening scans, stop⟩

theorem Scans.notMem_placeholder {cs rest : List Char} {items : List Item}
    (h : Scans cs items rest) {name : String} (mem : .placeholder name ∈ items) :
    ')' ∉ name.toList := by
  induction h with
  | here cs => cases mem
  | plain _ _ _ ih | escaped _ _ ih =>
    rcases List.mem_cons.mp mem with same | mem
    · cases same
    · exact ih mem
  | placeholder inside _ ih =>
    rcases List.mem_cons.mp mem with same | mem
    · cases same
      rwa [String.toList_ofList]
    · exact ih mem

theorem Scans.eq_nil {cs : List Char} (h : Scans cs [] []) : cs = [] := by
  cases h
  rfl

/-! ### Pieces of items -/

/-- The pieces of items behind literal characters that were read, the last one first. -/
def group (read : List Char) : List Item → List Piece
  | [] => flush read
  | .char c :: items => group (c :: read) items
  | .placeholder name :: items => flush read ++ .placeholder name :: group [] items

section

variable {cs rest : List Char} {items : List Item}

theorem piecesFrom_plain (read : List Char) {c : Char} (unescaped : c ≠ '\\')
    (lone : ¬ (c = '$' ∧ cs.head? = some '(')) :
    piecesFrom read none (c :: cs) = piecesFrom (c :: read) none cs := by
  rw [piecesFrom]
  · rintro rfl -
    exact unescaped rfl
  · rintro d ds rfl -
    exact unescaped rfl
  · rintro ds rfl rfl
    exact lone ⟨rfl, rfl⟩

theorem piecesFrom_closed (read name : List Char) {inner : List Char} (inside : ')' ∉ inner) :
    piecesFrom read (some name) (inner ++ ')' :: cs) =
      (piecesFrom [] none cs).map
        (.placeholder (String.ofList (name.reverse ++ inner)) :: ·) := by
  induction inner generalizing name with
  | nil => rw [List.nil_append, piecesFrom, if_pos rfl, List.append_nil]
  | cons c inner ih =>
    obtain ⟨other, inside⟩ := not_or.mp (mt List.mem_cons.mpr inside)
    rw [List.cons_append, piecesFrom, if_neg (Ne.symm other), ih (c :: name) inside,
      List.reverse_cons, List.append_assoc, List.singleton_append]

theorem piecesFrom_unclosed (read name : List Char) (never : ')' ∉ cs) :
    piecesFrom read (some name) cs = none := by
  induction cs generalizing name with
  | nil => rfl
  | cons c cs ih =>
    obtain ⟨other, never⟩ := not_or.mp (mt List.mem_cons.mpr never)
    rw [piecesFrom, if_neg (Ne.symm other), ih (c :: name) never]

theorem Broken.piecesFrom (h : Broken cs) (read : List Char) : piecesFrom read none cs = none := by
  cases h with
  | backslash => rfl
  | unclosed never => rw [Interpolation.piecesFrom, piecesFrom_unclosed [] [] never, Option.map_none]

/-- A value that is read up to its end has the pieces of its items. -/
theorem piecesFrom_of_scans (h : Scans cs items []) (read : List Char) :
    piecesFrom read none cs = some (group read items) := by
  generalize ended : ([] : List Char) = rest at h
  induction h generalizing read with
  | here cs =>
    subst ended
    rfl
  | @plain c _ _ _ unescaped lone _ ih =>
    rw [piecesFrom_plain read unescaped lone, ih (c :: read) ended]
    rfl
  | escaped c _ ih => exact ih (c :: read) ended
  | placeholder inside _ ih =>
    rw [piecesFrom, piecesFrom_closed [] [] inside, ih [] ended]
    rfl

/-- A value has no pieces if reading it breaks off. -/
theorem piecesFrom_of_broken (h : Scans cs items rest) (broken : Broken rest) (read : List Char) :
    piecesFrom read none cs = none := by
  induction h generalizing read with
  | here cs => exact broken.piecesFrom read
  | @plain c _ _ _ unescaped lone _ ih =>
    rw [piecesFrom_plain read unescaped lone, ih broken (c :: read)]
  | escaped c _ ih => exact ih broken (c :: read)
  | placeholder inside _ ih =>
    rw [piecesFrom, piecesFrom_closed [] [] inside, ih broken []]
    rfl

end

/-! ### Canonical form -/

/-- Whether a piece is literal text. -/
def Piece.isLiteral : Piece → Bool
  | .literal _ => true
  | .placeholder _ => false

/-- Pieces as they can be told apart in a value. -/
structure Tidy (pieces : List Piece) : Prop where
  literal : ∀ text, .literal text ∈ pieces → text ≠ ""
  placeholder : ∀ name, .placeholder name ∈ pieces → ')' ∉ name.toList
  /-- No two literal pieces stand side by side. -/
  apart : pieces.IsChain fun p q => ¬ (p.isLiteral = true ∧ q.isLiteral = true)

/-- The form in which a value has its pieces. -/
structure Canonical (pieces : List Piece) : Prop extends Tidy pieces where
  nonempty : pieces ≠ []

section

variable {pieces : List Piece}

theorem tidy_nil : Tidy [] := ⟨nofun, nofun, .nil⟩

theorem Tidy.of_cons {p : Piece} (h : Tidy (p :: pieces)) : Tidy pieces where
  literal text mem := h.literal text (List.mem_cons_of_mem p mem)
  placeholder name mem := h.placeholder name (List.mem_cons_of_mem p mem)
  apart := h.apart.of_cons

theorem Tidy.cons_placeholder (h : Tidy pieces) {name : String} (inside : ')' ∉ name.toList) :
    Tidy (.placeholder name :: pieces) where
  literal text mem := by
    rcases List.mem_cons.mp mem with same | mem
    · cases same
    · exact h.literal text mem
  placeholder name' mem := by
    rcases List.mem_cons.mp mem with same | mem
    · cases same
      exact inside
    · exact h.placeholder name' mem
  apart := List.isChain_cons.mpr ⟨fun _ _ both => Bool.false_ne_true both.1, h.apart⟩

theorem Tidy.cons_literal (h : Tidy pieces) {text : String} (nonempty : text ≠ "")
    (behind : ∀ p ∈ pieces.head?, p.isLiteral = false) : Tidy (.literal text :: pieces) where
  literal text' mem := by
    rcases List.mem_cons.mp mem with same | mem
    · cases same
      exact nonempty
    · exact h.literal text' mem
  placeholder name mem := by
    rcases List.mem_cons.mp mem with same | mem
    · cases same
    · exact h.placeholder name mem
  apart := List.isChain_cons.mpr
    ⟨fun p first both => Bool.false_ne_true ((behind p first).symm.trans both.2), h.apart⟩

theorem Tidy.flush_append (h : Tidy pieces) (read : List Char)
    (behind : ∀ p ∈ pieces.head?, p.isLiteral = false) : Tidy (flush read ++ pieces) := by
  unfold flush
  split
  · exact h
  · rename_i some
    refine h.cons_literal (fun empty => some ?_) behind
    simpa using congrArg String.toList empty

/-- Items give tidy pieces. -/
theorem tidy_group {items : List Item}
    (names : ∀ name, .placeholder name ∈ items → ')' ∉ name.toList) (read : List Char) :
    Tidy (group read items) := by
  induction items generalizing read with
  | nil =>
    rw [group, ← List.append_nil (flush read)]
    exact tidy_nil.flush_append read nofun
  | cons item items ih =>
    have later := ih fun name mem => names name (List.mem_cons_of_mem item mem)
    cases item with
    | char c => exact later (c :: read)
    | placeholder name =>
      refine ((later []).cons_placeholder (names name List.mem_cons_self)).flush_append read ?_
      rintro _ ⟨rfl⟩
      rfl

theorem items_flush (read : List Char) :
    (flush read).flatMap Piece.items = read.reverse.map .char := by
  unfold flush
  split
  · rename_i empty
    rw [empty]
    rfl
  · simp [Piece.items]

/-- The pieces of items have these items. -/
theorem items_group (read : List Char) (items : List Item) :
    (group read items).flatMap Piece.items = read.reverse.map .char ++ items := by
  induction items generalizing read with
  | nil => rw [group, items_flush, List.append_nil]
  | cons item items ih =>
    cases item with
    | char c => simp [group, ih]
    | placeholder name => simp [group, ih, items_flush, Piece.items]

theorem group_chars (read cs : List Char) (items : List Item) :
    group read (cs.map .char ++ items) = group (cs.reverse ++ read) items := by
  induction cs generalizing read with
  | nil => rfl
  | cons c cs ih => simp [group, ih]

/-- Tidy pieces are those of their items. -/
theorem group_items (h : Tidy pieces) : group [] (pieces.flatMap Piece.items) = pieces := by
  induction pieces with
  | nil => rfl
  | cons p pieces ih =>
    cases p with
    | placeholder name => exact congrArg (.placeholder name :: ·) (ih h.of_cons)
    | literal text =>
      have flushed : flush text.toList.reverse = [.literal text] := by
        have some : text.toList ≠ [] := by simpa using h.literal text List.mem_cons_self
        simp [flush, some]
      rw [List.flatMap_cons, Piece.items, group_chars, List.append_nil]
      -- What stands behind literal text is the end or a placeholder.
      cases pieces with
      | nil => exact flushed
      | cons q pieces =>
        cases q with
        | literal text' => exact absurd ⟨rfl, rfl⟩ (List.isChain_cons_cons.mp h.apart).1
        | placeholder name =>
          have behind := ih h.of_cons
          change flush _ ++ .placeholder name :: group [] _ = _
          rw [flushed]
          exact congrArg (.literal text :: ·) behind

/-! ### Spelling -/

theorem scans_spellChar (c : Char) {cs : List Char} {items : List Item} (h : Scans cs items []) :
    Scans (spellChar c ++ cs) (.char c :: items) [] := by
  unfold spellChar
  split
  · exact .escaped c h
  · rename_i ordinary
    obtain ⟨unescaped, noDollar⟩ := not_or.mp ordinary
    exact .plain unescaped (fun opening => noDollar opening.1) h

theorem scans_flatMap_spellChar (text : List Char) {cs : List Char} {items : List Item}
    (h : Scans cs items []) :
    Scans (text.flatMap spellChar ++ cs) (text.map .char ++ items) [] := by
  induction text with
  | nil => exact h
  | cons c text ih =>
    rw [List.flatMap_cons, List.append_assoc]
    exact scans_spellChar c ih

/-- The spelling of pieces is read as their items. -/
theorem scans_spelling (names : ∀ name, .placeholder name ∈ pieces → ')' ∉ name.toList) :
    Scans (pieces.flatMap Piece.spelling) (pieces.flatMap Piece.items) [] := by
  induction pieces with
  | nil => exact .here []
  | cons p pieces ih =>
    have later := ih fun name mem => names name (List.mem_cons_of_mem p mem)
    cases p with
    | literal text => exact scans_flatMap_spellChar text.toList later
    | placeholder name =>
      have scans := Scans.placeholder (names name List.mem_cons_self) later
      rw [String.ofList_toList] at scans
      rw [List.flatMap_cons, Piece.spelling, List.append_assoc]
      exact scans

end

/-! ### Reading values -/

theorem parse?_eq_some_iff {raw : String} {pieces : List Piece} :
    parse? raw = some pieces ↔ pieces ≠ [] ∧ piecesFrom [] none raw.toList = some pieces := by
  unfold parse?
  split
  · rename_i empty
    rw [empty]
    refine ⟨nofun, fun ⟨nonempty, same⟩ => ?_⟩
    cases same
    exact absurd rfl nonempty
  · rename_i some
    refine ⟨fun same => ⟨?_, same⟩, And.right⟩
    rintro rfl
    exact some same

theorem parse?_of_scans {raw : String} {pieces : List Piece} (canonical : Canonical pieces)
    (scans : Scans raw.toList (pieces.flatMap Piece.items) []) : parse? raw = some pieces := by
  rw [parse?_eq_some_iff, piecesFrom_of_scans scans [], group_items canonical.toTidy]
  exact ⟨canonical.nonempty, rfl⟩

/-- **Values are read uniquely and completely.** A value has no pieces if and only if it is empty,
or reading it from left to right comes to a backslash with nothing behind it or to a placeholder
that is not closed. Its pieces are in canonical form, and are the only ones in that form that it
can be read as. And pieces in canonical form are read back from their spelling. -/
theorem parse?_unique_and_complete :
    (∀ raw, parse? raw = none ↔
      raw = "" ∨ ∃ items rest, Scans raw.toList items rest ∧ Broken rest) ∧
    (∀ raw pieces, parse? raw = some pieces ↔
      Canonical pieces ∧ Scans raw.toList (pieces.flatMap Piece.items) []) ∧
    ∀ pieces, Canonical pieces → parse? (spell pieces) = some pieces := by
  have some_iff (raw : String) (pieces : List Piece) : parse? raw = some pieces ↔
      Canonical pieces ∧ Scans raw.toList (pieces.flatMap Piece.items) [] := by
    refine ⟨fun parsed => ?_, fun h => parse?_of_scans h.1 h.2⟩
    obtain ⟨nonempty, read⟩ := parse?_eq_some_iff.mp parsed
    obtain ⟨items, rest, scans, rfl | broken⟩ := exists_scans raw.toList
    · rw [piecesFrom_of_scans scans [], Option.some.injEq] at read
      subst read
      refine ⟨⟨tidy_group (fun _ => scans.notMem_placeholder) [], nonempty⟩, ?_⟩
      rwa [items_group]
    · rw [piecesFrom_of_broken scans broken] at read
      cases read
  refine ⟨fun raw => ⟨fun failed => ?_, ?_⟩, some_iff, fun pieces canonical => ?_⟩
  · obtain ⟨items, rest, scans, rfl | broken⟩ := exists_scans raw.toList
    · left
      by_contra nonempty
      have some : group [] items ≠ [] := by
        intro none
        have := items_group [] items
        rw [none] at this
        subst this
        exact nonempty (String.toList_eq_nil_iff.mp scans.eq_nil)
      have parsed := parse?_eq_some_iff.mpr ⟨some, piecesFrom_of_scans scans []⟩
      rw [failed] at parsed
      cases parsed
    · exact .inr ⟨items, rest, scans, broken⟩
  · rintro (rfl | ⟨items, rest, scans, broken⟩)
    · rfl
    · rw [parse?, piecesFrom_of_broken scans broken]
  · refine parse?_of_scans canonical ?_
    rw [spell, String.toList_ofList]
    exact scans_spelling canonical.placeholder

/-- Pieces with backslashes, dollar signs and parentheses in both kinds. -/
def trickyPieces : List Piece :=
  [.literal "a\\$(b)", .placeholder "", .placeholder "$(x\\", .literal "$5\\"]

theorem trickyPieces_canonical : Canonical trickyPieces where
  literal := by simp [trickyPieces]
  placeholder := by simp [trickyPieces]
  apart := by simp [trickyPieces, Piece.isLiteral]
  nonempty := by simp [trickyPieces]

theorem trickyPieces_readBack :
    Canonical trickyPieces ∧ spell trickyPieces = "a\\\\\\$(b)$()$($(x\\)\\$5\\\\" ∧
      parse? "a\\\\\\$(b)$()$($(x\\)\\$5\\\\" = some trickyPieces := by
  have spelled : spell trickyPieces = "a\\\\\\$(b)$()$($(x\\)\\$5\\\\" := by decide +kernel
  refine ⟨trickyPieces_canonical, spelled, ?_⟩
  rw [← spelled]
  exact parse?_unique_and_complete.2.2 trickyPieces trickyPieces_canonical

end Templating.Interpolation
