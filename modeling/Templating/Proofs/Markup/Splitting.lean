import Templating.Proofs.Markup.Recovery

/-!
# Failures over a cut

That a raw text would begin inside a character is a failure of reading events and of nothing
else: what a token says does not fail over it (`Event.intact_ofToken?`), and neither does building
the tree. So a document fails over a cut if its stream does (`fault_of_parseText`). Raw text is a
matter of HTML, where no tags are at fault, and so the other way round what a stream ends in is
what the document fails over (`parseText_of_fault`).
-/

namespace Templating.Markup

section

variable {α β : Type} {format : Format}

/-- The result is no failure over a cut inside a character. -/
def Intact (x : Except Error α) : Prop := ∀ position, x ≠ .error (.splitCharacter position)

theorem intact_ok (a : α) : Intact (.ok a) := by
  intro position failed
  cases failed

theorem intact_error {e : Error} (other : ∀ position, e ≠ .splitCharacter position) :
    Intact (.error e : Except Error α) := fun position failed =>
  other position (Except.error.inj failed)

theorem Intact.map {x : Except Error α} (h : Intact x) (f : α → β) : Intact (x.map f) := by
  intro position failed
  cases x with
  | ok a => cases failed
  | error e =>
    cases failed
    exact h position rfl

theorem Intact.bind {x : Except Error α} {f : α → Except Error β} (h : Intact x)
    (hf : ∀ a, Intact (f a)) : Intact (x.bind f) := by
  intro position failed
  cases x with
  | ok a => exact hf a position failed
  | error e =>
    cases failed
    exact h position rfl

theorem intact_mapError {ε : Type} {x : Except ε α} {report : ε → Error}
    (h : ∀ fault position, report fault ≠ .splitCharacter position) :
    Intact (x.mapError report) := by
  intro position failed
  cases x with
  | ok a => cases failed
  | error fault => exact h fault position (Except.error.inj failed)

theorem Event.intact_decodeAttributes (stop : Nat) (fault : Option Tag.Fault)
    (pairs : List (List Char × List Char)) :
    Intact (Event.decodeAttributes format stop fault pairs) := by
  induction pairs with
  | nil =>
    cases fault with
    | none => exact intact_ok _
    | some fault => exact intact_error (by simp)
  | cons pair pairs ih =>
    rw [decodeAttributes_cons]
    refine Intact.bind ?_ fun _ => ih.map _
    cases format with
    | html => exact intact_ok _
    | xml => exact intact_mapError (by simp)

theorem Event.intact_ofToken? (stop : Nat) (t : Token) : Intact (Event.ofToken? format stop t) := by
  cases t with
  | text raw =>
    refine Intact.map ?_ _
    cases format with
    | html => exact intact_ok _
    | xml => exact intact_mapError (by simp)
  | startTag inside | emptyTag inside =>
    exact ((Event.intact_decodeAttributes stop _ _).map _).map _
  | _ => exact intact_ok _

/-- Only a start tag enters an element, and by the name it begins with. -/
theorem Event.exists_startTag_of_enter {stop : Nat} {t : Token} {name : String}
    {as : List Attribute} (h : Event.ofToken? format stop t = .ok (some (.enter name as))) :
    ∃ inside, t = .startTag inside ∧ name = String.ofList (Tag.name inside) := by
  cases t with
  | startTag inside =>
    obtain ⟨⟨tag, attributes⟩, decoded, same⟩ := exists_of_map_eq_ok h
    obtain ⟨list, -, parts⟩ := exists_of_map_eq_ok decoded
    cases parts
    dsimp only at same
    split at same
    · cases same
    · cases same
      exact ⟨inside, rfl, rfl⟩
  | text raw =>
    obtain ⟨cs, -, same⟩ := exists_of_map_eq_ok h
    cases same
  | emptyTag inside =>
    obtain ⟨tag, -, same⟩ := exists_of_map_eq_ok h
    cases same
  | _ => cases h

theorem Builder.intact_step (b : Builder) (event : Event) : Intact (b.step format event) := by
  cases event with
  | leave name =>
    cases format with
    | html => exact intact_ok _
    | xml =>
      rw [step, leaveInnermost]
      cases b.stack with
      | nil => exact intact_error (by simp)
      | cons e stack =>
        dsimp only
        split
        · exact intact_ok _
        · exact intact_error (by simp)
  | _ => exact intact_ok _

theorem Builder.intact_run (b : Builder) (events : List Event) : Intact (b.run format events) := by
  induction events generalizing b with
  | nil => exact intact_ok b
  | cons event events ih =>
    rw [Builder.run_cons]
    exact (b.intact_step event).bind ih

theorem Builder.intact_finish (b : Builder) : Intact (b.finish format) := by
  cases format with
  | html => exact intact_ok _
  | xml =>
    rw [finish]
    cases b.stack with
    | nil => exact intact_ok _
    | cons e stack => exact intact_error (by simp)

/-- A document that fails over a cut does so because its stream does. -/
theorem fault_of_parseText {source : List Char} {position : Nat}
    (failed : parseText format source = .error (.splitCharacter position)) :
    (Stream.ofSource format source).fault = some (.splitCharacter position) := by
  have built : (Stream.ofSource format source).build format =
      .error (.splitCharacter position) := by
    rw [parseText] at failed
    cases built : (Stream.ofSource format source).build format <;> rw [built] at failed <;>
      cases failed
    rfl
  rw [Stream.build] at built
  split at built
  · rename_i ran
    cases built
    exact absurd ran (Builder.intact_run _ _ position)
  · split at built
    · rename_i faulty
      cases built
      exact faulty
    · exact absurd built (Builder.intact_finish _ position)

/-- In HTML what a stream ends in is what the document fails over. -/
theorem parseText_of_fault {source : List Char} {e : Error}
    (faulty : (Stream.ofSource .html source).fault = some e) :
    parseText .html source = .error e := by
  obtain ⟨b, built⟩ := exists_build_html (Stream.ofSource .html source).events
  rw [Stream.build_eq_bind] at built
  obtain ⟨b', ran, -⟩ := exists_of_bind_eq_ok built
  rw [parseText, Stream.build, ran, faulty]
  rfl

end

end Templating.Markup
