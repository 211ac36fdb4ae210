import Templating.Markup.Token

/-!
# What a token leaves

Reading a token leaves an end of what there was to read, whatever the token is
(`leavesEnd_readMarkup`). So what was taken stands in front of it, and has the size of the token
(`exists_append_of_next?`); of a start tag it is the tag as it is written
(`eq_of_next?_startTag`).
-/

namespace Templating.Markup

open Text

namespace Token

/-- What a reader of a construct leaves is an end of what it was given. -/
def LeavesEnd (cs : List Char) (reading : Reading) : Prop :=
  ∀ t rest, reading = .ok (t, rest) → rest <:+ cs

theorem leavesEnd_error {cs : List Char} {fault : Fault} : LeavesEnd cs (.error fault) :=
  fun _ _ h => nomatch h

theorem leavesEnd_ok {cs rest : List Char} {t : Token} (h : rest <:+ cs) :
    LeavesEnd cs (.ok (t, rest)) := by
  intro t' rest' same
  cases same
  exact h

theorem LeavesEnd.behind {cs : List Char} {reading : Reading} (h : LeavesEnd cs reading)
    (front : List Char) : LeavesEnd (front ++ cs) reading := fun t rest same =>
  (h t rest same).trans (List.suffix_append front cs)

theorem suffix_of_breakOn {mark cs before after : List Char}
    (h : breakOn mark cs = some (before, after)) : after <:+ cs :=
  ⟨before ++ mark, (append_of_breakOn h).symm⟩

theorem suffix_of_split {c : Char} {cs inside rest : List Char} (h : cs = inside ++ c :: rest) :
    rest <:+ cs := ⟨inside ++ [c], by rw [h, List.append_assoc, List.singleton_append]⟩

theorem leavesEnd_readComment (cs : List Char) : LeavesEnd cs (readComment cs) := by
  unfold readComment
  split
  · split
    · rename_i h
      exact leavesEnd_ok ((suffix_of_breakOn h).trans (List.suffix_cons _ _))
    · exact leavesEnd_error
  · exact leavesEnd_error

theorem leavesEnd_readCdata (cs : List Char) : LeavesEnd cs (readCdata cs) := by
  unfold readCdata
  split
  · split
    · rename_i h
      exact leavesEnd_ok ((suffix_of_breakOn h).trans
        (List.suffix_append ['C', 'D', 'A', 'T', 'A', '['] _))
    · exact leavesEnd_error
  · exact leavesEnd_error

theorem leavesEnd_readDoctype (cs : List Char) : LeavesEnd cs (readDoctype cs) := by
  unfold readDoctype stripKeyword?
  split
  · exact leavesEnd_error
  · rename_i behind keyword
    have named : behind <:+ cs := by
      split at keyword
      · cases keyword
        exact List.drop_suffix _ _
      · cases keyword
    split
    · exact leavesEnd_error
    · rename_i h
      split
      · exact leavesEnd_error
      · exact leavesEnd_ok ((suffix_of_split (append_of_splitBalanced h)).trans named)

theorem leavesEnd_readInstruction (cs : List Char) : LeavesEnd cs (readInstruction cs) := by
  unfold readInstruction
  split
  · exact leavesEnd_error
  · split
    · exact leavesEnd_error
    · rename_i h
      exact leavesEnd_ok (suffix_of_breakOn h)

theorem leavesEnd_readEndTag (cs : List Char) : LeavesEnd cs (readEndTag cs) := by
  unfold readEndTag
  split
  · rename_i h
    exact leavesEnd_ok (suffix_of_split (append_of_splitTag h))
  · exact leavesEnd_error

theorem leavesEnd_readStartTag (cs : List Char) : LeavesEnd cs (readStartTag cs) := by
  unfold readStartTag
  split
  · rename_i h
    have behind := suffix_of_split (append_of_splitTag h)
    split
    · exact leavesEnd_ok behind
    · exact leavesEnd_ok behind
  · exact leavesEnd_error

theorem leavesEnd_readMarkup (cs : List Char) : LeavesEnd cs (readMarkup cs) := by
  unfold readMarkup
  split
  · exact (leavesEnd_readComment _).behind ['!', '-']
  · exact (leavesEnd_readCdata _).behind ['!', '[']
  · exact (leavesEnd_readDoctype _).behind ['!']
  · exact (leavesEnd_readDoctype _).behind ['!']
  · exact leavesEnd_error
  · exact (leavesEnd_readInstruction _).behind ['?']
  · exact (leavesEnd_readEndTag _).behind ['/']
  · exact leavesEnd_readStartTag _

/-- A token stands in front of what it leaves, and takes its size. -/
theorem exists_append_of_next? {cs rest : List Char} {t : Token}
    (h : next? cs = some (.ok (t, rest))) :
    ∃ taken, cs = taken ++ rest ∧ byteSize taken = t.size := by
  have suffix : rest <:+ cs := by
    unfold next? at h
    split at h
    · cases h
    · exact (leavesEnd_readMarkup _ t rest (Option.some.inj h)).trans (List.suffix_cons _ _)
    · cases h
      exact (List.dropWhile_suffix _).trans (List.suffix_cons _ _)
  obtain ⟨taken, rfl⟩ := suffix
  have size := size_next? h
  rw [byteSize_append] at size
  exact ⟨taken, rfl, by omega⟩

/-- A start tag is written with what stands between its brackets. -/
theorem eq_of_next?_startTag {cs inside rest : List Char}
    (h : next? cs = some (.ok (.startTag inside, rest))) : cs = '<' :: inside ++ '>' :: rest := by
  unfold next? at h
  split at h
  · cases h
  · rename_i cs
    have read : readStartTag cs = .ok (.startTag inside, rest) := by
      have h := Option.some.inj h
      unfold readMarkup readComment readCdata readDoctype readInstruction readEndTag at h
      repeat' split at h
      all_goals first | cases h | exact h
    unfold readStartTag at read
    split at read
    · rename_i split
      split at read
      · cases read
      · cases read
        rw [append_of_splitTag split]
        rfl
    · cases read
  · cases h

end Token

end Templating.Markup
