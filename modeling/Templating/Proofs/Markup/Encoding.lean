import Templating.Markup.Encoding
import Templating.Proofs.Result
import Templating.Proofs.Text.Utf16

/-!
# Reading encoded texts

The bytes of a text in an encoding announce that encoding and spell that text
(`decode_encode`), unless the text itself begins with a byte order mark, which UTF-8
loses. That the bytes of UTF-8 announce nothing else follows from their being
read back: the marks of UTF-16 are no UTF-8 at all, and its own mark spells `U+FEFF`.

Conversely, bytes that are read are those of the text they spell, with the one mark that
UTF-8 does not write; all others are refused (`decode_inverts_encode`).
-/

namespace Templating.Markup

open Text

/-- The text does not begin with a byte order mark. -/
def Unmarked (cs : List Char) : Prop := cs.head? ≠ some '\uFEFF'

instance (cs : List Char) : Decidable (Unmarked cs) := inferInstanceAs (Decidable (_ ≠ _))

namespace Encoding

/-! ### Texts that are written -/

theorem detect_utf8 {cs : List Char} (h : Unmarked cs) :
    detect (Utf8.encode cs) = (.utf8, Utf8.encode cs) := by
  have back := Utf8.decode_encode cs
  unfold detect
  split
  · rename_i bs hb
    rw [hb] at back
    have read : Utf8.decode (0xef :: 0xbb :: 0xbf :: bs) =
        (Utf8.decodeFrom 3 none bs).map ('\uFEFF' :: ·) := rfl
    rw [read] at back
    cases hr : Utf8.decodeFrom 3 none bs with
    | error fault =>
      rw [hr] at back
      cases back
    | ok rest =>
      rw [hr] at back
      cases back
      exact absurd rfl h
  · rename_i bs hb
    rw [hb] at back
    cases back
  · rename_i bs hb
    rw [hb] at back
    cases back
  · rfl

/-- What is read back from the bytes of a text: UTF-8 loses a byte order mark at its
beginning. -/
def readBack : Encoding → List Char → List Char
  | .utf8, '\uFEFF' :: cs => cs
  | _, cs => cs

/-- Nothing is lost exactly where no mark may be. -/
theorem readBack_eq_iff {e : Encoding} {cs : List Char} :
    e.readBack cs = cs ↔ (e = .utf8 → Unmarked cs) := by
  constructor
  · rintro same rfl marked
    obtain ⟨rest, rfl⟩ := List.head?_eq_some_iff.mp marked
    exact absurd (congrArg List.length same) (Nat.ne_of_lt (Nat.lt_succ_self rest.length))
  · intro h
    unfold readBack
    split
    · exact absurd rfl (h rfl)
    · rfl

/-- The bytes of a text in an encoding, behind the mark if the encoding writes one. -/
def unmarkedBytes : Encoding → List Char → List UInt8
  | .utf8, cs => Utf8.encode cs
  | .utf16 order, cs => Utf16.encode order cs

theorem decodeAs_eq_ok_iff {e : Encoding} {bs : List UInt8} {cs : List Char} :
    decodeAs e bs = .ok cs ↔ bs = e.unmarkedBytes cs := by
  cases e with
  | utf8 =>
    rw [unmarkedBytes, ← Utf8.decode_eq_ok_iff, decodeAs]
    exact mapError_eq_ok_iff
  | utf16 order =>
    rw [unmarkedBytes, ← Utf16.decode_eq_ok_iff, decodeAs]
    exact mapError_eq_ok_iff

theorem decode_of_detect {e : Encoding} {bs : List UInt8} {cs : List Char}
    (h : detect bs = (e, e.unmarkedBytes cs)) : decode bs = .ok (e, cs) := by
  rw [decode, h]
  simp only [decodeAs_eq_ok_iff.mpr rfl]
  rfl

theorem decode_marked_utf8 (cs : List Char) :
    decode (mark .utf8 ++ encode .utf8 cs) = .ok (.utf8, cs) := decode_of_detect rfl

/-- **Any text** is read back from its bytes, but for the mark that UTF-8 loses. -/
theorem decode_encode_readBack (e : Encoding) (cs : List Char) :
    decode (e.encode cs) = .ok (e, e.readBack cs) := by
  by_cases kept : e = .utf8 → Unmarked cs
  · rw [readBack_eq_iff.mpr kept]
    match e with
    | .utf8 => exact decode_of_detect (detect_utf8 (kept rfl))
    | .utf16 .big => exact decode_of_detect rfl
    | .utf16 .little => exact decode_of_detect rfl
  · obtain ⟨rfl, marked⟩ := Classical.not_imp.mp kept
    obtain ⟨rest, rfl⟩ := List.head?_eq_some_iff.mp (Classical.not_not.mp marked)
    exact decode_marked_utf8 rest

/-- **A text** is read back from its bytes, with the encoding. -/
theorem decode_encode (e : Encoding) {cs : List Char} (h : Unmarked cs) :
    decode (e.encode cs) = .ok (e, cs) := by
  rw [decode_encode_readBack, readBack_eq_iff.mpr fun _ => h]

/-! ### Bytes that are read -/

/-- What bytes announce is the mark that they begin with, or UTF-8 if they have none. -/
theorem eq_of_detect {e : Encoding} {bs rest : List UInt8} (h : detect bs = (e, rest)) :
    bs = mark e ++ rest ∨ e = .utf8 ∧ bs = rest := by
  unfold detect at h
  split at h <;> cases h
  · exact .inl rfl
  · exact .inl rfl
  · exact .inl rfl
  · exact .inr ⟨rfl, rfl⟩

/-- **Bytes that are read** are those of the text they spell, or those behind a mark that UTF-8
does not write. -/
theorem eq_encode_of_decode {e : Encoding} {bs : List UInt8} {cs : List Char}
    (h : decode bs = .ok (e, cs)) :
    e.encode cs = bs ∨ e = .utf8 ∧ bs = mark .utf8 ++ encode .utf8 cs := by
  cases announced : detect bs with
  | mk e' rest =>
    rw [decode, announced] at h
    obtain ⟨text, spelled, same⟩ := exists_of_map_eq_ok h
    cases same
    obtain rfl := decodeAs_eq_ok_iff.mp spelled
    rcases eq_of_detect announced with marked | ⟨rfl, unmarked⟩
    · cases e with
      | utf8 => exact .inr ⟨rfl, marked⟩
      | utf16 order => exact .inl marked.symm
    · exact .inl unmarked.symm

/-- Bytes spell a text if they are its bytes, and UTF-8 loses nothing of it, or its bytes in
UTF-8 behind a mark. -/
theorem decode_eq_ok_iff {e : Encoding} {bs : List UInt8} {cs : List Char} :
    decode bs = .ok (e, cs) ↔ e.encode cs = bs ∧ (e = .utf8 → Unmarked cs) ∨
      e = .utf8 ∧ bs = mark .utf8 ++ encode .utf8 cs := by
  constructor
  · intro h
    refine (eq_encode_of_decode h).imp_left fun bytes => ⟨bytes, readBack_eq_iff.mp ?_⟩
    rw [← bytes, decode_encode_readBack] at h
    exact congrArg Prod.snd (Except.ok.inj h)
  · rintro (⟨rfl, kept⟩ | ⟨rfl, rfl⟩)
    · rw [decode_encode_readBack, readBack_eq_iff.mpr kept]
    · exact decode_marked_utf8 cs

/-- Bytes are refused exactly if they are the bytes of no text: those in front of which UTF-8
would not write its mark are the bytes of a text that begins with the mark. -/
theorem decode_eq_error_iff {bs : List UInt8} :
    (∃ fault, decode bs = .error fault) ↔ ∀ (e : Encoding) cs, e.encode cs ≠ bs := by
  constructor
  · rintro ⟨fault, refused⟩ e cs rfl
    rw [decode_encode_readBack] at refused
    cases refused
  · intro none
    cases h : decode bs with
    | error fault => exact ⟨fault, rfl⟩
    | ok found =>
      rcases eq_encode_of_decode h with bytes | ⟨-, bytes⟩
      · exact absurd bytes (none found.1 found.2)
      · exact absurd bytes.symm (none .utf8 ('\uFEFF' :: found.2))

/-- UTF-16 does not end in the middle of a code unit. -/
theorem decode_of_odd (order : Utf16.ByteOrder) {bs : List UInt8} (h : bs.length % 2 = 1) :
    decode (mark (.utf16 order) ++ bs) = .error (.utf16 .oddLength) := by
  have detected : detect (mark (.utf16 order) ++ bs) = (.utf16 order, bs) := by cases order <;> rfl
  rw [decode, detected]
  simp only [decodeAs, Utf16.decode_of_odd order h]
  rfl

/-- **Decoding and encoding are inverse** up to the byte order mark of UTF-8. Any text is read back
from its bytes in any encoding, but for a mark at its beginning, which UTF-8 loses. Bytes spell a
text in an encoding if and only if they are its bytes and nothing of it would be lost, or the
encoding is UTF-8 and they are its bytes behind a mark. All bytes that are those of no text are
refused, and no others; among them are those of UTF-16 that do not come in pairs. -/
theorem decode_inverts_encode :
    (∀ (e : Encoding) cs, decode (e.encode cs) = .ok (e, e.readBack cs)) ∧
    (∀ (e : Encoding) bs cs, decode bs = .ok (e, cs) ↔
      e.encode cs = bs ∧ (e = .utf8 → Unmarked cs) ∨
        e = .utf8 ∧ bs = mark .utf8 ++ encode .utf8 cs) ∧
    (∀ bs, (∃ fault, decode bs = .error fault) ↔ ∀ (e : Encoding) cs, e.encode cs ≠ bs) ∧
    (∀ order bs, bs.length % 2 = 1 →
      decode (mark (.utf16 order) ++ bs) = .error (.utf16 .oddLength)) :=
  ⟨decode_encode_readBack, fun _ _ _ => decode_eq_ok_iff, fun _ => decode_eq_error_iff,
    fun order _ => decode_of_odd order⟩

/-- UTF-8 loses a mark, UTF-16 keeps it, and half a code unit is refused. -/
theorem markedText_readBack :
    decode (encode .utf8 ['\uFEFF', 'é']) = .ok (.utf8, ['é']) ∧
      decode (encode (.utf16 .little) ['\uFEFF', '😀']) = .ok (.utf16 .little, ['\uFEFF', '😀']) ∧
      [(0x3c : UInt8)].length % 2 = 1 ∧
      decode [0xfe, 0xff, 0x3c] = .error (.utf16 .oddLength) := by
  obtain ⟨back, -, -, odd⟩ := decode_inverts_encode
  exact ⟨back .utf8 _, back (.utf16 .little) _, rfl, odd .big [0x3c] rfl⟩

end Encoding

end Templating.Markup
