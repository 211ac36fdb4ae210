import Templating.Proofs.Result
import Templating.Text.Utf8

/-!
# Reading UTF-8 back

The octets of a text spell that text (`decode_encode`). A character is read back from
its octets whatever follows (`decodeFrom_encodeChar`); for each number of octets, what
the first one opens and what the next one may be is what the code points of that length
need.

No other octets spell it (`decode_eq_ok_iff`). The invariant of the reader is that inside a
character, the code points that it may still have (`Partial.Covers`) are all of characters
whose octets begin with those read (`Partial.Begins`): the range of the next octet is what
leaves out the code points that would have been written in another way, or not at all.
-/

namespace Templating.Text.Utf8

/-- The code point of a character is none of a surrogate. -/
theorem toNat_cases (c : Char) : c.toNat < 0xd800 ∨ 0xe000 ≤ c.toNat ∧ c.toNat < 0x110000 := by
  rcases c.valid with h | ⟨h, h'⟩
  · exact .inl h
  · exact .inr ⟨h, h'⟩

theorem octet_toNat {n : Nat} (h : n < 0x100) : (octet n).toNat = n := by
  rw [octet, UInt8.toNat_ofNat']
  exact Nat.mod_eq_of_lt h

/-! ### First octets -/

theorem first?_one {n : Nat} (h : n < 0x80) :
    first? (octet n).toNat = some { bits := n, owed := 0 } := by
  rw [octet_toNat (by omega), first?, if_pos h]

theorem first?_two : ∀ k < 0x20, 2 ≤ k →
    first? (octet (0xc0 + k)).toNat = some { bits := k, owed := 1 } := by
  decide

theorem first?_three : ∀ k < 0x10,
    first? (octet (0xe0 + k)).toNat = some
      { bits := k, owed := 2, least := if k = 0 then 0xa0 else 0x80,
        greatest := if k = 0xd then 0x9f else 0xbf } := by
  decide

theorem first?_four : ∀ k < 0x5,
    first? (octet (0xf0 + k)).toNat = some
      { bits := k, owed := 3, least := if k = 0 then 0x90 else 0x80,
        greatest := if k = 4 then 0x8f else 0xbf } := by
  decide

/-! ### Next octets -/

/-- The character with six more bits read. -/
def Partial.more (p : Partial) (k : Nat) : Partial where
  bits := p.bits * 0x40 + k
  owed := p.owed - 1
  read := p.read + 1

theorem Partial.next?_octet {p : Partial} {k : Nat} (hk : k < 0x40) (least : p.least ≤ 0x80 + k)
    (greatest : 0x80 + k ≤ p.greatest) : p.next? (octet (0x80 + k)).toNat = some (p.more k) := by
  rw [octet_toNat (by omega), Partial.next?, if_pos ⟨least, greatest⟩, Nat.add_sub_cancel_left]
  rfl

variable {index : Nat} {b : UInt8} {bs : List UInt8} {p q : Partial}

theorem decodeFrom_whole (h : first? b.toNat = some p) (owed : p.owed = 0) :
    decodeFrom index none (b :: bs) =
      (decodeFrom (index + 1) none bs).map (Char.ofNat p.bits :: ·) := by
  rw [decodeFrom, h]
  exact if_pos owed

theorem decodeFrom_open {k : Nat} (h : first? b.toNat = some p) (owed : p.owed = k + 1) :
    decodeFrom index none (b :: bs) = decodeFrom index (some p) bs := by
  rw [decodeFrom, h]
  exact if_neg (by rw [owed]; exact Nat.succ_ne_zero k)

theorem decodeFrom_last (h : p.next? b.toNat = some q) (owed : q.owed = 0) :
    decodeFrom index (some p) (b :: bs) =
      (decodeFrom (index + q.read) none bs).map (Char.ofNat q.bits :: ·) := by
  rw [decodeFrom, h]
  exact if_pos owed

theorem decodeFrom_more {k : Nat} (h : p.next? b.toNat = some q) (owed : q.owed = k + 1) :
    decodeFrom index (some p) (b :: bs) = decodeFrom index (some q) bs := by
  rw [decodeFrom, h]
  exact if_neg (by rw [owed]; exact Nat.succ_ne_zero k)

/-! ### Characters and texts -/

/-- **A character** is read back from its octets, whatever follows. -/
theorem decodeFrom_encodeChar (index : Nat) (c : Char) (bs : List UInt8) :
    decodeFrom index none (encodeChar c ++ bs) =
      (decodeFrom (index + (encodeChar c).length) none bs).map (c :: ·) := by
  have range := toNat_cases c
  unfold encodeChar
  by_cases one : c.toNat < 0x80
  · rw [if_pos one]
    refine (decodeFrom_whole (first?_one one) rfl).trans ?_
    rw [Char.ofNat_toNat]
    rfl
  by_cases two : c.toNat < 0x800
  · rw [if_neg one, if_pos two]
    refine (decodeFrom_open (first?_two (c.toNat / 0x40) (by omega) (by omega)) rfl).trans ?_
    refine (decodeFrom_last (Partial.next?_octet (by omega) (by simp) ?_) rfl).trans ?_
    · simp only
      omega
    · have whole : c.toNat / 0x40 * 0x40 + c.toNat % 0x40 = c.toNat := by omega
      simp only [Partial.more, whole, Char.ofNat_toNat]
      rfl
  by_cases three : c.toNat < 0x10000
  · rw [if_neg one, if_neg two, if_pos three]
    refine (decodeFrom_open (first?_three (c.toNat / 0x1000) (by omega)) rfl).trans ?_
    refine (decodeFrom_more (Partial.next?_octet (by omega) ?_ ?_) rfl).trans ?_
    · simp only
      split <;> omega
    · simp only
      split <;> omega
    refine (decodeFrom_last (Partial.next?_octet (by omega) (by simp [Partial.more]) ?_) rfl).trans ?_
    · simp only [Partial.more]
      omega
    · have whole : (c.toNat / 0x1000 * 0x40 + c.toNat / 0x40 % 0x40) * 0x40 + c.toNat % 0x40 =
          c.toNat := by omega
      simp only [Partial.more, whole, Char.ofNat_toNat]
      rfl
  · rw [if_neg one, if_neg two, if_neg three]
    refine (decodeFrom_open (first?_four (c.toNat / 0x40000) (by omega)) rfl).trans ?_
    refine (decodeFrom_more (Partial.next?_octet (by omega) ?_ ?_) rfl).trans ?_
    · simp only
      split <;> omega
    · simp only
      split <;> omega
    refine (decodeFrom_more (Partial.next?_octet (by omega) (by simp [Partial.more]) ?_)
      rfl).trans ?_
    · simp only [Partial.more]
      omega
    refine (decodeFrom_last (Partial.next?_octet (by omega) (by simp [Partial.more]) ?_) rfl).trans ?_
    · simp only [Partial.more]
      omega
    · have whole : ((c.toNat / 0x40000 * 0x40 + c.toNat / 0x1000 % 0x40) * 0x40 +
          c.toNat / 0x40 % 0x40) * 0x40 + c.toNat % 0x40 = c.toNat := by omega
      simp only [Partial.more, whole, Char.ofNat_toNat]
      rfl

theorem decodeFrom_encode : ∀ (index : Nat) (cs : List Char),
    decodeFrom index none (encode cs) = .ok cs
  | _, [] => rfl
  | index, c :: cs => by
    rw [encode, List.flatMap_cons, decodeFrom_encodeChar, ← encode, decodeFrom_encode]
    rfl

/-- **A text** is read back from its octets. -/
theorem decode_encode (cs : List Char) : decode (encode cs) = .ok cs := decodeFrom_encode 0 cs

/-! ### Octets that spell a text -/

theorem octet_of_eq {b : UInt8} {n : Nat} (h : b.toNat = n) : octet n = b := by
  rw [← h, octet, UInt8.ofNat_toNat]

theorem toNat_ofNat {n : Nat} (h : n < 0xd800 ∨ 0xe000 ≤ n ∧ n < 0x110000) :
    (Char.ofNat n).toNat = n := by
  have valid : n.isValidChar := by
    unfold Nat.isValidChar
    omega
  rw [Char.ofNat, dif_pos valid]
  rfl

/-- The code point `n` without the bits of its last `k` octets. -/
def leading (n : Nat) : Nat → Nat
  | 0 => n
  | k + 1 => leading n k / 0x40

theorem leading_two (n : Nat) : leading n 2 = n / 0x1000 := by
  simp only [leading]
  omega

theorem leading_three (n : Nat) : leading n 3 = n / 0x40000 := by
  simp only [leading]
  omega

/-- The last `k` octets of a character with the code point `n`. -/
def lastOctets (n : Nat) : Nat → List UInt8
  | 0 => []
  | k + 1 => octet (0x80 + leading n k % 0x40) :: lastOctets n k

theorem encodeChar_ofNat_one {n : Nat} (h : n < 0x80) :
    encodeChar (Char.ofNat n) = octet n :: lastOctets n 0 := by
  rw [encodeChar, toNat_ofNat (by omega)]
  exact if_pos h

theorem encodeChar_ofNat_two {n : Nat} (h : 0x80 ≤ n) (h' : n < 0x800) :
    encodeChar (Char.ofNat n) = octet (0xc0 + n / 0x40) :: lastOctets n 1 := by
  rw [encodeChar, toNat_ofNat (by omega)]
  exact (if_neg (by omega)).trans (if_pos h')

theorem encodeChar_ofNat_three {n : Nat} (h : 0x800 ≤ n) (h' : n < 0x10000)
    (scalar : n < 0xd800 ∨ 0xe000 ≤ n) :
    encodeChar (Char.ofNat n) = octet (0xe0 + n / 0x1000) :: lastOctets n 2 := by
  rw [encodeChar, toNat_ofNat (by omega)]
  exact (if_neg (by omega)).trans ((if_neg (by omega)).trans (if_pos h'))

theorem encodeChar_ofNat_four {n : Nat} (h : 0x10000 ≤ n) (h' : n < 0x110000) :
    encodeChar (Char.ofNat n) = octet (0xf0 + n / 0x40000) :: lastOctets n 3 := by
  rw [encodeChar, toNat_ofNat (by omega), lastOctets, leading_two]
  exact (if_neg (by omega)).trans ((if_neg (by omega)).trans (if_neg (by omega)))

/-- The code point `n` is one that the character may still have: its first bits are those that
were read, and the bits behind them are in the range of the next octet. -/
structure Partial.Covers (p : Partial) (n : Nat) : Prop where
  bits : leading n p.owed = p.bits
  range : ∀ k, p.owed = k + 1 →
    p.least ≤ 0x80 + leading n k % 0x40 ∧ 0x80 + leading n k % 0x40 ≤ p.greatest

/-- The octets `os` are what was read of the character: whatever code point it may still have, a
character of that code point begins with them, and has the owed ones behind them. -/
structure Partial.Begins (p : Partial) (os : List UInt8) : Prop where
  least : 0x80 ≤ p.least
  greatest : p.greatest ≤ 0xbf
  encodes : ∀ n, p.Covers n → encodeChar (Char.ofNat n) = os ++ lastOctets n p.owed

theorem begins_of_first? {b : UInt8} {p : Partial} (h : first? b.toNat = some p) :
    p.Begins [b] := by
  by_cases one : b.toNat < 0x80
  · rw [first?, if_pos one] at h
    obtain rfl := Option.some.inj h
    refine ⟨Nat.le_refl _, Nat.le_refl _, fun n covers => ?_⟩
    have whole : n = b.toNat := covers.bits
    exact (encodeChar_ofNat_one (by omega)).trans (congrArg (· :: []) (octet_of_eq whole.symm))
  by_cases early : b.toNat < 0xc2
  · rw [first?, if_neg one, if_pos early] at h
    cases h
  by_cases two : b.toNat < 0xe0
  · have opened := first?_two (b.toNat - 0xc0) (by omega) (by omega)
    rw [octet_of_eq (b := b) (by omega), h] at opened
    obtain rfl := Option.some.inj opened
    refine ⟨Nat.le_refl _, Nat.le_refl _, fun n covers => ?_⟩
    have bits : n / 0x40 = b.toNat - 0xc0 := covers.bits
    rw [encodeChar_ofNat_two (by omega) (by omega), octet_of_eq (b := b) (by omega)]
    rfl
  by_cases three : b.toNat < 0xf0
  · have opened := first?_three (b.toNat - 0xe0) (by omega)
    rw [octet_of_eq (b := b) (by omega), h] at opened
    obtain rfl := Option.some.inj opened
    refine ⟨by simp only; split <;> omega, by simp only; split <;> omega, fun n covers => ?_⟩
    have bits : n / 0x1000 = b.toNat - 0xe0 := (leading_two n).symm.trans covers.bits
    obtain ⟨least, greatest⟩ := covers.range 1 rfl
    simp only [leading] at least greatest
    have long : 0x800 ≤ n := by split at least <;> omega
    have scalar : n < 0xd800 ∨ 0xe000 ≤ n := by split at greatest <;> omega
    rw [encodeChar_ofNat_three long (by omega) scalar, octet_of_eq (b := b) (by omega)]
    rfl
  by_cases four : b.toNat < 0xf5
  · have opened := first?_four (b.toNat - 0xf0) (by omega)
    rw [octet_of_eq (b := b) (by omega), h] at opened
    obtain rfl := Option.some.inj opened
    refine ⟨by simp only; split <;> omega, by simp only; split <;> omega, fun n covers => ?_⟩
    have bits : n / 0x40000 = b.toNat - 0xf0 := (leading_three n).symm.trans covers.bits
    obtain ⟨least, greatest⟩ := covers.range 2 rfl
    simp only [leading_two] at least greatest
    have long : 0x10000 ≤ n := by split at least <;> omega
    have scalar : n < 0x110000 := by split at greatest <;> omega
    rw [encodeChar_ofNat_four long scalar, octet_of_eq (b := b) (by omega)]
    rfl
  · rw [first?, if_neg one, if_neg early, if_neg two, if_neg (by omega), if_neg (by omega),
      if_neg three, if_neg (by omega), if_neg (by omega), if_neg (by omega)] at h
    cases h

theorem Partial.Begins.next? {p q : Partial} {b : UInt8} {os : List UInt8} (h : p.Begins os)
    (owed : p.owed ≠ 0) (read : p.next? b.toNat = some q) : q.Begins (os ++ [b]) := by
  obtain ⟨least, greatest, encodes⟩ := h
  obtain ⟨k, hk⟩ := Nat.exists_eq_add_one_of_ne_zero owed
  rw [Partial.next?] at read
  split at read
  · rename_i range
    obtain rfl := Option.some.inj read
    refine ⟨Nat.le_refl _, Nat.le_refl _, fun n covers => ?_⟩
    have bits : leading n k = p.bits * 0x40 + (b.toNat - 0x80) := by
      simpa only [hk, Nat.add_sub_cancel] using covers.bits
    have here : leading n k % 0x40 = b.toNat - 0x80 := by omega
    have above : leading n (k + 1) = p.bits := by
      rw [leading]
      omega
    have covered : p.Covers n := by
      refine ⟨by rw [hk, above], fun j hj => ?_⟩
      obtain rfl : k = j := by omega
      rw [here]
      omega
    rw [encodes n covered, hk, lastOctets, here, octet_of_eq (b := b) (by omega),
      Nat.add_sub_cancel, List.append_assoc]
    rfl
  · cases read

/-- A character of which nothing is owed has been read whole. -/
theorem Partial.Begins.whole {p : Partial} {os : List UInt8} (h : p.Begins os)
    (owed : p.owed = 0) : encodeChar (Char.ofNat p.bits) = os := by
  have covered : p.Covers p.bits := by
    refine ⟨by rw [owed, leading], fun k hk => ?_⟩
    omega
  rw [h.encodes _ covered, owed]
  exact List.append_nil os

/-- What was read of a character before the octets `bs`: nothing, or the octets `os`. -/
def Pending (os : List UInt8) : Option Partial → Prop
  | none => os = []
  | some p => p.owed ≠ 0 ∧ p.Begins os

/-- **Octets that are read** are those of the text that they spell, behind the octets of the
character that is being read. -/
theorem eq_encode_of_decodeFrom {index : Nat} {pending : Option Partial} {os bs : List UInt8}
    {cs : List Char} (h : decodeFrom index pending bs = .ok cs) (read : Pending os pending) :
    os ++ bs = encode cs := by
  fun_induction decodeFrom index pending bs generalizing os cs with
  | case1 index =>
    cases h
    exact congrArg (· ++ []) read
  | case2 | case3 | case6 => cases h
  | case4 index b bs p opened owed ih =>
    obtain ⟨rest, hr, rfl⟩ := exists_of_map_eq_ok h
    obtain rfl : os = [] := read
    rw [encode, List.flatMap_cons, (begins_of_first? opened).whole owed, ← encode, ← ih hr rfl]
    rfl
  | case5 index b bs p opened owed ih =>
    obtain rfl : os = [] := read
    exact ih h ⟨owed, begins_of_first? opened⟩
  | case7 index p b bs q next owed ih =>
    obtain ⟨rest, hr, rfl⟩ := exists_of_map_eq_ok h
    have begins := read.2.next? read.1 next
    rw [encode, List.flatMap_cons, begins.whole owed, ← encode, ← ih hr rfl, List.append_assoc]
    rfl
  | case8 index p b bs q next owed ih =>
    rw [← ih h ⟨owed, read.2.next? read.1 next⟩, List.append_assoc]
    rfl

/-- **Octets spell a text** exactly if they are its octets. -/
theorem decode_eq_ok_iff {bs : List UInt8} {cs : List Char} :
    decode bs = .ok cs ↔ bs = encode cs :=
  ⟨fun h => eq_encode_of_decodeFrom h rfl, fun h => h ▸ decode_encode cs⟩

end Templating.Text.Utf8
