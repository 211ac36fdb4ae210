import Templating.Proofs.Text.Utf8
import Templating.Text.Utf16

/-!
# Reading UTF-16 back

The octets of a text spell that text, in either order (`decode_encode`): octets are read
back as the code units they come from (`units?_octets`), and code units as the
characters (`decodeUnits_unitsOfChar`). No other octets spell it (`decode_eq_ok_iff`), since
both steps can be undone: octets in pairs are those of their code units, and a unit that is
no surrogate, or a pair of surrogates, is what the character it spells is written as.
-/

namespace Templating.Text.Utf16

/-! ### Code units -/

theorem units?_octetsOfUnit (order : ByteOrder) {u : Nat} (h : u < 0x10000) (bs : List UInt8) :
    units? order (octetsOfUnit order u ++ bs) = (units? order bs).map (u :: ·) := by
  have high : (UInt8.ofNat (u / 0x100)).toNat = u / 0x100 := by
    rw [UInt8.toNat_ofNat']
    exact Nat.mod_eq_of_lt (by omega)
  have low : (UInt8.ofNat (u % 0x100)).toNat = u % 0x100 := by
    rw [UInt8.toNat_ofNat']
    exact Nat.mod_eq_of_lt (by omega)
  have whole : u / 0x100 * 0x100 + u % 0x100 = u := by omega
  cases order with
  | big =>
    simp only [octetsOfUnit, List.cons_append, List.nil_append, units?, unitOfOctets, high, low,
      whole]
  | little =>
    simp only [octetsOfUnit, List.cons_append, List.nil_append, units?, unitOfOctets, high, low,
      whole]

/-- **Code units** are read back from their octets. -/
theorem units?_octets (order : ByteOrder) : ∀ {us : List Nat}, (∀ u ∈ us, u < 0x10000) →
    units? order (us.flatMap (octetsOfUnit order)) = some us
  | [], _ => rfl
  | u :: us, h => by
    rw [List.flatMap_cons, units?_octetsOfUnit order (h u List.mem_cons_self),
      units?_octets order fun v hv => h v (List.mem_cons_of_mem u hv)]
    rfl

theorem lt_of_mem_unitsOfChar {c : Char} {u : Nat} (h : u ∈ unitsOfChar c) : u < 0x10000 := by
  have range := Utf8.toNat_cases c
  unfold unitsOfChar at h
  by_cases one : c.toNat < 0x10000
  · rw [if_pos one] at h
    rw [List.mem_singleton.mp h]
    exact one
  · rw [if_neg one] at h
    rcases List.mem_cons.mp h with rfl | h
    · omega
    · rw [List.mem_singleton.mp h]
      omega

/-! ### Characters and texts -/

/-- **A character** is read back from its code units, whatever follows. -/
theorem decodeUnits_unitsOfChar (c : Char) (us : List Nat) :
    decodeUnits (unitsOfChar c ++ us) = (decodeUnits us).map (c :: ·) := by
  have range := Utf8.toNat_cases c
  unfold unitsOfChar
  by_cases one : c.toNat < 0x10000
  · have high : isHigh c.toNat = false := by
      simp only [isHigh, Bool.and_eq_false_iff, decide_eq_false_iff_not]
      omega
    have low : isLow c.toNat = false := by
      simp only [isLow, Bool.and_eq_false_iff, decide_eq_false_iff_not]
      omega
    rw [if_pos one, List.cons_append, List.nil_append, decodeUnits.eq_def]
    simp only [high, low, Bool.false_eq_true, if_false, Char.ofNat_toNat]
  · have high : isHigh (0xd800 + (c.toNat - 0x10000) / 0x400) = true := by
      simp only [isHigh, Bool.and_eq_true, decide_eq_true_eq]
      omega
    have low : isLow (0xdc00 + (c.toNat - 0x10000) % 0x400) = true := by
      simp only [isLow, Bool.and_eq_true, decide_eq_true_eq]
      omega
    have whole : 0x10000 + (0xd800 + (c.toNat - 0x10000) / 0x400 - 0xd800) * 0x400 +
        (0xdc00 + (c.toNat - 0x10000) % 0x400 - 0xdc00) = c.toNat := by omega
    rw [if_neg one, List.cons_append, List.cons_append, List.nil_append, decodeUnits, if_pos high]
    simp only [if_pos low, whole, Char.ofNat_toNat]

theorem decodeUnits_flatMap : ∀ cs : List Char, decodeUnits (cs.flatMap unitsOfChar) = .ok cs
  | [] => rfl
  | c :: cs => by
    rw [List.flatMap_cons, decodeUnits_unitsOfChar, decodeUnits_flatMap cs]
    rfl

/-- **A text** is read back from its octets, in either order. -/
theorem decode_encode (order : ByteOrder) (cs : List Char) :
    decode order (encode order cs) = .ok cs := by
  have units : units? order (encode order cs) = some (cs.flatMap unitsOfChar) := by
    rw [encode, ← List.flatMap_assoc]
    refine units?_octets order fun u hu => ?_
    obtain ⟨c, -, hc⟩ := List.mem_flatMap.mp hu
    exact lt_of_mem_unitsOfChar hc
  rw [decode, units]
  exact decodeUnits_flatMap cs

/-! ### Octets that spell a text -/

theorem octetsOfUnit_unitOfOctets (order : ByteOrder) (a b : UInt8) :
    unitOfOctets order a b < 0x10000 ∧ octetsOfUnit order (unitOfOctets order a b) = [a, b] := by
  have ha := a.toNat_lt
  have hb := b.toNat_lt
  have parts {x y : UInt8} : UInt8.ofNat ((x.toNat * 0x100 + y.toNat) / 0x100) = x ∧
      UInt8.ofNat ((x.toNat * 0x100 + y.toNat) % 0x100) = y := by
    have hy := y.toNat_lt
    have high : (x.toNat * 0x100 + y.toNat) / 0x100 = x.toNat := by omega
    have low : (x.toNat * 0x100 + y.toNat) % 0x100 = y.toNat := by omega
    rw [high, low]
    exact ⟨UInt8.ofNat_toNat, UInt8.ofNat_toNat⟩
  cases order with
  | big => exact ⟨by rw [unitOfOctets]; omega, by rw [unitOfOctets, octetsOfUnit, parts.1, parts.2]⟩
  | little =>
    exact ⟨by rw [unitOfOctets]; omega, by rw [unitOfOctets, octetsOfUnit, parts.1, parts.2]⟩

/-- **Octets in pairs** are those of the code units that they spell. -/
theorem eq_octets_of_units? (order : ByteOrder) : ∀ {bs : List UInt8} {us : List Nat},
    units? order bs = some us → bs = us.flatMap (octetsOfUnit order) ∧ ∀ u ∈ us, u < 0x10000
  | [], us, h => by
    cases h
    exact ⟨rfl, fun _ mem => nomatch mem⟩
  | [_], _, h => nomatch h
  | a :: b :: bs, us, h => by
    obtain ⟨rest, hr, rfl⟩ := Option.map_eq_some_iff.mp h
    obtain ⟨rfl, small⟩ := eq_octets_of_units? order hr
    obtain ⟨lt, octets⟩ := octetsOfUnit_unitOfOctets order a b
    rw [List.flatMap_cons, octets]
    exact ⟨rfl, List.forall_mem_cons.mpr ⟨lt, small⟩⟩

theorem units?_eq_none_iff (order : ByteOrder) : ∀ {bs : List UInt8},
    units? order bs = none ↔ bs.length % 2 = 1
  | [] => by simp [units?]
  | [_] => by simp [units?]
  | a :: b :: bs => by
    rw [units?, Option.map_eq_none_iff, units?_eq_none_iff order]
    simp only [List.length_cons]
    omega

/-- **Code units** that spell a text are those of that text. -/
theorem eq_units_of_decodeUnits {us : List Nat} {cs : List Char} (h : decodeUnits us = .ok cs)
    (small : ∀ u ∈ us, u < 0x10000) : us = cs.flatMap unitsOfChar := by
  fun_induction decodeUnits us generalizing cs with
  | case1 =>
    cases h
    rfl
  | case2 | case4 | case5 => cases h
  | case3 u high v vs low ih =>
    obtain ⟨rest, hr, rfl⟩ := exists_of_map_eq_ok h
    simp only [isHigh, isLow, Bool.and_eq_true, decide_eq_true_eq] at high low
    have below : ∀ u ∈ vs, u < 0x10000 := fun u mem =>
      small u (List.mem_cons_of_mem _ (List.mem_cons_of_mem _ mem))
    generalize pair : 0x10000 + (u - 0xd800) * 0x400 + (v - 0xdc00) = n
    have first : 0xd800 + (n - 0x10000) / 0x400 = u := by omega
    have second : 0xdc00 + (n - 0x10000) % 0x400 = v := by omega
    have units : unitsOfChar (Char.ofNat n) = [u, v] := by
      rw [unitsOfChar, Utf8.toNat_ofNat (by omega), if_neg (by omega), first, second]
    rw [List.flatMap_cons, units, ← ih hr below]
    rfl
  | case6 u us high low ih =>
    obtain ⟨rest, hr, rfl⟩ := exists_of_map_eq_ok h
    simp only [isHigh, isLow, Bool.and_eq_true, decide_eq_true_eq] at high low
    have lt := small u List.mem_cons_self
    have units : unitsOfChar (Char.ofNat u) = [u] := by
      rw [unitsOfChar, Utf8.toNat_ofNat (by omega), if_pos (by omega)]
    rw [List.flatMap_cons, units, ← ih hr fun v mem => small v (List.mem_cons_of_mem u mem)]
    rfl

/-- **Octets spell a text** exactly if they are its octets. -/
theorem decode_eq_ok_iff {order : ByteOrder} {bs : List UInt8} {cs : List Char} :
    decode order bs = .ok cs ↔ bs = encode order cs := by
  refine ⟨fun h => ?_, fun h => h ▸ decode_encode order cs⟩
  rw [decode] at h
  cases hu : units? order bs with
  | none =>
    rw [hu] at h
    cases h
  | some us =>
    rw [hu] at h
    obtain ⟨rfl, small⟩ := eq_octets_of_units? order hu
    rw [eq_units_of_decodeUnits h small, encode, List.flatMap_assoc]

/-- Octets that do not come in pairs spell nothing. -/
theorem decode_of_odd (order : ByteOrder) {bs : List UInt8} (h : bs.length % 2 = 1) :
    decode order bs = .error .oddLength := by
  rw [decode, (units?_eq_none_iff order).mpr h]

end Templating.Text.Utf16
