import Templating.Proofs.Markup.PrintedToken
import Templating.Proofs.Result

/-!
# What tokens are read

A construct that was read can be written again with the same marks around it: it ended at
the first of its closing marks, so that there is none inside (`genuine_next?`). The name of
a tag has no separators, and the keys of its attributes are told apart by equals signs
(`isTag_of_decodeTag`). Nothing is said about quotes: those in a name count where a tag ends,
but what was open at the end of a name may have been closed in a value.
-/

namespace Templating.Markup

open Text

namespace Token

/-! ### Doctypes -/

theorem leads_opening (depth : Nat) : Leads depth (depth + 1) ['<'] := by
  intro rest
  rw [List.singleton_append, splitBalanced.eq_def]
  rfl

theorem leads_closing (depth : Nat) : Leads (depth + 1) depth ['>'] := by
  intro rest
  rw [List.singleton_append, splitBalanced.eq_def]
  rfl

/-- Where a declaration goes on through a text, the text leads to some depth. -/
theorem exists_leads {cs ds more rest : List Char} : ∀ {depth : Nat},
    splitBalanced depth (cs ++ ds) = some (cs ++ more, rest) →
      ∃ depth', Leads depth depth' cs ∧ splitBalanced depth' ds = some (more, rest) := by
  induction cs with
  | nil => exact fun {depth} h => ⟨depth, Leads.nil depth, h⟩
  | cons c cs ih =>
    intro depth h
    have step : ∀ {depth'}, Leads depth depth' [c] → ∃ depth'',
        Leads depth depth'' (c :: cs) ∧ splitBalanced depth'' ds = some (more, rest) := by
      intro depth' first
      have behind := first (cs ++ ds)
      rw [List.singleton_append, ← List.cons_append, h] at behind
      obtain ⟨⟨i, r⟩, hi, he⟩ := Option.map_eq_some_iff.mp behind.symm
      simp only [List.cons_append, List.nil_append, Prod.mk.injEq, List.cons.injEq, true_and] at he
      obtain ⟨rfl, rfl⟩ := he
      obtain ⟨depth'', leads, split⟩ := ih hi
      exact ⟨depth'', first.cons leads, split⟩
    by_cases lt : c = '<'
    · exact step (lt ▸ leads_opening depth)
    by_cases gt : c = '>'
    · subst gt
      cases depth with
      | zero =>
        rw [List.cons_append, splitBalanced] at h
        simp at h
      | succ depth => exact step (leads_closing depth)
    · refine step (leads_plain depth fun d hd => ?_)
      rw [List.mem_singleton.mp hd]
      exact ⟨lt, gt⟩

theorem eq_zero_of_splitBalanced {depth : Nat} {cs rest : List Char}
    (h : splitBalanced depth ('>' :: cs) = some ([], rest)) : depth = 0 := by
  cases depth with
  | zero => rfl
  | succ depth =>
    have closed := leads_closing depth cs
    rw [List.singleton_append, h] at closed
    obtain ⟨_, -, he⟩ := Option.map_eq_some_iff.mp closed.symm
    cases he

theorem balanced_of_splitBalanced {cs body rest : List Char}
    (h : splitBalanced 0 cs = some (body, rest)) : Balanced body := by
  have whole : splitBalanced 0 (body ++ '>' :: rest) = some (body ++ [], rest) := by
    rw [← append_of_splitBalanced h, List.append_nil, h]
  obtain ⟨depth, leads, stop⟩ := exists_leads whole
  rw [eq_zero_of_splitBalanced stop] at leads
  exact leads

theorem Leads.of_append {depth depth' depth'' : Nat} {cs ds : List Char}
    (first : Leads depth depth' cs) (h : Leads depth depth'' (cs ++ ds)) :
    Leads depth' depth'' ds := by
  intro rest
  have both := h rest
  rw [List.append_assoc, first] at both
  revert both
  cases splitBalanced depth' (ds ++ rest) <;> cases splitBalanced depth'' rest <;>
    simp [Prod.ext_iff]

/-- The brackets of a text are in pairs without blanks around it too. -/
theorem Balanced.trim {body : List Char} (h : Balanced body) : Balanced (trim body) := by
  obtain ⟨front, back, parts, blankFront, blankBack⟩ := exists_trim body
  have plain : ∀ {cs : List Char}, (∀ c ∈ cs, isBlank c = true) → ∀ c ∈ cs, c ≠ '<' ∧ c ≠ '>' := by
    intro cs blank c hc
    constructor <;> rintro rfl <;> exact absurd (blank _ hc) (by decide)
  have behind : Leads 0 0 (Text.trim body ++ back) := by
    refine Leads.of_append (leads_plain 0 (plain blankFront)) ?_
    rw [← parts]
    exact h
  have closed := splitBalanced_of_balanced behind []
  rw [List.append_assoc] at closed
  obtain ⟨depth, leads, stop⟩ := exists_leads closed
  rw [leads_plain depth (plain blankBack)] at stop
  obtain ⟨⟨more, rest⟩, split, same⟩ := Option.map_eq_some_iff.mp stop
  simp only [Prod.mk.injEq, List.append_right_eq_self] at same
  obtain ⟨rfl, rfl⟩ := same
  rw [eq_zero_of_splitBalanced split] at leads
  exact leads

/-! ### Constructs -/

/-- What holds of every token of a source: nothing in it would end its construct earlier or make
another construct of it. -/
def Genuine : Token → Prop
  | startTag inside | emptyTag inside => ∀ c ∈ inside.head?, c ≠ '!' ∧ c ≠ '?' ∧ c ≠ '/'
  | comment body => ¬ ['-', '-', '>'] <:+: body
  | cdata body => ¬ [']', ']', '>'] <:+: body
  | instruction body => IsInstruction body
  | doctype body => Balanced body
  | text _ | endTag _ | declaration _ => True

section

variable {cs rest : List Char} {t : Token}

theorem genuine_readComment (h : readComment cs = .ok (t, rest)) : t.Genuine := by
  unfold readComment at h
  split at h
  · split at h
    · rename_i hb
      cases h
      exact not_infix_of_breakOn (by decide) hb
    · cases h
  · cases h

theorem genuine_readCdata (h : readCdata cs = .ok (t, rest)) : t.Genuine := by
  unfold readCdata at h
  split at h
  · split at h
    · rename_i hb
      cases h
      exact not_infix_of_breakOn (by decide) hb
    · cases h
  · cases h

theorem genuine_readDoctype (h : readDoctype cs = .ok (t, rest)) : t.Genuine := by
  unfold readDoctype at h
  split at h
  · cases h
  · split at h
    · cases h
    · rename_i hb
      split at h
      · cases h
      · cases h
        exact balanced_of_splitBalanced hb

theorem genuine_readInstruction (h : readInstruction cs = .ok (t, rest)) : t.Genuine := by
  unfold readInstruction at h
  split at h
  · cases h
  · rename_i start
    split at h
    · cases h
    · rename_i body _ hb
      have parts := append_of_breakOn hb
      have first : body.head? ≠ some '>' := by
        cases body with
        | nil => nofun
        | cons c cs => simpa [parts] using start
      cases h
      split
      · trivial
      · rename_i declaration
        exact ⟨first, not_infix_of_breakOn (by decide) hb, eq_false_of_ne_true declaration⟩

theorem genuine_readEndTag (h : readEndTag cs = .ok (t, rest)) : t.Genuine := by
  unfold readEndTag at h
  split at h
  · cases h
    trivial
  · cases h

theorem genuine_readStartTag (start : ∀ c ∈ cs.head?, c ≠ '!' ∧ c ≠ '?' ∧ c ≠ '/')
    (h : readStartTag cs = .ok (t, rest)) : t.Genuine := by
  unfold readStartTag at h
  split at h
  · rename_i inside _ hs
    have begins : ∀ ds : List Char, ds <+: inside →
        ∀ c ∈ ds.head?, c ≠ '!' ∧ c ≠ '?' ∧ c ≠ '/' := by
      intro ds hp c hc
      have front : inside <+: cs := ⟨_, (append_of_splitTag hs).symm⟩
      exact start c (mem_head?_of_starts (hp.trans front) hc)
    split at h
    · cases h
      exact begins _ (List.dropLast_prefix inside)
    · cases h
      exact begins _ (List.prefix_refl inside)
  · cases h

theorem genuine_readMarkup (h : readMarkup cs = .ok (t, rest)) : t.Genuine := by
  unfold readMarkup at h
  split at h
  · exact genuine_readComment h
  · exact genuine_readCdata h
  · exact genuine_readDoctype h
  · exact genuine_readDoctype h
  · cases h
  · exact genuine_readInstruction h
  · exact genuine_readEndTag h
  · rename_i bang mark slash
    refine genuine_readStartTag (fun c hc => ?_) h
    obtain ⟨tail, rfl⟩ := List.head?_eq_some_iff.mp hc
    refine ⟨?_, ?_, ?_⟩ <;> rintro rfl
    · exact bang tail rfl
    · exact mark tail rfl
    · exact slash tail rfl

/-- **What is read** as a token is genuine. -/
theorem genuine_next? (h : next? cs = some (.ok (t, rest))) : t.Genuine := by
  unfold next? at h
  split at h
  · cases h
  · exact genuine_readMarkup (Option.some.inj h)
  · cases h
    trivial

end

end Token

/-! ### Tags -/

namespace Tag

/-- The keys of a listing are keys, no two of which are the same, and none of which came before. -/
structure Listing.HasKeys (seen : List (List Char × Nat)) (listing : Listing) : Prop where
  keys : ∀ pair ∈ listing.pairs, IsKey pair.1
  fresh : ∀ pair ∈ listing.pairs, seen.lookup pair.1 = none
  distinct : (listing.pairs.map (·.1)).Nodup

section

variable {seen : List (List Char × Nat)} {key value : List Char} {listing : Listing}

theorem hasKeys_finished : Listing.HasKeys seen .finished := ⟨nofun, nofun, .nil⟩

theorem hasKeys_failed (fault : Fault) : Listing.HasKeys seen (.failed fault) :=
  ⟨nofun, nofun, .nil⟩

theorem Listing.HasKeys.cons {start : Nat} (hk : IsKey key) (fresh : seen.lookup key = none)
    (rest : HasKeys ((key, start) :: seen) listing) : HasKeys seen (listing.cons key value) := by
  have later : ∀ pair ∈ listing.pairs, pair.1 ≠ key ∧ seen.lookup pair.1 = none := by
    intro pair hp
    have none := rest.fresh pair hp
    rw [List.lookup_cons] at none
    split at none
    · cases none
    · rename_i other
      exact ⟨ne_of_beq_false other, none⟩
  refine ⟨List.forall_mem_cons.mpr ⟨hk, rest.keys⟩,
    List.forall_mem_cons.mpr ⟨fresh, fun pair hp => (later pair hp).2⟩, ?_⟩
  refine List.nodup_cons.mpr ⟨fun again => ?_, rest.distinct⟩
  obtain ⟨pair, hp, same⟩ := List.mem_map.mp again
  exact (later pair hp).1 same

end

theorem isKey_of_dropWhile {cs behind : List Char} {c : Char}
    (h : cs.dropWhile isSeparator = c :: behind) : IsKey (c :: behind.takeWhile inKey) := by
  have first := List.head?_dropWhile_not isSeparator cs
  rw [h] at first
  exact ⟨by simpa using first, fun d hd => List.mem_takeWhile_imp hd⟩

theorem hasKeys_attributesFrom (format : Format) (stop : Nat) (seen : List (List Char × Nat))
    (i : Nat) (cs : List Char) :
    Listing.HasKeys seen (attributesFrom format stop seen i cs) := by
  fun_induction attributesFrom format stop seen i cs with
  | case1 => exact hasKeys_finished
  | case2 | case3 | case5 | case6 | case7 | case8 | case10 => exact hasKeys_failed _
  | case4 _ _ _ _ _ hcs _ _ _ _ _ _ html fresh ih =>
    subst html
    exact .cons (isKey_of_dropWhile hcs) fresh ih
  | case9 _ _ _ _ _ hcs _ _ _ _ _ _ _ fresh _ _ _ _ _ ih =>
    exact .cons (isKey_of_dropWhile hcs) fresh ih
  | case11 _ _ _ _ _ hcs _ _ _ _ _ _ _ fresh _ html _ ih =>
    subst html
    exact .cons (isKey_of_dropWhile hcs) fresh ih

end Tag

/-! ### Decoded tags -/

namespace Event

variable {format : Format} {stop : Nat}

theorem decodeAttributes_cons (fault : Option Tag.Fault) (key raw : List Char)
    (pairs : List (List Char × List Char)) :
    decodeAttributes format stop fault ((key, raw) :: pairs) =
      (decodeValue format stop raw).bind fun value =>
        (decodeAttributes format stop fault pairs).map
          (⟨String.ofList key, String.ofList value⟩ :: ·) := by
  rw [decodeAttributes]
  cases decodeValue format stop raw <;> rfl

theorem names_decodeAttributes {fault : Option Tag.Fault} :
    ∀ {pairs : List (List Char × List Char)} {as : List Attribute},
      decodeAttributes format stop fault pairs = .ok as →
        as.map (·.name.toList) = pairs.map (·.1)
  | [], as, h => by
    rw [decodeAttributes.eq_def] at h
    cases fault with
    | none =>
      cases h
      rfl
    | some fault => cases h
  | (key, raw) :: pairs, as, h => by
    rw [decodeAttributes_cons] at h
    obtain ⟨value, -, h⟩ := exists_of_bind_eq_ok h
    obtain ⟨rest, decoded, rfl⟩ := exists_of_map_eq_ok h
    rw [List.map_cons, List.map_cons, names_decodeAttributes decoded, String.toList_ofList]

theorem isTag_of_decodeTag {inside : List Char} {name : String} {as : List Attribute}
    (start : ∀ c ∈ inside.head?, c ≠ '!' ∧ c ≠ '?' ∧ c ≠ '/')
    (h : decodeTag format stop inside = .ok (name, as)) : IsTag name as := by
  have listing := Tag.hasKeys_attributesFrom format (byteSize inside) []
    (byteSize (Tag.name inside)) (inside.dropWhile (!isSeparator ·))
  rw [← Tag.attributes] at listing
  rw [decodeTag] at h
  obtain ⟨decoded, hd, same⟩ := exists_of_map_eq_ok h
  cases same
  have names := names_decodeAttributes hd
  refine ⟨fun c hc => ?_, fun c hc => start c ?_, fun a ha => ?_, ?_⟩
  · rw [String.toList_ofList, Tag.name] at hc
    simpa using List.mem_takeWhile_imp hc
  · rw [String.toList_ofList, Tag.name] at hc
    exact mem_head?_of_starts (List.takeWhile_prefix _) hc
  · have key : a.name.toList ∈ as.map (·.name.toList) := List.mem_map_of_mem ha
    rw [names] at key
    obtain ⟨pair, hp, same⟩ := List.mem_map.mp key
    rw [← same]
    exact listing.keys pair hp
  · have distinct := listing.distinct
    rw [← names] at distinct
    exact List.pairwise_map.mpr ((List.pairwise_map.mp distinct).imp fun other same =>
      other (congrArg String.toList same))

end Event

end Templating.Markup
