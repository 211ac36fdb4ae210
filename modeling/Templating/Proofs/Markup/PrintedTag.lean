import Templating.Markup.Print
import Templating.Proofs.Markup.WellFormed
import Templating.Proofs.Text.Cut

/-!
# Reading tags back

The inside of a tag, as it is written, is read back as its name and its attributes
(`decodeTag_inside`): the name ends at the first space, every key at its equals sign,
and every value at its closing quote, since escaped values have no quotes. A name without
separators and keys without equals signs are enough for that (`IsTag`).

The tag ends at its closing bracket (`splitTag_of_inTag`) if no bracket or open quote in a
name keeps it from doing so. Well-formed names have neither (`IsName.hasTags`).
-/

namespace Templating.Markup

open Text

/-! ### Escaped characters -/

/-- The characters of the references that text is escaped with. -/
def referenceChars : List Char := ['&', 'l', 't', 'g', 'a', 'm', 'p', 'o', 's', 'q', 'u', ';']

theorem mem_escapeTextChar {c d : Char} (h : c ∈ Reference.escapeTextChar d) :
    c ∈ referenceChars ∨ c = d ∧ d ≠ '<' ∧ d ≠ '>' := by
  unfold Reference.escapeTextChar at h
  split at h
  · exact .inl ((by decide : ['&', 'l', 't', ';'] ⊆ referenceChars) h)
  · exact .inl ((by decide : ['&', 'g', 't', ';'] ⊆ referenceChars) h)
  · exact .inl ((by decide : ['&', 'a', 'm', 'p', ';'] ⊆ referenceChars) h)
  · rename_i lt gt _
    exact .inr ⟨List.mem_singleton.mp h, lt, gt⟩

theorem mem_escapeValueChar {c d : Char} (h : c ∈ Reference.escapeValueChar d) :
    c ∈ referenceChars ∨ c = d ∧ d ≠ '"' := by
  unfold Reference.escapeValueChar at h
  split at h
  · exact .inl ((by decide : ['&', 'a', 'p', 'o', 's', ';'] ⊆ referenceChars) h)
  · exact .inl ((by decide : ['&', 'q', 'u', 'o', 't', ';'] ⊆ referenceChars) h)
  · rename_i quote
    rcases mem_escapeTextChar h with h | ⟨rfl, -⟩
    · exact .inl h
    · exact .inr ⟨rfl, quote⟩

/-- Escaped text has no brackets. -/
theorem mem_escapeText {cs : List Char} {c : Char} (h : c ∈ Reference.escapeText cs) :
    c ≠ '<' ∧ c ≠ '>' := by
  obtain ⟨d, -, hd⟩ := List.mem_flatMap.mp h
  rcases mem_escapeTextChar hd with hc | ⟨rfl, lt, gt⟩
  · constructor
    · rintro rfl
      exact absurd hc (by decide)
    · rintro rfl
      exact absurd hc (by decide)
  · exact ⟨lt, gt⟩

/-- An escaped value has no quotes. -/
theorem mem_escapeValue {cs : List Char} {c : Char} (h : c ∈ Reference.escapeValue cs) :
    c ≠ '"' := by
  obtain ⟨d, -, hd⟩ := List.mem_flatMap.mp h
  rcases mem_escapeValueChar hd with hc | ⟨rfl, quote⟩
  · rintro rfl
    exact absurd hc (by decide)
  · exact quote

/-! ### Written tags -/

/-- An attribute as it stands in a tag. -/
def writtenPair (a : Attribute) : List Char :=
  ' ' :: (a.name.toList ++ '=' :: '"' :: (Reference.escapeValue a.value.toList ++ ['"']))

/-- The inside of a start tag. -/
def inside (name : String) (as : List Attribute) : List Char :=
  name.toList ++ as.flatMap writtenPair

theorem toList_attributes : ∀ as : List Attribute,
    (Print.attributes as).toList = as.flatMap writtenPair
  | [] => rfl
  | a :: as => by
    rw [Print.attributes, String.toList_append, toList_attributes as, List.flatMap_cons]
    simp [Print.pair, writtenPair]

/-- The pieces of a text through which a tag goes on to its closing bracket. -/
def InTag (cs : List Char) : Prop :=
  ∀ rest, Token.splitTag none (cs ++ rest) =
    (Token.splitTag none rest).map fun (inside, rest) => (cs ++ inside, rest)

theorem InTag.append {cs ds : List Char} (h : InTag cs) (h' : InTag ds) : InTag (cs ++ ds) := by
  intro rest
  rw [List.append_assoc, h, h']
  cases Token.splitTag none rest <;> simp

theorem inTag_plain : ∀ {cs : List Char}, (∀ c ∈ cs, c ≠ '>' ∧ c ≠ '"' ∧ c ≠ '\'') → InTag cs
  | [], _, rest => by cases h : Token.splitTag none rest <;> simp [h]
  | c :: cs, h, rest => by
    obtain ⟨bracket, quote, apostrophe⟩ := h c List.mem_cons_self
    have ih := inTag_plain (fun d hd => h d (List.mem_cons_of_mem c hd)) rest
    rw [List.cons_append, Token.splitTag]
    simp only [bracket, quote, apostrophe, or_self, if_false, ih]
    cases Token.splitTag none rest <;> rfl

theorem inTag_char {c : Char} (h : c ≠ '>' ∧ c ≠ '"' ∧ c ≠ '\'') : InTag [c] :=
  inTag_plain fun d hd => by
    rw [List.mem_singleton.mp hd]
    exact h

theorem splitTag_quoted : ∀ {cs : List Char}, (∀ c ∈ cs, c ≠ '"') → ∀ rest,
    Token.splitTag (some '"') (cs ++ '"' :: rest) =
      (Token.splitTag none rest).map fun (inside, rest) => (cs ++ '"' :: inside, rest)
  | [], _, rest => rfl
  | c :: cs, h, rest => by
    have ih := splitTag_quoted (fun d hd => h d (List.mem_cons_of_mem c hd)) rest
    rw [List.cons_append, Token.splitTag]
    simp only [h c List.mem_cons_self, if_false, ih]
    cases Token.splitTag none rest <;> rfl

theorem inTag_quoted {cs : List Char} (h : ∀ c ∈ cs, c ≠ '"') : InTag ('"' :: (cs ++ ['"'])) := by
  intro rest
  have body := splitTag_quoted h rest
  rw [List.cons_append, List.append_assoc, List.singleton_append, Token.splitTag]
  simp only [show ¬ '"' = '>' by decide, true_or, if_true, if_false, body]
  cases Token.splitTag none rest <;> simp

/-- The tag that begins with this text ends at a bracket right behind it. -/
def Closes (cs : List Char) : Prop := Token.splitTag none (cs ++ ['>']) = some (cs, [])

instance (cs : List Char) : Decidable (Closes cs) := inferInstanceAs (Decidable (_ = _))

/-- A tag that ends behind a text goes on behind it if there is no bracket. -/
theorem splitTag_of_closes {cs : List Char} : ∀ {quote : Option Char},
    Token.splitTag quote (cs ++ ['>']) = some (cs, []) → ∀ rest,
      Token.splitTag quote (cs ++ rest) =
        (Token.splitTag none rest).map fun (inside, rest) => (cs ++ inside, rest) := by
  induction cs with
  | nil =>
    intro quote h rest
    cases quote with
    | some q => simp [Token.splitTag] at h
    | none => cases hs : Token.splitTag none rest <;> simp [hs]
  | cons c cs ih =>
    have step : ∀ {q : Option Char},
        ((Token.splitTag q (cs ++ ['>'])).map fun (inside, rest) => (c :: inside, rest)) =
            some (c :: cs, []) → ∀ rest,
          ((Token.splitTag q (cs ++ rest)).map fun (inside, rest) => (c :: inside, rest)) =
            (Token.splitTag none rest).map fun (inside, rest) => (c :: cs ++ inside, rest) := by
      intro q hq rest
      obtain ⟨⟨i, r⟩, hi, he⟩ := Option.map_eq_some_iff.mp hq
      cases he
      rw [ih hi rest]
      cases Token.splitTag none rest <;> rfl
    intro quote h rest
    cases quote with
    | some q =>
      rw [List.cons_append, Token.splitTag] at h ⊢
      exact step h rest
    | none =>
      rw [List.cons_append, Token.splitTag] at h ⊢
      by_cases bracket : c = '>'
      · simp only [if_pos bracket] at h
        cases h
      · simp only [if_neg bracket] at h ⊢
        exact step h rest

theorem inTag_of_closes {cs : List Char} (h : Closes cs) : InTag cs := splitTag_of_closes h

theorem inTag_name {name : String} (h : IsName name) : InTag name.toList :=
  inTag_plain fun c hc =>
    have char := h.isNameChar hc
    ⟨isNameChar_ne char (by decide), isNameChar_ne char (by decide), isNameChar_ne char (by decide)⟩

theorem inTag_writtenPair {a : Attribute} (h : IsName a.name) : InTag (writtenPair a) := by
  have space : InTag [' '] := inTag_char (by decide)
  have equals : InTag ['='] := inTag_char (by decide)
  have value : InTag ('"' :: (Reference.escapeValue a.value.toList ++ ['"'])) :=
    inTag_quoted fun c hc => mem_escapeValue hc
  exact space.append ((inTag_name h).append (equals.append value))

theorem inTag_inside {name : String} {as : List Attribute} (hn : IsName name)
    (named : ∀ a ∈ as, IsName a.name) : InTag (inside name as) := by
  refine (inTag_name hn).append ?_
  induction as with
  | nil => exact inTag_plain fun c hc => nomatch hc
  | cons a as ih =>
    exact (inTag_writtenPair (named a List.mem_cons_self)).append
      (ih fun b hb => named b (List.mem_cons_of_mem a hb))

/-- **A tag** ends at the bracket behind its inside. -/
theorem splitTag_of_inTag {cs : List Char} (h : InTag cs) (rest : List Char) :
    Token.splitTag none (cs ++ '>' :: rest) = some (cs, rest) := by
  rw [h, Token.splitTag]
  simp

theorem InTag.closes {cs : List Char} (h : InTag cs) : Closes cs := splitTag_of_inTag h []

/-! ### The name and the attributes -/

theorem head?_flatMap_writtenPair (as : List Attribute) :
    ∀ c ∈ (as.flatMap writtenPair).head?, isSeparator c = true := by
  cases as with
  | nil => exact fun c hc => nomatch hc
  | cons a as =>
    rintro c ⟨rfl⟩
    rfl

/-- The key of an attribute: it does not begin with a separator, and goes on up to the next
equals sign or separator. -/
def IsKey : List Char → Prop
  | [] => False
  | c :: cs => isSeparator c = false ∧ ∀ d ∈ cs, Tag.inKey d = true

theorem IsKey.exists_cons {key : List Char} (h : IsKey key) :
    ∃ c cs, key = c :: cs ∧ isSeparator c = false ∧ ∀ d ∈ cs, Tag.inKey d = true := by
  cases key with
  | nil => exact h.elim
  | cons c cs => exact ⟨c, cs, rfl, h⟩

/-- The name and the attributes of an element, such that they are told apart in a tag. -/
structure IsTag (name : String) (as : List Attribute) : Prop where
  unseparated : ∀ c ∈ name.toList, isSeparator c = false
  /-- What the name begins with makes no other construct of a tag. -/
  start : ∀ c ∈ name.toList.head?, c ≠ '!' ∧ c ≠ '?' ∧ c ≠ '/'
  keys : ∀ a ∈ as, IsKey a.name.toList
  distinct : (as.map (·.name)).Nodup

theorem span_inside {name : String} (h : ∀ c ∈ name.toList, isSeparator c = false)
    (as : List Attribute) :
    (inside name as).takeWhile (!isSeparator ·) = name.toList ∧
      (inside name as).dropWhile (!isSeparator ·) = as.flatMap writtenPair := by
  refine span_append _ _ _ (fun c hc => ?_) fun c hc => ?_
  · rw [h c hc]
    rfl
  · rw [head?_flatMap_writtenPair as c hc]
    rfl

theorem inKey_of_isNameChar {c : Char} (h : isNameChar c = true) : Tag.inKey c = true := by
  simp [Tag.inKey, isNameChar_ne h (show isNameChar '=' = false by decide),
    isSeparator_of_isNameChar h]

theorem IsName.isKey {name : String} (h : IsName name) : IsKey name.toList := by
  obtain ⟨c, cs, hc, first⟩ := h.exists_cons
  rw [hc]
  refine ⟨isSeparator_of_isNameChar first, fun d hd => inKey_of_isNameChar (h.isNameChar ?_)⟩
  rw [hc]
  exact List.mem_cons_of_mem c hd

theorem IsName.isTag {name : String} {as : List Attribute} (hn : IsName name)
    (ha : AreAttributes as) : IsTag name as where
  unseparated _ hc := isSeparator_of_isNameChar (hn.isNameChar hc)
  start c hc := by
    have char := hn.isNameChar (List.mem_of_mem_head? hc)
    exact ⟨isNameChar_ne char (by decide), isNameChar_ne char (by decide),
      isNameChar_ne char (by decide)⟩
  keys a h := (ha.named a h).isKey
  distinct := ha.distinct

/-- The inside of a tag does not end with a slash. -/
theorem getLast?_inside {name : String} (hn : IsName name) (as : List Attribute) :
    (inside name as).getLast? ≠ some '/' := by
  have pairs : (as.flatMap writtenPair).getLast? ≠ some '/' := by
    induction as with
    | nil => decide
    | cons a as ih =>
      have quote : (writtenPair a).getLast? = some '"' := by
        rw [writtenPair, ← List.cons_append, ← List.cons_append, ← List.cons_append,
          ← List.append_assoc]
        exact List.getLast?_concat ..
      rw [List.flatMap_cons, List.getLast?_append, quote]
      cases hl : (as.flatMap writtenPair).getLast? with
      | none => decide
      | some c =>
        rw [hl] at ih
        exact ih
  rw [inside, List.getLast?_append]
  cases hl : (as.flatMap writtenPair).getLast? with
  | none =>
    intro h
    rw [Option.none_or] at h
    exact isNameChar_ne (hn.isNameChar (List.mem_of_getLast? h)) (by decide) rfl
  | some c =>
    rw [hl] at pairs
    exact pairs

/-- The start tag and the end tag of an element are read as they are written. -/
structure HasTags (name : String) (as : List Attribute) : Prop extends IsTag name as where
  closes : Closes (inside name as)
  unslashed : (inside name as).getLast? ≠ some '/'
  leaves : Closes name.toList

theorem inside_ne_nil {name : String} (hn : IsName name) (as : List Attribute) :
    inside name as ≠ [] := by
  obtain ⟨c, cs, hc, -⟩ := hn.exists_cons
  rw [inside, hc]
  exact List.cons_ne_nil c _

theorem IsName.hasTags {name : String} {as : List Attribute} (hn : IsName name)
    (ha : AreAttributes as) : HasTags name as where
  toIsTag := hn.isTag ha
  closes := (inTag_inside hn ha.named).closes
  unslashed := getLast?_inside hn as
  leaves := (inTag_name hn).closes

namespace Tag

variable {seen : List (List Char × Nat)} {j : Nat} {c first closing : Char}
  {cs behind body rest : List Char}

theorem attributesFrom_of_end (format : Format) (stop i : Nat) (end_ : cs.dropWhile isSeparator = []) :
    attributesFrom format stop seen i cs = .finished := by
  rw [attributesFrom]
  split
  · rfl
  · rename_i h
    rw [end_] at h
    cases h

/-- An attribute with a value in quotes is read in the same way in both formats. -/
theorem attributesFrom_quoted (format : Format) (stop i : Nat)
    (begins : cs.dropWhile isSeparator = c :: behind)
    (fresh : seen.lookup (c :: behind.takeWhile inKey) = none)
    (after : afterKey
        (i + byteSize (cs.takeWhile isSeparator) + byteSize (c :: behind.takeWhile inKey))
        (behind.dropWhile inKey) = .value j first body)
    (quote : first = '"' ∨ first = '\'')
    (closed : body.dropWhile (· != first) = closing :: rest) :
    attributesFrom format stop seen i cs =
      .cons (c :: behind.takeWhile inKey) (body.takeWhile (· != first))
        (attributesFrom format stop
          ((c :: behind.takeWhile inKey, i + byteSize (cs.takeWhile isSeparator)) :: seen)
          (j + byteSize (body.takeWhile (· != first)) + 2) rest) := by
  rw [attributesFrom]
  split
  · rename_i h
    rw [begins] at h
    cases h
  rename_i h
  rw [begins] at h
  cases h
  dsimp only
  split
  · rename_i h
    rw [after] at h
    cases h
  · rename_i h
    rw [after] at h
    cases h
  rename_i h
  rw [after] at h
  cases h
  simp only [fresh, quote, if_true]
  split
  · rename_i h
    rw [closed] at h
    cases h
  rename_i h
  rw [closed] at h
  cases h
  rfl

end Tag

/-- An attribute is read as its name and its escaped value. -/
theorem attributesFrom_writtenPair (format : Format) (stop i : Nat)
    (seen : List (List Char × Nat)) {a : Attribute} (hk : IsKey a.name.toList) (rest : List Char)
    (fresh : seen.lookup a.name.toList = none) :
    ∃ j, Tag.attributesFrom format stop seen i (writtenPair a ++ rest) =
      .cons a.name.toList (Reference.escapeValue a.value.toList)
        (Tag.attributesFrom format stop ((a.name.toList, i + 1) :: seen) j rest) := by
  obtain ⟨c, ks, name, first, chars⟩ := hk.exists_cons
  let value := Reference.escapeValue a.value.toList
  have written : writtenPair a ++ rest =
      [' '] ++ (c :: (ks ++ '=' :: '"' :: (value ++ '"' :: rest))) := by
    simp [writtenPair, name, value]
  have space := span_append isSeparator [' ']
    (c :: (ks ++ '=' :: '"' :: (value ++ '"' :: rest)))
    (fun d hd => by rw [List.mem_singleton.mp hd]; rfl) (by
      rintro d ⟨rfl⟩
      exact first)
  have key := span_append Tag.inKey ks ('=' :: '"' :: (value ++ '"' :: rest)) chars (by
      rintro d ⟨rfl⟩
      rfl)
  have quoted := span_append (· != '"') value ('"' :: rest)
    (fun d hd => by simpa using mem_escapeValue hd) (by
      rintro d ⟨rfl⟩
      rfl)
  have after : ∀ j, Tag.afterKey j
      ((ks ++ '=' :: '"' :: (value ++ '"' :: rest)).dropWhile Tag.inKey) =
        .value (j + 1) '"' (value ++ '"' :: rest) := fun j => by
    rw [key.2]
    rfl
  rw [name] at fresh ⊢
  rw [← key.1] at fresh
  have read := Tag.attributesFrom_quoted format stop i space.2 fresh (after _) (.inl rfl) quoted.2
  rw [key.1, quoted.1, space.1] at read
  rw [written, read]
  exact ⟨_, rfl⟩

/-- The attributes of a tag as they are written. -/
def writtenPairs (as : List Attribute) : List (List Char × List Char) :=
  as.map fun a => (a.name.toList, Reference.escapeValue a.value.toList)

theorem attributesFrom_written (format : Format) (stop : Nat) : ∀ {as : List Attribute}
    {seen : List (List Char × Nat)} (i : Nat), (∀ a ∈ as, IsKey a.name.toList) →
      (as.map (·.name)).Nodup → (∀ a ∈ as, seen.lookup a.name.toList = none) →
        Tag.attributesFrom format stop seen i (as.flatMap writtenPair) = ⟨writtenPairs as, none⟩
  | [], seen, i, _, _, _ => by
    rw [List.flatMap_nil, Tag.attributesFrom]
    rfl
  | a :: as, seen, i, keys, distinct, fresh => by
    obtain ⟨other, distinct⟩ := List.nodup_cons.mp distinct
    obtain ⟨j, hj⟩ := attributesFrom_writtenPair format stop i seen (keys a List.mem_cons_self)
      (as.flatMap writtenPair) (fresh a List.mem_cons_self)
    have fresh' : ∀ b ∈ as, ((a.name.toList, i + 1) :: seen).lookup b.name.toList = none := by
      intro b hb
      have different : (b.name.toList == a.name.toList) = false :=
        beq_eq_false_iff_ne.mpr fun same =>
          other (List.mem_map.mpr ⟨b, hb, String.toList_inj.mp same⟩)
      rw [List.lookup_cons, different]
      exact fresh b (List.mem_cons_of_mem a hb)
    rw [List.flatMap_cons, hj, attributesFrom_written format stop j
      (fun b hb => keys b (List.mem_cons_of_mem a hb)) distinct fresh']
    rfl

/-- The values of attributes are read back. -/
theorem decodeAttributes_written (format : Format) (stop : Nat) : ∀ as : List Attribute,
    Event.decodeAttributes format stop none (writtenPairs as) = .ok as
  | [] => rfl
  | a :: as => by
    have value : Event.decodeValue format stop (Reference.escapeValue a.value.toList) =
        .ok a.value.toList := by
      cases format with
      | html => rw [Event.decodeValue, Reference.decodeOrKeep, Reference.decode_escapeValue]
      | xml =>
        rw [Event.decodeValue, Reference.decode_escapeValue]
        rfl
    have rest := decodeAttributes_written format stop as
    rw [writtenPairs, List.map_cons, Event.decodeAttributes, value, ← writtenPairs, rest]
    simp only [String.ofList_toList]
    rfl

/-- **The inside of a tag** is read back as its name and its attributes. -/
theorem decodeTag_inside (format : Format) (stop : Nat) {name : String} {as : List Attribute}
    (h : IsTag name as) : Event.decodeTag format stop (inside name as) = .ok (name, as) := by
  have listing : Tag.attributes format (inside name as) = ⟨writtenPairs as, none⟩ := by
    rw [Tag.attributes, (span_inside h.unseparated as).2]
    exact attributesFrom_written format _ _ h.keys h.distinct fun _ _ => rfl
  rw [Event.decodeTag, listing]
  simp only [decodeAttributes_written, Tag.name, (span_inside h.unseparated as).1,
    String.ofList_toList]
  rfl

end Templating.Markup
