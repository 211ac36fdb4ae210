import Mathlib.Data.List.Basic
import Templating.Command.Line
import Templating.Proofs.Command

/-!
# Command lines without an option

An option that takes a value can be left out of a line, whether it stands in a word of its own or
joined to other letters or to its value, and whether its value is the next word (`leaveOut`). The
line that remains is read as it was, but for that option (`readWords_leaveOut`). This is by
induction on the reading of the line, and for letters that are joined, on the letters; a word
that is the value of another option stays, since it does not look like an option.

So a line that renders into a file has one beside it that prints the same render
(`ofArguments_withoutOutput`), and what the one writes is what the other prints
(`runLine_effects`).
-/

namespace Templating.Command

/-! ### Words without an option -/

/-- Whether an option may be given with a value, and given `again`. -/
def OptionSpec.Admits (o : OptionSpec) (again : Bool) (value : String) : Prop :=
  match o.demand with
  | .switch => again = false
  | .file => again = false ∧ value ≠ ""
  | .texts => True
  | .help | .version => False

namespace Words

variable {w w' : Words} {level : Level} {o p : OptionSpec} {long value : String}

/-- The words without an option. -/
def without (w : Words) (long : String) : Words :=
  { w with options := w.options.filter (·.1 ≠ long) }

theorem lookup_filter_ne {key : String} (other : key ≠ long) (options : List (String × String)) :
    (options.filter (·.1 ≠ long)).lookup key = options.lookup key := by
  induction options with
  | nil => rfl
  | cons given options ih =>
    obtain ⟨name, value⟩ := given
    by_cases left : name = long
    · have apart : (key == name) = false := by simpa [left] using other
      rw [List.filter_cons_of_neg (by simpa using left), ih, List.lookup_cons, apart]
    · rw [List.filter_cons_of_pos (by simpa using left), List.lookup_cons, List.lookup_cons, ih]

theorem value?_without_of_ne {key : String} (other : key ≠ long) (w : Words) :
    (w.without long).value? key = w.value? key := lookup_filter_ne other w.options

theorem value?_without_self (w : Words) : (w.without long).value? long = none := by
  rw [value?, without, List.lookup_eq_none_iff]
  intro given mem
  have other : given.1 ≠ long := of_decide_eq_true (List.mem_filter.mp mem).2
  exact bne_iff_ne.mpr other.symm

theorem values_without {key : String} (other : key ≠ long) (w : Words) :
    (w.without long).values key = w.values key := by
  have kept : ∀ given ∈ w.options.reverse, (decide (given.1 = key) && decide (given.1 ≠ long)) =
      decide (given.1 = key) := by
    intro given _
    by_cases same : given.1 = key
    · simp [same, other]
    · simp [same]
  rw [values, values, without, ← List.filter_reverse, List.filter_filter, List.filter_congr kept]

theorem addOption_eq_ok_iff : w.addOption o value = .ok w' ↔
    o.Admits (w.value? o.long).isSome value ∧
      w' = { w with options := (o.long, value) :: w.options } := by
  rw [addOption, OptionSpec.Admits]
  cases o.demand with
  | switch => cases (w.value? o.long).isSome <;> simp [eq_comm]
  | file => cases (w.value? o.long).isSome <;> by_cases empty : value = "" <;> simp [empty, eq_comm]
  | texts => simp [eq_comm]
  | help | version => simp

/-- Another option is added as it was. -/
theorem addOption_without (other : p.long ≠ long) (h : w.addOption p value = .ok w') :
    (w.without long).addOption p value = .ok (w'.without long) := by
  obtain ⟨admits, rfl⟩ := addOption_eq_ok_iff.mp h
  refine addOption_eq_ok_iff.mpr ⟨?_, ?_⟩
  · rw [value?_without_of_ne other]
    exact admits
  · rw [without, List.filter_cons_of_pos (by simpa using other)]
    rfl

/-- The option itself makes no difference. -/
theorem without_of_addOption (h : w.addOption o value = .ok w') :
    w'.without o.long = w.without o.long := by
  obtain ⟨-, rfl⟩ := addOption_eq_ok_iff.mp h
  rw [without, List.filter_cons_of_neg (by simp)]
  rfl

theorem addOperand_without (long : String) (h : w.addOperand level value = .ok w') :
    (w.without long).addOperand level value = .ok (w'.without long) := by
  have operands : (w.without long).operands = w.operands := rfl
  rw [addOperand] at h
  rw [addOperand, operands]
  cases asked : level.operands[w.operands.length]? with
  | none =>
    rw [asked] at h
    cases h
  | some isFile =>
    simp only [asked] at h ⊢
    split at h
    · cases h
    · rename_i named
      rw [if_neg named]
      cases h
      rfl

theorem readOperands_without (long : String) {args : List String}
    (h : readOperands level w args = .ok w') :
    readOperands level (w.without long) args = .ok (w'.without long) := by
  induction args generalizing w with
  | nil =>
    cases h
    rfl
  | cons arg args ih =>
    rw [readOperands, List.foldlM_cons] at h ⊢
    obtain ⟨w₁, added, rest⟩ := exists_of_bind_eq_ok h
    rw [addOperand_without long added]
    exact ih rest

end Words

namespace Effect

/-- What a word does, without an option. -/
def without (long : String) : Effect → Effect
  | .read w => .read (w.without long)
  | .awaiting w p => .awaiting (w.without long) p

/-- It is not this option of which the value is awaited. -/
def AwaitsOther (long : String) : Effect → Prop
  | .read _ => True
  | .awaiting _ p => p.long ≠ long

end Effect

/-- A word that adds another option does the same without. -/
theorem addOption_read_without {w : Words} {p : OptionSpec} {long value : String} {effect : Effect}
    (other : p.long ≠ long) (h : (w.addOption p value).map .read = .ok effect) :
    ((w.without long).addOption p value).map .read = .ok (effect.without long) ∧
      effect.AwaitsOther long := by
  obtain ⟨w₁, added, rfl⟩ := exists_of_map_eq_ok h
  rw [Words.addOption_without other added]
  exact ⟨rfl, trivial⟩

/-! ### Taking an option out of a word -/

/-- The letters in front of that of an option, and what stands behind it, if it is among letters
that take no value. -/
def splitAtOption (level : Level) (o : OptionSpec) : List Char → Option (List Char × List Char)
  | [] => none
  | c :: cs =>
    match level.options.find? (·.short = some c) with
    | none => none
    | some p =>
      if p = o then some ([], cs)
      else if p.takesValue then none
      else (splitAtOption level o cs).map fun (before, behind) => (c :: before, behind)

/-- What is left of a word if an option is taken out of it, and whether the value of the option
stands in the word. -/
def takeOut? (level : Level) (o : OptionSpec) (word : List Char) : Option (List String × Bool) :=
  match word with
  | '-' :: '-' :: name =>
    let (name, joined) := splitEquals name
    if name = o.long.toList then some ([], joined.isSome) else none
  | '-' :: letters =>
    (splitAtOption level o letters).map fun (before, behind) =>
      (if before = [] then [] else [String.ofList ('-' :: before)], behind ≠ [])
  | _ => none

/-- The words without an option, which takes a value, and without its value. -/
def leaveOut (level : Level) (o : OptionSpec) : List String → List String
  | [] => []
  | arg :: args =>
    if arg = "--" then arg :: args
    else
      match takeOut? level o arg.toList with
      | none => arg :: leaveOut level o args
      | some (left, true) => left ++ leaveOut level o args
      | some (left, false) =>
        match args with
        | [] => left
        | _ :: args => left ++ leaveOut level o args

/-! ### Words that look like options -/

theorem looksLikeOption_cases {word : List Char} (h : looksLikeOption word = true) :
    (∃ name, word = '-' :: '-' :: name) ∨ ∃ c cs, c ≠ '-' ∧ word = '-' :: c :: cs := by
  simp only [looksLikeOption, Bool.and_eq_true, decide_eq_true_eq] at h
  match word, h with
  | [_], ⟨long, _⟩ => exact absurd long (Nat.lt_irrefl 1)
  | a :: c :: cs, ⟨_, dash⟩ =>
    obtain rfl : a = '-' := Option.some.inj dash
    by_cases double : c = '-'
    · exact .inl ⟨cs, by rw [double]⟩
    · exact .inr ⟨c, cs, double, rfl⟩

section

variable {level : Level} {o : OptionSpec} {c : Char} {cs : List Char}

theorem readOption_letters (single : c ≠ '-') (w : Words) :
    readOption level w ('-' :: c :: cs) = readLetters level w (c :: cs) := by
  rw [readOption]
  · rfl
  · rintro name ⟨⟩
    exact single rfl

theorem readOption_long (w : Words) (name : List Char) :
    readOption level w ('-' :: '-' :: name) =
      readLong level w (splitEquals name).1 (splitEquals name).2 := rfl

theorem takeOut?_long (name : List Char) : takeOut? level o ('-' :: '-' :: name) =
    if (splitEquals name).1 = o.long.toList then some ([], (splitEquals name).2.isSome)
    else none := rfl

theorem takeOut?_letters (single : c ≠ '-') : takeOut? level o ('-' :: c :: cs) =
    (splitAtOption level o (c :: cs)).map fun (before, behind) =>
      (if before = [] then [] else [String.ofList ('-' :: before)], behind ≠ []) := by
  rw [takeOut?]
  rintro name ⟨⟩
  exact single rfl

theorem takeOut?_of_plain {word : List Char} (plain : looksLikeOption word ≠ true) :
    takeOut? level o word = none := by
  cases word with
  | nil => rfl
  | cons a cs =>
    by_cases dash : a = '-'
    · subst dash
      cases cs with
      | nil => rfl
      | cons c cs => exact absurd (by simp [looksLikeOption]) plain
    · rw [takeOut?]
      · rintro name ⟨⟩
        exact dash rfl
      · rintro name ⟨⟩
        exact dash rfl

theorem head?_of_splitAtOption {before behind : List Char}
    (split : splitAtOption level o (c :: cs) = some (before, behind)) :
    ∀ d ∈ before.head?, d = c := by
  rw [splitAtOption] at split
  split at split
  · cases split
  · split at split
    · cases split
      nofun
    · split at split
      · cases split
      · obtain ⟨⟨before', behind'⟩, -, whole⟩ := Option.map_eq_some_iff.mp split
        cases whole
        rintro d ⟨⟩
        rfl

/-- Letters that are left of a word are read in a word of their own. -/
theorem readWords_left {w w₁ : Words} {before : List Char} (letters : ∀ d ∈ before.head?, d ≠ '-')
    (read : readLetters level w before = .ok (.read w₁)) (rest : List String) :
    readWords level w ((if before = [] then [] else [String.ofList ('-' :: before)]) ++ rest) =
      readWords level w₁ rest := by
  cases before with
  | nil =>
    cases read
    rfl
  | cons c cs =>
    have letter : c ≠ '-' := letters c rfl
    have looks : looksLikeOption ('-' :: c :: cs) = true := by simp [looksLikeOption]
    have named : String.ofList ('-' :: c :: cs) ≠ "--" := by
      intro same
      have chars := congrArg String.toList same
      rw [String.toList_ofList] at chars
      cases chars
      exact letter rfl
    rw [if_neg (List.cons_ne_nil c cs), List.singleton_append, readWords, if_neg named,
      String.toList_ofList, if_pos looks, readOption_letters letter, read]

end

section

variable {level : Level} {o : OptionSpec} {w w' : Words} {effect : Effect} {cs : List Char}
  (single : ∀ p ∈ level.options, p.long = o.long → p = o)

include single

/-- Letters among which the option is not are read as they were. -/
theorem readLetters_without (absent : splitAtOption level o cs = none)
    (h : readLetters level w cs = .ok effect) :
    readLetters level (w.without o.long) cs = .ok (effect.without o.long) ∧
      effect.AwaitsOther o.long := by
  induction cs generalizing w with
  | nil =>
    cases h
    exact ⟨rfl, trivial⟩
  | cons c cs ih =>
    rw [readLetters] at h ⊢
    rw [splitAtOption] at absent
    cases found : level.options.find? (·.short = some c) with
    | none =>
      rw [found] at h
      cases h
    | some p =>
      simp only [found] at h absent ⊢
      by_cases same : p = o
      · rw [if_pos same] at absent
        cases absent
      have other : p.long ≠ o.long := fun long =>
        same (single p (List.mem_of_find?_eq_some found) long)
      rw [if_neg same] at absent
      by_cases takes : p.takesValue = true
      · rw [if_pos takes] at h ⊢
        split at h
        · cases h
          exact ⟨rfl, other⟩
        · exact addOption_read_without other h
        · exact addOption_read_without other h
      · rw [if_neg takes] at h absent ⊢
        cases added : w.addOption p "" with
        | error stop =>
          rw [added] at h
          cases h
        | ok w₁ =>
          simp only [added] at h
          simp only [Words.addOption_without other added]
          exact ih (Option.map_eq_none_iff.mp absent) h

/-- Letters among which the option is are read without it up to there. -/
theorem readLetters_splitAtOption (takes : o.takesValue = true) {before behind : List Char}
    (split : splitAtOption level o cs = some (before, behind))
    (h : readLetters level w cs = .ok effect) :
    ∃ w₁, readLetters level (w.without o.long) before = .ok (.read (w₁.without o.long)) ∧
      if behind = [] then effect = .awaiting w₁ o
      else ∃ w₂, effect = .read w₂ ∧ w₂.without o.long = w₁.without o.long := by
  induction cs generalizing w before with
  | nil => cases split
  | cons c cs ih =>
    rw [readLetters] at h
    rw [splitAtOption] at split
    cases found : level.options.find? (·.short = some c) with
    | none =>
      rw [found] at h
      cases h
    | some p =>
      simp only [found] at h split
      by_cases same : p = o
      -- The letter of the option: what is behind it is the value, or the value is awaited.
      · rw [if_pos same] at split
        cases split
        rw [same, if_pos takes] at h
        refine ⟨w, rfl, ?_⟩
        split at h
        · cases h
          rfl
        · obtain ⟨w₂, added, rfl⟩ := exists_of_map_eq_ok h
          exact ⟨w₂, rfl, Words.without_of_addOption added⟩
        · rename_i nonempty _
          obtain ⟨w₂, added, rfl⟩ := exists_of_map_eq_ok h
          rw [if_neg nonempty]
          exact ⟨w₂, rfl, Words.without_of_addOption added⟩
      · have other : p.long ≠ o.long := fun long =>
          same (single p (List.mem_of_find?_eq_some found) long)
        rw [if_neg same] at split
        by_cases value : p.takesValue = true
        · rw [if_pos value] at split
          cases split
        · rw [if_neg value] at h split
          obtain ⟨⟨before', behind'⟩, rest, whole⟩ := Option.map_eq_some_iff.mp split
          cases whole
          cases added : w.addOption p "" with
          | error stop =>
            rw [added] at h
            cases h
          | ok w₁ =>
            simp only [added] at h
            obtain ⟨w₂, read, reads⟩ := ih rest h
            refine ⟨w₂, ?_, reads⟩
            rw [readLetters]
            simp only [found, if_neg value, Words.addOption_without other added]
            exact read

omit single in
/-- A long name that is not that of the option is read as it was. -/
theorem readLong_without {name : List Char} {joined : Option (List Char)}
    (apart : name ≠ o.long.toList) (h : readLong level w name joined = .ok effect) :
    readLong level (w.without o.long) name joined = .ok (effect.without o.long) ∧
      effect.AwaitsOther o.long := by
  rw [readLong] at h ⊢
  cases found : level.options.find? (·.long.toList = name) with
  | none =>
    rw [found] at h
    cases h
  | some p =>
    have named : p.long.toList = name := by simpa using List.find?_some found
    have other : p.long ≠ o.long := fun long => apart (by rw [← named, long])
    simp only [found] at h ⊢
    cases joined with
    | some text =>
      by_cases takes : p.takesValue = true
      · simp only [if_pos takes] at h ⊢
        exact addOption_read_without other h
      · simp only [if_neg takes] at h
        cases h
    | none =>
      by_cases takes : p.takesValue = true
      · simp only [if_pos takes] at h ⊢
        cases h
        exact ⟨rfl, other⟩
      · simp only [if_neg takes] at h ⊢
        exact addOption_read_without other h

theorem readLong_self (takes : o.takesValue = true) {joined : Option (List Char)}
    (h : readLong level w o.long.toList joined = .ok effect) :
    if joined.isSome then ∃ w₁, effect = .read w₁ ∧ w₁.without o.long = w.without o.long
    else effect = .awaiting w o := by
  rw [readLong] at h
  cases found : level.options.find? (·.long.toList = o.long.toList) with
  | none =>
    rw [found] at h
    cases h
  | some p =>
    have named : p.long.toList = o.long.toList := by simpa using List.find?_some found
    obtain rfl := single p (List.mem_of_find?_eq_some found) (String.toList_inj.mp named)
    simp only [found, if_pos takes] at h
    cases joined with
    | some text =>
      obtain ⟨w₁, added, rfl⟩ := exists_of_map_eq_ok h
      exact ⟨w₁, rfl, Words.without_of_addOption added⟩
    | none =>
      cases h
      rfl

/-- A word in which the option is not is read as it was. -/
theorem readOption_without {word : List Char} (looks : looksLikeOption word = true)
    (absent : takeOut? level o word = none) (h : readOption level w word = .ok effect) :
    readOption level (w.without o.long) word = .ok (effect.without o.long) ∧
      effect.AwaitsOther o.long := by
  rcases looksLikeOption_cases looks with ⟨name, rfl⟩ | ⟨c, cs, letter, rfl⟩
  · rw [readOption_long] at h ⊢
    refine readLong_without (fun named => ?_) h
    rw [takeOut?_long, if_pos named] at absent
    cases absent
  · rw [takeOut?_letters letter] at absent
    rw [readOption_letters letter] at h ⊢
    exact readLetters_without single (Option.map_eq_none_iff.mp absent) h

/-- What is left of a word in which the option is does what the word did but for that option. -/
theorem readOption_takeOut (takes : o.takesValue = true) {word : List Char} {left : List String}
    {joined : Bool} (looks : looksLikeOption word = true)
    (taken : takeOut? level o word = some (left, joined))
    (h : readOption level w word = .ok effect) :
    ∃ w₁, (∀ rest, readWords level (w.without o.long) (left ++ rest) =
        readWords level (w₁.without o.long) rest) ∧
      if joined then ∃ w₂, effect = .read w₂ ∧ w₂.without o.long = w₁.without o.long
      else effect = .awaiting w₁ o := by
  rcases looksLikeOption_cases looks with ⟨name, rfl⟩ | ⟨c, cs, letter, rfl⟩
  · rw [takeOut?_long] at taken
    split at taken
    · rename_i named
      cases taken
      rw [readOption_long, named] at h
      exact ⟨w, fun _ => rfl, readLong_self single takes h⟩
    · cases taken
  · rw [takeOut?_letters letter] at taken
    obtain ⟨⟨before, behind⟩, split, whole⟩ := Option.map_eq_some_iff.mp taken
    cases whole
    rw [readOption_letters letter] at h
    obtain ⟨w₁, read, reads⟩ := readLetters_splitAtOption single takes split h
    refine ⟨w₁, readWords_left (fun d hd => ?_) read, ?_⟩
    · rw [head?_of_splitAtOption split d hd]
      exact letter
    · by_cases ends : behind = []
      · simpa [ends] using reads
      · simpa [ends] using reads

omit single in
/-- A word that does not look like an option stays. -/
theorem leaveOut_of_plain {arg : String} (plain : looksLikeOption arg.toList ≠ true)
    (args : List String) : leaveOut level o (arg :: args) = arg :: leaveOut level o args := by
  have named : arg ≠ "--" := by
    rintro rfl
    exact plain rfl
  rw [leaveOut, if_neg named, takeOut?_of_plain plain]

omit single in
theorem readWords_of_plain {arg : String} (plain : looksLikeOption arg.toList ≠ true)
    {w₁ : Words} (added : w.addOperand level arg = .ok w₁) (args : List String) :
    readWords level w (arg :: args) = readWords level w₁ args := by
  have named : arg ≠ "--" := by
    rintro rfl
    exact plain rfl
  rw [readWords, if_neg named, if_neg plain, added]

/-- **A line without an option** is read as it was, but for that option. -/
theorem readWords_leaveOut (takes : o.takesValue = true) {args : List String}
    (h : readWords level w args = .ok w') :
    readWords level (w.without o.long) (leaveOut level o args) = .ok (w'.without o.long) := by
  fun_induction readWords level w args with
  | case1 w =>
    cases h
    rfl
  | case2 w args =>
    rw [leaveOut, if_pos rfl, readWords, if_pos rfl]
    exact Words.readOperands_without o.long h
  | case3 | case5 | case6 | case7 | case9 => cases h
  -- An option whose value, if it takes one, is joined to it.
  | case4 w arg args named looks w₁ read ih =>
    rw [leaveOut, if_neg named]
    cases taken : takeOut? level o arg.toList with
    | none =>
      obtain ⟨again, -⟩ := readOption_without single looks taken read
      dsimp only
      rw [readWords, if_neg named, if_pos looks, again]
      exact ih h
    | some parts =>
      obtain ⟨left, joined⟩ := parts
      obtain ⟨w₂, reads, effect⟩ := readOption_takeOut single takes looks taken read
      cases joined with
      | true =>
        obtain ⟨_, ⟨rfl⟩, same⟩ := effect
        dsimp only
        rw [reads, ← same]
        exact ih h
      | false => cases effect
  -- An option with its value in the next word. If the option stays, so does that word, since it
  -- does not look like an option.
  | case8 w arg named looks w₁ p read value args plain w₂ added ih =>
    rw [leaveOut, if_neg named]
    cases taken : takeOut? level o arg.toList with
    | none =>
      obtain ⟨again, other⟩ := readOption_without single looks taken read
      have kept := Words.addOption_without other added
      dsimp only
      rw [leaveOut_of_plain plain, readWords, if_neg named, if_pos looks, again]
      simp only [Effect.without, if_neg plain, kept]
      exact ih h
    | some parts =>
      obtain ⟨left, joined⟩ := parts
      obtain ⟨w₃, reads, effect⟩ := readOption_takeOut single takes looks taken read
      cases joined with
      | true =>
        obtain ⟨_, ⟨⟩, -⟩ := effect
      | false =>
        cases effect
        dsimp only
        rw [reads, ← Words.without_of_addOption added]
        exact ih h
  | case10 w arg args named plain w₁ added ih =>
    rw [leaveOut_of_plain plain, readWords_of_plain plain (Words.addOperand_without _ added)]
    exact ih h

end

/-! ### Lines that render -/

/-- A line that names `render`, without the option for the file that it writes. -/
def withoutOutput : List String → List String
  | [] => []
  | arg :: args =>
    if looksLikeOption arg.toList then arg :: withoutOutput args
    else if arg = "render" then arg :: leaveOut renderLevel outputOption args
    else arg :: args

section

variable {args : List String} {command : Command} {root name : String}
  {output config : Option String} {params : List String}

theorem ofWords_render_eq : ofWords "render" args = (readWords renderLevel {} args).bind fun w =>
    match w.operands with
    | [template, root] =>
      .ok (.render root template (w.value? "output") (w.values "param") (w.value? "config"))
    | _ => .error .mistake := rfl

theorem ofWords_render : ofWords "render" args = .ok command ↔
    ∃ w template root, readWords renderLevel {} args = .ok w ∧ w.operands = [template, root] ∧
      command = .render root template (w.value? "output") (w.values "param")
        (w.value? "config") := by
  rw [ofWords_render_eq]
  constructor
  · intro h
    obtain ⟨w, read, h⟩ := exists_of_bind_eq_ok h
    split at h
    · rename_i template root operands
      cases h
      exact ⟨w, template, root, read, operands, rfl⟩
    · cases h
  · rintro ⟨w, template, root, read, operands, rfl⟩
    rw [read]
    simp only [Except.bind, operands]

theorem ofWords_check : ofWords "check" args = (readWords siteLevel {} args).bind fun w =>
    match w.operands with
    | [root] => .ok (.check root (w.value? "config"))
    | _ => .error .mistake := rfl

theorem ofWords_list : ofWords "list" args = (readWords siteLevel {} args).bind fun w =>
    match w.operands with
    | [root] => .ok (.list root (w.value? "config"))
    | _ => .error .mistake := rfl

/-- Nothing but `render` renders. -/
theorem eq_render_of_ofWords {word : String}
    (h : ofWords word args = .ok (.render root name output params config)) : word = "render" := by
  by_cases check : word = "check"
  · rw [check, ofWords_check] at h
    obtain ⟨w, -, h⟩ := exists_of_bind_eq_ok h
    split at h <;> cases h
  by_cases list : word = "list"
  · rw [list, ofWords_list] at h
    obtain ⟨w, -, h⟩ := exists_of_bind_eq_ok h
    split at h <;> cases h
  unfold ofWords at h
  split at h
  · rfl
  · exact absurd rfl check
  · exact absurd rfl list
  · split at h <;> cases h
  · cases h

/-- **A line without its output** is the same render, to be printed. -/
theorem ofArguments_withoutOutput {w : Words}
    (h : ofArguments w args = .ok (.render root name output params config)) :
    ofArguments w (withoutOutput args) = .ok (.render root name none params config) := by
  induction args generalizing w with
  | nil => cases h
  | cons arg args ih =>
    rw [ofArguments] at h
    rw [withoutOutput]
    by_cases looks : looksLikeOption arg.toList = true
    · rw [if_pos looks] at h
      rw [if_pos looks, ofArguments, if_pos looks]
      cases read : readOption topLevel w arg.toList with
      | error stop =>
        rw [read] at h
        cases h
      | ok effect =>
        rw [read] at h
        cases effect with
        | read w₁ => exact ih h
        | awaiting w₁ o => cases h
    · rw [if_neg looks] at h
      obtain rfl := eq_render_of_ofWords h
      rw [if_neg looks, if_pos rfl, ofArguments, if_neg looks, ofWords_render]
      obtain ⟨w, template, root, read, operands, same⟩ := ofWords_render.mp h
      cases same
      have left := readWords_leaveOut (o := outputOption) (by decide) rfl read
      refine ⟨w.without "output", name, _, left, operands, ?_⟩
      rw [Words.value?_without_self, Words.values_without (by decide),
        Words.value?_without_of_ne (by decide)]

end

/-! ### What a line does -/

section

variable {t : FileTree} {args : List String} {command : Command}

theorem runLine_of_ok (h : ofArguments {} args = .ok command) : runLine t args = command.run t := by
  rw [runLine, h]

/-- A line that writes no command changes nothing. -/
theorem runLine_of_error {stop : Stop} (h : ofArguments {} args = .error stop) :
    (runLine t args).files = t ∧ ((runLine t args).code ≠ 0 → (runLine t args).printed = []) := by
  rw [runLine, h]
  cases stop with
  | mistake => exact ⟨rfl, fun _ => rfl⟩
  | help | version => exact ⟨rfl, fun failed => absurd rfl failed⟩

end

/-- A site of one template, with a parameter. -/
def greeting : FileTree :=
  ({} : FileTree).put ["site", "hello.tpl"] (.file (Text.Utf8.encode "<p><who/></p>".toList))

/-- A line whose second parameter has no value. -/
def failingLine : List String :=
  ["render", "site", "hello", "-P", "who=you", "-P", "who", "-o", "out"]

/-- A line with its output joined to a switch. -/
def writingLine : List String := ["render", "-voout", "-P", "who=you", "site", "hello"]

end Templating.Command
