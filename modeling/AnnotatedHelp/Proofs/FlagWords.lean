import Mathlib
import AnnotatedHelp.Draft.Basic
import AnnotatedHelp.Proofs.Fields
import AnnotatedHelp.Proofs.Occurrence
import AnnotatedHelp.Proofs.Outcome

/-!
# The words of the text of an option

Of every word of the text it can be told by itself whether it is a flag and whether it carries a value.
What a word that is no flag means depends on the word before it alone: behind a flag that carries
nothing it is a placeholder, and everywhere else it is astray. So reading needs to remember no more than
whether it stands behind such a flag; it comes to the first word that is astray, or through the text.
-/

namespace AnnotatedHelp

open Text

namespace Flag

variable {word flag value : List Char} {front words rest flags : List (List Char)} {afterFlag : Bool}

/-- The words of the text of an option, each without one trailing comma, as far as something is left of
them. -/
def writtenWords (text : List Char) : List (List Char) :=
  ((Text.words text).map dropComma).filter (!·.isEmpty)

/-- A word that begins with a flag mark is a flag. -/
def IsFlag (word : List Char) : Prop :=
  ∃ mark ∈ word.head?, mark = '-' ∨ mark = '/'

/-- A flag that carries a value: its first equals sign has two characters or more in front of it, and
the word does not begin with `--=`. -/
structure Carries (word flag value : List Char) : Prop where
  /-- The word is a flag. -/
  marked : IsFlag word
  /-- The first equals sign stands between the flag and its value. -/
  equals : FirstAt ['='] word flag value
  /-- There are two characters in front of it. -/
  far : 2 ≤ flag.length
  /-- The flag is not the end of options. -/
  single : ¬"--=".toList <+: word

/-- A flag that carries no value. -/
def IsBare (word : List Char) : Prop :=
  IsFlag word ∧ ∀ flag value, ¬Carries word flag value

/-- A value, or the word that stands for an empty one. -/
def shownValue (value : List Char) : List Char :=
  if value.isEmpty then "VALUE".toList else value

theorem isFlag_iff : IsFlag word ↔ word.head?.any isMark = true := by
  cases word <;> simp [IsFlag, isMark]

instance (word : List Char) : Decidable (IsFlag word) :=
  decidable_of_iff _ isFlag_iff.symm

/-- What telling a word comes to. -/
inductive Told (word : List Char) : Word → Prop where
  /-- The word is no flag. -/
  | plain (h : ¬IsFlag word) : Told word (.plain word)
  /-- The word is a flag that carries no value. -/
  | bare (h : IsBare word) : Told word (.flag word)
  /-- The word is a flag with a value. -/
  | carrying {flag value : List Char} (h : Carries word flag value) :
      Told word (.valued flag (shownValue value))

/-- A word is told by its beginning and its first equals sign. -/
theorem told_classify (word : List Char) : Told word (classify word) := by
  unfold classify
  by_cases hmark : word.head?.any isMark = true
  · have hflag : IsFlag word := isFlag_iff.mpr hmark
    rw [if_pos hmark]
    split
    · next flag value hcut =>
      have hequals := firstAt_of_cut hcut
      have hsingle : (dropToken? "--=".toList word).isNone = true ↔ ¬"--=".toList <+: word := by
        rw [Option.isNone_iff_eq_none, dropToken?_eq_none_iff]
      by_cases hcarries : (1 < flag.length && (dropToken? "--=".toList word).isNone) = true
      · rw [if_pos hcarries]
        rw [Bool.and_eq_true, decide_eq_true_eq, hsingle] at hcarries
        exact .carrying ⟨hflag, hequals, hcarries.1, hcarries.2⟩
      · rw [if_neg hcarries]
        rw [Bool.and_eq_true, decide_eq_true_eq, hsingle] at hcarries
        refine .bare ⟨hflag, fun flag' value' h => ?_⟩
        obtain ⟨rfl, rfl⟩ := h.equals.unique hequals
        exact hcarries ⟨h.far, h.single⟩
    · next hcut =>
      exact .bare ⟨hflag, fun flag value h => not_found_of_cut_eq_none hcut h.equals.found⟩
  · rw [if_neg hmark]
    exact .plain fun h => hmark (isFlag_iff.mp h)

/-- What a word contributes to the flags. -/
def Word.flag? : Word → Option (List Char)
  | .flag flag | .valued flag _ => some flag
  | .plain _ => none

/-- What a word supplies as placeholder. -/
def Word.placeholder? : Word → Option (List Char)
  | .flag _ => none
  | .valued _ value => some value
  | .plain word => some word

/-- A flag is kept as it is, or in front of its equals sign if it carries a value. -/
inductive FlagOf (word : List Char) : List Char → Prop where
  /-- The flag carries nothing. -/
  | bare (h : IsBare word) : FlagOf word word
  /-- The flag carries a value. -/
  | carrying {flag value : List Char} (h : Carries word flag value) : FlagOf word flag

/-- A placeholder is supplied by a flag that carries it, or by a word that is no flag. -/
inductive Supplies (word : List Char) : List Char → Prop where
  /-- The flag carries a value, which may be empty. -/
  | carrying {flag value : List Char} (h : Carries word flag value) : Supplies word (shownValue value)
  /-- The word is no flag. -/
  | plain (h : ¬IsFlag word) : Supplies word word

/-- A word contributes what is kept of it if it is a flag, and nothing else. -/
theorem flag?_classify (word : List Char) :
    (¬IsFlag word ∧ (classify word).flag? = none) ∨
      ∃ flag, IsFlag word ∧ FlagOf word flag ∧ (classify word).flag? = some flag := by
  have htold := told_classify word
  generalize classify word = told at htold
  cases htold with
  | plain h => exact .inl ⟨h, rfl⟩
  | bare h => exact .inr ⟨word, h.1, .bare h, rfl⟩
  | carrying h => exact .inr ⟨_, h.marked, .carrying h, rfl⟩

/-- A word that is no flag is told as such. -/
theorem classify_of_not_isFlag (h : ¬IsFlag word) : classify word = .plain word := by
  rw [classify, if_neg fun hmark => h (isFlag_iff.mpr hmark)]

/-- A word contributes a flag exactly if it is one. -/
theorem isSome_flag?_classify : (classify word).flag?.isSome = true ↔ IsFlag word := by
  rcases flag?_classify word with ⟨hplain, hnone⟩ | ⟨flag, hflag, -, hsome⟩
  · rw [hnone]
    exact iff_of_false nofun hplain
  · rw [hsome]
    exact iff_of_true rfl hflag

/-- A word contributes a flag and supplies nothing exactly if it is a flag that carries nothing. -/
theorem isBare_classify :
    ((classify word).flag?.isSome && (classify word).placeholder?.isNone) = true ↔ IsBare word := by
  have htold := told_classify word
  generalize classify word = told at htold
  cases htold with
  | plain h => exact iff_of_false nofun fun hbare => h hbare.1
  | bare h => exact iff_of_true rfl h
  | carrying h => exact iff_of_false nofun fun hbare => hbare.2 _ _ h

/-- A word supplies what it is told to supply. -/
theorem placeholder?_classify {placeholder : List Char} :
    (classify word).placeholder? = some placeholder ↔ Supplies word placeholder := by
  have htold := told_classify word
  generalize classify word = told at htold
  cases htold with
  | plain hplain =>
    constructor
    · rintro ⟨⟩
      exact .plain hplain
    · rintro (h | h)
      · exact absurd h.marked hplain
      · rfl
  | bare hbare =>
    refine iff_of_false nofun ?_
    rintro (h | h)
    · exact hbare.2 _ _ h
    · exact h hbare.1
  | carrying hcarries =>
    constructor
    · rintro ⟨⟩
      exact .carrying hcarries
    · rintro (h | h)
      · obtain ⟨rfl, rfl⟩ := h.equals.unique hcarries.equals
        rfl
      · exact absurd hcarries.marked h

/-- Behind these words a placeholder is asked for: the last of them is a flag that carries nothing. -/
def Asks (front : List (List Char)) : Prop :=
  ∃ previous ∈ front.getLast?, IsBare previous

/-- A word that is no flag and stands where no placeholder is asked for. -/
def Stray (front : List (List Char)) (word : List Char) : Prop :=
  ¬IsFlag word ∧ ¬Asks front

/-- No word is astray, of words that stand behind others. -/
def Orderly (front words : List (List Char)) : Prop :=
  ∀ before word after, words = before ++ word :: after → ¬Stray (front ++ before) word

/-- A word is the first one that is astray, of words that stand behind others. -/
def FirstStray (front words : List (List Char)) (word : List Char) : Prop :=
  ∃ before after, words = before ++ word :: after ∧ Stray (front ++ before) word ∧ Orderly front before

/-- A placeholder is asked for behind a last word that is a flag and carries nothing. -/
theorem asks_concat : Asks (front ++ [word]) ↔ IsBare word := by
  simp [Asks]

/-- Words are orderly one after another. -/
theorem orderly_cons :
    Orderly front (word :: rest) ↔ ¬Stray front word ∧ Orderly (front ++ [word]) rest := by
  constructor
  · intro h
    refine ⟨by simpa using h [] word rest rfl, ?_⟩
    rintro before other after rfl
    simpa using h (word :: before) other after rfl
  · rintro ⟨hword, hrest⟩ before other after hsplit
    cases before with
    | nil =>
      obtain ⟨rfl, rfl⟩ := List.cons.inj hsplit
      simpa using hword
    | cons first before =>
      obtain ⟨rfl, htail⟩ := List.cons.inj hsplit
      simpa using hrest before other after htail

/-- The first word that is astray stands behind a word that is not. -/
theorem FirstStray.cons {other : List Char} (hword : ¬Stray front word)
    (h : FirstStray (front ++ [word]) rest other) : FirstStray front (word :: rest) other := by
  obtain ⟨before, after, rfl, hstray, horderly⟩ := h
  exact ⟨word :: before, after, rfl, by simpa using hstray, orderly_cons.mpr ⟨hword, horderly⟩⟩

/-- There is one first word that is astray at most. -/
theorem FirstStray.unique {other : List Char} (h : FirstStray front words word)
    (h' : FirstStray front words other) : word = other := by
  obtain ⟨before, after, rfl, hstray, horderly⟩ := h
  obtain ⟨before', after', hsplit, hstray', horderly'⟩ := h'
  rcases List.append_eq_append_iff.mp hsplit with ⟨between, rfl, hrest⟩ | ⟨between, rfl, hrest⟩
  · cases between with
    | nil => exact (List.cons.inj hrest).1
    | cons next between =>
      obtain ⟨rfl, -⟩ := List.cons.inj hrest
      exact absurd hstray (horderly' before word between rfl)
  · cases between with
    | nil => exact (List.cons.inj hrest).1.symm
    | cons next between =>
      obtain ⟨rfl, -⟩ := List.cons.inj hrest
      exact absurd hstray' (horderly before' other between rfl)

/-- Where a word is astray, words are not orderly. -/
theorem FirstStray.not_orderly (h : FirstStray front words word) : ¬Orderly front words := by
  obtain ⟨before, after, hsplit, hstray, -⟩ := h
  exact fun horderly => horderly before word after hsplit hstray

/-- What collecting words comes to: what each of them contributes, or the first one that is astray. -/
inductive Collected (front words : List (List Char)) :
    Except Problem (List (List Char) × Option (List Char)) → Prop where
  /-- No word is astray. -/
  | orderly (h : Orderly front words) :
      Collected front words (.ok ((words.map classify).filterMap Word.flag?,
        ((words.map classify).filterMap Word.placeholder?).getLast?))
  /-- A word is astray. -/
  | stray {word : List Char} (h : FirstStray front words word) :
      Collected front words (.error (.strayWord (String.ofList word)))

/-- A word that is not astray is collected before the words behind it. -/
theorem Collected.cons {result : Except Problem (List (List Char) × Option (List Char))}
    (hword : ¬Stray front word) (h : Collected (front ++ [word]) rest result) :
    Collected front (word :: rest) (result.map fun read =>
      ((classify word).flag?.toList ++ read.1, read.2.or (classify word).placeholder?)) := by
  have hfilter : ∀ f : Word → Option (List Char), ((word :: rest).map classify).filterMap f =
      (f (classify word)).toList ++ (rest.map classify).filterMap f := by
    intro f
    rw [List.map_cons, List.filterMap_cons]
    cases f (classify word) <;> rfl
  have hlast : ∀ supplied : Option (List Char), supplied.toList.getLast? = supplied := by
    rintro (_ | supplied) <;> rfl
  cases h with
  | orderly h =>
    have hcollected := Collected.orderly (orderly_cons.mpr ⟨hword, h⟩)
    rwa [hfilter, hfilter, List.getLast?_append, hlast] at hcollected
  | stray h => exact .stray (h.cons hword)

/-- A word is collected as what it contributes, before the words behind it; only a word that is no flag
has to stand behind a flag that carries nothing. -/
theorem collect_cons (told : Word) (rest : List Word) (h : told.flag?.isSome ∨ afterFlag = true) :
    collect afterFlag (told :: rest) =
      (collect (told.flag?.isSome && told.placeholder?.isNone) rest).map fun read =>
        (told.flag?.toList ++ read.1, read.2.or told.placeholder?) := by
  have hread : collect afterFlag (told :: rest) =
      collect (told.flag?.isSome && told.placeholder?.isNone) rest >>= fun read =>
        .ok (told.flag?.toList ++ read.1, read.2.or told.placeholder?) := by
    cases told with
    | flag flag =>
      rw [collect]
      simp [Word.flag?, Word.placeholder?]
    | valued flag value =>
      rw [collect]
      simp [Word.flag?, Word.placeholder?]
    | plain word =>
      obtain rfl := h.resolve_left Bool.false_ne_true
      rw [collect]
      simp [Word.flag?, Word.placeholder?]
  rw [hread]
  cases collect (told.flag?.isSome && told.placeholder?.isNone) rest <;> rfl

/-- Words are collected up to the first one that is astray. It has to be remembered whether a
placeholder is asked for, and nothing else about the words in front. -/
theorem collected_collect (front words : List (List Char)) (h : afterFlag = true ↔ Asks front) :
    Collected front words (collect afterFlag (words.map classify)) := by
  induction words generalizing front afterFlag with
  | nil => exact .orderly fun before word after hsplit => by simp at hsplit
  | cons word rest ih =>
    rw [List.map_cons]
    by_cases hstray : Stray front word
    · have hfalse : afterFlag = false := by
        rw [← Bool.not_eq_true, h]
        exact hstray.2
      rw [hfalse, classify_of_not_isFlag hstray.1]
      exact .stray ⟨[], rest, rfl, by simpa using hstray, by simp [Orderly]⟩
    · have hfits : (classify word).flag?.isSome ∨ afterFlag = true := by
        rw [isSome_flag?_classify, h]
        by_contra hnot
        exact hstray (not_or.mp hnot)
      rw [collect_cons _ _ hfits]
      refine (ih (front ++ [word]) ?_).cons hstray
      rw [isBare_classify, asks_concat]

/-- The flags are the words that are flags, in order, each in front of its equals sign. -/
theorem forall₂_flagOf (words : List (List Char)) :
    List.Forall₂ FlagOf (words.filter (IsFlag ·)) ((words.map classify).filterMap Word.flag?) := by
  induction words with
  | nil => exact .nil
  | cons word rest ih =>
    rw [List.map_cons]
    rcases flag?_classify word with ⟨hplain, hnone⟩ | ⟨flag, hflag, hof, hsome⟩
    · rw [List.filter_cons_of_neg (by simpa using hplain), List.filterMap_cons_none hnone]
      exact ih
    · rw [List.filter_cons_of_pos (by simpa using hflag), List.filterMap_cons_some hsome]
      exact .cons hof ih

/-- The placeholder is the last one that is supplied. -/
theorem getLast?_placeholders {words : List (List Char)} {placeholder : List Char} :
    ((words.map classify).filterMap Word.placeholder?).getLast? = some placeholder ↔
      ∃ before word after, words = before ++ word :: after ∧ Supplies word placeholder ∧
        ∀ later ∈ after, ∀ other, ¬Supplies later other := by
  have hnone : ∀ word, (classify word).placeholder? = none ↔ ∀ other, ¬Supplies word other := by
    intro word
    rw [Option.eq_none_iff_forall_ne_some]
    exact forall_congr' fun other => not_congr placeholder?_classify
  rw [List.filterMap_map, List.getLast?_filterMap, List.findSome?_eq_some_iff]
  simp only [Function.comp_apply, placeholder?_classify, hnone]
  constructor
  · rintro ⟨after, word, before, hsplit, hsupplies, hothers⟩
    refine ⟨before.reverse, word, after.reverse, ?_, hsupplies, fun later hlater => ?_⟩
    · rw [← List.reverse_reverse words, hsplit]
      simp
    · exact hothers later (List.mem_reverse.mp hlater)
  · rintro ⟨before, word, after, rfl, hsupplies, hothers⟩
    exact ⟨after.reverse, word, before.reverse, by simp, hsupplies,
      fun later hlater => hothers later (List.mem_reverse.mp hlater)⟩

/-- A word that is written has no blanks, and something is left of it. -/
theorem of_mem_writtenWords {text : List Char} (h : word ∈ writtenWords text) :
    word ≠ [] ∧ ∀ c ∈ word, isBlank c = false := by
  obtain ⟨hmem, hne⟩ := List.mem_filter.mp h
  obtain ⟨whole, hwhole, rfl⟩ := List.mem_map.mp hmem
  have hsubset : dropComma whole ⊆ whole := by
    unfold dropComma
    split_ifs
    · exact List.dropLast_subset whole
    · exact List.Subset.refl whole
  exact ⟨by simpa using hne, fun c hc => (of_mem_words hwhole).2 c (hsubset hc)⟩

/-- What is kept of a flag is a word. -/
theorem FlagOf.isWord (h : FlagOf word flag) (hword : word ≠ [] ∧ ∀ c ∈ word, isBlank c = false) :
    flag ≠ [] ∧ ∀ c ∈ flag, isBlank c = false := by
  cases h with
  | bare => exact hword
  | carrying h =>
    refine ⟨List.ne_nil_of_length_pos (Nat.lt_of_lt_of_le Nat.two_pos h.far), fun c hc => ?_⟩
    refine hword.2 c ?_
    rw [h.equals.eq, List.append_assoc]
    exact List.mem_append_left _ hc

/-- The text of an option begins with a flag, which stays one without its comma. -/
theorem exists_writtenWords_cons {text : List Char} (h : isOptionText text = true) :
    ∃ word others, writtenWords text = word :: others ∧ IsFlag word := by
  unfold isOptionText at h
  split at h
  · next mark c behind =>
    have hmark : mark = '-' ∨ mark = '/' := by
      simpa [isMark] using (Bool.and_eq_true_iff.mp h).1
    have hvisible : isBlank mark = false := by
      rcases hmark with rfl | rfl <;> decide
    have hcomma : mark ≠ ',' := by
      rcases hmark with rfl | rfl <;> decide
    obtain ⟨word, others, hwords⟩ := exists_words_cons hvisible (c :: behind)
    have hkept : ∃ left, dropComma (mark :: word) = mark :: left := by
      unfold dropComma
      split_ifs with hlast
      · cases word with
        | nil => exact absurd (Option.some.inj hlast) hcomma
        | cons d word => exact ⟨(d :: word).dropLast, rfl⟩
      · exact ⟨word, rfl⟩
    obtain ⟨left, hleft⟩ := hkept
    refine ⟨mark :: left, (others.map dropComma).filter (!·.isEmpty), ?_, mark, rfl, hmark⟩
    rw [writtenWords, hwords, List.map_cons, hleft, List.filter_cons_of_pos rfl]
  · cases h

/-- The words of a text are collected, with nothing in front of them. -/
theorem collected_parse (text : List Char) : Collected [] (writtenWords text) (parse text) :=
  collected_collect [] (writtenWords text) (iff_of_false Bool.false_ne_true nofun)

/-- A text is read if its words are orderly, and only then. -/
theorem parse_ok_iff {text : List Char} {read : List (List Char) × Option (List Char)} :
    parse text = .ok read ↔ Orderly [] (writtenWords text) ∧
      read = (((writtenWords text).map classify).filterMap Word.flag?,
        (((writtenWords text).map classify).filterMap Word.placeholder?).getLast?) := by
  have hcollected := collected_parse text
  generalize parse text = result at hcollected
  cases hcollected with
  | orderly horderly => simp [horderly, eq_comm]
  | stray hstray => exact iff_of_false nofun fun h => hstray.not_orderly h.1

/-- A text is refused because of the first word that is astray. -/
theorem parse_error_iff {text : List Char} {problem : Problem} :
    parse text = .error problem ↔
      ∃ word, FirstStray [] (writtenWords text) word ∧
        problem = .strayWord (String.ofList word) := by
  have hcollected := collected_parse text
  generalize parse text = result at hcollected
  cases hcollected with
  | orderly horderly =>
    refine iff_of_false nofun ?_
    rintro ⟨word, hstray, -⟩
    exact hstray.not_orderly horderly
  | stray hstray =>
    constructor
    · rintro ⟨⟩
      exact ⟨_, hstray, rfl⟩
    · rintro ⟨word, hfirst, rfl⟩
      rw [hstray.unique hfirst]

/-- Words are orderly if every word that is no flag stands directly behind one that carries nothing. -/
theorem orderly_nil_iff :
    Orderly [] words ↔ ∀ before word after, words = before ++ word :: after → ¬IsFlag word →
      ∃ earlier previous, before = earlier ++ [previous] ∧ IsBare previous := by
  have hasks : ∀ before, Asks before ↔
      ∃ earlier previous, before = earlier ++ [previous] ∧ IsBare previous := by
    intro before
    simp only [Asks, Option.mem_def, List.getLast?_eq_some_iff]
    constructor
    · rintro ⟨previous, ⟨earlier, hbefore⟩, hbare⟩
      exact ⟨earlier, previous, hbefore, hbare⟩
    · rintro ⟨earlier, previous, hbefore, hbare⟩
      exact ⟨previous, ⟨earlier, hbefore⟩, hbare⟩
  simp only [Orderly, Stray, List.nil_append, not_and, not_not, hasks]

/-- Exactly the texts are read in which every word that is no flag stands directly behind a flag that
carries no value. Reading gives the flags in order, each in front of its equals sign if it carries a
value, and the placeholder that is supplied last; any other text is refused because of the first word
that is astray. The flags, with spaces between them, are read as these flags again, and the text of an
option has one at least. -/
theorem parse_flagWords (text : List Char) :
    ((∃ read, parse text = .ok read) ↔
      ∀ before word after, writtenWords text = before ++ word :: after → ¬IsFlag word →
        ∃ earlier previous, before = earlier ++ [previous] ∧ IsBare previous) ∧
    (∀ flags placeholder, parse text = .ok (flags, placeholder) →
      List.Forall₂ FlagOf ((writtenWords text).filter (IsFlag ·)) flags ∧
      (∀ last, placeholder = some last ↔ ∃ before word after,
        writtenWords text = before ++ word :: after ∧ Supplies word last ∧
          ∀ later ∈ after, ∀ other, ¬Supplies later other) ∧
      Text.words ([' '].intercalate flags) = flags ∧
      (isOptionText text = true → flags ≠ [] ∧
        Draft.readFlags (some (String.ofList ([' '].intercalate flags))) =
          .ok (flags.map String.ofList))) ∧
    ∀ problem, parse text = .error problem ↔
      ∃ word, FirstStray [] (writtenWords text) word ∧
        problem = .strayWord (String.ofList word) := by
  refine ⟨?_, ?_, fun problem => parse_error_iff⟩
  · simp only [parse_ok_iff, exists_and_left, exists_eq, and_true, orderly_nil_iff]
  intro flags placeholder h
  obtain ⟨-, hread⟩ := parse_ok_iff.mp h
  obtain ⟨rfl, rfl⟩ := Prod.mk.inj hread
  have hflags := forall₂_flagOf (writtenWords text)
  have hwords : ∀ flag ∈ ((writtenWords text).map classify).filterMap Word.flag?,
      flag ≠ [] ∧ ∀ c ∈ flag, isBlank c = false := by
    intro flag hm
    obtain ⟨told, htold, hsome⟩ := List.mem_filterMap.mp hm
    obtain ⟨word, hword, rfl⟩ := List.mem_map.mp htold
    rcases flag?_classify word with ⟨-, hnone⟩ | ⟨kept, -, hof, hkept⟩
    · cases hnone.symm.trans hsome
    · cases hkept.symm.trans hsome
      exact hof.isWord (of_mem_writtenWords hword)
  have hagain := words_intercalate hwords
  refine ⟨hflags, fun last => getLast?_placeholders, hagain, fun hoption => ?_⟩
  have hne : ((writtenWords text).map classify).filterMap Word.flag? ≠ [] := by
    intro hnone
    obtain ⟨word, others, hfirst, hflag⟩ := exists_writtenWords_cons hoption
    rw [hnone, List.forall₂_nil_right_iff, List.filter_eq_nil_iff, hfirst] at hflags
    exact hflags word List.mem_cons_self (decide_eq_true hflag)
  refine ⟨hne, ?_⟩
  rw [Draft.readFlags, wordsOf, String.toList_ofList, hagain]
  split
  · next hnone => exact absurd (List.map_eq_nil_iff.mp hnone) hne
  · rfl

/-- Flags of all sorts, with commas behind and between them. The first two do not carry what stands
behind their equals signs. -/
def mixedFlags : String :=
  "-= --=x, -r MIN-MAX , --range=, -o FILE, /o=A=B, /?=c"

/-- A text that is read, with four placeholders of which the last one is kept; and a text with two words
that are astray, of which the first one is named. -/
theorem parse_flagWords_mixed :
    (∃ flags placeholder, parse mixedFlags.toList = .ok (flags, placeholder) ∧
      flags.map String.ofList = ["-=", "--=x", "-r", "--range", "-o", "/o", "/?"] ∧
      placeholder.map String.ofList = some "c" ∧
      Text.words ([' '].intercalate flags) = flags ∧
      Draft.readFlags (some (String.ofList ([' '].intercalate flags))) =
        .ok ["-=", "--=x", "-r", "--range", "-o", "/o", "/?"]) ∧
    parse "-a A B --b=C D".toList = .error (.strayWord "B") ∧
    ∃ word, FirstStray [] (writtenWords "-a A B --b=C D".toList) word ∧ String.ofList word = "B" := by
  have hmixed : (parse mixedFlags.toList).toOption.map (fun read =>
      (read.1.map String.ofList, read.2.map String.ofList)) =
        some (["-=", "--=x", "-r", "--range", "-o", "/o", "/?"], some "c") := by
    decide +kernel
  have hstray : parse "-a A B --b=C D".toList = .error (.strayWord "B") := by decide +kernel
  obtain ⟨⟨flags, placeholder⟩, hread, hshown⟩ := Outcome.exists_ok_of_toOption hmixed
  obtain ⟨hflags, hplaceholder⟩ := Prod.mk.inj hshown
  obtain ⟨-, -, hagain, hoption⟩ := (parse_flagWords mixedFlags.toList).2.1 flags placeholder hread
  obtain ⟨-, hnormal⟩ := hoption (by decide +kernel)
  dsimp only at hflags hplaceholder
  rw [hflags] at hnormal
  obtain ⟨word, hfirst, hnamed⟩ := ((parse_flagWords "-a A B --b=C D".toList).2.2 _).mp hstray
  exact ⟨⟨flags, placeholder, hread, hflags, hplaceholder, hagain, hnormal⟩, hstray, word, hfirst,
    (Problem.strayWord.inj hnamed).symm⟩

end Flag

end AnnotatedHelp
