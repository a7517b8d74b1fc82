import Mathlib
import AnnotatedHelp.Constraint
import AnnotatedHelp.Proofs.ConstraintNotation
import AnnotatedHelp.Proofs.Occurrence
import AnnotatedHelp.Proofs.Outcome

/-!
# The words of a list of constraints

Whether a blank ends a word depends on every quote in front of it: one behind an odd number of quotes
belongs to the word. So the fields of a text are told by places, as the longest stretches without a
blank outside quotes, and reading one more character at the front moves every place by one. Which words
are no constraint is told by their characters alone: brackets around `..` and nothing else.
-/

namespace AnnotatedHelp

open Outcome Text

namespace Constraint

/-- Whether a text is inside quotes behind some characters: every quote leads in or out. The first
argument tells whether it starts there. -/
def insideBehind (inside : Bool) (front : List Char) : Bool :=
  inside ^^ decide (Odd (front.count '"'))

/-- Whether a blank outside quotes stands at a place of a text. The first argument tells whether the
text starts inside quotes. -/
def isGap (inside : Bool) (text : List Char) (place : Nat) : Bool :=
  text[place]?.any isBlank && !insideBehind inside (text.take place)

/-- A text without its blanks outside quotes. -/
def withoutGaps (inside : Bool) (text : List Char) : List Char :=
  (text.zipIdx.filter fun entry => !isGap inside text entry.2).map (·.1)

section Places

variable {inside next : Bool} {c : Char}

/-- Behind one character more there is one quote more, or as many. -/
theorem insideBehind_cons (inside : Bool) (c : Char) (front : List Char) :
    insideBehind inside (c :: front) = insideBehind (if c = '"' then !inside else inside) front := by
  unfold insideBehind
  by_cases hquote : c = '"'
  · rw [if_pos hquote, hquote, List.count_cons_self]
    simp only [Nat.odd_add_one, decide_not, Bool.xor_not, Bool.not_xor]
  · rw [if_neg hquote, List.count_cons_of_ne hquote]

/-- A character that ends a field is a blank outside quotes, and no quote. -/
theorem isBlank_of_leaves (h : stays? inside c = none) :
    inside = false ∧ isBlank c = true ∧ c ≠ '"' := by
  unfold stays? at h
  split at h
  · next hleaves =>
    obtain ⟨hblank, hinside⟩ := Bool.and_eq_true_iff.mp hleaves
    refine ⟨by simpa using hinside, hblank, ?_⟩
    rintro rfl
    cases hblank
  · cases h

/-- A character that stays in a field is no blank outside quotes, and leads in or out if it is a
quote. -/
theorem isBlank_of_stays (h : stays? inside c = some next) :
    (isBlank c && !inside) = false ∧ (if c = '"' then !inside else inside) = next := by
  unfold stays? at h
  split at h
  · cases h
  · next hstays =>
    cases h
    exact ⟨by simpa using hstays, rfl⟩

/-- A text ends inside quotes as its number of quotes says. -/
theorem quotedFields_final (inside : Bool) (text : List Char) :
    (quotedFields inside text).2 = insideBehind inside text := by
  induction text generalizing inside with
  | nil => simp [quotedFields, insideBehind]
  | cons c text ih =>
    rw [insideBehind_cons]
    cases hstays : stays? inside c with
    | none =>
      obtain ⟨rfl, -, hquote⟩ := isBlank_of_leaves hstays
      rw [(quotedFields_of_leaves hstays text).2, if_neg hquote]
      exact ih false
    | some next =>
      rw [quotedFields_of_stays hstays, (isBlank_of_stays hstays).2]
      exact ih next

/-- The places behind the first character are those of the rest. -/
theorem isGap_succ (inside : Bool) (c : Char) (text : List Char) (place : Nat) :
    isGap inside (c :: text) (place + 1) =
      isGap (if c = '"' then !inside else inside) text place := by
  rw [isGap, isGap, List.getElem?_cons_succ, List.take_succ_cons, insideBehind_cons]

/-- A character that ends a field is a gap. -/
theorem isGap_of_leaves (h : stays? inside c = none) (text : List Char) :
    isGap inside (c :: text) 0 = true ∧
      ∀ place, isGap inside (c :: text) (place + 1) = isGap false text place := by
  obtain ⟨rfl, hblank, hquote⟩ := isBlank_of_leaves h
  refine ⟨by simp [isGap, insideBehind, hblank], fun place => ?_⟩
  rw [isGap_succ, if_neg hquote]

/-- A character that stays in a field is none. -/
theorem isGap_of_stays (h : stays? inside c = some next) (text : List Char) :
    isGap inside (c :: text) 0 = false ∧
      ∀ place, isGap inside (c :: text) (place + 1) = isGap next text place := by
  obtain ⟨hstays, hnext⟩ := isBlank_of_stays h
  refine ⟨by simpa [isGap, insideBehind] using hstays, fun place => ?_⟩
  rw [isGap_succ, hnext]

/-- The fields of a text hold all of it but the blanks outside quotes. -/
theorem flatten_quotedFields (inside : Bool) (text : List Char) :
    (quotedFields inside text).1.flatten = withoutGaps inside text := by
  induction text generalizing inside with
  | nil => rfl
  | cons c text ih =>
    have hrest : ∀ next, (∀ place, isGap inside (c :: text) (place + 1) = isGap next text place) →
        ((text.zipIdx 1).filter fun entry => !isGap inside (c :: text) entry.2).map (·.1) =
          withoutGaps next text := by
      intro next hplaces
      rw [withoutGaps, List.zipIdx_succ, List.filter_map, List.map_map]
      simp only [Function.comp_def, hplaces]
    rw [withoutGaps, List.zipIdx_cons]
    cases hstays : stays? inside c with
    | none =>
      obtain ⟨hgap, hplaces⟩ := isGap_of_leaves hstays text
      rw [(quotedFields_of_leaves hstays text).2, List.filter_cons_of_neg (by simp [hgap]),
        hrest false hplaces]
      exact ih false
    | some next =>
      obtain ⟨hgap, hplaces⟩ := isGap_of_stays hstays text
      obtain ⟨first, others, hfields⟩ := List.exists_cons_of_ne_nil (quotedFields_ne_nil next text)
      rw [quotedFields_of_stays hstays, List.filter_cons_of_pos (by simp [hgap]), List.map_cons,
        hrest next hplaces, ← ih next, hfields]
      rfl

end Places

/-- A stretch of a text that no gap interrupts and that cannot be made longer: the text or a gap ends
on both sides. -/
structure IsField (gap : Nat → Bool) (text : List Char) (start : Nat) (field : List Char) : Prop where
  /-- The stretch starts in the text. -/
  reached : start ≤ text.length
  /-- The field stands there. -/
  found : field <+: text.drop start
  /-- No gap is inside. -/
  whole : ∀ place, start ≤ place → place < start + field.length → gap place = false
  /-- A gap is in front, unless the text starts there. -/
  left : ∀ place, place + 1 = start → gap place = true
  /-- A gap is behind, unless the text ends there. -/
  right : start + field.length = text.length ∨ gap (start + field.length) = true

/-- Fields with their places, where one character stands between a field and the next. -/
def placed : (start : Nat) → List (List Char) → List (Nat × List Char)
  | _, [] => []
  | start, field :: fields => (start, field) :: placed (start + field.length + 1) fields

section Fields

variable {gap : Nat → Bool} {inside : Bool} {c : Char} {text field : List Char}
  {fields : List (List Char)} {start : Nat}

/-- The fields are left as they are. -/
theorem map_snd_placed (start : Nat) (fields : List (List Char)) :
    (placed start fields).map (·.2) = fields := by
  induction fields generalizing start with
  | nil => rfl
  | cons field fields ih => rw [placed, List.map_cons, ih]

/-- Fields are placed behind the place where the first one starts. -/
theorem le_of_mem_placed {place : Nat} (h : (place, field) ∈ placed start fields) :
    start ≤ place := by
  induction fields generalizing start with
  | nil => cases h
  | cons first fields ih =>
    rcases List.mem_cons.mp h with hfirst | hrest
    · cases hfirst
      exact le_refl place
    · have := ih hrest
      omega

/-- Fields are placed one behind the other. -/
theorem placed_ascending (start : Nat) (fields : List (List Char)) :
    (placed start fields).Pairwise (·.1 < ·.1) := by
  induction fields generalizing start with
  | nil => exact .nil
  | cons field fields ih =>
    refine List.pairwise_cons.mpr ⟨?_, ih _⟩
    rintro ⟨place, other⟩ hother
    have hle := le_of_mem_placed hother
    change start < place
    omega

/-- Where one character more stands in front, every place is one further. -/
theorem mem_placed_succ {place : Nat} :
    (place, field) ∈ placed (start + 1) fields ↔
      ∃ before, place = before + 1 ∧ (before, field) ∈ placed start fields := by
  induction fields generalizing start with
  | nil => simp [placed]
  | cons first fields ih =>
    have hnext : start + 1 + first.length + 1 = start + first.length + 1 + 1 := by omega
    simp only [placed, List.mem_cons, hnext, ih, Prod.mk.injEq]
    constructor
    · rintro (⟨rfl, rfl⟩ | ⟨before, rfl, hm⟩)
      · exact ⟨start, rfl, .inl ⟨rfl, rfl⟩⟩
      · exact ⟨before, rfl, .inr hm⟩
    · rintro ⟨before, rfl, ⟨rfl, rfl⟩ | hm⟩
      · exact .inl ⟨rfl, rfl⟩
      · exact .inr ⟨before, rfl, hm⟩

/-- A text without characters is one field without characters. -/
theorem isField_nil : IsField gap [] start field ↔ start = 0 ∧ field = [] := by
  constructor
  · intro h
    exact ⟨Nat.le_zero.mp h.reached, by simpa using h.found⟩
  · rintro ⟨rfl, rfl⟩
    exact ⟨le_refl 0, List.nil_prefix, fun _ _ hlt => absurd hlt (Nat.not_lt_zero _), nofun, .inl rfl⟩

/-- A gap leaves nothing of the field in front of it. -/
theorem isField_zero_of_gap (hgap : gap 0 = true) :
    IsField gap (c :: text) 0 field ↔ field = [] := by
  constructor
  · intro h
    by_contra hne
    have hlength := List.length_pos_iff.mpr hne
    cases hgap.symm.trans (h.whole 0 (le_refl 0) (by omega))
  · rintro rfl
    exact ⟨Nat.zero_le _, List.nil_prefix, fun _ _ hlt => absurd hlt (Nat.not_lt_zero _), nofun,
      .inr hgap⟩

/-- A character that is no gap is the first one of the field that starts with it. -/
theorem isField_zero_of_not_gap (hgap : gap 0 = false) :
    IsField gap (c :: text) 0 field ↔
      ∃ rest, field = c :: rest ∧ IsField (fun place => gap (place + 1)) text 0 rest := by
  constructor
  · intro h
    cases field with
    | nil =>
      rcases h.right with hend | hright
      · cases hend
      · cases hgap.symm.trans hright
    | cons d rest =>
      obtain ⟨rfl, hrest⟩ := List.cons_prefix_cons.mp h.found
      refine ⟨rest, rfl, Nat.zero_le _, hrest, fun place _ hlt => ?_, nofun, ?_⟩
      · refine h.whole (place + 1) (Nat.zero_le _) ?_
        rw [List.length_cons]
        omega
      · simpa using h.right
  · rintro ⟨rest, rfl, h⟩
    refine ⟨Nat.zero_le _, List.cons_prefix_cons.mpr ⟨rfl, h.found⟩, fun place _ hlt => ?_, nofun, ?_⟩
    · cases place with
      | zero => exact hgap
      | succ place =>
        rw [List.length_cons] at hlt
        exact h.whole place (Nat.zero_le _) (by omega)
    · simpa using h.right

/-- A field that starts behind the first character is one of the rest, and one that starts right
behind it needs a gap there. -/
theorem isField_succ :
    IsField gap (c :: text) (start + 1) field ↔
      (start = 0 → gap 0 = true) ∧ IsField (fun place => gap (place + 1)) text start field := by
  have hlength : start + 1 + field.length = start + field.length + 1 := by omega
  constructor
  · intro h
    refine ⟨fun hstart => h.left 0 (by omega), Nat.le_of_succ_le_succ h.reached, h.found,
      fun place hle hlt => h.whole (place + 1) (by omega) (by omega),
      fun place hplace => h.left (place + 1) (by omega), ?_⟩
    simpa [hlength] using h.right
  · rintro ⟨hfirst, h⟩
    refine ⟨Nat.succ_le_succ h.reached, h.found, fun place hle hlt => ?_, fun place hplace => ?_, ?_⟩
    · cases place with
      | zero => omega
      | succ place => exact h.whole place (by omega) (by omega)
    · cases place with
      | zero => exact hfirst (by omega)
      | succ place => exact h.left place (by omega)
    · simpa [hlength] using h.right

/-- A text is cut into its fields, each at its place. -/
theorem mem_placed_iff :
    (start, field) ∈ placed 0 (quotedFields inside text).1 ↔
      IsField (isGap inside text) text start field := by
  induction text generalizing inside start field with
  | nil => simp [quotedFields, placed, isField_nil]
  | cons c text ih =>
    cases hstays : stays? inside c with
    | none =>
      obtain ⟨hgap, hplaces⟩ := isGap_of_leaves hstays text
      have hrest := funext hplaces
      rw [(quotedFields_of_leaves hstays text).2, placed, List.mem_cons, Prod.mk.injEq,
        List.length_nil, mem_placed_succ]
      cases start with
      | zero => simp [isField_zero_of_gap hgap]
      | succ start => simp [isField_succ, hgap, hrest, ih]
    | some next =>
      obtain ⟨hgap, hplaces⟩ := isGap_of_stays hstays text
      have hrest := funext hplaces
      obtain ⟨first, others, hfields⟩ := List.exists_cons_of_ne_nil (quotedFields_ne_nil next text)
      have hnone : ∀ stretch, (0, stretch) ∉ placed (first.length + 1) others := by
        intro stretch hm
        cases le_of_mem_placed hm
      rw [quotedFields_of_stays hstays, hfields]
      change (start, field) ∈ placed 0 ((c :: first) :: others) ↔ _
      rw [placed, List.mem_cons, List.length_cons, ← Nat.add_assoc 0 first.length 1, mem_placed_succ]
      cases start with
      | zero =>
        simp [isField_zero_of_not_gap hgap, hrest, ← ih, hfields, placed, hnone]
      | succ start =>
        cases start with
        | zero => simp [isField_succ, hgap, hnone]
        | succ start => simp [isField_succ, hrest, ← ih, hfields, placed]

end Fields

/-- Words at their places in a text: the fields that are not empty. -/
structure AreWords (text : List Char) (words : List (Nat × List Char)) : Prop where
  /-- They are in order. -/
  ascending : words.Pairwise (·.1 < ·.1)
  /-- They are the longest stretches without a blank outside quotes, unless there is nothing between
  two such blanks. -/
  fields : ∀ start word,
    (start, word) ∈ words ↔ IsField (isGap false text) text start word ∧ word ≠ []
  /-- Together they are the text without these blanks. -/
  characters : (words.map (·.2)).flatten = withoutGaps false text

section Words

variable {text : List Char}

/-- A text with an open quote is refused. -/
theorem readWords_of_odd (h : Odd (text.count '"')) :
    ∃ word, readWords text = .error (.unterminatedQuote word) := by
  have hfinal := quotedFields_final false text
  rw [insideBehind, decide_eq_true h] at hfinal
  unfold readWords
  split
  · exact ⟨_, rfl⟩
  · next fields hfields =>
    rw [hfields] at hfinal
    cases hfinal

/-- Any other text has words. -/
theorem readWords_of_even (h : ¬Odd (text.count '"')) :
    ∃ words, AreWords text words ∧ readWords text = .ok (words.map (·.2)) := by
  have hfinal := quotedFields_final false text
  rw [insideBehind, decide_eq_false h] at hfinal
  have hflatten := flatten_quotedFields false text
  have hplaced : ∀ start field, (start, field) ∈ placed 0 (quotedFields false text).1 ↔
      IsField (isGap false text) text start field := fun _ _ => mem_placed_iff
  unfold readWords
  split
  · next fields hfields =>
    rw [hfields] at hfinal
    cases hfinal
  · next fields hfields =>
    rw [hfields] at hflatten hplaced
    have hwords : ((placed 0 fields).filter fun word => !word.2.isEmpty).map (·.2) =
        fields.filter (!·.isEmpty) := by
      conv_rhs => rw [← map_snd_placed 0 fields, List.filter_map]
      rfl
    refine ⟨(placed 0 fields).filter fun word => !word.2.isEmpty, ⟨?_, ?_, ?_⟩, ?_⟩
    · exact (placed_ascending 0 fields).filter _
    · intro start word
      rw [List.mem_filter, hplaced]
      simp
    · rw [hwords, List.flatten_filter_not_isEmpty, hflatten]
    · rw [hwords]

end Words

/-- Opening brackets, dots and closing brackets. -/
def IsUnlimited (word : List Char) : Prop :=
  ∃ opening closing, word = opening ++ "..".toList ++ closing ∧
    (∀ c ∈ opening, isOpening c = true) ∧ ∀ c ∈ closing, isClosing c = true

/-- What holds of a constraint that is read. -/
structure IsSound (constraint : Constraint) : Prop where
  /-- A range has a limit. -/
  limited : ∀ lower upper, constraint = .range lower upper → lower ≠ none ∨ upper ≠ none
  /-- Every literal has a character. -/
  literals : ∀ literal ∈ constraint.literals, literal ≠ ""
  /-- There are no dots in a lower limit. -/
  lower : ∀ limit upper, constraint = .range (some limit) upper →
    ¬"..".toList <:+: limit.literal.toList
  /-- The lowest admitted literal is one of the literals. -/
  inclusive : ∀ literal, constraint.inclusiveLower? = some literal → literal ∈ constraint.literals

section Constraints

variable {word before after : List Char} {constraint : Constraint} {cause : ConstraintError}

/-- There is no lower limit where only brackets are read. -/
theorem lowerLimit?_eq_none_iff : lowerLimit? before = none ↔ ∀ c ∈ before, isOpening c = true := by
  rw [← List.dropWhile_eq_nil_iff]
  rcases lowerLimit?_cases before with ⟨hnil, hnone⟩ | ⟨bracket, -, hne, -, hsome⟩
  · exact iff_of_true hnone hnil
  · exact iff_of_false (by rw [hsome]; exact nofun) hne

/-- There is no upper limit where only brackets are read. -/
theorem upperLimit?_eq_none_iff : upperLimit? after = none ↔ ∀ c ∈ after, isClosing c = true := by
  rw [← List.rdropWhile_eq_nil_iff]
  rcases upperLimit?_cases after with ⟨hnil, hnone⟩ | ⟨bracket, -, hne, -, hsome⟩
  · exact iff_of_true hnone hnil
  · exact iff_of_false (by rw [hsome]; exact nofun) hne

/-- The dots of a range without limits are its first ones, and it has no quotes. -/
theorem IsUnlimited.firstAt (h : IsUnlimited word) :
    word.head? ≠ some '"' ∧ ∃ before after, FirstAt "..".toList word before after ∧
      lowerLimit? before = none ∧ upperLimit? after = none := by
  obtain ⟨opening, closing, rfl, hopening, hclosing⟩ := h
  have hdot : '.' ∉ opening := fun hm => absurd (hopening '.' hm) (by decide)
  have hfirst : FirstAt "..".toList (opening ++ "..".toList ++ closing) opening closing :=
    firstAt_behind eq_dot_of_mem_dots (fun hfound => hdot (hfound.subset (by decide)))
      (fun hlast => hdot (List.mem_of_getLast? hlast)) closing
  refine ⟨?_, opening, closing, hfirst, lowerLimit?_eq_none_iff.mpr hopening,
    upperLimit?_eq_none_iff.mpr hclosing⟩
  cases opening with
  | nil => exact nofun
  | cons c opening =>
    intro hquote
    obtain rfl : c = '"' := Option.some.inj hquote
    cases hopening '"' List.mem_cons_self

/-- A word is no constraint if it is only brackets around dots, and in no other case. -/
theorem ofWord_error_iff :
    ofWord word = .error cause ↔ IsUnlimited word ∧ cause = .emptyRange (String.ofList word) := by
  constructor
  · intro h
    unfold ofWord at h
    split at h
    · cases h
    · split at h
      · cases h
      · next before after hcut =>
        split at h
        · next hlower hupper =>
          cases h
          exact ⟨⟨before, after, eq_append_of_cut hcut, lowerLimit?_eq_none_iff.mp hlower,
            upperLimit?_eq_none_iff.mp hupper⟩, rfl⟩
        · cases h
  · rintro ⟨hunlimited, rfl⟩
    obtain ⟨hquote, before, after, hfirst, hlower, hupper⟩ := hunlimited.firstAt
    have hplain : ¬isQuoted word = true := by
      simp [isQuoted, hquote]
    rw [ofWord, if_neg hplain, cut_of_firstAt hfirst]
    simp only [hlower, hupper]

/-- The lowest admitted literal is always one of the literals. -/
theorem inclusiveLower?_mem {literal : String} (h : constraint.inclusiveLower? = some literal) :
    literal ∈ constraint.literals := by
  cases constraint with
  | exact other =>
    cases h
    exact List.mem_singleton_self literal
  | range lower upper =>
    cases lower with
    | none => cases h
    | some limit =>
      rw [inclusiveLower?] at h
      split at h
      · cases h
        exact List.mem_cons_self
      · cases h

/-- A lower limit is what stands in front of the dots, behind its brackets. -/
theorem literal_of_lowerLimit? {limit : Limit} (h : lowerLimit? before = some limit) :
    limit.literal ≠ "" ∧ limit.literal.toList <:+ before := by
  rcases lowerLimit?_cases before with ⟨-, hnone⟩ | ⟨bracket, -, hne, -, hsome⟩
  · cases hnone.symm.trans h
  · cases hsome.symm.trans h
    refine ⟨by simpa using hne, ?_⟩
    rw [String.toList_ofList]
    exact List.dropWhile_suffix isOpening

/-- An upper limit has a literal. -/
theorem literal_of_upperLimit? {limit : Limit} (h : upperLimit? after = some limit) :
    limit.literal ≠ "" := by
  rcases upperLimit?_cases after with ⟨-, hnone⟩ | ⟨bracket, -, hne, -, hsome⟩
  · cases hnone.symm.trans h
  · cases hsome.symm.trans h
    simpa using hne

/-- What a word is read as is sound. -/
theorem isSound_of_ofWord (hne : word ≠ []) (h : ofWord word = .ok constraint) :
    IsSound constraint := by
  rcases ofWord_ok h with rfl | ⟨before, after, hfirst, rfl, hlimits⟩
  · refine ⟨nofun, ?_, nofun, fun _ => inclusiveLower?_mem⟩
    exact List.forall_mem_singleton.mpr (by simpa using hne)
  · refine ⟨?_, ?_, ?_, fun _ => inclusiveLower?_mem⟩
    · rintro lower upper ⟨⟩
      exact not_and_or.mp hlimits
    · rw [literals, List.map_append, List.forall_mem_append]
      constructor
      · simpa using fun limit hlower => (literal_of_lowerLimit? hlower).1
      · simpa using fun limit hupper => literal_of_upperLimit? hupper
    · intro limit upper hrange hdots
      obtain ⟨hlower, -⟩ := Constraint.range.inj hrange
      exact hfirst.not_found_before (by decide)
        (hdots.trans (literal_of_lowerLimit? hlower).2.isInfix)

end Constraints

/-- What the words of a text say about its reading. -/
structure IsReading (words : List (List Char))
    (result : Except ConstraintError (List Constraint)) : Prop where
  /-- The text is refused for its first word that is only brackets around dots. -/
  refused : ∀ name, result = .error (.emptyRange name) ↔
    ∃ before word after, words = before ++ word :: after ∧
      (∀ other ∈ before, ¬IsUnlimited other) ∧ IsUnlimited word ∧ name = String.ofList word
  /-- Where there is no such word, the text is read. -/
  accepted : (∃ constraints, result = .ok constraints) ↔ ∀ word ∈ words, ¬IsUnlimited word
  /-- Every word gives one constraint, in the same order. -/
  constraints : ∀ constraints, result = .ok constraints →
    List.Forall₂ (fun word constraint => ofWord word = .ok constraint) words constraints ∧
      ∀ constraint ∈ constraints, IsSound constraint

/-- The words of a text decide what it is read as. -/
theorem isReading_mapM {words : List (List Char)} (hne : ∀ word ∈ words, word ≠ []) :
    IsReading words (words.mapM ofWord) := by
  have hread : ∀ word, (∃ constraint, ofWord word = .ok constraint) ↔ ¬IsUnlimited word := by
    intro word
    cases h : ofWord word with
    | ok constraint =>
      refine iff_of_true ⟨constraint, rfl⟩ fun hunlimited => ?_
      cases h.symm.trans (ofWord_error_iff.mpr ⟨hunlimited, rfl⟩)
    | error cause => exact iff_of_false nofun (not_not.mpr (ofWord_error_iff.mp h).1)
  refine ⟨fun name => ?_, ?_, fun constraints hconstraints => ?_⟩
  · rw [mapM_error_iff]
    simp only [hread, ofWord_error_iff, ConstraintError.emptyRange.injEq]
  · rw [mapM_exists_iff]
    simp only [hread]
  · refine ⟨mapM_ok_iff.mp hconstraints, fun constraint hm => ?_⟩
    obtain ⟨word, hword, hofWord⟩ := (mem_of_mapM_ok hconstraints).mp hm
    exact isSound_of_ofWord (hne word hword) hofWord

/-- The grammar of constraints is decided by quotes, blanks and brackets. A text is refused for an open
quote exactly if its number of quotes is odd. Otherwise it has words, which are its longest stretches
without a blank outside quotes, and it is refused for the first of them that is a range without limits,
or read as one constraint for each. -/
theorem parseList_grammar (text : String) :
    ((∃ word, parseList text = .error (.unterminatedQuote word)) ↔ Odd (text.toList.count '"')) ∧
      (¬Odd (text.toList.count '"') → ∃ words, AreWords text.toList words ∧
        IsReading (words.map (·.2)) (parseList text)) := by
  by_cases hodd : Odd (text.toList.count '"')
  · obtain ⟨word, hword⟩ := readWords_of_odd hodd
    have hrefused : parseList text = .error (.unterminatedQuote word) := by
      rw [parseList, hword]
      rfl
    exact ⟨iff_of_true ⟨word, hrefused⟩ hodd, fun heven => absurd hodd heven⟩
  · obtain ⟨words, hwords, hread⟩ := readWords_of_even hodd
    have hparse : parseList text = (words.map (·.2)).mapM ofWord := by
      rw [parseList, hread]
      rfl
    refine ⟨iff_of_false ?_ hodd, fun _ => ⟨words, hwords, ?_⟩⟩
    · rintro ⟨name, hname⟩
      obtain ⟨word, -, hword⟩ := exists_of_mapM_error (hparse.symm.trans hname)
      cases (ofWord_error_iff.mp hword).2
    · rw [hparse]
      refine isReading_mapM (List.forall_mem_map.mpr ?_)
      rintro ⟨start, word⟩ hm
      exact ((hwords.fields start word).mp hm).2

/-- Quotes that open inside a word, brackets of all sorts, a blank inside quotes, and several blanks
between words. -/
def mixedText : String :=
  " [\"a \"..b\" c\")  ..5] \t \"x .. y\" ((1..."

/-- The words are read as constraints that are sound; a range without limits behind them is named, and a
quote that stays open refuses the text. -/
theorem parseList_grammar_mixed :
    (∃ words constraints, ¬Odd (mixedText.toList.count '"') ∧ AreWords mixedText.toList words ∧
      parseList mixedText = .ok constraints ∧
      constraints.map Constraint.text = ["[\"a \"..b\" c\")", "..5]", "\"x .. y\"", "(1...]"] ∧
      (∀ word ∈ words.map (·.2), ¬IsUnlimited word) ∧
      List.Forall₂ (fun word constraint => ofWord word = .ok constraint) (words.map (·.2))
        constraints ∧
      ∀ constraint ∈ constraints, IsSound constraint) ∧
    (∃ words before after, AreWords (mixedText ++ " [(..] 1 ..").toList words ∧
      parseList (mixedText ++ " [(..] 1 ..") = .error (.emptyRange "[(..]") ∧
      words.map (·.2) = before ++ "[(..]".toList :: after ∧ IsUnlimited "[(..]".toList ∧
      ∀ other ∈ before, ¬IsUnlimited other) ∧
    ∃ word, parseList (mixedText ++ " \"1 2") = .error (.unterminatedQuote word) := by
  refine ⟨?_, ?_, (parseList_grammar _).1.mpr (by decide +kernel)⟩
  · have heven : ¬Odd (mixedText.toList.count '"') := by decide +kernel
    have htexts : (parseList mixedText).toOption.map (·.map Constraint.text) =
        some ["[\"a \"..b\" c\")", "..5]", "\"x .. y\"", "(1...]"] := by
      decide +kernel
    obtain ⟨constraints, hparse, htext⟩ := exists_ok_of_toOption htexts
    obtain ⟨words, hwords, hreading⟩ := (parseList_grammar mixedText).2 heven
    exact ⟨words, constraints, heven, hwords, hparse, htext,
      hreading.accepted.mp ⟨constraints, hparse⟩, hreading.constraints constraints hparse⟩
  · have hrefused : parseList (mixedText ++ " [(..] 1 ..") = .error (.emptyRange "[(..]") := by
      decide +kernel
    obtain ⟨words, hwords, hreading⟩ :=
      (parseList_grammar (mixedText ++ " [(..] 1 ..")).2 (by decide +kernel)
    obtain ⟨before, word, after, hsplit, hbefore, hunlimited, hname⟩ :=
      (hreading.refused "[(..]").mp hrefused
    obtain rfl : "[(..]".toList = word := by rw [hname, String.toList_ofList]
    exact ⟨words, before, after, hwords, hrefused, hsplit, hunlimited, hbefore⟩

end Constraint

end AnnotatedHelp
