import Mathlib
import AnnotatedHelp.Proofs.CountNotation
import AnnotatedHelp.Proofs.OptionNames
import AnnotatedHelp.Proofs.WellFormedArguments

/-!
# Names that texts imply

A definition that declares no member name gets one from its flags or from its text. The main statement
says that flags are named by the rule for names of options, and that whatever a definition holds, the
name it implies is not empty and has neither blanks nor punctuation.
-/

namespace AnnotatedHelp

open Outcome Text

namespace Name

/-- A character that separates nothing is neither blank nor punctuation. -/
theorem isSeparator_eq_false_iff {c : Char} :
    isSeparator c = false ↔ isBlank c = false ∧ c ∉ punctuation := by
  rw [isSeparator, Bool.or_eq_false_iff, ← Bool.not_eq_true (punctuation.contains c),
    List.contains_iff_mem]

/-- A digit separates nothing. -/
theorem isSeparator_of_isDigit {c : Char} (h : c.isDigit = true) : isSeparator c = false := by
  have hpunctuation : punctuation.all (!Char.isDigit ·) = true := by decide
  refine isSeparator_eq_false_iff.mpr ⟨isBlank_of_isDigit h, fun hm => ?_⟩
  have hnone := List.all_eq_true.mp hpunctuation c hm
  rw [h] at hnone
  cases hnone

/-- Fields with underscores between them consist of the characters of the fields and of underscores. -/
theorem forall_mem_intercalate {P : Char → Prop} (hP : P '_') {fields : List (List Char)}
    (h : ∀ field ∈ fields, ∀ c ∈ field, P c) : ∀ c ∈ ['_'].intercalate fields, P c := by
  induction fields with
  | nil => exact nofun
  | cons field fields ih =>
    obtain ⟨hfield, hfields⟩ := List.forall_mem_cons.mp h
    by_cases hlast : fields = []
    · rw [hlast, List.intercalate_singleton]
      exact hfield
    · rw [List.intercalate_cons_of_ne_nil hlast]
      intro c hc
      rcases List.mem_append.mp hc with hc | hc
      · rcases List.mem_append.mp hc with hc | hc
        · exact hfield c hc
        · exact List.mem_singleton.mp hc ▸ hP
      · exact ih hfields c hc

/-- What is left of a text contains nothing that separates. -/
theorem not_isSeparator_ofText (text : List Char) :
    ∀ c ∈ ofText text, isSeparator c = false := by
  refine forall_mem_intercalate (by decide) fun field hm => ?_
  exact of_mem_splitOnP (List.mem_filter.mp hm).1

/-- A text that contains nothing that separates is left as it is. -/
theorem ofText_eq_self {text : List Char} (h : ∀ c ∈ text, isSeparator c = false) :
    ofText text = text := by
  rw [ofText, parts, List.splitOnP_eq_singleton h]
  cases text with
  | nil => rfl
  | cons c text => exact List.intercalate_singleton

/-- What is left of a text is left again. -/
theorem ofText_ofText (text : List Char) : ofText (ofText text) = ofText text :=
  ofText_eq_self (not_isSeparator_ofText text)

/-- A name that can stand for a member: not empty, without blanks and without punctuation. -/
structure WellFormed (name : List Char) : Prop where
  /-- There is a character. -/
  nonempty : name ≠ []
  /-- No character is blank. -/
  shown : ∀ c ∈ name, isBlank c = false
  /-- No character is punctuation that separates names. -/
  unpunctuated : ∀ c ∈ name, c ∉ punctuation

/-- A name is well formed if it is not empty and nothing in it separates. -/
theorem wellFormed_of {name : List Char} (hne : name ≠ [])
    (h : ∀ c ∈ name, isSeparator c = false) : WellFormed name :=
  ⟨hne, fun c hc => (isSeparator_eq_false_iff.mp (h c hc)).1,
    fun c hc => (isSeparator_eq_false_iff.mp (h c hc)).2⟩

/-- A word in which nothing separates is a well-formed name. -/
theorem wellFormed_of_all {name : List Char} (hne : name ≠ [])
    (h : name.all (!isSeparator ·) = true) : WellFormed name :=
  wellFormed_of hne fun c hc => by simpa using List.all_eq_true.mp h c hc

/-- A number behind such a word leaves it well formed. -/
theorem wellFormed_numbered {start : String} (hne : start ≠ "")
    (h : start.toList.all (!isSeparator ·) = true) (number : Nat) :
    WellFormed (start ++ number.repr).toList := by
  refine wellFormed_of_all (toList_append_ne_nil hne _) ?_
  rw [String.toList_append, List.all_append, h, Bool.true_and, List.all_eq_true]
  intro c hc
  rw [isSeparator_of_isDigit ((digits_repr number).digits c hc)]
  rfl

/-- A reserved flag stands for a well-formed name. -/
theorem wellFormed_of_reserved? {flag name : List Char} (h : reserved? flag = some name) :
    WellFormed name := by
  unfold reserved? at h
  split_ifs at h
  · cases h
    exact wellFormed_of_all (by decide) (by decide)
  · cases h
    exact wellFormed_of_all (by decide) (by decide)

/-- The name of an option is well formed, whatever its flags. -/
theorem wellFormed_ofFlags (number : Nat) (flags : List (List Char)) :
    WellFormed (ofFlags number flags) := by
  rw [ofFlags_eq_firstMatch, firstMatch]
  cases hreserved : flags.findSome? reserved? with
  | some name =>
    obtain ⟨flag, -, hflag⟩ := List.exists_of_findSome?_eq_some hreserved
    exact wellFormed_of_reserved? hflag
  | none =>
    cases hbest : best? (flags.map ofText) with
    | some name =>
      obtain ⟨hm, hne⟩ := mem_of_best? hbest
      obtain ⟨flag, -, rfl⟩ := List.mem_map.mp hm
      exact wellFormed_of hne (not_isSeparator_ofText flag)
    | none =>
      exact wellFormed_numbered (by decide) (by decide) number

/-- The numbered placeholder leaves the numbered name. -/
theorem ofText_numbered (number : Nat) :
    ofText ("arg " ++ number.repr).toList = ("arg_" ++ number.repr).toList := by
  have hdigits : ∀ c ∈ number.repr.toList, isSeparator c = false := fun c hc =>
    isSeparator_of_isDigit ((digits_repr number).digits c hc)
  have hcut : ("arg " ++ number.repr).toList = "arg".toList ++ ' ' :: number.repr.toList := by
    rw [String.toList_append]
    rfl
  have hfirst : "arg".toList.splitOnP isSeparator = ["arg".toList] := by decide +kernel
  have hparts : parts ("arg " ++ number.repr).toList = ["arg".toList, number.repr.toList] := by
    rw [parts, hcut, List.splitOnP_append_cons _ _ (by decide), hfirst,
      List.splitOnP_eq_singleton hdigits]
    simp
  have hplain : ("arg_" ++ number.repr).toList = "arg".toList ++ ['_'] ++ number.repr.toList := by
    rw [String.toList_append]
    rfl
  rw [ofText, hparts, hplain, List.intercalate_cons_of_ne_nil (List.cons_ne_nil _ _),
    List.intercalate_singleton]

/-- The name of a positional argument is what its text leaves, or a numbered name. -/
theorem ofPositional_eq (number : Nat) (text : List Char) :
    ofPositional number text =
      if ofText text = [] then ("arg_" ++ number.repr).toList else ofText text := by
  cases text with
  | nil =>
    have hplaceholder : placeholder number [] = ("arg " ++ number.repr).toList := rfl
    have hnothing : ofText [] = [] := rfl
    rw [ofPositional, hplaceholder, ofText_numbered, hnothing, if_pos rfl]
    split
    · next hempty => exact absurd hempty (toList_append_ne_nil (by decide) _)
    · rfl
  | cons c text =>
    have hplaceholder : placeholder number (c :: text) = c :: text := rfl
    rw [ofPositional, hplaceholder]
    split
    · next hempty => rw [if_pos hempty]
    · next hleft => rw [if_neg hleft]

/-- The name of a positional argument is well formed, whatever its text. -/
theorem wellFormed_ofPositional (number : Nat) (text : List Char) :
    WellFormed (ofPositional number text) := by
  have hne := ofPositional_ne_nil number text
  rw [ofPositional_eq] at hne ⊢
  split at hne
  · next hempty =>
    rw [if_pos hempty]
    exact wellFormed_numbered (by decide) (by decide) number
  · next hleft =>
    rw [if_neg hleft]
    exact wellFormed_of hne (not_isSeparator_ofText text)

end Name

namespace Definition

/-- The name that a definition of this shape implies under the numbers that are next. -/
def Shape.impliedName (counters : Counters) : Shape → List Char
  | declaredFlags flags => Name.firstMatch counters.options (words flags.toList)
  | optionText flags _ => Name.firstMatch counters.options flags
  | positionalText text =>
    if Name.ofText text = [] then ("arg_" ++ counters.arguments.repr).toList else Name.ofText text

/-- A shape implies a well-formed member name by the rule for flags or for texts. -/
theorem Shape.implied_memberName (shape : Shape) (counters : Counters) :
    shape.implied counters .memberName = some (String.ofList (shape.impliedName counters)) ∧
      Name.WellFormed (shape.impliedName counters) := by
  cases shape with
  | declaredFlags flags =>
    rw [impliedName, ← Name.ofFlags_eq_firstMatch]
    exact ⟨rfl, Name.wellFormed_ofFlags _ _⟩
  | optionText flags placeholder =>
    rw [impliedName, ← Name.ofFlags_eq_firstMatch]
    refine ⟨?_, Name.wellFormed_ofFlags _ _⟩
    cases placeholder <;> rfl
  | positionalText text =>
    rw [impliedName, ← Name.ofPositional_eq]
    refine ⟨?_, Name.wellFormed_ofPositional _ _⟩
    cases text <;> rfl

/-- A definition that is read has the name that it implies, and this is well formed. -/
theorem ofBlock_impliedName {marks : Marks} {dialect : Dialect} {counters after : Counters}
    {block : Block} {definition : Definition}
    (h : ofBlock marks dialect counters block = (.ok definition, after)) :
    definition.implied .memberName = some definition.name ∧
      Name.WellFormed definition.name.toList := by
  obtain ⟨shape, hshape⟩ := ofBlock_shaped h
  obtain ⟨himplied, hwell⟩ := shape.implied_memberName counters
  rw [hshape.name, hshape.implied, himplied, Option.getD_some, String.toList_ofList]
  exact ⟨rfl, hwell⟩

/-- Whatever flags or text a definition has, it implies a member name that is not empty and has neither
blanks nor punctuation. That of an option is `help` or `end_of_options` if a flag is reserved for it,
whichever comes first, else the first name of at least two characters that a flag leaves, else the first
name that a flag leaves at all, else a numbered one. What a text leaves as a name is left again. A
definition that is read goes by the name it implies. -/
theorem impliedName_wellFormed :
    (∀ (shape : Shape) (counters : Counters),
      shape.implied counters .memberName = some (String.ofList (shape.impliedName counters)) ∧
        Name.WellFormed (shape.impliedName counters)) ∧
      (∀ text, Name.ofText (Name.ofText text) = Name.ofText text) ∧
      ∀ (marks : Marks) (dialect : Dialect) (counters after : Counters) (block : Block)
        (definition : Definition), ofBlock marks dialect counters block = (.ok definition, after) →
          definition.implied .memberName = some definition.name ∧
            Name.WellFormed definition.name.toList :=
  ⟨Shape.implied_memberName, Name.ofText_ofText, fun _ _ _ _ _ _ => ofBlock_impliedName⟩

/-- A short name gives way to a longer one behind it, a reserved flag comes before both, and of two
reserved flags the first one counts; a text of punctuation leaves a numbered name. -/
theorem impliedName_wellFormed_mixed :
    (∃ definition after, ofBlock Draft.shortMarks .classic .zero ⟨1, "-C --no-color".toList⟩ =
        (.ok definition, after) ∧ definition.name = "no_color" ∧
      definition.implied .memberName = some definition.name ∧
      Name.WellFormed definition.name.toList) ∧
    (Shape.optionText ["--long".toList, "--".toList, "-?".toList] none).implied .zero .memberName =
      some "end_of_options" ∧
    (Shape.optionText ["-".toList] none).implied ⟨0, 4⟩ .memberName = some "option_4" ∧
    (Shape.positionalText "<...>".toList).implied ⟨2, 0⟩ .memberName = some "arg_2" := by
  obtain ⟨hshapes, -, hblocks⟩ := impliedName_wellFormed
  have hread : (ofBlock Draft.shortMarks .classic .zero ⟨1, "-C --no-color".toList⟩).1.toOption.map
      (·.name) = some "no_color" := by
    decide +kernel
  obtain ⟨definition, hdefinition, hname⟩ := exists_ok_of_toOption hread
  have hblock : ofBlock Draft.shortMarks .classic .zero ⟨1, "-C --no-color".toList⟩ =
      (.ok definition, _) := Prod.ext hdefinition rfl
  obtain ⟨himplied, hwell⟩ := hblocks _ _ _ _ _ definition hblock
  refine ⟨⟨definition, _, hblock, hname, himplied, hwell⟩, ?_, ?_, ?_⟩
  · rw [(hshapes _ _).1]
    decide +kernel
  · rw [(hshapes _ _).1]
    decide +kernel
  · rw [(hshapes _ _).1]
    decide +kernel

end Definition

end AnnotatedHelp
