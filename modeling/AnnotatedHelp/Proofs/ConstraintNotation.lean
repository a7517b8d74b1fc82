import Mathlib
import AnnotatedHelp.Constraint
import AnnotatedHelp.Query
import AnnotatedHelp.Session
import AnnotatedHelp.Proofs.Occurrence
import AnnotatedHelp.Proofs.Outcome

/-!
# The notation of constraints

Constraints are read from words and written back in one notation. Any number of brackets around a
range is read, or none at all, while exactly one bracket beside every limit is written. What is
written is read as the same constraints again: brackets and dots are neither quotes nor blanks, so the
words stay words; a limit holds no `..` in front of the first one; and brackets are dropped from a
limit until another character comes.
-/

namespace AnnotatedHelp

open Outcome Text

namespace Constraint

/-- Whether a text is inside quotes behind a character that does not end a word. The first argument
tells whether it is inside quotes before the character. -/
def stays? (inside : Bool) (c : Char) : Option Bool :=
  if isBlank c && !inside then none else some (if c = '"' then !inside else inside)

/-- A word is not empty, blanks stand inside quotes only, and its quotes are closed. -/
structure IsWord (word : List Char) : Prop where
  /-- There is a character. -/
  nonempty : word ≠ []
  /-- No character ends the word, and it ends outside quotes. -/
  closed : word.foldlM stays? false = some false

section Fields

variable {inside next : Bool} {c : Char} {text word : List Char} {words fields : List (List Char)}

/-- A character that does not end a word belongs to the first field. -/
theorem quotedFields_of_stays (h : stays? inside c = some next) (text : List Char) :
    quotedFields inside (c :: text) =
      (beforeFirst [c] (quotedFields next text).1, (quotedFields next text).2) := by
  unfold stays? at h
  split at h
  · cases h
  · next hblank =>
    cases h
    rw [quotedFields, if_neg hblank]

/-- A blank outside quotes ends the first field. -/
theorem quotedFields_of_leaves (h : stays? inside c = none) (text : List Char) :
    inside = false ∧ quotedFields inside (c :: text) =
      ([] :: (quotedFields false text).1, (quotedFields false text).2) := by
  unfold stays? at h
  split at h
  · next hblank =>
    obtain rfl : inside = false := by simpa using (Bool.and_eq_true_iff.mp hblank).2
    rw [quotedFields, if_pos hblank]
    exact ⟨rfl, rfl⟩
  · cases h

/-- There is a first field. -/
theorem quotedFields_ne_nil (inside : Bool) (text : List Char) : (quotedFields inside text).1 ≠ [] := by
  cases text with
  | nil => exact List.cons_ne_nil _ _
  | cons c text =>
    cases h : stays? inside c with
    | none =>
      rw [(quotedFields_of_leaves h text).2]
      exact List.cons_ne_nil _ _
    | some next =>
      rw [quotedFields_of_stays h]
      cases (quotedFields next text).1 <;> exact List.cons_ne_nil _ _

/-- What does not end a word belongs to the first field. -/
theorem quotedFields_append (h : word.foldlM stays? inside = some next) (rest : List Char) :
    quotedFields inside (word ++ rest) =
      (beforeFirst word (quotedFields next rest).1, (quotedFields next rest).2) := by
  induction word generalizing inside with
  | nil =>
    cases h
    obtain ⟨first, others, hfields⟩ := List.exists_cons_of_ne_nil (quotedFields_ne_nil _ rest)
    refine Prod.ext ?_ rfl
    rw [List.nil_append, hfields]
    rfl
  | cons c word ih =>
    rw [List.foldlM_cons] at h
    obtain ⟨after, hstays, hrest⟩ := Option.bind_eq_some_iff.mp h
    rw [List.cons_append, quotedFields_of_stays hstays, ih hrest]
    cases (quotedFields next rest).1 <;> rfl

/-- In a text that ends outside quotes, blanks stand inside quotes only in every field, and quotes are
closed behind every field. The first field starts where the text does. -/
theorem closed_of_quotedFields (h : quotedFields inside text = (fields, false)) :
    ∃ first others, fields = first :: others ∧ first.foldlM stays? inside = some false ∧
      ∀ field ∈ others, field.foldlM stays? false = some false := by
  induction text generalizing inside fields with
  | nil =>
    cases h
    exact ⟨[], [], rfl, rfl, nofun⟩
  | cons c text ih =>
    cases hstays : stays? inside c with
    | none =>
      obtain ⟨rfl, hfields⟩ := quotedFields_of_leaves hstays text
      rw [hfields] at h
      obtain ⟨rfl, hfinal⟩ := Prod.mk.inj h
      obtain ⟨first, others, hothers, hfirst, hrest⟩ := ih (Prod.ext rfl hfinal)
      refine ⟨[], first :: others, congrArg (List.cons []) hothers, rfl, ?_⟩
      exact List.forall_mem_cons.mpr ⟨hfirst, hrest⟩
    | some next =>
      rw [quotedFields_of_stays hstays] at h
      obtain ⟨rfl, hfinal⟩ := Prod.mk.inj h
      obtain ⟨first, others, hothers, hfirst, hrest⟩ := ih (Prod.ext rfl hfinal)
      refine ⟨c :: first, others, congrArg (beforeFirst [c]) hothers, ?_, hrest⟩
      rw [List.foldlM_cons, hstays]
      exact hfirst

/-- What is read as a word is one. -/
theorem isWord_of_readWords (h : readWords text = .ok words) : ∀ word ∈ words, IsWord word := by
  unfold readWords at h
  split at h
  · cases h
  · next fields hfields =>
    cases h
    obtain ⟨first, others, rfl, hfirst, hothers⟩ := closed_of_quotedFields hfields
    intro word hm
    obtain ⟨hfield, hne⟩ := List.mem_filter.mp hm
    refine ⟨by simpa using hne, ?_⟩
    rcases List.mem_cons.mp hfield with rfl | hother
    · exact hfirst
    · exact hothers word hother

/-- Words with a space between them are the fields of the text that they make up. -/
theorem quotedFields_intercalate (hne : words ≠ []) (h : ∀ word ∈ words, IsWord word) :
    quotedFields false ([' '].intercalate words) = (words, false) := by
  induction words with
  | nil => exact absurd rfl hne
  | cons word words ih =>
    obtain ⟨hword, hwords⟩ := List.forall_mem_cons.mp h
    by_cases hlast : words = []
    · have halone := quotedFields_append hword.closed []
      rw [hlast, List.intercalate_singleton]
      rw [List.append_nil] at halone
      rw [halone, quotedFields, beforeFirst, List.append_nil]
    · have hspace : stays? false ' ' = none := by decide
      rw [List.intercalate_cons_of_ne_nil hlast, List.append_assoc, quotedFields_append hword.closed,
        List.singleton_append, (quotedFields_of_leaves hspace _).2, ih hlast hwords, beforeFirst,
        List.append_nil]

/-- Words with a space between them are read as they are. -/
theorem readWords_intercalate (h : ∀ word ∈ words, IsWord word) :
    readWords ([' '].intercalate words) = .ok words := by
  by_cases hne : words = []
  · rw [hne]
    rfl
  · rw [readWords, quotedFields_intercalate hne h]
    have hfilter : words.filter (!·.isEmpty) = words :=
      List.filter_eq_self.mpr fun word hm => by simpa using (h word hm).nonempty
    exact congrArg Except.ok hfilter

end Fields

section Inert

variable {inside : Bool} {c : Char} {inert : List Char}

/-- A character that is neither a blank nor a quote: it leaves a text inside or outside quotes. -/
def IsInert (c : Char) : Prop :=
  isBlank c = false ∧ c ≠ '"'

/-- Characters that leave quotes alone do not end a word in front of the rest. -/
theorem foldlM_inert_append (h : ∀ c ∈ inert, IsInert c) (rest : List Char) :
    (inert ++ rest).foldlM stays? inside = rest.foldlM stays? inside := by
  induction inert with
  | nil => rfl
  | cons c inert ih =>
    obtain ⟨⟨hblank, hquote⟩, hrest⟩ := List.forall_mem_cons.mp h
    have hstays : stays? inside c = some inside := by
      rw [stays?, hblank, if_neg hquote]
      rfl
    rw [List.cons_append, List.foldlM_cons, hstays]
    exact ih hrest

/-- Characters that leave quotes alone do not matter behind the rest. -/
theorem foldlM_append_inert (h : ∀ c ∈ inert, IsInert c) (rest : List Char) :
    (rest ++ inert).foldlM stays? inside = rest.foldlM stays? inside := by
  have hnothing : ∀ next, inert.foldlM stays? next = some next := by
    intro next
    have hinert : (inert ++ []).foldlM stays? next = some next := foldlM_inert_append h []
    rw [List.append_nil] at hinert
    exact hinert
  rw [List.foldlM_append]
  simp only [hnothing]
  exact Option.bind_fun_some _

theorem isInert_of_isOpening (h : isOpening c = true) : IsInert c := by
  rcases (by simpa [isOpening] using h : c = '[' ∨ c = '(') with rfl | rfl <;>
    exact ⟨by decide, by decide⟩

theorem isInert_of_isClosing (h : isClosing c = true) : IsInert c := by
  rcases (by simpa [isClosing] using h : c = ']' ∨ c = ')') with rfl | rfl <;>
    exact ⟨by decide, by decide⟩

end Inert

/-- A lower limit as it is written in front of the dots. -/
def lowerText : Option Limit → List Char
  | some limit => (if limit.inclusive then '[' else '(') :: limit.literal.toList
  | none => []

/-- An upper limit as it is written behind the dots. -/
def upperText : Option Limit → List Char
  | some limit => limit.literal.toList ++ [if limit.inclusive then ']' else ')']
  | none => []

/-- A range is written with its limits around the dots. -/
theorem toList_text_range (lower upper : Option Limit) :
    (range lower upper).text.toList = lowerText lower ++ "..".toList ++ upperText upper := by
  cases lower with
  | none =>
    cases upper with
    | none => rfl
    | some limit => cases h : limit.inclusive <;> simp [text, lowerText, upperText, h]
  | some limit =>
    cases upper with
    | none => cases h : limit.inclusive <;> simp [text, lowerText, upperText, h]
    | some other =>
      cases h : limit.inclusive <;> cases h' : other.inclusive <;>
        simp [text, lowerText, upperText, h, h']

section Limits

variable {inside : Bool} {word before after : List Char}

/-- A lower limit is missing where only brackets are read. Otherwise what is left of them is written
behind one bracket, and it is read back from there. -/
theorem lowerLimit?_cases (before : List Char) :
    (before.dropWhile isOpening = [] ∧ lowerLimit? before = none) ∨
      ∃ bracket, isOpening bracket = true ∧ before.dropWhile isOpening ≠ [] ∧
        lowerText (lowerLimit? before) = bracket :: before.dropWhile isOpening ∧
        lowerLimit? before =
          some ⟨String.ofList (before.dropWhile isOpening), some bracket != some '('⟩ := by
  cases hliteral : before.dropWhile isOpening with
  | nil => exact .inl ⟨rfl, by rw [lowerLimit?, hliteral]⟩
  | cons c rest =>
    have hlimit : lowerLimit? before =
        some ⟨String.ofList (c :: rest), before.head? != some '('⟩ := by
      rw [lowerLimit?, hliteral]
    rw [hlimit]
    cases before.head? != some '(' with
    | true => exact .inr ⟨'[', rfl, List.cons_ne_nil c rest, by simp [lowerText], rfl⟩
    | false => exact .inr ⟨'(', rfl, List.cons_ne_nil c rest, by simp [lowerText], rfl⟩

/-- An upper limit is missing where only brackets are read. Otherwise what is left of them is written
in front of one bracket, and it is read back from there. -/
theorem upperLimit?_cases (after : List Char) :
    (after.rdropWhile isClosing = [] ∧ upperLimit? after = none) ∨
      ∃ bracket, isClosing bracket = true ∧ after.rdropWhile isClosing ≠ [] ∧
        upperText (upperLimit? after) = after.rdropWhile isClosing ++ [bracket] ∧
        upperLimit? after =
          some ⟨String.ofList (after.rdropWhile isClosing), some bracket != some ')'⟩ := by
  cases hliteral : after.rdropWhile isClosing with
  | nil => exact .inl ⟨rfl, by rw [upperLimit?, ← List.rdropWhile, hliteral]⟩
  | cons c rest =>
    have hlimit : upperLimit? after =
        some ⟨String.ofList (c :: rest), after.getLast? != some ')'⟩ := by
      rw [upperLimit?, ← List.rdropWhile, hliteral]
    rw [hlimit]
    cases after.getLast? != some ')' with
    | true => exact .inr ⟨']', rfl, List.cons_ne_nil c rest, by simp [upperText], rfl⟩
    | false => exact .inr ⟨')', rfl, List.cons_ne_nil c rest, by simp [upperText], rfl⟩

/-- A lower limit that is read and written is read as the same. -/
theorem lowerLimit?_lowerText (before : List Char) :
    lowerLimit? (lowerText (lowerLimit? before)) = lowerLimit? before := by
  rcases lowerLimit?_cases before with ⟨-, hnone⟩ | ⟨bracket, hbracket, hne, hwritten, hlimit⟩
  · rw [hnone]
    rfl
  · rw [hwritten, hlimit, lowerLimit?, List.dropWhile_cons_of_pos hbracket,
      List.dropWhile_idempotent, List.head?_cons]
    split
    · next hnil => exact absurd hnil hne
    · rfl

/-- An upper limit that is read and written is read as the same. -/
theorem upperLimit?_upperText (after : List Char) :
    upperLimit? (upperText (upperLimit? after)) = upperLimit? after := by
  rcases upperLimit?_cases after with ⟨-, hnone⟩ | ⟨bracket, hbracket, hne, hwritten, hlimit⟩
  · rw [hnone]
    rfl
  · rw [hwritten, hlimit, upperLimit?, ← List.rdropWhile, List.rdropWhile_concat_pos _ _ _ hbracket,
      List.rdropWhile_idempotent, List.getLast?_concat]
    split
    · next hnil => exact absurd hnil hne
    · rfl

/-- Writing a lower limit in the place of what it was read from leaves quotes as they are. -/
theorem foldlM_lowerText (before rest : List Char) :
    (lowerText (lowerLimit? before) ++ rest).foldlM stays? inside =
      (before ++ rest).foldlM stays? inside := by
  have hdropped : (before ++ rest).foldlM stays? inside =
      (before.dropWhile isOpening ++ rest).foldlM stays? inside := by
    have hinert : ∀ c ∈ before.takeWhile isOpening, IsInert c :=
      fun c hc => isInert_of_isOpening (List.mem_takeWhile_imp hc)
    rw [← foldlM_inert_append hinert (before.dropWhile isOpening ++ rest), ← List.append_assoc,
      List.takeWhile_append_dropWhile]
  rw [hdropped]
  rcases lowerLimit?_cases before with ⟨hliteral, hnone⟩ | ⟨bracket, hbracket, -, hwritten, -⟩
  · rw [hliteral, hnone]
    rfl
  · rw [hwritten]
    have hinert : ∀ c ∈ [bracket], IsInert c :=
      List.forall_mem_singleton.mpr (isInert_of_isOpening hbracket)
    exact foldlM_inert_append hinert (before.dropWhile isOpening ++ rest)

/-- Writing an upper limit in the place of what it was read from leaves quotes as they are. -/
theorem foldlM_upperText (rest after : List Char) :
    (rest ++ upperText (upperLimit? after)).foldlM stays? inside =
      (rest ++ after).foldlM stays? inside := by
  have hdropped : (rest ++ after).foldlM stays? inside =
      (rest ++ after.rdropWhile isClosing).foldlM stays? inside := by
    have hinert : ∀ c ∈ after.rtakeWhile isClosing, IsInert c :=
      fun c hc => isInert_of_isClosing (List.mem_rtakeWhile_imp hc)
    rw [← foldlM_append_inert hinert (rest ++ after.rdropWhile isClosing), List.append_assoc,
      List.rdropWhile_append_rtakeWhile]
  rw [hdropped]
  rcases upperLimit?_cases after with ⟨hliteral, hnone⟩ | ⟨bracket, hbracket, -, hwritten, -⟩
  · rw [hliteral, hnone]
    rfl
  · rw [hwritten, ← List.append_assoc]
    exact foldlM_append_inert (List.forall_mem_singleton.mpr (isInert_of_isClosing hbracket)) _

/-- The dots are the same character twice. -/
theorem eq_dot_of_mem_dots : ∀ c ∈ "..".toList, c = '.' := by
  simp

/-- A lower limit in front of the first dots is written without dots that would come before them. -/
theorem firstAt_lowerText (h : FirstAt "..".toList word before after) (rest : List Char) :
    FirstAt "..".toList (lowerText (lowerLimit? before) ++ "..".toList ++ rest)
      (lowerText (lowerLimit? before)) rest := by
  have hfree := h.not_found_before (by decide)
  have hlast := h.getLast?_ne eq_dot_of_mem_dots
  rcases lowerLimit?_cases before with ⟨-, hnone⟩ | ⟨bracket, hbracket, hne, hwritten, -⟩
  · rw [hnone]
    exact firstAt_behind eq_dot_of_mem_dots (by simp [lowerText]) (by simp [lowerText]) rest
  · rw [hwritten]
    obtain ⟨dropped, hdropped⟩ := List.dropWhile_suffix isOpening (l := before)
    refine firstAt_behind eq_dot_of_mem_dots ?_ ?_ rest
    · rw [List.infix_cons_iff]
      rintro (hbegins | hfound)
      · -- The dots would begin with the bracket.
        have hdot : '.' = bracket := (List.cons_prefix_cons.mp hbegins).1
        rw [← hdot] at hbracket
        cases hbracket
      · exact hfree (hfound.trans (List.dropWhile_suffix isOpening).isInfix)
    · rw [← hdropped, List.getLast?_append_of_ne_nil dropped hne] at hlast
      rw [← List.singleton_append, List.getLast?_append_of_ne_nil [bracket] hne]
      exact hlast

end Limits

section Constraints

variable {word before after : List Char} {constraint : Constraint}

/-- A word that is read is an exact literal, or a range cut at the first dots. -/
theorem ofWord_ok (h : ofWord word = .ok constraint) :
    constraint = .exact (String.ofList word) ∨
      ∃ before after, FirstAt "..".toList word before after ∧
        constraint = .range (lowerLimit? before) (upperLimit? after) ∧
        ¬(lowerLimit? before = none ∧ upperLimit? after = none) := by
  unfold ofWord at h
  split at h
  · cases h
    exact .inl rfl
  · split at h
    · cases h
      exact .inl rfl
    · next before after hcut =>
      split at h
      · cases h
      · next hlimits =>
        cases h
        exact .inr ⟨before, after, firstAt_of_cut hcut, rfl, fun hboth => hlimits hboth.1 hboth.2⟩

/-- A word with dots that does not begin with a quote is read as a range. -/
theorem ofWord_range (hquote : word.head? ≠ some '"') (h : FirstAt "..".toList word before after)
    (hlimits : ¬(lowerLimit? before = none ∧ upperLimit? after = none)) :
    ofWord word = .ok (.range (lowerLimit? before) (upperLimit? after)) := by
  have hplain : ¬isQuoted word = true := by
    simp [isQuoted, hquote]
  rw [ofWord, if_neg hplain, cut_of_firstAt h]
  dsimp only
  split
  · next hlower hupper => exact absurd ⟨hlower, hupper⟩ hlimits
  · rfl

/-- A range is not written with a quote first. -/
theorem head?_text_range (lower upper : Option Limit) :
    (range lower upper).text.toList.head? ≠ some '"' := by
  rw [toList_text_range]
  cases lower with
  | none => simp [lowerText]
  | some limit => cases h : limit.inclusive <;> simp [lowerText, h]

/-- What a word is read as is written so that it is read as the same. -/
theorem ofWord_text (h : ofWord word = .ok constraint) :
    ofWord constraint.text.toList = .ok constraint := by
  rcases ofWord_ok h with rfl | ⟨before, after, hfirst, rfl, hlimits⟩
  · rw [text, String.toList_ofList]
    exact h
  · have hquote := head?_text_range (lowerLimit? before) (upperLimit? after)
    rw [toList_text_range] at hquote ⊢
    have hwritten := ofWord_range hquote (firstAt_lowerText hfirst (upperText (upperLimit? after)))
    rw [lowerLimit?_lowerText, upperLimit?_upperText] at hwritten
    exact hwritten hlimits

/-- What a word is read as is written as a word. -/
theorem isWord_text (hw : IsWord word) (h : ofWord word = .ok constraint) :
    IsWord constraint.text.toList := by
  rcases ofWord_ok h with rfl | ⟨before, after, hfirst, rfl, -⟩
  · rw [text, String.toList_ofList]
    exact hw
  · have hclosed := hw.closed
    rw [toList_text_range]
    refine ⟨by simp, ?_⟩
    rw [foldlM_upperText, List.append_assoc, foldlM_lowerText, ← List.append_assoc, ← hfirst.eq]
    exact hclosed

/-- Constraints that are read are written, with spaces between them, as a text with one word for each
of them. -/
theorem readWords_text {words : List (List Char)} {constraints : List Constraint}
    (hw : ∀ word ∈ words, IsWord word) (h : words.mapM ofWord = .ok constraints) :
    readWords (" ".intercalate (constraints.map Constraint.text)).toList =
      .ok (constraints.map (·.text.toList)) := by
  have hwritten : ∀ word ∈ constraints.map (·.text.toList), IsWord word := by
    refine List.forall_mem_map.mpr fun constraint hm => ?_
    obtain ⟨word, hword, hread⟩ := (mem_of_mapM_ok h).mp hm
    exact isWord_text (hw word hword) hread
  rw [String.toList_intercalate, List.map_map]
  exact readWords_intercalate hwritten

/-- The words in which constraints are written are read as these constraints. -/
theorem mapM_ofWord_text {words : List (List Char)} {constraints : List Constraint}
    (h : words.mapM ofWord = .ok constraints) :
    (constraints.map (·.text.toList)).mapM ofWord = .ok constraints := by
  refine mapM_ok_iff.mpr (List.forall₂_map_left_iff.mpr (List.forall₂_same.mpr ?_))
  intro constraint hm
  obtain ⟨word, -, hread⟩ := (mem_of_mapM_ok h).mp hm
  exact ofWord_text hread

/-- Constraints that are written back, with spaces between them, are read as the same constraints.
So are the lines in which a document writes the constraints of a member. -/
theorem parseList_text {text : String} {constraints : List Constraint}
    (h : parseList text = .ok constraints) :
    parseList (" ".intercalate (constraints.map Constraint.text)) = .ok constraints ∧
      ∀ (document : Document) (name : String) (member : Member) (context : Template.Context),
        document.member? name = some member → member.values = constraints →
          ∃ lines, document.resolver "member" [name, "values"] context = .ok (.lines lines) ∧
            parseList (" ".intercalate lines) = .ok constraints := by
  obtain ⟨words, hwords, hconstraints⟩ := bind_ok_iff.mp h
  have hwritten : parseList (" ".intercalate (constraints.map Constraint.text)) =
      .ok constraints :=
    bind_ok_iff.mpr ⟨_, readWords_text (isWord_of_readWords hwords) hconstraints,
      mapM_ofWord_text hconstraints⟩
  refine ⟨hwritten, ?_⟩
  rintro document name member context hmember rfl
  refine ⟨member.values.map Constraint.text, ?_, hwritten⟩
  have hkey : ModelKey.ofName? "member" = some .member := by decide
  have hfield : MemberField.ofName? "values" = some .values := by decide
  simp only [Document.resolver, hkey, Document.answer, Document.memberValue, hmember, hfield]
  rfl

/-- Words with brackets of all sorts, or none, with dots next to dots and brackets next to quotes, and
with blanks, brackets and dots inside quotes. -/
def bracketedText : String :=
  "\"a..b\"x \"q .. r\"s (0..10) (..( ... 1...5 ]..] [[(\"a b\"..)) \"..\""

/-- An option whose values are restricted by these words. -/
def bracketedOption : String :=
  "$\x7b-x V | ValueType: string | Values: " ++ bracketedText ++ "\x7d$"

/-- The constraints are written in one notation, from which the same constraints are read again, and so
they are from the lines that a template shows for the member. -/
theorem parseList_text_bracketed :
    ∃ constraints document member, parseList bracketedText = .ok constraints ∧
      Document.parse .standard bracketedOption = .ok document ∧
      document.member? "x" = some member ∧ member.values = constraints ∧
      constraints.map Constraint.text =
        ["[\"a..b\"x]", "[\"q .. r\"s]", "(0..10)", "..(]", "...]", "[1...5]", "[]..", "[\"a b\"..",
          "\"..\""] ∧
      parseList (" ".intercalate (constraints.map Constraint.text)) = .ok constraints ∧
      ∃ lines, document.resolver "member" ["x", "values"] ⟨"", 0⟩ = .ok (.lines lines) ∧
        parseList (" ".intercalate lines) = .ok constraints := by
  have hread : (parseList bracketedText).toOption.map (·.map Constraint.text) =
      some ["[\"a..b\"x]", "[\"q .. r\"s]", "(0..10)", "..(]", "...]", "[1...5]", "[]..",
        "[\"a b\"..", "\"..\""] := by
    decide +kernel
  have hoption : (Document.parse .standard bracketedOption).toOption.map
      (fun document => (document.member? "x").map (·.values)) =
        some (parseList bracketedText).toOption := by
    decide +kernel
  obtain ⟨constraints, hparse, hwritten⟩ := exists_ok_of_toOption hread
  obtain ⟨document, hdocument, hmember⟩ := exists_ok_of_toOption hoption
  rw [hparse] at hmember
  obtain ⟨member, hfound, hvalues⟩ := Option.map_eq_some_iff.mp hmember
  obtain ⟨hagain, hlines⟩ := parseList_text hparse
  exact ⟨constraints, document, member, hparse, hdocument, hfound, hvalues, hwritten, hagain,
    hlines document "x" member ⟨"", 0⟩ hfound hvalues⟩

end Constraints

end Constraint

end AnnotatedHelp
