import Mathlib
import AnnotatedHelp.Text.Character
import AnnotatedHelp.Text.Token

/-!
# Fields of a text

Cutting a text at a character gives the fields between its occurrences: no field contains the
character, and where two texts are joined, the last field of the one and the first field of the
other become one field.
-/

namespace AnnotatedHelp.Text

/-- The last field of a text ends it. -/
theorem suffix_of_splitAll {mark : Char} {text last : List Char} {fields : List (List Char)}
    (h : splitAll mark text = fields ++ [last]) : last <:+ text := by
  have htext : [mark].intercalate (fields ++ [last]) = text := by
    rw [← h]
    exact List.intercalate_splitOn mark
  clear h
  subst htext
  induction fields with
  | nil =>
    rw [List.nil_append, List.intercalate_singleton]
  | cons field fields ih =>
    rw [List.cons_append, List.intercalate_cons_of_ne_nil (by simp)]
    exact ih.trans (List.suffix_append _ _)

/-- The first field of a text begins it. -/
theorem first_prefix_of_splitAll {mark : Char} {text first : List Char} {others : List (List Char)}
    (h : splitAll mark text = first :: others) : first <+: text := by
  have htext : [mark].intercalate (first :: others) = text := by
    rw [← h]
    exact List.intercalate_splitOn mark
  rw [← htext]
  cases others with
  | nil => rw [List.intercalate_singleton]
  | cons other others =>
    rw [List.intercalate_cons_of_ne_nil (List.cons_ne_nil _ _), List.append_assoc]
    exact List.prefix_append first _

/-- Where a text ends and another one begins, their fields are one field. -/
theorem splitAll_append {mark : Char} {text more last first : List Char}
    {fields others : List (List Char)} (h : splitAll mark text = fields ++ [last])
    (hmore : splitAll mark more = first :: others) :
    splitAll mark (text ++ more) = fields ++ (last ++ first) :: others := by
  unfold splitAll at h hmore ⊢
  induction text generalizing fields last with
  | nil =>
    rw [List.splitOn_nil] at h
    obtain ⟨rfl, hlast⟩ | ⟨-, hlast⟩ := List.append_eq_singleton_iff.mp h.symm
    · cases hlast
      exact hmore
    · cases hlast
  | cons c text ih =>
    rw [List.splitOn_cons_eq_if_modifyHead] at h
    rw [List.cons_append, List.splitOn_cons_eq_if_modifyHead]
    by_cases hmark : (c == mark) = true
    · rw [if_pos hmark] at h ⊢
      cases fields with
      | nil => exact absurd (List.cons.inj h).2 (List.splitOn_ne_nil mark text)
      | cons field fields =>
        obtain ⟨rfl, hrest⟩ := List.cons.inj h
        rw [ih hrest]
        rfl
    · rw [if_neg hmark] at h ⊢
      obtain ⟨field, rest, hfields⟩ := List.exists_cons_of_ne_nil (List.splitOn_ne_nil mark text)
      rw [hfields, List.modifyHead_cons] at h
      cases fields with
      | nil =>
        obtain ⟨rfl, rfl⟩ := List.cons.inj h
        have halone : text.splitOn mark = [] ++ [field] := hfields
        rw [ih halone]
        rfl
      | cons other fields =>
        obtain ⟨rfl, rfl⟩ := List.cons.inj h
        have hbefore : text.splitOn mark = (field :: fields) ++ [last] := hfields
        rw [ih hbefore]
        rfl

/-- Marks behind the first field do not show in what a text begins with. -/
theorem prefix_of_splitAll {mark : Char} {text first start : List Char} {others : List (List Char)}
    (h : splitAll mark text = first :: others) (hstart : start <+: text) (hmark : mark ∉ start) :
    start <+: first := by
  obtain ⟨rest, rfl⟩ := hstart
  obtain ⟨field, fields, hfields⟩ := List.exists_cons_of_ne_nil (List.splitOn_ne_nil mark rest)
  have hsingle : splitAll mark start = [] ++ [start] := List.splitOn_eq_singleton hmark
  have hjoined := splitAll_append hsingle hfields
  rw [h] at hjoined
  obtain ⟨rfl, -⟩ := List.cons.inj hjoined
  exact List.prefix_append start field

/-- There is one field more than there are marks. -/
theorem length_splitAll (mark : Char) (text : List Char) :
    (splitAll mark text).length = text.count mark + 1 := by
  unfold splitAll
  induction text with
  | nil => rw [List.splitOn_nil, List.count_nil, List.length_singleton]
  | cons c text ih =>
    rw [List.splitOn_cons_eq_if_modifyHead, List.count_cons]
    split
    · rw [List.length_cons, ih]
    · rw [List.length_modifyHead, ih, Nat.add_zero]

/-- A text that is cut so often at most has a field. -/
theorem splitAtMost_ne_nil (mark : Char) (cuts : Nat) (text : List Char) :
    splitAtMost mark cuts text ≠ [] := by
  fun_induction splitAtMost mark cuts text with
  | case1 | case2 | case3 => exact List.cons_ne_nil _ _
  | case4 cuts c text hmark ih =>
    obtain ⟨field, fields, hfields⟩ := List.exists_cons_of_ne_nil ih
    rw [hfields]
    exact List.cons_ne_nil _ _

/-- The fields give the text back that was cut. -/
theorem intercalate_splitAtMost (mark : Char) (cuts : Nat) (text : List Char) :
    [mark].intercalate (splitAtMost mark cuts text) = text := by
  fun_induction splitAtMost mark cuts text with
  | case1 text => exact List.intercalate_singleton
  | case2 => exact List.intercalate_singleton
  | case3 cuts text ih =>
    rw [List.intercalate_cons_of_ne_nil (splitAtMost_ne_nil mark cuts text), ih]
    rfl
  | case4 cuts c text hmark ih =>
    obtain ⟨field, fields, hfields⟩ :=
      List.exists_cons_of_ne_nil (splitAtMost_ne_nil mark (cuts + 1) text)
    rw [hfields] at ih ⊢
    rw [← ih]
    cases fields with
    | nil => simp [beforeFirst]
    | cons other fields => simp [beforeFirst, List.intercalate_cons_of_ne_nil]

/-- There is one field more than there are cuts at most. -/
theorem length_splitAtMost_le (mark : Char) (cuts : Nat) (text : List Char) :
    (splitAtMost mark cuts text).length ≤ cuts + 1 := by
  fun_induction splitAtMost mark cuts text with
  | case1 => exact Nat.le_refl 1
  | case2 => exact Nat.le_add_left 1 _
  | case3 cuts text ih => exact Nat.succ_le_succ ih
  | case4 cuts c text hmark ih =>
    obtain ⟨field, fields, hfields⟩ :=
      List.exists_cons_of_ne_nil (splitAtMost_ne_nil mark (cuts + 1) text)
    rw [hfields] at ih ⊢
    exact ih

/-- A field does not contain what separates it from the others. -/
theorem of_mem_splitOnP {separates : Char → Bool} {text field : List Char}
    (h : field ∈ text.splitOnP separates) : ∀ c ∈ field, separates c = false := by
  induction text generalizing field with
  | nil =>
    rw [List.splitOnP_nil, List.mem_singleton] at h
    subst h
    exact nofun
  | cons first text ih =>
    rw [List.splitOnP_cons_eq_if_modifyHead] at h
    by_cases hfirst : separates first = true
    · rw [if_pos hfirst] at h
      rcases List.mem_cons.mp h with rfl | hrest
      · exact nofun
      · exact ih hrest
    · rw [if_neg hfirst] at h
      obtain ⟨head, fields, hfields⟩ :=
        List.exists_cons_of_ne_nil (List.splitOnP_ne_nil separates text)
      rw [hfields] at ih h
      rcases List.mem_cons.mp h with rfl | hrest
      · exact List.forall_mem_cons.mpr ⟨by simpa using hfirst, ih List.mem_cons_self⟩
      · exact ih (List.mem_cons_of_mem head hrest)

/-- A field between marks does not contain the mark. -/
theorem not_mem_of_mem_splitAll {mark : Char} {text field : List Char}
    (h : field ∈ splitAll mark text) : mark ∉ field := by
  intro hmark
  have hother := of_mem_splitOnP h mark hmark
  simp at hother

/-- A word is not empty and has no blanks. -/
theorem of_mem_words {text word : List Char} (h : word ∈ words text) :
    word ≠ [] ∧ ∀ c ∈ word, isBlank c = false := by
  obtain ⟨hfield, hne⟩ := List.mem_filter.mp h
  exact ⟨by simpa using hne, of_mem_splitOnP hfield⟩

/-- A blank between two texts separates their words. -/
theorem words_append_blank {c : Char} (hc : isBlank c = true) (text more : List Char) :
    words (text ++ c :: more) = words text ++ words more := by
  rw [words, List.splitOnP_append_cons text more hc, List.filter_append]
  rfl

/-- A text without blanks is a word, if it is not empty. -/
theorem words_of_not_blank {word : List Char} (hne : word ≠ [])
    (h : ∀ c ∈ word, isBlank c = false) : words word = [word] := by
  rw [words, List.splitOnP_eq_singleton h]
  simp [hne]

/-- Words with a space between them are the words of the text that they make up. -/
theorem words_intercalate {many : List (List Char)}
    (h : ∀ word ∈ many, word ≠ [] ∧ ∀ c ∈ word, isBlank c = false) :
    words ([' '].intercalate many) = many := by
  induction many with
  | nil => rfl
  | cons word many ih =>
    obtain ⟨⟨hne, hblank⟩, hmany⟩ := List.forall_mem_cons.mp h
    by_cases hlast : many = []
    · rw [hlast, List.intercalate_singleton, words_of_not_blank hne hblank]
    · rw [List.intercalate_cons_of_ne_nil hlast, List.append_assoc, List.singleton_append,
        words_append_blank isBlank_space, words_of_not_blank hne hblank, ih hmany,
        List.singleton_append]

/-- A text that does not begin with a blank begins with its first word. -/
theorem exists_words_cons {c : Char} (hc : isBlank c = false) (text : List Char) :
    ∃ word others, words (c :: text) = (c :: word) :: others := by
  obtain ⟨first, fields, hfields⟩ := List.exists_cons_of_ne_nil (List.splitOnP_ne_nil isBlank text)
  refine ⟨first, fields.filter (!·.isEmpty), ?_⟩
  rw [words, List.splitOnP_cons_eq_if_modifyHead, hc, if_neg Bool.false_ne_true, hfields,
    List.modifyHead_cons, List.filter_cons_of_pos rfl]

end AnnotatedHelp.Text
