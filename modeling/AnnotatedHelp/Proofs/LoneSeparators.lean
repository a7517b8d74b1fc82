import Mathlib
import AnnotatedHelp.Proofs.Occurrence

/-!
# Separators that stand alone

A text is read from left to right, one run of separators after another. A run is as long as copies of
the separator follow each other, and only a run of one copy cuts the text; so what a field looks like
depends on where reading came to it. Reading a field by itself comes to the same runs: a field begins
where reading goes on, and no run reaches beyond its end.
-/

namespace AnnotatedHelp.Text

namespace Token

variable {token : Token} {text after : List Char}

/-- The copies that a text begins with come before a text that begins with none. -/
theorem eq_of_leadingRun {copies : Nat} (h : token.leadingRun text = (copies, after)) :
    text = (List.replicate copies token.chars).flatten ++ after ∧ ¬token.chars <+: after := by
  fun_induction leadingRun token text generalizing copies with
  | case1 text hdrop =>
    cases h
    exact ⟨rfl, dropToken?_eq_none_iff.mp hdrop⟩
  | case2 text rest hdrop _ copies' after' hrun ih =>
    cases h
    obtain ⟨hrest, hafter⟩ := ih hrun
    refine ⟨?_, hafter⟩
    rw [dropToken?_eq_some_iff.mp hdrop, List.replicate_succ, List.flatten_cons, List.append_assoc,
      ← hrest]

/-- A run of copies is found in front of a text that begins with none. -/
theorem leadingRun_flatten (h : ¬token.chars <+: after) (copies : Nat) :
    token.leadingRun ((List.replicate copies token.chars).flatten ++ after) = (copies, after) := by
  induction copies with
  | zero =>
    have hdrop := dropToken?_eq_none_iff.mpr h
    rw [List.replicate_zero, List.flatten_nil, List.nil_append, leadingRun]
    split
    · rfl
    · next rest hrest => cases hdrop.symm.trans hrest
  | succ copies ih =>
    have hdrop : dropToken? token.chars
        ((List.replicate (copies + 1) token.chars).flatten ++ after) =
          some ((List.replicate copies token.chars).flatten ++ after) := by
      rw [dropToken?_eq_some_iff, List.replicate_succ, List.flatten_cons, List.append_assoc]
    rw [leadingRun]
    split
    · next hnone => cases hnone.symm.trans hdrop
    · next rest hrest =>
      cases hrest.symm.trans hdrop
      rw [ih]

end Token

variable {separator : Token} {text : List Char} {fields : List (List Char)}

/-- How a text is cut. A run of separators ends where no further one follows; it cuts the text if it
is a single one, and belongs to the field around it if not. -/
inductive CutAlone (separator : Token) : List Char → List (List Char) → Prop where
  /-- Nothing is left. -/
  | nil : CutAlone separator [] [[]]
  /-- A character at which no separator begins. -/
  | other {c : Char} {rest : List Char} {fields : List (List Char)}
      (hnone : ¬separator.chars <+: c :: rest) (hrest : CutAlone separator rest fields) :
      CutAlone separator (c :: rest) (beforeFirst [c] fields)
  /-- A single separator. -/
  | alone {after : List Char} {fields : List (List Char)} (hnone : ¬separator.chars <+: after)
      (hafter : CutAlone separator after fields) :
      CutAlone separator (separator.chars ++ after) ([] :: fields)
  /-- A run of two or more separators. -/
  | run {copies : Nat} {after : List Char} {fields : List (List Char)}
      (hnone : ¬separator.chars <+: after) (hafter : CutAlone separator after fields) :
      CutAlone separator ((List.replicate (copies + 2) separator.chars).flatten ++ after)
        (beforeFirst (List.replicate (copies + 2) separator.chars).flatten fields)

/-- A text is cut into its fields. -/
theorem cutAlone_splitAlone (separator : Token) (text : List Char) :
    CutAlone separator text (splitAlone separator text) := by
  fun_induction splitAlone separator text with
  | case1 => exact .nil
  | case2 c rest after hrun ih =>
    obtain ⟨htext, hnone⟩ := Token.eq_of_leadingRun hrun
    obtain rfl : c :: rest = after := htext
    exact .other hnone ih
  | case3 c rest after hrun _ ih =>
    obtain ⟨htext, hnone⟩ := Token.eq_of_leadingRun hrun
    rw [htext, List.replicate_one, List.flatten_singleton]
    exact .alone hnone ih
  | case4 c rest copies after hrun _ ih =>
    obtain ⟨htext, hnone⟩ := Token.eq_of_leadingRun hrun
    rw [htext]
    exact .run hnone ih

/-- A text is cut at its start as the run of separators there says. -/
theorem splitAlone_eq (separator : Token) (c : Char) (rest : List Char) :
    splitAlone separator (c :: rest) =
      match separator.leadingRun (c :: rest) with
      | (0, _) => beforeFirst [c] (splitAlone separator rest)
      | (1, after) => [] :: splitAlone separator after
      | (copies + 2, after) =>
        beforeFirst (List.replicate (copies + 2) separator.chars).flatten
          (splitAlone separator after) := by
  rw [splitAlone]
  split <;> next hrun => simp only [hrun]

/-- The fields of a text are those that it is cut into. -/
theorem splitAlone_of_cutAlone (h : CutAlone separator text fields) :
    splitAlone separator text = fields := by
  induction h with
  | nil => rw [splitAlone]
  | @other c rest fields hnone _ ih =>
    have hrun : separator.leadingRun (c :: rest) = (0, c :: rest) := Token.leadingRun_flatten hnone 0
    rw [splitAlone_eq, hrun, ih]
  | @alone after fields hnone _ ih =>
    have hrun := Token.leadingRun_flatten hnone 1
    rw [List.replicate_one, List.flatten_singleton] at hrun
    obtain ⟨c, chars, hchars⟩ := List.exists_cons_of_ne_nil separator.nonempty
    rw [hchars, List.cons_append] at hrun ⊢
    rw [splitAlone_eq, hrun]
    exact congrArg ([] :: ·) ih
  | @run copies after fields hnone _ ih =>
    have hrun := Token.leadingRun_flatten hnone (copies + 2)
    obtain ⟨c, chars, hchars⟩ : ∃ c chars,
        (List.replicate (copies + 2) separator.chars).flatten ++ after = c :: chars := by
      obtain ⟨c, chars, hchars⟩ := List.exists_cons_of_ne_nil separator.nonempty
      exact ⟨c, _, by rw [List.replicate_succ, List.flatten_cons, hchars]; rfl⟩
    rw [hchars] at hrun ⊢
    rw [splitAlone_eq, hrun]
    exact congrArg (beforeFirst _) ih

/-- A text is cut into at least one field. -/
theorem CutAlone.ne_nil (h : CutAlone separator text fields) : fields ≠ [] := by
  cases h with
  | nil => exact List.cons_ne_nil _ _
  | alone => exact List.cons_ne_nil _ _
  | @other c rest fields _ _ => cases fields <;> exact List.cons_ne_nil _ _
  | @run copies after fields _ _ => cases fields <;> exact List.cons_ne_nil _ _

/-- A text before the first of some fields is joined before them. -/
theorem intercalate_beforeFirst (front : List Char) {fields : List (List Char)} (h : fields ≠ []) :
    separator.chars.intercalate (beforeFirst front fields) =
      front ++ separator.chars.intercalate fields := by
  obtain ⟨field, rest, rfl⟩ := List.exists_cons_of_ne_nil h
  cases rest with
  | nil => simp [beforeFirst]
  | cons other rest => simp [beforeFirst, List.intercalate_cons_of_ne_nil]

/-- The fields, joined by the separator, give the text back. -/
theorem CutAlone.intercalate (h : CutAlone separator text fields) :
    separator.chars.intercalate fields = text := by
  induction h with
  | nil => exact List.intercalate_singleton
  | other _ hrest ih => rw [intercalate_beforeFirst _ hrest.ne_nil, ih]; rfl
  | alone _ hafter ih => rw [List.intercalate_cons_of_ne_nil hafter.ne_nil, ih, List.nil_append]
  | run _ hafter ih => rw [intercalate_beforeFirst _ hafter.ne_nil, ih]

/-- The first field begins the text. -/
theorem CutAlone.first_prefix {first : List Char} {others : List (List Char)}
    (h : CutAlone separator text (first :: others)) : first <+: text := by
  rw [← h.intercalate]
  cases others with
  | nil => rw [List.intercalate_singleton]
  | cons other others =>
    rw [List.intercalate_cons_of_ne_nil (List.cons_ne_nil _ _), List.append_assoc]
    exact List.prefix_append first _

/-- A field by itself is not cut: reading it comes to the runs that reading the text came to. -/
theorem CutAlone.of_mem {field : List Char} (h : CutAlone separator text fields)
    (hfield : field ∈ fields) : CutAlone separator field [field] := by
  induction h generalizing field with
  | nil =>
    obtain rfl := List.mem_singleton.mp hfield
    exact .nil
  | @other c rest fields hnone hrest ih =>
    obtain ⟨first, others, rfl⟩ := List.exists_cons_of_ne_nil hrest.ne_nil
    rcases List.mem_cons.mp hfield with rfl | hothers
    · refine .other (fun hbegins => hnone (hbegins.trans ?_)) (ih List.mem_cons_self)
      exact (List.prefix_cons_inj c).mpr hrest.first_prefix
    · exact ih (List.mem_cons_of_mem first hothers)
  | @alone after fields hnone _ ih =>
    rcases List.mem_cons.mp hfield with rfl | hothers
    · exact .nil
    · exact ih hothers
  | @run copies after fields hnone hafter ih =>
    obtain ⟨first, others, rfl⟩ := List.exists_cons_of_ne_nil hafter.ne_nil
    rcases List.mem_cons.mp hfield with rfl | hothers
    · exact .run (fun hbegins => hnone (hbegins.trans hafter.first_prefix)) (ih List.mem_cons_self)
    · exact ih (List.mem_cons_of_mem first hothers)

/-- Where the separators between fields begin if they have a width and the first field begins at a
place. -/
def cutPlaces (width start : Nat) : List (List Char) → List Nat
  | [] | [_] => []
  | field :: other :: fields =>
    (start + field.length) :: cutPlaces width (start + field.length + width) (other :: fields)

/-- A mark stands at a place of a text, and there is no further one directly beside it. -/
structure StandsAlone (mark : Char) (text : List Char) (place : Nat) : Prop where
  /-- The mark stands there. -/
  here : text[place]? = some mark
  /-- There is none directly before it. -/
  before : ∀ i, i + 1 = place → text[i]? ≠ some mark
  /-- There is none directly behind it. -/
  behind : text[place + 1]? ≠ some mark

/-- Further fields are cut off behind the first one. -/
theorem cutPlaces_cons (width start : Nat) (field : List Char) {fields : List (List Char)}
    (h : fields ≠ []) :
    cutPlaces width start (field :: fields) =
      (start + field.length) :: cutPlaces width (start + field.length + width) fields := by
  obtain ⟨other, rest, rfl⟩ := List.exists_cons_of_ne_nil h
  rfl

/-- A text before the first field moves the cuts. -/
theorem cutPlaces_beforeFirst (width start : Nat) (front : List Char) {fields : List (List Char)}
    (h : fields ≠ []) :
    cutPlaces width start (beforeFirst front fields) =
      cutPlaces width (start + front.length) fields := by
  obtain ⟨field, rest, rfl⟩ := List.exists_cons_of_ne_nil h
  cases rest with
  | nil => rfl
  | cons other rest =>
    simp only [beforeFirst, cutPlaces, List.length_append, Nat.add_assoc]

variable {mark : Char} {front after : List Char}

/-- The character between two texts is a mark that stands alone if neither text has one beside it. -/
theorem standsAlone_between {c : Char} :
    StandsAlone mark (front ++ c :: after) front.length ↔
      c = mark ∧ front.getLast? ≠ some mark ∧ after.head? ≠ some mark := by
  have hhere : (front ++ c :: after)[front.length]? = some c := by
    rw [List.getElem?_append_right (Nat.le_refl _), Nat.sub_self, List.getElem?_cons_zero]
  have hbehind : (front ++ c :: after)[front.length + 1]? = after.head? := by
    rw [List.getElem?_append_right (Nat.le_add_right _ 1), Nat.add_sub_cancel_left,
      List.getElem?_cons_succ, List.head?_eq_getElem?]
  have hbefore : ∀ i, i + 1 = front.length → (front ++ c :: after)[i]? = front.getLast? := by
    intro i hi
    rw [List.getElem?_append_left (by omega), List.getLast?_eq_getElem?, ← hi, Nat.add_sub_cancel]
  constructor
  · intro h
    refine ⟨Option.some.inj (hhere.symm.trans h.here), ?_, hbehind ▸ h.behind⟩
    intro hlast
    obtain ⟨start, rfl⟩ := List.getLast?_eq_some_iff.mp hlast
    have hlength : start.length + 1 = (start ++ [mark]).length := by
      rw [List.length_append, List.length_singleton]
    exact h.before start.length hlength ((hbefore _ hlength).trans hlast)
  · rintro ⟨rfl, hlast, hhead⟩
    exact ⟨hhere, fun i hi => hbefore i hi ▸ hlast, hbehind ▸ hhead⟩

/-- In a run of two or more marks none stands alone. -/
theorem not_standsAlone_of_run {copies place : Nat} (hlow : front.length ≤ place)
    (hhigh : place < front.length + (copies + 2)) :
    ¬StandsAlone mark (front ++ (List.replicate (copies + 2) mark ++ after)) place := by
  have hrun : ∀ i, front.length ≤ i → i < front.length + (copies + 2) →
      (front ++ (List.replicate (copies + 2) mark ++ after))[i]? = some mark := by
    intro i hi hi'
    rw [List.getElem?_append_right hi, List.getElem?_append_left (by rw [List.length_replicate]; omega),
      List.getElem?_replicate_of_lt (by omega)]
  intro h
  by_cases hfirst : place = front.length
  · exact h.behind (hrun (place + 1) (by omega) (by omega))
  · exact h.before (place - 1) (by omega) (hrun (place - 1) (by omega) (by omega))

/-- A separator of one character cuts a text exactly where it stands alone. The text is read behind
another one that does not end in the middle of a run. -/
theorem CutAlone.mem_cutPlaces_iff (hmark : separator.chars = [mark])
    (h : CutAlone separator text fields) (place : Nat) (front : List Char)
    (hfront : front.getLast? ≠ some mark ∨ text.head? ≠ some mark) :
    place ∈ cutPlaces 1 front.length fields ↔
      front.length ≤ place ∧ StandsAlone mark (front ++ text) place := by
  have hbegins : ∀ text : List Char, separator.chars <+: text ↔ text.head? = some mark := by
    intro text
    rw [hmark, List.singleton_prefix_iff_head?_eq_some]
  induction h generalizing front with
  | nil =>
    refine iff_of_false List.not_mem_nil ?_
    rintro ⟨hplace, h⟩
    have hhere := h.here
    rw [List.append_nil, List.getElem?_eq_none hplace] at hhere
    cases hhere
  | @other c rest fields hnone hrest ih =>
    have hc : c ≠ mark := fun hc => hnone ((hbegins _).mpr (congrArg some hc))
    have hlast : (front ++ [c]).getLast? ≠ some mark := by
      rw [List.getLast?_concat]
      exact fun h => hc (Option.some.inj h)
    have hplaces := ih (front ++ [c]) (.inl hlast)
    rw [List.append_assoc, List.singleton_append, List.length_append, List.length_singleton]
      at hplaces
    rw [cutPlaces_beforeFirst 1 _ [c] hrest.ne_nil, List.length_singleton]
    refine hplaces.trans (and_congr_left fun h => ⟨fun hle => by omega, fun hle => ?_⟩)
    by_contra hlt
    obtain rfl : place = front.length := by omega
    exact hc (standsAlone_between.mp h).1
  | @alone after fields hnone hafter ih =>
    rw [hmark, List.singleton_append] at hfront ⊢
    have hhead : after.head? ≠ some mark := fun h => hnone ((hbegins after).mpr h)
    have hlast : front.getLast? ≠ some mark := hfront.resolve_right (fun h => h rfl)
    have hplaces := ih (front ++ [mark]) (.inr hhead)
    rw [List.append_assoc, List.singleton_append, List.length_append, List.length_singleton]
      at hplaces
    rw [cutPlaces_cons 1 _ [] hafter.ne_nil, List.mem_cons, List.length_nil, Nat.add_zero]
    constructor
    · rintro (rfl | hplace)
      · exact ⟨Nat.le_refl _, standsAlone_between.mpr ⟨rfl, hlast, hhead⟩⟩
      · obtain ⟨hle, h⟩ := hplaces.mp hplace
        exact ⟨by omega, h⟩
    · rintro ⟨hle, h⟩
      by_cases hplace : place = front.length
      · exact .inl hplace
      · exact .inr (hplaces.mpr ⟨by omega, h⟩)
  | @run copies after fields hnone hafter ih =>
    rw [hmark, List.flatten_replicate_singleton] at hfront ⊢
    have hhead : after.head? ≠ some mark := fun h => hnone ((hbegins after).mpr h)
    have hplaces := ih (front ++ List.replicate (copies + 2) mark) (.inr hhead)
    rw [List.append_assoc, List.length_append, List.length_replicate] at hplaces
    rw [cutPlaces_beforeFirst 1 _ _ hafter.ne_nil, List.length_replicate]
    refine hplaces.trans (and_congr_left fun h => ⟨fun hle => by omega, fun hle => ?_⟩)
    by_contra hlt
    exact not_standsAlone_of_run hle (by omega) h

/-- Cutting a text at the separators that stand alone is lossless and complete. The fields, joined by
the separator, give the text back; no field can be cut further; and a separator of one character cuts
the text exactly at the places where it stands with none directly beside it. -/
theorem splitAlone_lossless (separator : Token) (text : List Char) :
    separator.chars.intercalate (splitAlone separator text) = text ∧
      (∀ field ∈ splitAlone separator text, splitAlone separator field = [field]) ∧
      ∀ mark, separator.chars = [mark] → ∀ place,
        place ∈ cutPlaces separator.chars.length 0 (splitAlone separator text) ↔
          StandsAlone mark text place := by
  have hcut := cutAlone_splitAlone separator text
  refine ⟨hcut.intercalate, fun field hfield => splitAlone_of_cutAlone (hcut.of_mem hfield), ?_⟩
  intro mark hmark place
  rw [hmark]
  exact (hcut.mem_cutPlaces_iff hmark place [] (.inl nofun)).trans
    (and_iff_right (Nat.zero_le place))

/-- A separator of one character. -/
def slashToken : Token := ⟨"/".toList, by decide⟩

/-- A separator that overlaps itself. -/
def doubleToken : Token := ⟨"aa".toList, by decide⟩

/-- Three letters hold a separator and a rest; five letters are a run of two and a rest, which reading
that field by itself finds as well. Slashes cut the text at its ends, too. -/
theorem splitAlone_lossless_overlapping :
    splitAlone doubleToken "aaabaaaaa".toList = [[], "abaaaaa".toList] ∧
      splitAlone doubleToken "abaaaaa".toList = ["abaaaaa".toList] ∧
      splitAlone slashToken "/a//b/c/".toList = [[], "a//b".toList, "c".toList, []] ∧
      ∀ place, place ∈ [0, 5, 7] ↔ StandsAlone '/' "/a//b/c/".toList place := by
  have hdouble : splitAlone doubleToken "aaabaaaaa".toList = [[], "abaaaaa".toList] := by
    decide +kernel
  have hslashes : splitAlone slashToken "/a//b/c/".toList = [[], "a//b".toList, "c".toList, []] := by
    decide +kernel
  have hmember : "abaaaaa".toList ∈ splitAlone doubleToken "aaabaaaaa".toList := by
    rw [hdouble]
    exact .tail _ (.head _)
  have hplaces := (splitAlone_lossless slashToken "/a//b/c/".toList).2.2 '/' rfl
  rw [hslashes] at hplaces
  exact ⟨hdouble, (splitAlone_lossless doubleToken _).2.1 _ hmember, hslashes, hplaces⟩

end AnnotatedHelp.Text
