import Mathlib
import AnnotatedHelp.Proofs.Occurrence
import AnnotatedHelp.Proofs.Fields
import AnnotatedHelp.Proofs.LineComposition

/-!
# Templates one beside another

A template written directly behind another one shares a line with it. Its tokens are those of both
without the newline between them, unless their texts run into each other: a text that ends with an
opening bracket would take part in the brackets of a directive behind it.
-/

namespace AnnotatedHelp.Template

open Text

/-- How a line is read: up to the first directive it is text, and behind the directive it is read
in the same way. -/
inductive Reads : List Char → List Token → Prop where
  /-- A line without a directive. -/
  | plain {text : List Char} (hstart : cut directiveStart.chars text = none) :
      Reads text (textToken text)
  /-- A line with a directive. -/
  | directive {text before opened body rest : List Char} {directive : Token} {tokens : List Token}
      (hstart : cut directiveStart.chars text = some (before, opened))
      (hend : cut directiveEnd.chars opened = some (body, rest))
      (hbody : classify body = .ok directive) (hrest : Reads rest tokens) :
      Reads text (textToken before ++ directive :: tokens)

/-- The tokens of a line are those it is read as. -/
theorem lineTokens_ok_iff {text : List Char} {tokens : List Token} :
    lineTokens text = .ok tokens ↔ Reads text tokens := by
  constructor
  · intro h
    fun_induction lineTokens text generalizing tokens with
    | case1 text hstart =>
      cases h
      exact .plain hstart
    | case2 text before opened hstart hend => cases h
    | case3 text before opened hstart body rest hend _ ih =>
      obtain ⟨directive, hbody, h⟩ := Outcome.bind_ok_iff.mp h
      obtain ⟨others, hrest, h⟩ := Outcome.bind_ok_iff.mp h
      cases h
      exact .directive hstart hend hbody (ih hrest)
  · intro h
    induction h with
    | plain hstart =>
      rw [lineTokens]
      split
      · rfl
      · next hcut => cases hstart.symm.trans hcut
    | directive hstart hend hbody _ ih =>
      rw [lineTokens]
      split
      · next hcut => cases hstart.symm.trans hcut
      · next hcut =>
        cases hstart.symm.trans hcut
        split
        · next hclose => cases hend.symm.trans hclose
        · next hclose =>
          cases hend.symm.trans hclose
          rw [hbody, ih]
          rfl

/-- A text and one behind it are read as they are alone: the text ends with a directive or with an
empty line, or the other one begins with a directive and the text does not end with a bracket that
would open it earlier. -/
def Joins (tokens : List Token) (text more : List Char) : Prop :=
  (∀ shown, tokens.getLast? ≠ some (.text shown)) ∨
    text.getLast? ≠ some '[' ∧ directiveStart.chars <+: more

/-- Texts that join at their end join at the end of any part behind which nothing was cut. -/
theorem Joins.suffix {before tokens : List Token} {text rest more : List Char}
    (h : Joins (before ++ tokens) text more) (hrest : rest <:+ text) : Joins tokens rest more := by
  cases h with
  | inl hlast =>
    refine .inl ?_
    intro shown hshown
    refine hlast shown ?_
    rw [List.getLast?_append, hshown]
    rfl
  | inr hdirective =>
    obtain ⟨hlast, hmore⟩ := hdirective
    refine .inr ⟨?_, hmore⟩
    intro hbracket
    obtain ⟨start, rfl⟩ := hrest
    refine hlast ?_
    rw [List.getLast?_append, hbracket]
    rfl

/-- The opening brackets are equal. -/
theorem eq_of_mem_directiveStart {c : Char} (h : c ∈ directiveStart.chars) : c = '[' := by
  simpa [directiveStart] using h

/-- A line behind another one is read as it is alone. -/
theorem Reads.append {text more : List Char} {tokens others : List Token} (h : Reads text tokens)
    (hmore : Reads more others) (hjoins : Joins tokens text more) :
    Reads (text ++ more) (tokens ++ others) := by
  induction h with
  | @plain text hstart =>
    cases text with
    | nil => exact hmore
    | cons c text =>
      cases hjoins with
      | inl hlast => exact absurd rfl (hlast (c :: text))
      | inr hdirective =>
        obtain ⟨hlast, behind, rfl⟩ := hdirective
        have hbehind : cut directiveStart.chars (c :: text ++ (directiveStart.chars ++ behind)) =
            some (c :: text, behind) := by
          rw [← List.append_assoc]
          exact cut_of_firstAt (firstAt_behind (fun _ => eq_of_mem_directiveStart)
            (not_found_of_cut_eq_none hstart) hlast behind)
        have hnothing : ¬directiveStart.chars <:+: [] := by decide
        have halone : cut directiveStart.chars (directiveStart.chars ++ behind) =
            some ([], behind) :=
          cut_of_firstAt (firstAt_behind (fun _ => eq_of_mem_directiveStart) hnothing nofun behind)
        cases hmore with
        | plain hnone => cases hnone.symm.trans halone
        | directive hfirst hend hbody hrest =>
          cases hfirst.symm.trans halone
          exact .directive hbehind hend hbody hrest
  | @directive text before opened body rest directive tokens hstart hend hbody hrest ih =>
    have hsuffix : rest <:+ text := by
      rw [eq_append_of_cut hstart, eq_append_of_cut hend]
      exact (List.suffix_append _ rest).trans (List.suffix_append _ _)
    have htail : Joins tokens rest more := by
      rw [List.append_cons] at hjoins
      exact hjoins.suffix hsuffix
    rw [List.append_assoc, List.cons_append]
    exact .directive (cut_append hstart more) (cut_append hend more) hbody (ih htail)

/-- A line that is read as beginning with something else than text begins with a directive. -/
theorem Reads.begins {text : List Char} {first : Token} {rest : List Token}
    (h : Reads text (first :: rest)) (hfirst : ∀ shown, first ≠ .text shown) :
    directiveStart.chars <+: text := by
  generalize htokens : first :: rest = tokens at h
  cases h with
  | plain hstart =>
    cases text with
    | nil => cases htokens
    | cons c text =>
      cases htokens
      exact absurd rfl (hfirst (c :: text))
  | @directive _ before opened _ _ _ _ hstart hend hbody hrest =>
    cases before with
    | nil => exact ⟨opened, (eq_append_of_cut hstart).symm⟩
    | cons c before =>
      cases htokens
      exact absurd rfl (hfirst (c :: before))

/-- The tokens of lines are those of the first ones and those of the lines under them. -/
theorem exists_of_tokensFrom_append {line : Nat} {texts more : List (List Char)}
    {placed : List Placed} (h : tokensFrom line (texts ++ more) = .ok placed) :
    ∃ above below, tokensFrom line texts = .ok above ∧
      tokensFrom (line + texts.length) more = .ok below ∧ placed = above ++ below := by
  induction texts generalizing line placed with
  | nil => exact ⟨[], placed, rfl, h, rfl⟩
  | cons text texts ih =>
    obtain ⟨first, rest, hfirst, hrest, rfl⟩ := tokensFrom_cons_ok_iff.mp h
    obtain ⟨above, below, habove, hbelow, rfl⟩ := ih hrest
    have hline : line + 1 + texts.length = line + (text :: texts).length := by
      rw [List.length_cons]
      omega
    exact ⟨_, below, tokensFrom_cons_ok_iff.mpr ⟨first, above, hfirst, habove, rfl⟩,
      hline ▸ hbelow, (List.append_assoc _ _ _).symm⟩

/-- A template directly behind another one has its own tokens, further down; the newline between
the two is gone. -/
theorem tokens_beside {template beside : String} {placed others : List Placed} {last : Nat}
    (h : tokens template = .ok (placed ++ [⟨last, .newline⟩])) (hbeside : tokens beside = .ok others)
    (hjoins : Joins (placed.map (·.token)) template.toList beside.toList) :
    ∃ lines, tokens (template ++ beside) = .ok (placed ++ others.map (Placed.moved lines)) := by
  obtain ⟨first, more, hmore⟩ :=
    List.exists_cons_of_ne_nil (List.splitOn_ne_nil '\n' beside.toList)
  obtain ⟨texts, text, htexts⟩ : ∃ texts text, splitAll '\n' template.toList = texts ++ [text] :=
    ⟨_, _, (List.dropLast_append_getLast (List.splitOn_ne_nil '\n' template.toList)).symm⟩
  refine ⟨texts.length, ?_⟩
  rw [tokens, htexts] at h
  obtain ⟨above, below, habove, hbelow, hplaced⟩ := exists_of_tokensFrom_append h
  -- The last line of the template is read alone, and the first one behind it as well.
  obtain ⟨own, none, hown, hnone, rfl⟩ := tokensFrom_cons_ok_iff.mp hbelow
  cases hnone
  have hmoved : tokensFrom (1 + texts.length) (first :: more) =
      .ok (others.map (Placed.moved texts.length)) := by
    refine tokensFrom_moved ?_ texts.length
    rw [← hbeside, tokens]
    exact congrArg (tokensFrom 1) hmore.symm
  obtain ⟨behind, rest, hbehind, hrest, hothers⟩ := tokensFrom_cons_ok_iff.mp hmoved
  have hends : placed = above ++ own.map (Placed.mk (1 + texts.length)) := by
    rw [List.append_nil, List.map_append, ← List.append_assoc] at hplaced
    exact (List.append_inj' hplaced rfl).1
  have hline : Joins own text first := by
    have hown : placed.map (·.token) = above.map (·.token) ++ own := by
      rw [hends, List.map_append, List.map_map]
      exact congrArg (above.map (·.token) ++ ·) (List.map_id own)
    rw [hown] at hjoins
    cases hjoins.suffix (suffix_of_splitAll htexts) with
    | inl hlast => exact .inl hlast
    | inr hdirective =>
      exact .inr ⟨hdirective.1, prefix_of_splitAll hmore hdirective.2 (by decide)⟩
  have hread : lineTokens (text ++ first) = .ok (own ++ behind) :=
    lineTokens_ok_iff.mpr
      ((lineTokens_ok_iff.mp hown).append (lineTokens_ok_iff.mp hbehind) hline)
  have hjoined : splitAll '\n' (template ++ beside).toList = texts ++ (text ++ first) :: more := by
    rw [String.toList_append]
    exact splitAll_append htexts hmore
  have hunder : tokensFrom (1 + texts.length) ((text ++ first) :: more) =
      .ok (own.map (Placed.mk (1 + texts.length)) ++ others.map (Placed.moved texts.length)) := by
    refine tokensFrom_cons_ok_iff.mpr ⟨_, rest, hread, hrest, ?_⟩
    rw [← hothers]
    simp only [List.map_append, List.append_assoc]
  rw [tokens, hjoined, hends, List.append_assoc]
  exact tokensFrom_append habove hunder

/-- A template whose first token is neither text nor a newline begins with a directive. -/
theorem begins_of_tokens {template : String} {first : Placed} {rest : List Placed}
    (h : tokens template = .ok (first :: rest)) (htext : ∀ shown, first.token ≠ .text shown)
    (hnewline : first.token ≠ .newline) : directiveStart.chars <+: template.toList := by
  obtain ⟨text, texts, htexts⟩ :=
    List.exists_cons_of_ne_nil (List.splitOn_ne_nil '\n' template.toList)
  have hlines : tokensFrom 1 (text :: texts) = .ok (first :: rest) := by
    rw [← h, tokens]
    exact congrArg (tokensFrom 1) htexts.symm
  obtain ⟨own, others, hown, -, hplaced⟩ := tokensFrom_cons_ok_iff.mp hlines
  cases own with
  | nil =>
    obtain ⟨rfl, -⟩ := List.cons.inj hplaced
    exact absurd rfl hnewline
  | cons token own =>
    obtain ⟨rfl, -⟩ := List.cons.inj hplaced
    exact ((lineTokens_ok_iff.mp hown).begins htext).trans (first_prefix_of_splitAll htexts)

end AnnotatedHelp.Template
