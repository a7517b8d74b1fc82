import Mathlib
import AnnotatedHelp.Text.Token

/-!
# First occurrences of a token

Cutting a text at a token finds its first occurrence, and fails only where the token does not occur.
The first occurrence is described by the text on both sides of it; tokens may overlap themselves, so
"first" is a statement about lengths and not about the characters before the token.
-/

namespace AnnotatedHelp.Text

/-- `token` stands between `before` and `after`, and nowhere in the text further to the left. -/
structure FirstAt (token text before after : List Char) : Prop where
  /-- The text is the part before, the token and the part after. -/
  eq : text = before ++ token ++ after
  /-- Every occurrence begins at this place or behind it. -/
  first : ∀ b a, text = b ++ token ++ a → before.length ≤ b.length

variable {token text before after : List Char}

/-- Nothing is dropped from a text that does not begin with a token. -/
theorem dropToken?_eq_none_iff : dropToken? token text = none ↔ ¬token <+: text := by
  constructor
  · rintro h ⟨rest, hrest⟩
    rw [dropToken?_eq_some_iff.mpr hrest.symm] at h
    cases h
  · intro h
    cases hdrop : dropToken? token text with
    | none => rfl
    | some rest => exact absurd ⟨rest, (dropToken?_eq_some_iff.mp hdrop).symm⟩ h

/-- There is one first occurrence at most. -/
theorem FirstAt.unique {b a : List Char} (h : FirstAt token text before after)
    (h' : FirstAt token text b a) : before = b ∧ after = a := by
  have hl : before.length = b.length :=
    le_antisymm (h.first b a h'.eq) (h'.first before after h.eq)
  have he : before ++ (token ++ after) = b ++ (token ++ a) := by
    rw [← List.append_assoc, ← List.append_assoc, ← h.eq, ← h'.eq]
  obtain ⟨hb, ht⟩ := List.append_inj he hl
  exact ⟨hb, List.append_cancel_left ht⟩

/-- A text with a first occurrence contains the token. -/
theorem FirstAt.found (h : FirstAt token text before after) : token <:+: text :=
  ⟨before, after, h.eq.symm⟩

/-- A cut is made no later than any occurrence. -/
theorem length_le_of_cut (h : cut token text = some (before, after)) {b a : List Char}
    (ht : text = b ++ token ++ a) : before.length ≤ b.length := by
  induction text generalizing before b with
  | nil =>
    have := congrArg List.length (eq_append_of_cut h)
    simp only [List.length_nil, List.length_append] at this
    omega
  | cons c text ih =>
    unfold cut at h
    split at h
    · cases h
      exact Nat.zero_le _
    · next hdrop =>
      obtain ⟨⟨tail, rest⟩, hcut, hpair⟩ := Option.map_eq_some_iff.mp h
      cases hpair
      cases b with
      | nil =>
        rw [List.nil_append] at ht
        rw [dropToken?_eq_some_iff.mpr ht] at hdrop
        cases hdrop
      | cons d b =>
        obtain ⟨_, htail⟩ := List.cons.inj ht
        simpa using ih hcut htail

/-- A cut fails only where the token does not occur. -/
theorem not_found_of_cut_eq_none (h : cut token text = none) : ¬token <:+: text := by
  rintro ⟨b, a, rfl⟩
  induction b with
  | nil =>
    have hdrop : dropToken? token (token ++ a) = some a := dropToken?_eq_some_iff.mpr rfl
    rw [List.nil_append] at h
    cases hx : token ++ a with
    | nil =>
      rw [hx, (List.append_eq_nil_iff.mp hx).1] at h
      simp [cut] at h
    | cons c text =>
      rw [hx] at h hdrop
      simp [cut, hdrop] at h
  | cons c b ih =>
    rw [List.cons_append, List.cons_append, cut] at h
    split at h
    · cases h
    · exact ih (Option.map_eq_none_iff.mp h)

/-- Cutting finds the first occurrence. -/
theorem firstAt_of_cut (h : cut token text = some (before, after)) :
    FirstAt token text before after :=
  ⟨eq_append_of_cut h, fun _ _ ht => length_le_of_cut h ht⟩

/-- A text is cut where the token first occurs. -/
theorem cut_of_firstAt (h : FirstAt token text before after) :
    cut token text = some (before, after) := by
  cases hcut : cut token text with
  | none => exact absurd h.found (not_found_of_cut_eq_none hcut)
  | some pair =>
    obtain ⟨b, a⟩ := pair
    obtain ⟨rfl, rfl⟩ := h.unique (firstAt_of_cut hcut)
    rfl

/-- Text behind the first occurrence does not change where it is. -/
theorem FirstAt.append (h : FirstAt token text before after) (more : List Char) :
    FirstAt token (text ++ more) before (after ++ more) := by
  have heq : text ++ more = before ++ token ++ (after ++ more) := by
    rw [h.eq, List.append_assoc _ after more]
  refine ⟨heq, ?_⟩
  intro b a hsplit
  by_contra hearlier
  have hlength : (b ++ token).length ≤ text.length := by
    rw [h.eq]
    simp only [List.length_append]
    omega
  have hbegins : b ++ token <+: text :=
    List.prefix_of_prefix_length_le ⟨a, hsplit.symm⟩ (List.prefix_append text more) hlength
  obtain ⟨behind, hbehind⟩ := hbegins
  exact hearlier (h.first b behind hbehind.symm)

/-- A cut is the same with further text behind it. -/
theorem cut_append (h : cut token text = some (before, after)) (more : List Char) :
    cut token (text ++ more) = some (before, after ++ more) :=
  cut_of_firstAt ((firstAt_of_cut h).append more)

/-- A token that does not occur in a text, and does not have its last character, occurs behind it
only. -/
theorem behind_of_eq (hnone : ¬token <:+: text) (hlast : ∀ c ∈ text.getLast?, c ∉ token)
    {more b a : List Char} (h : text ++ more = b ++ token ++ a) :
    ∃ front, b = text ++ front ∧ more = front ++ token ++ a := by
  have hsplit : text ++ more = b ++ (token ++ a) := by rw [h, List.append_assoc]
  rcases List.append_eq_append_iff.mp hsplit with ⟨front, hb, hmore⟩ | ⟨overlap, rfl, hrest⟩
  · exact ⟨front, hb, by rw [hmore, List.append_assoc]⟩
  by_cases hlength : token.length ≤ overlap.length
  · have hbegins : token <+: overlap :=
      List.prefix_of_prefix_length_le ⟨a, rfl⟩ ⟨more, hrest.symm⟩ hlength
    exact absurd (hbegins.isInfix.trans (List.suffix_append b overlap).isInfix) hnone
  · -- The occurrence would begin in the text and end behind it.
    have hbegins : overlap <+: token :=
      List.prefix_of_prefix_length_le ⟨more, hrest.symm⟩ ⟨a, rfl⟩ (by omega)
    rcases List.eq_nil_or_concat overlap with rfl | ⟨front, c, rfl⟩
    · exact ⟨[], by simp, by simpa using hrest.symm⟩
    · refine absurd (hbegins.subset (by simp)) (hlast c ?_)
      rw [List.concat_eq_append, ← List.append_assoc, List.getLast?_concat]
      rfl

/-- Behind a text without the token, and whose last character the token does not have, the token
occurs first where it does in what follows. -/
theorem FirstAt.behind (h : FirstAt token text before after) {front : List Char}
    (hnone : ¬token <:+: front) (hlast : ∀ c ∈ front.getLast?, c ∉ token) :
    FirstAt token (front ++ text) (front ++ before) after := by
  refine ⟨by rw [h.eq]; simp only [List.append_assoc], ?_⟩
  intro b a hsplit
  obtain ⟨b, rfl, htext⟩ := behind_of_eq hnone hlast hsplit
  have hle := h.first b a htext
  rw [List.length_append, List.length_append]
  omega

/-- A text that begins with a token has its first occurrence there. -/
theorem firstAt_start (token after : List Char) : FirstAt token (token ++ after) [] after :=
  ⟨rfl, fun _ _ _ => Nat.zero_le _⟩

/-- A token of equal characters occurs first behind a text, if it does not occur in the text and the
text does not end with that character: otherwise it would occur further to the left. -/
theorem firstAt_behind {mark : Char} (hmarks : ∀ c ∈ token, c = mark) (hnone : ¬token <:+: text)
    (hlast : text.getLast? ≠ some mark) (after : List Char) :
    FirstAt token (text ++ token ++ after) text after := by
  have hother : ∀ c ∈ text.getLast?, c ∉ token := fun c hc hmem => hlast (hmarks c hmem ▸ hc)
  simpa using (firstAt_start token after).behind hnone hother

/-- In front of its first occurrence a token does not occur. -/
theorem FirstAt.not_found_before (h : FirstAt token text before after) (hne : token ≠ []) :
    ¬token <:+: before := by
  rintro ⟨b, a, hbefore⟩
  have hearlier : text = b ++ token ++ (a ++ token ++ after) := by
    rw [h.eq, ← hbefore]
    simp only [List.append_assoc]
  have hle := h.first b _ hearlier
  rw [← hbefore] at hle
  simp only [List.length_append] at hle
  exact hne (List.length_eq_zero_iff.mp (by omega))

/-- In front of the first occurrence of a token of equal characters there is another character. -/
theorem FirstAt.getLast?_ne (h : FirstAt token text before after) {mark : Char}
    (hmarks : ∀ c ∈ token, c = mark) : before.getLast? ≠ some mark := by
  intro hlast
  obtain ⟨b, rfl⟩ := List.getLast?_eq_some_iff.mp hlast
  have hmoved : [mark] ++ token = token ++ [mark] := by
    rw [List.eq_replicate_of_mem hmarks, List.singleton_append, ← List.replicate_succ,
      List.replicate_succ']
  have hearlier : text = b ++ token ++ ([mark] ++ after) := by
    rw [h.eq, List.append_assoc b, hmoved]
    simp only [List.append_assoc]
  have hle := h.first b _ hearlier
  rw [List.length_append, List.length_singleton] at hle
  omega

/-- A token occurs exactly where a text can be cut at it. -/
theorem occurs_iff_found : occurs token text = true ↔ token <:+: text := by
  rw [occurs]
  cases h : cut token text with
  | none => simpa using not_found_of_cut_eq_none h
  | some pair => simpa using (firstAt_of_cut h).found

end AnnotatedHelp.Text
