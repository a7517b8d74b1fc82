/-!
# Tokens and cutting at them

A token is a nonempty text that marks a place in a longer text. This module finds the first
occurrence of a token and cuts a text at the places where a separator stands alone. Each cut is
described by what it reconstructs: the part before, the token, the part after.
-/

namespace AnnotatedHelp.Text

/-- What is left of a text that begins with `token`; `none` when it begins otherwise. -/
def dropToken? : (token text : List Char) → Option (List Char)
  | [], text => some text
  | _ :: _, [] => none
  | t :: token, c :: text => if t = c then dropToken? token text else none

/-- A text begins with `token` exactly when it is `token` followed by what is left. -/
theorem dropToken?_eq_some_iff {token text rest : List Char} :
    dropToken? token text = some rest ↔ text = token ++ rest := by
  induction token generalizing text with
  | nil => simp [dropToken?]
  | cons t token ih =>
    cases text with
    | nil => simp [dropToken?]
    | cons c text =>
      by_cases h : t = c
      · simp [dropToken?, h, ih]
      · have h' : ¬c = t := fun e => h e.symm
        simp [dropToken?, h, h']

/-- The text before and after the first occurrence of `token`. -/
def cut (token : List Char) : List Char → Option (List Char × List Char)
  | [] => if token.isEmpty then some ([], []) else none
  | c :: text =>
    match dropToken? token (c :: text) with
    | some rest => some ([], rest)
    | none => (cut token text).map fun (before, after) => (c :: before, after)

/-- A cut loses nothing: the text is the part before, the token and the part after. -/
theorem eq_append_of_cut {token text before after : List Char}
    (h : cut token text = some (before, after)) : text = before ++ token ++ after := by
  induction text generalizing before after with
  | nil =>
    cases token with
    | nil => simp [cut] at h; simp [h]
    | cons t token => simp [cut] at h
  | cons c text ih =>
    unfold cut at h
    split at h
    · next rest hr =>
      simp only [Option.some.injEq, Prod.mk.injEq] at h
      rw [dropToken?_eq_some_iff] at hr
      simp [hr, ← h.1, ← h.2]
    · obtain ⟨⟨b, a⟩, hc, hp⟩ := Option.map_eq_some_iff.1 h
      simp only [Prod.mk.injEq] at hp
      rw [ih hc, ← hp.1, ← hp.2]
      simp

/-- Whether `token` occurs anywhere in the text. -/
def occurs (token text : List Char) : Bool :=
  (cut token text).isSome

/-- A text that is not empty, used to mark a place in other texts. -/
structure Token where
  /-- The characters of the token. -/
  chars : List Char
  /-- A token has at least one character. -/
  nonempty : chars ≠ []
  deriving DecidableEq

namespace Token

/-- The token with the characters of a string, unless the string is empty. -/
def ofString? (s : String) : Option Token :=
  if h : s.toList ≠ [] then some ⟨s.toList, h⟩ else none

/-- The characters of the token as a string. -/
def toString (token : Token) : String :=
  String.ofList token.chars

/-- A token has a positive length. -/
theorem length_pos (token : Token) : 0 < token.chars.length :=
  List.length_pos_iff.2 token.nonempty

/-- What follows a token is shorter than the text that begins with it. -/
theorem length_lt_of_dropToken? (token : Token) {text rest : List Char}
    (h : dropToken? token.chars text = some rest) : rest.length < text.length := by
  rw [dropToken?_eq_some_iff] at h
  have := token.length_pos
  simp [h]
  omega

/-- The part after a cut is shorter than the text. -/
theorem length_lt_of_cut (token : Token) {text before after : List Char}
    (h : cut token.chars text = some (before, after)) : after.length < text.length := by
  have := token.length_pos
  simp [eq_append_of_cut h]
  omega

/-- The number of copies of the token that a text begins with, and the text after them. -/
def leadingRun (token : Token) (text : List Char) : Nat × List Char :=
  match h : dropToken? token.chars text with
  | none => (0, text)
  | some rest =>
    have := token.length_lt_of_dropToken? h
    let (copies, after) := leadingRun token rest
    (copies + 1, after)
termination_by text.length

/-- The text after a run of copies is no longer than the text. -/
theorem leadingRun_length_le (token : Token) (text : List Char) :
    (token.leadingRun text).2.length ≤ text.length := by
  fun_induction leadingRun token text with
  | case1 => simp
  | case2 text rest h hlt copies after heq ih =>
    simp only [heq] at ih
    simp only
    omega

/-- A run of at least one copy leaves a shorter text. -/
theorem leadingRun_length_lt (token : Token) {text : List Char}
    (h : (token.leadingRun text).1 ≠ 0) : (token.leadingRun text).2.length < text.length := by
  unfold leadingRun at h ⊢
  split
  · next hd => split at h <;> simp_all
  · next rest hd =>
    have := token.length_lt_of_dropToken? hd
    have := token.leadingRun_length_le rest
    simp only
    omega

end Token

/-- Puts a text before the first of the given fields. -/
def beforeFirst (text : List Char) : List (List Char) → List (List Char)
  | [] => [text]
  | field :: fields => (text ++ field) :: fields

/-- Cuts a text at every separator that stands alone. A run of two or more separators is ordinary
text of the field it stands in, so a text always has at least one field. -/
def splitAlone (separator : Token) (text : List Char) : List (List Char) :=
  match text with
  | [] => [[]]
  | c :: rest =>
    match hr : separator.leadingRun (c :: rest) with
    | (0, _) => beforeFirst [c] (splitAlone separator rest)
    | (1, after) =>
      have : after.length < (c :: rest).length := by
        have h : (separator.leadingRun (c :: rest)).1 ≠ 0 := by simp [hr]
        simpa [hr] using separator.leadingRun_length_lt h
      [] :: splitAlone separator after
    | (copies + 2, after) =>
      have : after.length < (c :: rest).length := by
        have h : (separator.leadingRun (c :: rest)).1 ≠ 0 := by simp [hr]
        simpa [hr] using separator.leadingRun_length_lt h
      beforeFirst (List.replicate (copies + 2) separator.chars).flatten
        (splitAlone separator after)
termination_by text.length
decreasing_by
  · simp
  · exact this
  · exact this

/-- Cuts a text at the first `cuts` occurrences of a character. -/
def splitAtMost (mark : Char) : (cuts : Nat) → List Char → List (List Char)
  | 0, text => [text]
  | _ + 1, [] => [[]]
  | cuts + 1, c :: text =>
    if c = mark then [] :: splitAtMost mark cuts text
    else beforeFirst [c] (splitAtMost mark (cuts + 1) text)
termination_by _ text => text.length

/-- The fields of a text between the occurrences of a character. -/
def splitAll (mark : Char) (text : List Char) : List (List Char) :=
  text.splitOn mark

end AnnotatedHelp.Text
