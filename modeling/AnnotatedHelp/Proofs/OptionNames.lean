import Mathlib
import AnnotatedHelp.Definition.Name

/-!
# The rule for names of options

The flags of an option are looked through with a candidate at hand that can be replaced, and left at
the first flag that asks for help or ends the options. This comes to a rule about the first flag of a
kind: a reserved flag before all others, then a name of at least two characters, then any name at all.
The number of an option is used only where the rule finds nothing.
-/

namespace AnnotatedHelp.Name

/-- A text that begins with characters is not empty. -/
theorem toList_append_ne_nil {start : String} (h : start ≠ "") (rest : String) :
    (start ++ rest).toList ≠ [] := by
  rw [String.toList_append]
  exact List.append_ne_nil_of_left_ne_nil (mt String.toList_eq_nil_iff.mp h) _

/-- The name that a flag stands for by itself: a question mark asks for help, and two dashes end the
options. -/
def reserved? (flag : List Char) : Option (List Char) :=
  if flag = "-?".toList ∨ flag = "/?".toList then some "help".toList
  else if flag = "--".toList then some "end_of_options".toList
  else none

/-- The first candidate of at least two characters, else the first one that is not empty. -/
def best? (candidates : List (List Char)) : Option (List Char) :=
  (candidates.find? fun name => 2 ≤ name.length).or (candidates.find? fun name => name ≠ [])

/-- The rule for the name of an option: what the first reserved flag stands for, else the best of the
names that the flags leave, else a numbered name. -/
def firstMatch (number : Nat) (flags : List (List Char)) : List Char :=
  ((flags.findSome? reserved?).or (best? (flags.map ofText))).getD ("option_" ++ number.repr).toList

/-- An empty candidate is as good as none. -/
theorem best?_cons_nil (candidates : List (List Char)) :
    best? ([] :: candidates) = best? candidates := rfl

/-- A candidate of two characters is the best one if it comes first. -/
theorem best?_cons_of_long {name : List Char} (h : 2 ≤ name.length) (candidates : List (List Char)) :
    best? (name :: candidates) = some name := by
  rw [best?, List.find?_cons_of_pos (by simpa using h), Option.some_or]

/-- A candidate that is no longer than one character is not better than one before it. -/
theorem best?_cons_cons_of_short {name other : List Char} (hne : name ≠ []) (h : other.length ≤ 1)
    (candidates : List (List Char)) :
    best? (name :: other :: candidates) = best? (name :: candidates) := by
  have hother : ¬(2 ≤ other.length) := by omega
  by_cases hlong : 2 ≤ name.length
  · rw [best?_cons_of_long hlong, best?_cons_of_long hlong]
  · simp [best?, hlong, hother, hne]

/-- A candidate of one character gives way to one of two behind it. -/
theorem best?_cons_cons_of_long {name other : List Char} (hshort : name.length ≤ 1)
    (h : 2 ≤ other.length) (candidates : List (List Char)) :
    best? (name :: other :: candidates) = best? (other :: candidates) := by
  have hname : ¬(2 ≤ name.length) := by omega
  rw [best?_cons_of_long h, best?, List.find?_cons_of_neg (by simpa using hname),
    List.find?_cons_of_pos (by simpa using h), Option.some_or]

/-- The best candidate is one of the candidates, and it is not empty. -/
theorem mem_of_best? {name : List Char} {candidates : List (List Char)}
    (h : best? candidates = some name) : name ∈ candidates ∧ name ≠ [] := by
  rcases Option.or_eq_some_iff.mp h with hlong | ⟨-, hfound⟩
  · have htwo : 2 ≤ name.length := by simpa using List.find?_some hlong
    exact ⟨List.mem_of_find?_eq_some hlong, List.ne_nil_of_length_pos (by omega)⟩
  · exact ⟨List.mem_of_find?_eq_some hfound, by simpa using List.find?_some hfound⟩

/-- There is no best candidate if all of them are empty. -/
theorem eq_nil_of_best?_eq_none {name : List Char} {candidates : List (List Char)}
    (h : best? candidates = none) (hm : name ∈ candidates) : name = [] := by
  have hnone := List.find?_eq_none.mp (Option.or_eq_none_iff.mp h).2 name hm
  simpa using hnone

/-- Flags are looked through as the rule says, with the candidate at hand before those to come. -/
theorem ofFlagsFrom_eq_best? (number : Nat) (best : List Char) (flags : List (List Char)) :
    ofFlagsFrom number best flags =
      ((flags.findSome? reserved?).or (best? (best :: flags.map ofText))).getD
        ("option_" ++ number.repr).toList := by
  induction flags generalizing best with
  | nil =>
    cases best with
    | nil => rfl
    | cons c rest =>
      by_cases hlong : 2 ≤ (c :: rest).length
      · rw [List.map_nil, best?_cons_of_long hlong]
        rfl
      · have hrest : rest = [] := by
          rw [List.length_cons] at hlong
          exact List.eq_nil_of_length_eq_zero (by omega)
        subst hrest
        rfl
  | cons flag flags ih =>
    rw [ofFlagsFrom, List.findSome?_cons, reserved?]
    split_ifs with hhelp hend
    · rfl
    · rfl
    · -- The flag is not reserved, so it only brings a candidate.
      dsimp only
      rw [List.map_cons]
      by_cases htakes : (best.isEmpty ||
          (decide (best.length ≤ 1) && decide (1 < (ofText flag).length))) = true
      · rw [if_pos htakes, ih]
        have heither : best = [] ∨ best.length ≤ 1 ∧ 1 < (ofText flag).length := by
          simpa using htakes
        rcases heither with rfl | ⟨hshort, hlong⟩
        · rw [best?_cons_nil]
        · rw [best?_cons_cons_of_long hshort hlong]
      · rw [if_neg htakes, ih]
        have hneither : best ≠ [] ∧ (best.length ≤ 1 → (ofText flag).length ≤ 1) := by
          simpa using htakes
        obtain ⟨hne, hkeeps⟩ := hneither
        by_cases hshort : best.length ≤ 1
        · rw [best?_cons_cons_of_short hne (hkeeps hshort)]
        · rw [best?_cons_of_long (by omega), best?_cons_of_long (by omega)]

/-- The name of an option is the one that the rule gives. -/
theorem ofFlags_eq_firstMatch (number : Nat) (flags : List (List Char)) :
    ofFlags number flags = firstMatch number flags := by
  rw [ofFlags, ofFlagsFrom_eq_best?, best?_cons_nil, firstMatch]

/-- A flag is not reserved if it neither asks for help nor ends the options. -/
theorem reserved?_eq_none_iff {flag : List Char} :
    reserved? flag = none ↔
      flag ≠ "-?".toList ∧ flag ≠ "/?".toList ∧ flag ≠ "--".toList := by
  unfold reserved?
  split_ifs with hhelp hend
  · exact ⟨nofun, fun h => absurd hhelp (not_or.mpr ⟨h.1, h.2.1⟩)⟩
  · exact ⟨nofun, fun h => absurd hend h.2.2⟩
  · obtain ⟨hquestion, hslash⟩ := not_or.mp hhelp
    exact ⟨fun _ => ⟨hquestion, hslash, hend⟩, fun _ => rfl⟩

/-- A reserved flag stands for a name. -/
theorem ne_nil_of_reserved? {flag name : List Char} (h : reserved? flag = some name) :
    name ≠ [] := by
  unfold reserved? at h
  split_ifs at h
  · cases h
    decide
  · cases h
    decide

/-- Flags always give a name. -/
theorem ofFlags_ne_nil (number : Nat) (flags : List (List Char)) : ofFlags number flags ≠ [] := by
  rw [ofFlags_eq_firstMatch, firstMatch]
  cases hreserved : flags.findSome? reserved? with
  | some name =>
    obtain ⟨flag, -, hflag⟩ := List.exists_of_findSome?_eq_some hreserved
    exact ne_nil_of_reserved? hflag
  | none =>
    cases hbest : best? (flags.map ofText) with
    | some name => exact (mem_of_best? hbest).2
    | none => exact toList_append_ne_nil (by decide) _

/-- No flag gives its option a name. -/
def Nameless (flags : List (List Char)) : Prop :=
  ∀ flag ∈ flags, ofText flag = [] ∧ flag ≠ "-?".toList ∧ flag ≠ "/?".toList ∧ flag ≠ "--".toList

instance (flags : List (List Char)) : Decidable (Nameless flags) := by
  unfold Nameless
  infer_instance

/-- The number of an option matters only if no flag gives it a name. -/
theorem ofFlags_eq {flags : List (List Char)} (h : ¬ Nameless flags) (number other : Nat) :
    ofFlags number flags = ofFlags other flags := by
  rw [ofFlags_eq_firstMatch, ofFlags_eq_firstMatch, firstMatch, firstMatch]
  cases hfound : (flags.findSome? reserved?).or (best? (flags.map ofText)) with
  | some name => rfl
  | none =>
    obtain ⟨hreserved, hbest⟩ := Option.or_eq_none_iff.mp hfound
    refine absurd (fun flag hm => ?_) h
    exact ⟨eq_nil_of_best?_eq_none hbest (List.mem_map_of_mem hm),
      reserved?_eq_none_iff.mp (List.findSome?_eq_none_iff.mp hreserved flag hm)⟩

end AnnotatedHelp.Name
