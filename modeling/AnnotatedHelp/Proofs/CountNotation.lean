import Mathlib
import AnnotatedHelp.Count
import AnnotatedHelp.Proofs.Occurrence
import AnnotatedHelp.Proofs.CountRanges

/-!
# How counts are written

A count is written as one integer or as two ends around dots, each of which may be blank. Ends are read
as integers of sixty-four bits, however large or negative, before they are checked: the lower end
against zero and the size of a word, then the upper end against the lower one and the size of a word.
So the ends that are written, and nothing else about the text, decide what reading comes to; and what a
count is printed as is read back, up to the largest word.
-/

namespace AnnotatedHelp

namespace Text

variable {text : List Char}

/-- A nonempty run of digits with its value. -/
structure Digits (text : List Char) (n : Nat) : Prop where
  /-- There is a digit. -/
  nonempty : text ≠ []
  /-- There are digits only. -/
  digits : ∀ c ∈ text, c.isDigit = true
  /-- They stand for the number in base ten. -/
  value : Nat.ofDigitChars 10 text 0 = n

/-- How an integer is written. -/
inductive Literal : List Char → Int → Prop where
  /-- Without a sign. -/
  | plain {text : List Char} {n : Nat} (h : Digits text n) : Literal text n
  /-- With a plus sign. -/
  | plus {text : List Char} {n : Nat} (h : Digits text n) : Literal ('+' :: text) n
  /-- With a minus sign. -/
  | minus {text : List Char} {n : Nat} (h : Digits text n) : Literal ('-' :: text) (-n)

/-- How an integer is written that fits a signed word of sixty-four bits. -/
structure Literal64 (text : List Char) (n : Int) : Prop where
  /-- It is written as any integer is. -/
  literal : Literal text n
  /-- It is not below the smallest word. -/
  low : -9223372036854775808 ≤ n
  /-- It is not above the largest word. -/
  high : n ≤ 9223372036854775807

/-- Reading a run of digits gives its value. -/
theorem natural?_eq_some_iff {n : Nat} : natural? text = some n ↔ Digits text n := by
  unfold natural?
  split_ifs with h
  · refine iff_of_false nofun fun hdigits => ?_
    rcases Bool.or_eq_true_iff.mp h with hempty | hother
    · exact hdigits.nonempty (List.isEmpty_iff.mp hempty)
    · rw [List.all_eq_true.mpr hdigits.digits] at hother
      cases hother
  · simp only [Bool.or_eq_true, List.isEmpty_iff, Bool.not_eq_true', not_or, Bool.not_eq_false,
      List.all_eq_true] at h
    rw [Option.some.injEq]
    exact ⟨fun hvalue => ⟨h.1, h.2, hvalue⟩, fun hdigits => hdigits.value⟩

/-- Reading an integer gives the number that is written. -/
theorem integer?_eq_some_iff {n : Int} : integer? text = some n ↔ Literal text n := by
  constructor
  · intro h
    unfold integer? at h
    split at h <;> obtain ⟨value, hvalue, rfl⟩ := Option.map_eq_some_iff.mp h
    · exact .plus (natural?_eq_some_iff.mp hvalue)
    · exact .minus (natural?_eq_some_iff.mp hvalue)
    · exact .plain (natural?_eq_some_iff.mp hvalue)
  · intro h
    cases h with
    | plus hdigits => exact Option.map_eq_some_iff.mpr ⟨_, natural?_eq_some_iff.mpr hdigits, rfl⟩
    | minus hdigits => exact Option.map_eq_some_iff.mpr ⟨_, natural?_eq_some_iff.mpr hdigits, rfl⟩
    | plain hdigits =>
      -- A sign is no digit, so a run of digits is read as it stands.
      unfold integer?
      split
      · exact absurd (hdigits.digits '+' List.mem_cons_self) (by decide)
      · exact absurd (hdigits.digits '-' List.mem_cons_self) (by decide)
      · exact Option.map_eq_some_iff.mpr ⟨_, natural?_eq_some_iff.mpr hdigits, rfl⟩

/-- Reading an integer of sixty-four bits gives the number that is written, if it fits. -/
theorem integer64?_eq_some_iff {n : Int} : integer64? text = some n ↔ Literal64 text n := by
  have hwords : ((wordCount 63 : Nat) : Int) = 9223372036854775808 := by decide
  rw [integer64?, Option.filter_eq_some_iff, integer?_eq_some_iff, Bool.and_eq_true, decide_eq_true_eq,
    decide_eq_true_eq, Int.ofNat_eq_natCast, hwords]
  constructor
  · rintro ⟨hliteral, hlow, hhigh⟩
    exact ⟨hliteral, hlow, by omega⟩
  · rintro ⟨hliteral, hlow, hhigh⟩
    exact ⟨hliteral, hlow, by omega⟩

/-- A number is printed as a run of digits. -/
theorem digits_repr (n : Nat) : Digits n.repr.toList n := by
  rw [Nat.toList_repr]
  exact ⟨Nat.toDigits_ne_nil,
    fun c hc => Nat.isDigit_of_mem_toDigits (by decide) (Nat.le_refl 10) hc,
    Nat.ofDigitChars_ten_toDigits⟩

/-- A digit is not blank. -/
theorem isBlank_of_isDigit {c : Char} (h : c.isDigit = true) : isBlank c = false := by
  simp only [Char.isDigit, Bool.and_eq_true, decide_eq_true_eq, UInt32.le_iff_toNat_le] at h
  have hlow : 48 ≤ c.toNat := h.1
  have hhigh : c.toNat ≤ 57 := h.2
  simp only [isBlank, blankRanges, List.any_cons, List.any_nil, Bool.or_eq_false_iff,
    Bool.and_eq_false_iff, decide_eq_false_iff_not, and_true]
  omega

/-- A text without blanks has none to be trimmed. -/
theorem trim_of_not_blank (h : ∀ c ∈ text, isBlank c = false) : trim text = text := by
  have hkeep : ∀ line : List Char, (∀ c ∈ line, isBlank c = false) →
      line.dropWhile isBlank = line := by
    intro line hline
    cases line with
    | nil => rfl
    | cons c line =>
      exact List.dropWhile_cons_of_neg (by rw [hline c List.mem_cons_self]; exact Bool.false_ne_true)
  have hreverse : ∀ c ∈ text.reverse, isBlank c = false := fun c hc => h c (List.mem_reverse.mp hc)
  rw [trim, trimStart, hkeep text h, trimEnd, hkeep _ hreverse, List.reverse_reverse]

end Text

open Text

namespace Count

/-- How an end of a count is written: not at all, or as an integer with blanks around it. -/
inductive WrittenEnd (part : List Char) : Option Int → Prop where
  /-- Nothing but blanks is written. -/
  | missing (h : trim part = []) : WrittenEnd part Option.none
  /-- An integer is written. -/
  | number {n : Int} (h : Literal64 (trim part) n) : WrittenEnd part (some n)

/-- The ends that are written in a text without outer blanks. -/
inductive WrittenEnds (whole : List Char) : Int → Option Int → Prop where
  /-- A single number is both ends. -/
  | single {n : Int} (hnone : ¬"..".toList <:+: whole) (h : Literal64 whole n) :
      WrittenEnds whole n (some n)
  /-- The ends stand around the first dots; a missing lower end is zero. -/
  | range {before after : List Char} {lower upper : Option Int}
      (hdots : FirstAt "..".toList whole before after) (hlower : WrittenEnd before lower)
      (hupper : WrittenEnd after upper) : WrittenEnds whole (lower.getD 0) upper

variable {whole part : List Char} {lower : Int} {upper : Option Int} {count : Count}

/-- No integer is blank. -/
theorem not_literal64_nil (n : Int) : ¬Literal64 [] n := by
  intro h
  have hread := integer64?_eq_some_iff.mpr h
  cases hread

/-- An end is read as it is written, and anything else is refused. -/
theorem readEnd_cases (whole part : List Char) :
    (∃ found, WrittenEnd part found ∧ readEnd whole part = .ok found) ∨
      (∀ found, ¬WrittenEnd part found) ∧
        readEnd whole part = .error (.invalid (String.ofList whole)) := by
  unfold readEnd
  split
  · next hblank => exact .inl ⟨Option.none, .missing hblank, rfl⟩
  · next hblank =>
    split
    · next n hn => exact .inl ⟨some n, .number (integer64?_eq_some_iff.mp hn), rfl⟩
    · next hn =>
      refine .inr ⟨?_, rfl⟩
      rintro found (hmissing | hnumber)
      · exact hblank hmissing
      · cases hn.symm.trans (integer64?_eq_some_iff.mpr hnumber)

/-- An end is written in one way. -/
theorem WrittenEnd.unique {found other : Option Int} (h : WrittenEnd part found)
    (h' : WrittenEnd part other) : found = other := by
  cases h with
  | missing hblank =>
    cases h' with
    | missing => rfl
    | number hnumber => exact absurd (hblank ▸ hnumber) (not_literal64_nil _)
  | number hnumber =>
    cases h' with
    | missing hblank => exact absurd (hblank ▸ hnumber) (not_literal64_nil _)
    | number hnumber' =>
      exact (integer64?_eq_some_iff.mpr hnumber).symm.trans (integer64?_eq_some_iff.mpr hnumber')

/-- A text gives its ends in one way. -/
theorem WrittenEnds.unique {low : Int} {high : Option Int} (h : WrittenEnds whole lower upper)
    (h' : WrittenEnds whole low high) : lower = low ∧ upper = high := by
  cases h with
  | single hnone hnumber =>
    cases h' with
    | single _ hnumber' =>
      have hsame := (integer64?_eq_some_iff.mpr hnumber).symm.trans
        (integer64?_eq_some_iff.mpr hnumber')
      exact ⟨Option.some.inj hsame, hsame⟩
    | range hdots _ _ => exact absurd hdots.found hnone
  | range hdots hlower hupper =>
    cases h' with
    | single hnone _ => exact absurd hdots.found hnone
    | range hdots' hlower' hupper' =>
      obtain ⟨rfl, rfl⟩ := hdots.unique hdots'
      exact ⟨congrArg (·.getD 0) (hlower.unique hlower'), hupper.unique hupper'⟩

/-- A text is read as its ends are, and where it does not give ends it is refused. -/
theorem parseTrimmed_cases (whole : List Char) :
    (∃ lower upper, WrittenEnds whole lower upper ∧
        parseTrimmed whole = ofEnds whole lower upper) ∨
      (∀ lower upper, ¬WrittenEnds whole lower upper) ∧
        parseTrimmed whole = .error (.invalid (String.ofList whole)) := by
  unfold parseTrimmed
  cases hcut : cut "..".toList whole with
  | none =>
    have hnone := not_found_of_cut_eq_none hcut
    cases hn : integer64? whole with
    | none =>
      refine .inr ⟨?_, rfl⟩
      rintro lower upper (⟨-, hnumber⟩ | ⟨hdots, -, -⟩)
      · cases hn.symm.trans (integer64?_eq_some_iff.mpr hnumber)
      · exact hnone hdots.found
    | some n => exact .inl ⟨n, some n, .single hnone (integer64?_eq_some_iff.mp hn), rfl⟩
  | some parts =>
    obtain ⟨before, after⟩ := parts
    have hdots := firstAt_of_cut hcut
    -- Without an end on either side no ends are written.
    have hrefused : (∀ found, ¬WrittenEnd before found) ∨ (∀ found, ¬WrittenEnd after found) →
        ∀ lower upper, ¬WrittenEnds whole lower upper := by
      rintro hends lower upper (⟨hnone, -⟩ | ⟨hdots', hlower, hupper⟩)
      · exact hnone hdots.found
      · obtain ⟨rfl, rfl⟩ := hdots.unique hdots'
        exact hends.elim (· _ hlower) (· _ hupper)
    rcases readEnd_cases whole before with ⟨low, hlow, hreadLow⟩ | ⟨hlow, hreadLow⟩
    · rcases readEnd_cases whole after with ⟨high, hhigh, hreadHigh⟩ | ⟨hhigh, hreadHigh⟩
      · refine .inl ⟨low.getD 0, high, .range hdots hlow hhigh, ?_⟩
        simp only [hreadLow, hreadHigh]
        rfl
      · refine .inr ⟨hrefused (.inr hhigh), ?_⟩
        simp only [hreadLow, hreadHigh]
        rfl
    · refine .inr ⟨hrefused (.inl hlow), ?_⟩
      simp only [hreadLow]
      rfl

/-- A count has the given ends. -/
structure HasEnds (count : Count) (lower : Int) (upper : Option Int) : Prop where
  /-- Its lower end is the given one. -/
  min : (count.min.toNat : Int) = lower
  /-- Its upper end is the given one, or missing. -/
  max : count.max.limit?.map (fun limit => (limit.toNat : Int)) = upper

/-- The ends that are written make a count: they fit words and are in order. -/
def IsAccepted (whole : List Char) : Prop :=
  ∃ lower upper, WrittenEnds whole lower upper ∧ 0 ≤ lower ∧ lower ≤ wordMax ∧
    ∀ limit ∈ upper, lower ≤ limit ∧ limit ≤ wordMax

/-- The lower end that is written is negative. -/
def IsNegative (whole : List Char) : Prop :=
  ∃ lower upper, WrittenEnds whole lower upper ∧ lower < 0

/-- The lower end that is written fits a word, and the upper end is below it. -/
def IsInverted (whole : List Char) : Prop :=
  ∃ lower limit, WrittenEnds whole lower (some limit) ∧ 0 ≤ lower ∧ lower ≤ wordMax ∧ limit < lower

/-- What reading a text as a count comes to, as the ends say that are written in it without its outer
blanks. -/
structure FollowsEnds (whole : List Char) (result : Except CountError Count) : Prop where
  /-- It succeeds exactly where the ends make a count. -/
  accepted : (∃ count, result = .ok count) ↔ IsAccepted whole
  /-- The count has the ends, and they are in order. -/
  ends : ∀ count, result = .ok count →
    count.IsRange ∧ ∃ lower upper, WrittenEnds whole lower upper ∧ count.HasEnds lower upper
  /-- A negative lower end is reported. -/
  negative : ∀ text, result = .error (.negativeMinimum text) ↔
    text = String.ofList whole ∧ IsNegative whole
  /-- An upper end below the lower one is reported. -/
  inverted : ∀ text, result = .error (.invertedRange text) ↔
    text = String.ofList whole ∧ IsInverted whole
  /-- Everything else is reported as no count. -/
  invalid : ∀ text, result = .error (.invalid text) ↔
    text = String.ofList whole ∧ ¬IsAccepted whole ∧ ¬IsNegative whole ∧ ¬IsInverted whole

/-- Ends that make a count are neither negative nor the wrong way round. -/
theorem IsAccepted.not_refused (h : IsAccepted whole) : ¬IsNegative whole ∧ ¬IsInverted whole := by
  obtain ⟨lower, upper, hends, hlow, -, hupper⟩ := h
  constructor
  · rintro ⟨_, _, hends', hnegative⟩
    obtain ⟨rfl, -⟩ := hends.unique hends'
    omega
  · rintro ⟨_, limit, hends', -, -, hinverted⟩
    obtain ⟨rfl, rfl⟩ := hends.unique hends'
    have hordered := (hupper limit rfl).1
    omega

/-- A negative lower end is reported before the upper end is looked at. -/
theorem IsNegative.not_inverted (h : IsNegative whole) : ¬IsInverted whole := by
  obtain ⟨lower, upper, hends, hnegative⟩ := h
  rintro ⟨_, limit, hends', hlow, -⟩
  obtain ⟨rfl, -⟩ := hends.unique hends'
  omega

/-- Where a text gives ends they are what is checked. -/
theorem parseTrimmed_eq (h : WrittenEnds whole lower upper) :
    parseTrimmed whole = ofEnds whole lower upper := by
  rcases parseTrimmed_cases whole with ⟨low, high, hends, hread⟩ | ⟨hnone, -⟩
  · obtain ⟨rfl, rfl⟩ := h.unique hends
    exact hread
  · exact absurd h (hnone lower upper)

/-- Ends that make a count are read as it. -/
theorem exists_of_isAccepted (h : IsAccepted whole) :
    ∃ count lower upper, parseTrimmed whole = .ok count ∧ WrittenEnds whole lower upper ∧
      count.HasEnds lower upper := by
  obtain ⟨lower, upper, hends, hlow, hhigh, hupper⟩ := h
  have hmin : ((clamp lower.toNat).toNat : Int) = lower := by
    rw [toNat_clamp]
    omega
  rw [parseTrimmed_eq hends]
  unfold ofEnds
  rw [if_neg (by omega), if_neg (by omega)]
  cases upper with
  | none => exact ⟨_, lower, Option.none, rfl, hends, ⟨hmin, rfl⟩⟩
  | some limit =>
    obtain ⟨hordered, hlimit⟩ := hupper limit rfl
    have hmax : ((clamp limit.toNat).toNat : Int) = limit := by
      rw [toNat_clamp]
      omega
    dsimp only
    rw [if_neg (by omega), if_neg (by omega)]
    exact ⟨_, lower, some limit, rfl, hends, ⟨hmin, congrArg some hmax⟩⟩

/-- A negative lower end is refused as such. -/
theorem parseTrimmed_of_isNegative (h : IsNegative whole) :
    parseTrimmed whole = .error (.negativeMinimum (String.ofList whole)) := by
  obtain ⟨lower, upper, hends, hnegative⟩ := h
  rw [parseTrimmed_eq hends]
  exact if_pos hnegative

/-- Ends the wrong way round are refused as such. -/
theorem parseTrimmed_of_isInverted (h : IsInverted whole) :
    parseTrimmed whole = .error (.invertedRange (String.ofList whole)) := by
  obtain ⟨lower, limit, hends, hlow, hhigh, hinverted⟩ := h
  rw [parseTrimmed_eq hends]
  unfold ofEnds
  rw [if_neg (by omega), if_neg (by omega)]
  exact if_pos hinverted

/-- All other texts are refused as no count. -/
theorem parseTrimmed_of_other (haccepted : ¬IsAccepted whole) (hnegative : ¬IsNegative whole)
    (hinverted : ¬IsInverted whole) :
    parseTrimmed whole = .error (.invalid (String.ofList whole)) := by
  rcases parseTrimmed_cases whole with ⟨lower, upper, hends, hread⟩ | ⟨-, hread⟩
  · have hlow : ¬lower < 0 := fun hlow => hnegative ⟨lower, upper, hends, hlow⟩
    rw [hread]
    unfold ofEnds
    rw [if_neg hlow]
    by_cases hhigh : (wordMax : Int) < lower
    · rw [if_pos hhigh]
    rw [if_neg hhigh]
    have hfits : 0 ≤ lower ∧ lower ≤ wordMax := by omega
    cases upper with
    | none => exact absurd ⟨lower, Option.none, hends, hfits.1, hfits.2, nofun⟩ haccepted
    | some limit =>
      have hordered : ¬limit < lower := fun hlimit =>
        hinverted ⟨lower, limit, hends, hfits.1, hfits.2, hlimit⟩
      have hlarge : (wordMax : Int) < limit := by
        by_contra hlimit
        refine haccepted ⟨lower, some limit, hends, hfits.1, hfits.2, ?_⟩
        rintro _ ⟨⟩
        omega
      dsimp only
      rw [if_neg hordered, if_pos hlarge]
  · exact hread

/-- The ends that are written decide what reading comes to. -/
theorem followsEnds_parseTrimmed (whole : List Char) : FollowsEnds whole (parseTrimmed whole) := by
  by_cases haccepted : IsAccepted whole
  · obtain ⟨hnegative, hinverted⟩ := haccepted.not_refused
    obtain ⟨count, lower, upper, hread, hends, hcount⟩ := exists_of_isAccepted haccepted
    have hrange := isRange_of_ofEnds ((parseTrimmed_eq hends).symm.trans hread)
    rw [hread]
    refine ⟨iff_of_true ⟨count, rfl⟩ haccepted, ?_, fun text => iff_of_false nofun (hnegative ·.2),
      fun text => iff_of_false nofun (hinverted ·.2),
      fun text => iff_of_false nofun (·.2.1 haccepted)⟩
    rintro _ ⟨⟩
    exact ⟨hrange, lower, upper, hends, hcount⟩
  by_cases hnegative : IsNegative whole
  · rw [parseTrimmed_of_isNegative hnegative]
    refine ⟨iff_of_false nofun haccepted, nofun, fun text => ?_,
      fun text => iff_of_false nofun (hnegative.not_inverted ·.2),
      fun text => iff_of_false nofun (·.2.2.1 hnegative)⟩
    simp [hnegative, eq_comm]
  by_cases hinverted : IsInverted whole
  · rw [parseTrimmed_of_isInverted hinverted]
    refine ⟨iff_of_false nofun haccepted, nofun, fun text => iff_of_false nofun (hnegative ·.2),
      fun text => ?_, fun text => iff_of_false nofun (·.2.2.2 hinverted)⟩
    simp [hinverted, eq_comm]
  · rw [parseTrimmed_of_other haccepted hnegative hinverted]
    refine ⟨iff_of_false nofun haccepted, nofun, fun text => iff_of_false nofun (hnegative ·.2),
      fun text => iff_of_false nofun (hinverted ·.2), fun text => ?_⟩
    simp [haccepted, hnegative, hinverted, eq_comm]

/-- A count is known by its ends. -/
theorem HasEnds.unique {other : Count} (h : count.HasEnds lower upper)
    (h' : other.HasEnds lower upper) : count = other := by
  have hword : ∀ {a b : UInt32}, (a.toNat : Int) = b.toNat → a = b := fun hsame =>
    UInt32.toNat_inj.mp (Int.ofNat_inj.mp hsame)
  obtain ⟨least, largest⟩ := count
  obtain ⟨least', largest'⟩ := other
  obtain rfl : least = least' := hword (h.min.trans h'.min.symm)
  have hmax := h.max.trans h'.max.symm
  cases largest <;> cases largest'
  · rw [hword (Option.some.inj hmax)]
  · cases hmax
  · cases hmax
  · rfl

/-- A printed number has no blanks and no dots. -/
theorem ne_of_mem_repr {n : Nat} {c : Char} (h : c ∈ n.repr.toList) : isBlank c = false ∧ c ≠ '.' := by
  have hdigit := (digits_repr n).digits c h
  refine ⟨isBlank_of_isDigit hdigit, ?_⟩
  rintro rfl
  cases hdigit

/-- A printed word is an integer of sixty-four bits. -/
theorem literal64_repr (word : UInt32) : Literal64 word.toNat.repr.toList word.toNat := by
  have hbound := word.toNat_lt
  exact ⟨.plain (digits_repr word.toNat), by omega, by omega⟩

/-- A printed limit is written as an end, and a missing one is not written at all. -/
theorem writtenEnd_text (bound : Bound) :
    WrittenEnd bound.text.toList (bound.limit?.map fun limit => (limit.toNat : Int)) := by
  cases bound with
  | unbounded => exact .missing rfl
  | bounded limit =>
    have htrim := trim_of_not_blank fun c (hc : c ∈ limit.toNat.repr.toList) => (ne_of_mem_repr hc).1
    exact .number (htrim.symm ▸ literal64_repr limit)

/-- A count is printed with its ends. -/
theorem writtenEnds_text (count : Count) :
    WrittenEnds (trim count.text.toList) count.min.toNat
      (count.max.limit?.map fun limit => (limit.toNat : Int)) := by
  have hnone : ∀ text : List Char, (∀ c ∈ text, c ≠ '.') → ¬"..".toList <:+: text :=
    fun text hdots hfound => hdots '.' (hfound.subset (by decide)) rfl
  have hleast : ∀ c ∈ count.min.toNat.repr.toList, c ≠ '.' := fun c hc => (ne_of_mem_repr hc).2
  unfold text
  split_ifs with hfixed
  · have htrim := trim_of_not_blank fun c (hc : c ∈ count.min.toNat.repr.toList) =>
      (ne_of_mem_repr hc).1
    rw [htrim, show count.max = .bounded count.min from of_decide_eq_true hfixed]
    exact .single (hnone _ hleast) (literal64_repr count.min)
  · have hmarks : ∀ c ∈ "..".toList, c = '.' := by simp
    have hblank : ∀ c ∈ (count.min.toNat.repr ++ ".." ++ count.max.text).toList,
        isBlank c = false := by
      simp only [String.toList_append, List.forall_mem_append]
      refine ⟨⟨fun c hc => (ne_of_mem_repr hc).1, fun c hc => hmarks c hc ▸ by decide⟩, ?_⟩
      cases count.max with
      | unbounded => exact nofun
      | bounded limit => exact fun c hc => (ne_of_mem_repr hc).1
    have hend : count.min.toNat.repr.toList.getLast? ≠ some '.' :=
      fun hlast => hleast '.' (List.mem_of_getLast? hlast) rfl
    have hdots := firstAt_behind hmarks (hnone _ hleast) hend count.max.text.toList
    rw [trim_of_not_blank hblank, String.toList_append, String.toList_append]
    exact .range hdots (writtenEnd_text (.bounded count.min)) (writtenEnd_text count.max)

/-- A word is not above the largest one. -/
theorem toNat_le_wordMax (word : UInt32) : word.toNat ≤ wordMax := by
  have hbound := word.toNat_lt
  unfold wordMax
  omega

/-- A count that is printed is read back. -/
theorem parse_text (h : count.IsRange) : parse count.text = .ok count := by
  have hends := writtenEnds_text count
  have haccepted : IsAccepted (trim count.text.toList) := by
    refine ⟨_, _, hends, Int.natCast_nonneg _, Int.ofNat_le.mpr (toNat_le_wordMax _), ?_⟩
    obtain ⟨least, largest⟩ := count
    cases largest with
    | unbounded => exact nofun
    | bounded limit =>
      rintro _ ⟨⟩
      exact ⟨Int.ofNat_le.mpr h, Int.ofNat_le.mpr (toNat_le_wordMax limit)⟩
  obtain ⟨other, lower, upper, hread, hends', hother⟩ := exists_of_isAccepted haccepted
  obtain ⟨rfl, rfl⟩ := hends.unique hends'
  have hsame : count = other := HasEnds.unique ⟨rfl, rfl⟩ hother
  exact hread.trans (congrArg Except.ok hsame.symm)

/-- Counts round-trip, and their grammar is exact. A count whose ends are in order is printed as a text
that reads as it. Every text is read as the ends say that are written in it: as one integer, or around
its first dots. They make a count exactly if the lower one is a word and the upper one is missing or a
word and not below it; a negative lower end and an upper end below a lower end that is a word are
reported as such, in this order; and everything else is no count. -/
theorem parse_grammar :
    (∀ count : Count, count.IsRange → parse count.text = .ok count) ∧
      ∀ text : String, FollowsEnds (trim text.toList) (parse text) :=
  ⟨fun _ h => parse_text h, fun text => followsEnds_parseTrimmed (trim text.toList)⟩

/-- The largest words are read back; a lower end that is no word is no count, although the upper end is
below it; and an upper end may be as small as an integer of sixty-four bits. -/
theorem parse_grammar_limits :
    (⟨4294967294, .bounded 4294967295⟩ : Count).IsRange ∧
      parse "4294967294..4294967295" = .ok ⟨4294967294, .bounded 4294967295⟩ ∧
      parse "4294967296..-1" = .error (.invalid "4294967296..-1") ∧
      ¬IsInverted (trim "4294967296..-1".toList) ∧
      parse " 5 .. -9223372036854775808" = .error (.invertedRange "5 .. -9223372036854775808") ∧
      IsInverted (trim " 5 .. -9223372036854775808".toList) := by
  obtain ⟨hround, hgrammar⟩ := parse_grammar
  have hrange : (⟨4294967294, .bounded 4294967295⟩ : Count).IsRange := by decide
  have htext : (⟨4294967294, .bounded 4294967295⟩ : Count).text = "4294967294..4294967295" := by
    decide +kernel
  have hlarge : parse "4294967296..-1" = .error (.invalid "4294967296..-1") := by decide +kernel
  have hsmall : parse " 5 .. -9223372036854775808" =
      .error (.invertedRange "5 .. -9223372036854775808") := by
    decide +kernel
  exact ⟨hrange, htext ▸ hround _ hrange, hlarge,
    (((hgrammar "4294967296..-1").invalid _).mp hlarge).2.2.2, hsmall,
    (((hgrammar " 5 .. -9223372036854775808").inverted _).mp hsmall).2⟩

end Count

end AnnotatedHelp
