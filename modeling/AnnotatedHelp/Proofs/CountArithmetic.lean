import Mathlib
import AnnotatedHelp.Proofs.CountRanges

/-!
# Arithmetic on counts

Sums and products of counts are taken end by end, and an end stops at the largest word. So every end
is the exact one, capped at the largest word. This loses nothing that fits a word: numbers that two
counts admit have a sum that the sum of the counts admits, and the pieces of admitted occurrences are
admitted by the product of the count and its arity, as long as their number is a word.
-/

namespace AnnotatedHelp

/-- The largest number that a bound admits, if there is one. -/
def Bound.largest? (bound : Bound) : Option Nat :=
  bound.limit?.map (·.toNat)

namespace Count

/-- The number of pieces of occurrences that contain these numbers of delimiters. -/
def pieces (occurrences : List Nat) : Nat :=
  (occurrences.map (· + 1)).sum

/-- Occurrences have as many pieces each as their fewest delimiters make. -/
theorem mul_le_pieces {occurrences : List Nat} {least : Nat} (h : ∀ d ∈ occurrences, least ≤ d) :
    occurrences.length * (least + 1) ≤ pieces occurrences := by
  have hsum := List.card_nsmul_le_sum (occurrences.map (· + 1)) (least + 1)
    (List.forall_mem_map.mpr fun d hm => Nat.succ_le_succ (h d hm))
  rw [List.length_map, smul_eq_mul] at hsum
  exact hsum

/-- Occurrences have no more pieces each than their most delimiters make. -/
theorem pieces_le_mul {occurrences : List Nat} {most : Nat} (h : ∀ d ∈ occurrences, d ≤ most) :
    pieces occurrences ≤ occurrences.length * (most + 1) := by
  have hsum := List.sum_le_card_nsmul (occurrences.map (· + 1)) (most + 1)
    (List.forall_mem_map.mpr fun d hm => Nat.succ_le_succ (h d hm))
  rw [List.length_map, smul_eq_mul] at hsum
  exact hsum

/-- Occurrences have at least one piece each. -/
theorem length_le_pieces (occurrences : List Nat) : occurrences.length ≤ pieces occurrences := by
  have hleast := mul_le_pieces fun d (_ : d ∈ occurrences) => Nat.zero_le d
  rw [Nat.zero_add, Nat.mul_one] at hleast
  exact hleast

/-- Occurrences with the same number of delimiters have the same number of pieces. -/
@[simp] theorem pieces_replicate (n d : Nat) : pieces (List.replicate n d) = n * (d + 1) := by
  simp [pieces]

/-- A number capped at the largest word. -/
def capped (n : Nat) : Nat :=
  Min.min n wordMax

/-- Capping makes no number larger. -/
theorem capped_le (n : Nat) : capped n ≤ n :=
  Nat.min_le_left n wordMax

/-- A word that is not above a number is not above it when it is capped either. -/
theorem le_capped {m n : Nat} (h : m ≤ n) (hfits : m ≤ wordMax) : m ≤ capped n :=
  Nat.le_min.mpr ⟨h, hfits⟩

/-- Capping keeps the order. -/
theorem capped_mono {m n : Nat} (h : m ≤ n) : capped m ≤ capped n :=
  le_capped ((capped_le m).trans h) (Nat.min_le_right m wordMax)

/-- A number below the largest word has not been capped. -/
theorem eq_of_capped_lt {n : Nat} (h : capped n < wordMax) : capped n = n := by
  unfold capped at h ⊢
  omega

/-- A product is capped to the same number if one of its factors has been capped before. -/
theorem capped_mul_capped (n arity : Nat) : capped (n * capped arity) = capped (n * arity) := by
  unfold capped
  rcases Nat.le_total arity wordMax with hfits | hlarge
  · rw [Nat.min_eq_left hfits]
  · rw [Nat.min_eq_right hlarge]
    rcases Nat.eq_zero_or_pos n with rfl | hpos
    · rw [Nat.zero_mul, Nat.zero_mul]
    · have hcapped : wordMax ≤ n * wordMax := Nat.le_mul_of_pos_left wordMax hpos
      have hexact : n * wordMax ≤ n * arity := Nat.mul_le_mul_left n hlarge
      rw [Nat.min_eq_right hcapped, Nat.min_eq_right (hcapped.trans hexact)]

theorem toNat_addWord (a b : UInt32) : (addWord a b).toNat = capped (a.toNat + b.toNat) :=
  toNat_clamp _

theorem toNat_mulWord (a b : UInt32) : (mulWord a b).toNat = capped (a.toNat * b.toNat) :=
  toNat_clamp _

/-- The arity of an occurrence may be capped before it is multiplied. -/
theorem toNat_mulWord_addWord (n d : UInt32) :
    (mulWord n (addWord d 1)).toNat = capped (n.toNat * (d.toNat + 1)) := by
  rw [toNat_mulWord, toNat_addWord, capped_mul_capped, UInt32.toNat_one]

/-- The ends of joined counts are the exact ones, capped at the largest word: no step of joining them
wraps around. -/
structure EndsExact (a b : Count) : Prop where
  /-- The smallest number of the range that contains both counts. -/
  combine_min : (a.combine b).min.toNat = Nat.min a.min.toNat b.min.toNat
  /-- The largest number of the range that contains both counts. -/
  combine_max : (a.combine b).max.largest? = Option.map₂ Nat.max a.max.largest? b.max.largest?
  /-- The smallest number of the sum. -/
  sum_min : (a.sum b).min.toNat = capped (a.min.toNat + b.min.toNat)
  /-- The largest number of the sum. -/
  sum_max : (a.sum b).max.largest? =
    (Option.map₂ (· + ·) a.max.largest? b.max.largest?).map capped
  /-- The smallest number of pieces. -/
  timesArity_min : (a.timesArity b).min.toNat = capped (a.min.toNat * (b.min.toNat + 1))
  /-- The largest number of pieces. -/
  timesArity_max : (a.timesArity b).max.largest? =
    (Option.map₂ (fun occurrences delimiters => occurrences * (delimiters + 1)) a.max.largest?
      b.max.largest?).map capped

/-- Joining two counts gives exact ends. -/
theorem endsExact (a b : Count) : EndsExact a b := by
  obtain ⟨least, largest⟩ := a
  obtain ⟨least', largest'⟩ := b
  constructor
  case combine_min => exact toNat_minWord least least'
  case combine_max =>
    cases largest <;> cases largest' <;>
      simp [combine, Bound.max, Bound.largest?, Bound.limit?, toNat_maxWord]
  case sum_min => exact toNat_addWord least least'
  case sum_max =>
    cases largest <;> cases largest' <;>
      simp [sum, Bound.add, Bound.largest?, Bound.limit?, toNat_addWord]
  case timesArity_min => exact toNat_mulWord_addWord least least'
  case timesArity_max =>
    cases largest <;> cases largest' <;>
      simp [timesArity, Bound.mul, Bound.add, Bound.largest?, Bound.limit?, toNat_mulWord_addWord]

end Count

namespace Bound

variable {a b bound : Bound} {m n : Nat}

/-- A bound admits what is smaller than a number that it admits. -/
theorem Admits.mono (h : bound.Admits n) (hle : m ≤ n) : bound.Admits m := by
  cases bound with
  | unbounded => trivial
  | bounded limit => exact hle.trans h

/-- The sum of two bounds admits the sum of what they admit. -/
theorem admits_add (ha : a.Admits m) (hb : b.Admits n) (hfits : m + n ≤ Count.wordMax) :
    (a.add b).Admits (m + n) := by
  cases a with
  | unbounded => trivial
  | bounded limit =>
    cases b with
    | unbounded => trivial
    | bounded other =>
      change m + n ≤ (Count.addWord limit other).toNat
      rw [Count.toNat_addWord]
      exact Count.le_capped (Nat.add_le_add ha hb) hfits

/-- The product with an arity admits the number of pieces of admitted occurrences, if each contains
an admitted number of delimiters. The bound of the delimiters matters only where there is an
occurrence to contain them. -/
theorem admits_mul_arity {occurrences : List Nat} (ha : a.Admits occurrences.length)
    (hb : ∀ d ∈ occurrences, b.Admits d) (hfits : Count.pieces occurrences ≤ Count.wordMax) :
    (a.mul (b.add (.bounded 1))).Admits (Count.pieces occurrences) := by
  cases a with
  | unbounded => trivial
  | bounded limit =>
    cases b with
    | unbounded => trivial
    | bounded most =>
      have hpieces : Count.pieces occurrences ≤ occurrences.length * (most.toNat + 1) :=
        Count.pieces_le_mul hb
      change Count.pieces occurrences ≤ (Count.mulWord limit (Count.addWord most 1)).toNat
      rw [Count.toNat_mulWord_addWord]
      exact Count.le_capped (hpieces.trans (Nat.mul_le_mul_right _ ha)) hfits

/-- A bound leaves room for one exactly when it is not zero. -/
theorem admits_one_iff : bound.Admits 1 ↔ bound ≠ .bounded 0 := by
  cases bound with
  | unbounded => simp [Admits]
  | bounded limit =>
    rw [Admits, ne_eq, bounded.injEq, ← UInt32.toNat_inj]
    exact Nat.one_le_iff_ne_zero

end Bound

namespace Count

section Admitting

variable {a b count delimiters : Count} {counts : List Count} {m n : Nat}

/-- A count that admits a number has its ends in order. -/
theorem Admits.isRange (h : count.Admits n) : count.IsRange :=
  h.2.mono h.1

/-- A count whose ends are in order admits its smallest number. -/
theorem IsRange.admits_min (h : count.IsRange) : count.Admits count.min.toNat :=
  ⟨Nat.le_refl _, h⟩

/-- A count whose ends are in order admits its largest number. -/
theorem IsRange.admits_max (h : count.IsRange) {limit : UInt32} (hlimit : count.max = .bounded limit) :
    count.Admits limit.toNat := by
  rw [IsRange, hlimit] at h
  refine ⟨h, ?_⟩
  rw [hlimit]
  exact Nat.le_refl _

/-- The sum of two counts admits the sum of what they admit. -/
theorem admits_sum (ha : a.Admits m) (hb : b.Admits n) (hfits : m + n ≤ wordMax) :
    (a.sum b).Admits (m + n) := by
  refine ⟨?_, Bound.admits_add ha.2 hb.2 hfits⟩
  rw [(endsExact a b).sum_min]
  exact (capped_le _).trans (Nat.add_le_add ha.1 hb.1)

/-- Adding up further counts admits what is added up of the numbers that they admit. -/
theorem admits_foldl_sum {numbers : List Nat} (ha : a.Admits n)
    (h : List.Forall₂ Admits counts numbers) (hfits : n + numbers.sum ≤ wordMax) :
    (counts.foldl sum a).Admits (n + numbers.sum) := by
  induction h generalizing a n with
  | nil => exact ha
  | @cons count number counts numbers hcount _ ih =>
    rw [List.sum_cons, ← Nat.add_assoc] at hfits ⊢
    exact ih (admits_sum ha hcount (by omega)) hfits

/-- The sum of the counts of a list admits the sum of numbers that they admit one by one. -/
theorem admits_join_sum (ofNone : Count) {numbers : List Nat} (hne : counts ≠ [])
    (h : List.Forall₂ Admits counts numbers) (hfits : numbers.sum ≤ wordMax) :
    (join sum ofNone counts).Admits numbers.sum := by
  cases h with
  | nil => exact absurd rfl hne
  | cons hfirst hrest =>
    rw [List.sum_cons] at hfits ⊢
    exact admits_foldl_sum hfirst hrest hfits

/-- If all occurrences contain admitted numbers of delimiters, the product with the arity admits the
number of their pieces. -/
theorem admits_timesArity {occurrences : List Nat} (h : count.Admits occurrences.length)
    (hd : ∀ d ∈ occurrences, delimiters.Admits d) (hfits : pieces occurrences ≤ wordMax) :
    (count.timesArity delimiters).Admits (pieces occurrences) := by
  refine ⟨?_, Bound.admits_mul_arity h.2 (fun d hm => (hd d hm).2) hfits⟩
  have hpieces : occurrences.length * (delimiters.min.toNat + 1) ≤ pieces occurrences :=
    mul_le_pieces fun d hm => (hd d hm).1
  rw [(endsExact count delimiters).timesArity_min]
  exact (capped_le _).trans ((Nat.mul_le_mul_right _ h.1).trans hpieces)

end Admitting

/-- A count that can be met: its ends are in order, and it leaves room for one. -/
structure CanBeMet (count : Count) : Prop where
  /-- The ends are in order. -/
  ordered : count.IsRange
  /-- The largest number is at least one. -/
  room : count.max.Admits 1

/-- What an operation keeps is had by the count that joins a list, if all counts of the list have
it. -/
theorem join_of_forall {P : Count → Prop} {operation : Count → Count → Count}
    (hjoin : ∀ a b, P a → P b → P (operation a b)) (ofNone : Count) {counts : List Count}
    (hne : counts ≠ []) (h : ∀ count ∈ counts, P count) : P (join operation ofNone counts) := by
  cases counts with
  | nil => exact absurd rfl hne
  | cons first counts =>
    obtain ⟨hfirst, hrest⟩ := List.forall_mem_cons.mp h
    change P (counts.foldl operation first)
    clear hne h
    induction counts generalizing first with
    | nil => exact hfirst
    | cons count counts ih =>
      obtain ⟨hcount, hrest⟩ := List.forall_mem_cons.mp hrest
      exact ih (operation first count) (hjoin first count hfirst hcount) hrest

/-- The range that contains two ranges is a range. -/
theorem isRange_combine (a b : Count) (ha : a.IsRange) (_ : b.IsRange) : (a.combine b).IsRange :=
  (admits_combine (.inl ha.admits_min)).isRange

/-- Counts that can be met have a sum that can be met. -/
theorem canBeMet_sum (a b : Count) (ha : a.CanBeMet) (hb : b.CanBeMet) : (a.sum b).CanBeMet := by
  obtain ⟨least, largest⟩ := a
  obtain ⟨least', largest'⟩ := b
  cases largest with
  | unbounded => exact ⟨trivial, trivial⟩
  | bounded limit =>
    cases largest' with
    | unbounded => exact ⟨trivial, trivial⟩
    | bounded other =>
      have hordered : least.toNat + least'.toNat ≤ limit.toNat + other.toNat :=
        Nat.add_le_add ha.ordered hb.ordered
      have hroom : 1 ≤ limit.toNat := ha.room
      constructor
      · change (addWord least least').toNat ≤ (addWord limit other).toNat
        rw [toNat_addWord, toNat_addWord]
        exact capped_mono hordered
      · change 1 ≤ (addWord limit other).toNat
        rw [toNat_addWord]
        exact le_capped (Nat.le_add_right_of_le hroom) (by decide)

/-- A count that can be met still can when every occurrence is cut into pieces. -/
theorem CanBeMet.timesArity {count delimiters : Count} (hc : count.CanBeMet)
    (hd : delimiters.IsRange) : (count.timesArity delimiters).CanBeMet := by
  obtain ⟨least, largest⟩ := count
  obtain ⟨least', largest'⟩ := delimiters
  cases largest with
  | unbounded => exact ⟨trivial, trivial⟩
  | bounded limit =>
    cases largest' with
    | unbounded => exact ⟨trivial, trivial⟩
    | bounded most =>
      have hordered : least.toNat * (least'.toNat + 1) ≤ limit.toNat * (most.toNat + 1) :=
        Nat.mul_le_mul hc.ordered (Nat.succ_le_succ hd)
      have hroom : 1 ≤ limit.toNat * (most.toNat + 1) := Nat.mul_pos hc.room (Nat.succ_pos _)
      constructor
      · change (mulWord least (addWord least' 1)).toNat ≤ (mulWord limit (addWord most 1)).toNat
        rw [toNat_mulWord_addWord, toNat_mulWord_addWord]
        exact capped_mono hordered
      · change 1 ≤ (mulWord limit (addWord most 1)).toNat
        rw [toNat_mulWord_addWord]
        exact le_capped hroom (by decide)

section Attaining

variable {count delimiters : Count}

/-- The smallest number of pieces, unless it has been capped, is that of the fewest occurrences with
the fewest delimiters. -/
theorem timesArity_min_of_lt (hfits : (count.timesArity delimiters).min.toNat < wordMax) :
    (count.timesArity delimiters).min.toNat = count.min.toNat * (delimiters.min.toNat + 1) := by
  rw [(endsExact count delimiters).timesArity_min] at hfits ⊢
  exact eq_of_capped_lt hfits

/-- The largest number of pieces, unless it has been capped, is that of the most occurrences with the
most delimiters. -/
theorem timesArity_max_of_lt {limit : UInt32}
    (hlimit : (count.timesArity delimiters).max = .bounded limit) (hfits : limit.toNat < wordMax) :
    ∃ occurrences most, count.max = .bounded occurrences ∧ delimiters.max = .bounded most ∧
      limit.toNat = occurrences.toNat * (most.toNat + 1) := by
  obtain ⟨least, largest⟩ := count
  obtain ⟨least', largest'⟩ := delimiters
  cases largest with
  | unbounded => cases hlimit
  | bounded occurrences =>
    cases largest' with
    | unbounded => cases hlimit
    | bounded most =>
      have hcapped : limit.toNat = capped (occurrences.toNat * (most.toNat + 1)) := by
        rw [← Bound.bounded.inj hlimit]
        exact toNat_mulWord_addWord occurrences most
      rw [hcapped] at hfits ⊢
      exact ⟨occurrences, most, rfl, rfl, eq_of_capped_lt hfits⟩

end Attaining

end Count

end AnnotatedHelp
