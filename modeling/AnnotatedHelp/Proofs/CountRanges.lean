import Mathlib
import AnnotatedHelp.Draft.Basic
import AnnotatedHelp.Deduction.Inference
import AnnotatedHelp.Proofs.Outcome

/-!
# Counts as sets of numbers

A count stands for the numbers that it admits. The count that covers several counts admits whatever
one of them admits, so where it admits one number only, none of them admits another. Counts that are
read from a text, or made up for a definition without one, admit their own smallest number; this is
what excludes counts that admit nothing and are covered by anything.
-/

namespace AnnotatedHelp

open Outcome Text

namespace Count

theorem toNat_minWord (a b : UInt32) : (minWord a b).toNat = Nat.min a.toNat b.toNat := by
  unfold minWord
  split <;> rename_i h <;> rw [UInt32.le_iff_toNat_le] at h <;> grind

theorem toNat_maxWord (a b : UInt32) : (maxWord a b).toNat = Nat.max a.toNat b.toNat := by
  unfold maxWord
  split <;> rename_i h <;> rw [UInt32.le_iff_toNat_le] at h <;> grind

/-- The smallest number of a count is not above its largest one. -/
def IsRange (count : Count) : Prop :=
  count.max.Admits count.min.toNat

instance (count : Count) : Decidable count.IsRange := by
  unfold IsRange
  infer_instance

end Count

/-- The larger of two bounds admits what either admits. -/
theorem Bound.admits_max {a b : Bound} {n : Nat} (h : a.Admits n ∨ b.Admits n) :
    (a.max b).Admits n := by
  cases a with
  | unbounded => trivial
  | bounded limit =>
    cases b with
    | unbounded => trivial
    | bounded other =>
      have hmax := Count.toNat_maxWord limit other
      have hleft : limit.toNat ≤ Nat.max limit.toNat other.toNat := Nat.le_max_left _ _
      have hright : other.toNat ≤ Nat.max limit.toNat other.toNat := Nat.le_max_right _ _
      simp only [max, Admits] at h ⊢
      omega

namespace Count

section Covering

variable {a b count : Count} {counts : List Count} {n : Nat}

/-- The range that contains two counts admits what either admits. -/
theorem admits_combine (h : a.Admits n ∨ b.Admits n) : (a.combine b).Admits n := by
  have hmin := toNat_minWord a.min b.min
  have hleft : Nat.min a.min.toNat b.min.toNat ≤ a.min.toNat := Nat.min_le_left _ _
  have hright : Nat.min a.min.toNat b.min.toNat ≤ b.min.toNat := Nat.min_le_right _ _
  refine ⟨?_, Bound.admits_max (h.imp And.right And.right)⟩
  have hlow : a.min.toNat ≤ n ∨ b.min.toNat ≤ n := h.imp And.left And.left
  change (minWord a.min b.min).toNat ≤ n
  omega

/-- Covering further counts keeps what is admitted. -/
theorem admits_foldl_combine (h : a.Admits n ∨ ∃ count ∈ counts, count.Admits n) :
    (counts.foldl combine a).Admits n := by
  induction counts generalizing a with
  | nil => simpa using h
  | cons count counts ih =>
    rw [List.foldl_cons]
    apply ih
    rcases h with h | ⟨other, hm, h⟩
    · exact .inl (admits_combine (.inl h))
    · rcases List.mem_cons.mp hm with rfl | hm
      · exact .inl (admits_combine (.inr h))
      · exact .inr ⟨other, hm, h⟩

/-- The range that contains all counts of a list admits what one of them admits. -/
theorem admits_join (ofNone : Count) (hm : count ∈ counts) (h : count.Admits n) :
    (join combine ofNone counts).Admits n := by
  cases counts with
  | nil => cases hm
  | cons first counts =>
    apply admits_foldl_combine
    rcases List.mem_cons.mp hm with rfl | hm
    · exact .inl h
    · exact .inr ⟨count, hm, h⟩

/-- A fixed count admits one number only. -/
theorem eq_of_isFixed (hf : count.isFixed = true) (h : count.Admits n) : n = count.min.toNat := by
  have hmax : count.max = .bounded count.min := of_decide_eq_true hf
  obtain ⟨hlow, hhigh⟩ := h
  rw [hmax] at hhigh
  exact Nat.le_antisymm hhigh hlow

/-- A range that lies in a fixed count is fixed. -/
theorem isFixed_of_admits {cover : Count} (hf : cover.isFixed = true) (hr : count.IsRange)
    (hc : ∀ n, count.Admits n → cover.Admits n) : count.isFixed = true := by
  have hleast : count.min.toNat = cover.min.toNat := eq_of_isFixed hf (hc _ ⟨Nat.le_refl _, hr⟩)
  obtain ⟨least, largest⟩ := count
  cases largest with
  | unbounded =>
    -- Without a limit the next number is admitted too.
    have hnext := eq_of_isFixed hf (hc (least.toNat + 1) ⟨Nat.le_succ _, trivial⟩)
    dsimp only at hleast
    omega
  | bounded limit =>
    have hlimit : least.toNat ≤ limit.toNat := hr
    have hlargest := eq_of_isFixed hf (hc limit.toNat ⟨hlimit, Nat.le_refl _⟩)
    have hsame : limit = least := by
      rw [← UInt32.toNat_inj]
      exact hlargest.trans hleast.symm
    exact decide_eq_true (congrArg Bound.bounded hsame)

/-- If the range that contains all counts of a list is fixed, every one of them is. -/
theorem isFixed_of_join (ofNone : Count) (hr : ∀ count ∈ counts, count.IsRange)
    (hf : (join combine ofNone counts).isFixed = true) :
    ∀ count ∈ counts, count.isFixed = true := by
  intro count hm
  exact isFixed_of_admits hf (hr count hm) fun _ h => admits_join ofNone hm h

end Covering

section Reading

variable {count : Count}

/-- Ends that pass the check are in order, and stay so as words. -/
theorem isRange_of_ofEnds {whole : List Char} {lower : Int} {upper : Option Int}
    (h : ofEnds whole lower upper = .ok count) : count.IsRange := by
  unfold ofEnds at h
  split_ifs at h with hnegative hlarge
  cases upper with
  | none =>
    cases h
    trivial
  | some upper =>
    dsimp only at h
    split_ifs at h with hinverted hlimit
    cases h
    have hordered : lower.toNat ≤ upper.toNat := by omega
    change (clamp lower.toNat).toNat ≤ (clamp upper.toNat).toNat
    rw [toNat_clamp, toNat_clamp]
    omega

/-- A count that is read is a range. -/
theorem isRange_of_parse {text : String} (h : parse text = .ok count) : count.IsRange := by
  unfold parse parseTrimmed at h
  split at h
  · split at h
    · cases h
    · exact isRange_of_ofEnds h
  · obtain ⟨lower, _, h⟩ := bind_ok_iff.mp h
    obtain ⟨upper, _, h⟩ := bind_ok_iff.mp h
    exact isRange_of_ofEnds h

/-- A fixed count is a range. -/
theorem isRange_exactly (n : UInt32) : (exactly n).IsRange :=
  Nat.le_refl _

end Reading

end Count

namespace Draft

/-- The delimiter count of a definition is a range, whether it is declared or not. -/
theorem isRange_of_readDelimiterCount {delimiter : Option Char} {source : List Char}
    {declared : Option String} {count : Count}
    (h : readDelimiterCount delimiter source declared = .ok count) : count.IsRange := by
  unfold readDelimiterCount at h
  split at h
  · split at h
    · cases h
      exact Count.isRange_exactly 0
    · cases h
  · cases h
    exact Count.isRange_exactly 0
  · exact Count.isRange_of_parse (mapError_ok_iff.mp h)
  · split at h
    · cases h
      trivial
    · cases h
      exact Count.isRange_exactly _

end Draft

end AnnotatedHelp
