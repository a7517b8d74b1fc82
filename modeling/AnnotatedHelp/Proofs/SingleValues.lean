import Mathlib
import AnnotatedHelp.Proofs.MemberOrigins
import AnnotatedHelp.Proofs.CountArithmetic

/-!
# Members that hold a single value

A member that is no collection is meant to hold one value. The check of a declared kind, and for truth
values the inference of a kind, look only at how often the member can be given; the count of the
member is multiplied with its delimiters afterwards. The main statement says what the largest number
of values is nevertheless: it is one exactly when no argument of the member admits a delimiter.
-/

namespace AnnotatedHelp

open Outcome

/-- The larger of two bounds is zero exactly when both are. -/
theorem Bound.max_eq_zero_iff {a b : Bound} :
    a.max b = .bounded 0 ↔ a = .bounded 0 ∧ b = .bounded 0 := by
  cases a with
  | unbounded => simp [max]
  | bounded limit =>
    cases b with
    | unbounded => simp [max]
    | bounded other =>
      have hmax := Count.toNat_maxWord limit other
      simp only [max, bounded.injEq, ← UInt32.toNat_inj, hmax, UInt32.toNat_zero]
      exact Nat.max_eq_zero_iff

namespace Count

variable {count delimiters : Count} {counts : List Count}

/-- The range that contains further counts has the largest number zero exactly when
all of them have. -/
theorem foldl_combine_max_eq_zero_iff :
    (counts.foldl combine count).max = .bounded 0 ↔
      count.max = .bounded 0 ∧ ∀ other ∈ counts, other.max = .bounded 0 := by
  induction counts generalizing count with
  | nil => simp
  | cons first counts ih =>
    rw [List.foldl_cons, ih, List.forall_mem_cons, ← and_assoc]
    exact and_congr_left' Bound.max_eq_zero_iff

/-- The range that contains all counts of a list has the largest number zero exactly when
all of them have. -/
theorem join_combine_max_eq_zero_iff (ofNone : Count) (hne : counts ≠ []) :
    (join combine ofNone counts).max = .bounded 0 ↔ ∀ count ∈ counts, count.max = .bounded 0 := by
  cases counts with
  | nil => exact absurd rfl hne
  | cons first counts =>
    rw [List.forall_mem_cons]
    exact foldl_combine_max_eq_zero_iff

/-- What occurs once at most has the pieces of one occurrence at most. -/
theorem timesArity_max_of_once (h : count.max = .bounded 1) :
    (count.timesArity delimiters).max = delimiters.max.add (.bounded 1) := by
  change count.max.mul (delimiters.max.add (.bounded 1)) = delimiters.max.add (.bounded 1)
  rw [h]
  cases delimiters.max with
  | unbounded => rfl
  | bounded most =>
    change Bound.bounded (mulWord 1 (addWord most 1)) = Bound.bounded (addWord most 1)
    rw [Bound.bounded.injEq, ← UInt32.toNat_inj, toNat_mulWord_addWord, toNat_addWord,
      UInt32.toNat_one, Nat.one_mul]

end Count

/-- One is the limit for the pieces of an occurrence exactly when it contains no delimiter. -/
theorem Bound.add_one_eq_one_iff {bound : Bound} :
    bound.add (.bounded 1) = .bounded 1 ↔ bound = .bounded 0 := by
  cases bound with
  | unbounded => simp [add]
  | bounded most =>
    simp only [add, bounded.injEq, ← UInt32.toNat_inj, Count.toNat_addWord, UInt32.toNat_one,
      UInt32.toNat_zero, Count.capped, Count.wordMax]
    omega

namespace Group

variable {group : Group} {valueType : ValueType} {count : Count} {kind : Kind}

/-- A kind that passes the check and is no collection has members that are given once at most. -/
theorem max_of_checkKind {done : Unit} (h : group.checkKind kind valueType count = .ok done)
    (hs : kind.isCollection = false) : count.max = .bounded 1 := by
  unfold checkKind at h
  split_ifs at h with _ hrepeated
  all_goals
    simp only [hs, Bool.not_false, ne_eq, true_and, not_not] at hrepeated
    exact hrepeated

/-- A member that is no collection can be given once at most. -/
theorem max_of_kind (h : group.kind valueType count = .ok kind) (hs : kind.isCollection = false) :
    count.max = .bounded 1 := by
  cases hdeclared : group.properties.kind with
  | none =>
    rw [kind_of_undeclared hdeclared h] at hs
    exact max_of_inferKind hs
  | some declared =>
    obtain ⟨rfl, done, hcheck⟩ := kind_of_declared hdeclared h
    exact max_of_checkKind hcheck hs

/-- A kind that is no collection is inferred where there are no delimiters, except for truth values
that options set. -/
theorem delimiters_of_inferKind (h : (group.inferKind valueType count).isCollection = false)
    (hs : valueType ≠ .bool ∨ group.isOption = false) : group.delimiters.max = .bounded 0 := by
  unfold inferKind at h
  split at h
  · next hswitch =>
    rcases hs with hs | hs
    · exact absurd hswitch.1 hs
    · rw [hswitch.2.2] at hs
      cases hs
  · split_ifs at h with _ hnone <;> first | exact hnone | cases h

end Group

/-- What the delimiters of a member that is no collection make of its count. -/
structure Member.HoldsPieces (member : Member) : Prop where
  /-- The largest number of values is that of the pieces of one occurrence. -/
  largest : member.count.max = (Count.join Count.combine Count.none
    (member.arguments.map (·.delimiterCount))).max.add (.bounded 1)
  /-- It is one exactly when no argument admits a delimiter. -/
  single : member.count.max = .bounded 1 ↔
    ∀ argument ∈ member.arguments, argument.delimiterCount.max = .bounded 0

/-- A member that is deduced and is no collection holds the pieces of one occurrence. -/
theorem Group.Deduces.holdsPieces {group : Group} {occurrences : Count} {member : Member}
    (h : group.Deduces occurrences member) (hne : group.arguments ≠ [])
    (hs : member.kind.isCollection = false) : member.HoldsPieces := by
  have honce : occurrences.max = .bounded 1 := max_of_kind h.kind hs
  have hlargest : member.count.max = group.delimiters.max.add (.bounded 1) := by
    rw [h.count]
    exact Count.timesArity_max_of_once honce
  constructor
  case largest =>
    rw [h.arguments]
    exact hlargest
  case single =>
    rw [hlargest, Bound.add_one_eq_one_iff, h.arguments]
    exact (Count.join_combine_max_eq_zero_iff Count.none (mt List.map_eq_nil_iff.mp hne)).trans
      List.forall_mem_map

/-- The pieces of a member do not depend on its place. -/
theorem Member.holdsPieces_withPlace {member : Member} (h : member.HoldsPieces) (place : Nat) :
    (member.withPlace place).HoldsPieces := by
  constructor
  case largest =>
    rw [withPlace, List.map_map]
    exact h.largest
  case single => exact h.single.trans (forall_withPlace (fun _ _ => Iff.rfl) place member).symm

/-- Every member of a document that is no collection holds the pieces of one occurrence at most. This
is a single value exactly when none of its arguments admits a delimiter, which nothing checks where a
kind is declared, nor for truth values that options set; any other member of which no kind is declared
holds a single value. -/
theorem parse_singleValues {settings : Settings} {text : String} {document : Document}
    (h : Document.parse settings text = .ok document) :
    ∃ marks annotated drafts, settings.marks = .ok marks ∧ Annotated.scan marks text = .ok annotated ∧
      (Draft.ofBlocks marks settings.dialect .zero 0 annotated.blocks).1 = .ok drafts ∧
      ∀ member ∈ document.members, member.kind.isCollection = false →
        member.HoldsPieces ∧
        ((∀ draft ∈ drafts, draft.argument.memberName = member.name → draft.member.kind = none) →
          member.valueType ≠ .bool ∨ member.isOption = false → member.count.max = .bounded 1) := by
  obtain ⟨marks, annotated, drafts, groups, hmarks, hscan, hdrafts, hdeduced⟩ :=
    Document.read_deduced (Prod.ext h rfl)
  refine ⟨marks, annotated, drafts, hmarks, hscan, congrArg Prod.fst hdrafts, ?_⟩
  intro member hm hs
  obtain ⟨group, hg, occurrences, base, place, hdeduces, rfl⟩ := hdeduced.members member hm
  have hpieces : base.HoldsPieces := hdeduces.holdsPieces (hdeduced.inhabited group hg) hs
  refine ⟨Member.holdsPieces_withPlace hpieces place, ?_⟩
  intro hundeclared hplain
  have hnone : group.properties.kind = none := by
    refine hdeduced.undeclared group hg ?_
    rw [← hdeduces.name]
    exact hundeclared
  have hinferred := Group.kind_of_undeclared hnone hdeduces.kind
  rw [Member.isOption_withPlace, Member.isOption, hdeduces.arguments] at hplain
  change base.kind.isCollection = false at hs
  rw [hinferred] at hs
  have hdelimiters := Group.delimiters_of_inferKind hs hplain
  change base.count.max = .bounded 1
  rw [hdeduces.count, Count.timesArity_max_of_once (Group.max_of_inferKind hs), hdelimiters]
  rfl

/-- A member declared a single value whose option is cut at a delimiter. -/
def delimitedValue : String :=
  "$\x7b-p X,Y | Type: value\x7d$"

/-- The maximum of a member that is no collection need not be one. -/
theorem parse_singleValues_delimited :
    ¬ ∀ (settings : Settings) (text : String) (document : Document),
      Document.parse settings text = .ok document →
        ∀ member ∈ document.members, member.kind.isCollection = false →
          member.count.max = .bounded 1 := by
  intro hall
  have hread : (Document.parse .standard delimitedValue).toOption.any
      (·.members.any fun member => !member.kind.isCollection &&
        !decide (member.count.max = .bounded 1)) = true := by
    decide +kernel
  obtain ⟨document, hparse, hfound⟩ := exists_ok_of_any hread
  obtain ⟨member, hm, hboth⟩ := List.any_eq_true.mp hfound
  rw [Bool.and_eq_true, Bool.not_eq_true', Bool.not_eq_true', decide_eq_false_iff_not] at hboth
  exact hboth.2 (hall _ _ document hparse member hm hboth.1)

/-- Two options share a member of which no kind is declared. One of them has a delimiter that it may
not contain. -/
def plainValue : String :=
  "$\x7b-p, --path X,Y | Member: m | DelimiterCount: 0\x7d$ $\x7b-q Z | Member: m\x7d$"

/-- The member is inferred to be a single value, and its maximum is one. -/
theorem parse_singleValues_plain :
    ∃ document, Document.parse .standard plainValue = .ok document ∧
      ∃ member ∈ document.members, member.kind = .value ∧ member.name = "m" ∧
        member.arguments.length = 2 ∧ member.HoldsPieces ∧ member.count.max = .bounded 1 := by
  have hread : (Document.parse .standard plainValue).toOption.any
      (·.members.any fun member => member.kind == .value && member.name == "m" &&
        member.arguments.length == 2 && member.valueType == .string) = true := by
    decide +kernel
  have hundeclared : (Settings.standard.marks.toOption.bind fun marks =>
      (Annotated.scan marks plainValue).toOption.bind fun annotated =>
        (Draft.ofBlocks marks Settings.standard.dialect .zero 0 annotated.blocks).1.toOption.map
          fun drafts => drafts.all (·.member.kind == none)) = some true := by
    decide +kernel
  obtain ⟨document, hparse, hfound⟩ := exists_ok_of_any hread
  obtain ⟨member, hm, hvalue⟩ := List.any_eq_true.mp hfound
  simp only [Bool.and_eq_true, beq_iff_eq] at hvalue
  obtain ⟨⟨⟨hkind, hname⟩, hlength⟩, htype⟩ := hvalue
  obtain ⟨marks, annotated, drafts, hmarks, hscan, hdrafts, hall⟩ := parse_singleValues hparse
  simp only [hmarks, hscan, hdrafts, Except.toOption, Option.bind_some, Option.map_some,
    Option.some.injEq, List.all_eq_true, beq_iff_eq] at hundeclared
  obtain ⟨hpieces, hplain⟩ := hall member hm (by rw [hkind]; rfl)
  have hstring : member.valueType ≠ .bool := by rw [htype]; decide
  exact ⟨document, hparse, member, hm, hkind, hname, hlength, hpieces,
    hplain (fun draft hd _ => hundeclared draft hd) (.inl hstring)⟩

end AnnotatedHelp
