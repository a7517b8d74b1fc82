import Mathlib
import AnnotatedHelp.Proofs.CountArithmetic
import AnnotatedHelp.Proofs.DefinitionOrder
import AnnotatedHelp.Proofs.MemberOrigins

/-!
# Counts of members

The count of a member is computed from ranges alone: the occurrences of positional arguments add up,
delimiters are covered by one range, and the one is multiplied with the other. It is a count of values
nevertheless. However often the arguments occur and however many delimiters each occurrence contains,
within what they admit, the member holds a number of values that its count admits; for a single
argument the ends of the count are numbers of values that it can hold.
-/

namespace AnnotatedHelp

open Outcome

/-- An argument may occur with these numbers of delimiters, one for each occurrence. -/
def Argument.Allows (argument : Argument) (occurrences : List Nat) : Prop :=
  argument.count.Admits occurrences.length ∧ ∀ d ∈ occurrences, argument.delimiterCount.Admits d

instance (argument : Argument) (occurrences : List Nat) :
    Decidable (argument.Allows occurrences) :=
  inferInstanceAs (Decidable (argument.count.Admits occurrences.length ∧
    ∀ d ∈ occurrences, argument.delimiterCount.Admits d))

/-- Occurrences of arguments are those of one of the arguments. -/
theorem Argument.exists_allows_of_mem {arguments : List Argument} {usage : List (List Nat)}
    {occurrences : List Nat} (h : List.Forall₂ Allows arguments usage) (hm : occurrences ∈ usage) :
    ∃ argument ∈ arguments, argument.Allows occurrences := by
  induction h with
  | nil => cases hm
  | @cons argument own arguments usage hallowed _ ih =>
    rcases List.mem_cons.mp hm with rfl | hm
    · exact ⟨argument, List.mem_cons_self, hallowed⟩
    · obtain ⟨other, hother, hallowed⟩ := ih hm
      exact ⟨other, List.mem_cons_of_mem argument hother, hallowed⟩

/-- Arguments that are made from definitions have counts that can be met, and the ends of their
delimiter counts are in order. -/
theorem Argument.MadeFrom.counts {marks : Marks} {dialect : Dialect} {blocks : List Block}
    {argument : Argument} (h : argument.MadeFrom marks dialect blocks) :
    argument.count.CanBeMet ∧ argument.delimiterCount.IsRange := by
  obtain ⟨_, _, _, definition, source, draft, _, _, _, _, _, hmade, he⟩ := h
  rw [he]
  obtain ⟨hordered, hroom⟩ := Draft.readOccurrences_ok hmade.count
  exact ⟨⟨hordered, Bound.admits_one_iff.mpr hroom⟩,
    Draft.isRange_of_readDelimiterCount hmade.delimiterCount⟩

namespace Group

/-- A group whose arguments have counts as definitions give them. -/
structure HasCounts (group : Group) : Prop where
  /-- There is an argument. -/
  inhabited : group.arguments ≠ []
  /-- The arguments have counts that can be met. -/
  counts : ∀ argument ∈ group.arguments, argument.count.CanBeMet
  /-- The ends of the delimiter counts are in order. -/
  ranges : group.HasRanges

variable {group : Group} {occurrences : Count}

/-- The range of all delimiter counts has its ends in order. -/
theorem HasCounts.isRange_delimiters (h : group.HasCounts) : group.delimiters.IsRange :=
  Count.join_of_forall Count.isRange_combine Count.none (mt List.map_eq_nil_iff.mp h.inhabited)
    (List.forall_mem_map.mpr h.ranges)

/-- The occurrences of a group can be met. -/
theorem HasCounts.canBeMet_count (h : group.HasCounts) (hc : group.count = .ok occurrences) :
    occurrences.CanBeMet := by
  have hcounts : ∀ count ∈ group.counts, count.CanBeMet := List.forall_mem_map.mpr h.counts
  unfold Group.count at hc
  split at hc
  · unfold optionCount at hc
    split at hc
    · next hagreed =>
      cases hc
      rcases (Count.foldlM_agree?_eq_some_iff.mp hagreed).1 with rfl | hm
      · exact ⟨by decide, by decide⟩
      · exact hcounts _ hm
    · cases hc
  · cases hc
    exact Count.join_of_forall Count.canBeMet_sum Count.exactlyOne
      (mt List.map_eq_nil_iff.mp h.inhabited) hcounts

/-- The range of all delimiter counts admits what an argument of the group admits. -/
theorem admits_delimiters {argument : Argument} (hm : argument ∈ group.arguments) {d : Nat}
    (h : argument.delimiterCount.Admits d) : group.delimiters.Admits d :=
  Count.admits_join Count.none (List.mem_map_of_mem hm) h

/-- A single argument occurs as often as its group. -/
theorem count_of_single {argument : Argument} (hs : group.arguments = [argument])
    (hc : group.count = .ok occurrences) : occurrences = argument.count := by
  have hcounts : group.counts = [argument.count] := by rw [counts, hs, List.map_singleton]
  have hagreed : Count.agree? .zeroOrOne argument.count = some argument.count :=
    Count.agree?_eq_some_iff.mpr ⟨.inr rfl, by tauto, .inl rfl⟩
  unfold Group.count optionCount at hc
  rw [hcounts, List.foldlM_cons, hagreed] at hc
  split at hc <;> cases hc <;> rfl

/-- The occurrences of positional arguments, and those of a single argument, are added up. -/
theorem count_eq_join (hs : group.isOption = false ∨ group.arguments.length = 1)
    (hc : group.count = .ok occurrences) :
    occurrences = Count.join Count.sum Count.exactlyOne group.counts := by
  rcases hs with hpositional | hsingle
  · rw [Group.count, hpositional] at hc
    cases hc
    rfl
  · obtain ⟨argument, hargument⟩ := List.length_eq_one_iff.mp hsingle
    rw [count_of_single hargument hc, counts, hargument]
    rfl

/-- Occurrences that the arguments of a group allow have as many pieces as the count of its member
admits, if positional arguments or a single argument have them. -/
theorem admits_pieces (hne : group.arguments ≠ [])
    (hs : group.isOption = false ∨ group.arguments.length = 1)
    (hc : group.count = .ok occurrences) {usage : List (List Nat)}
    (hu : List.Forall₂ Argument.Allows group.arguments usage)
    (hfits : Count.pieces usage.flatten ≤ Count.wordMax) :
    (occurrences.timesArity group.delimiters).Admits (Count.pieces usage.flatten) := by
  have hlengths : List.Forall₂ Count.Admits group.counts (usage.map List.length) :=
    List.forall₂_map_left_iff.mpr
      (List.forall₂_map_right_iff.mpr (hu.imp fun _ _ hallowed => hallowed.1))
  have htotal : (usage.map List.length).sum = usage.flatten.length := List.length_flatten.symm
  refine Count.admits_timesArity ?_ ?_ hfits
  · rw [count_eq_join hs hc, ← htotal]
    refine Count.admits_join_sum _ (mt List.map_eq_nil_iff.mp hne) hlengths ?_
    rw [htotal]
    exact (Count.length_le_pieces _).trans hfits
  · intro d hd
    obtain ⟨delimiters, hdelimiters, hin⟩ := List.mem_flatten.mp hd
    obtain ⟨argument, hm, hallowed⟩ := Argument.exists_allows_of_mem hu hdelimiters
    exact admits_delimiters hm (hallowed.2 d hin)

end Group

/-- What the count of a member says about the values that the member can hold. -/
structure Member.CountsValues (member : Member) : Prop where
  /-- The ends of the count are in order, and it leaves room for a value. -/
  canBeMet : member.count.CanBeMet
  /-- However positional arguments, or a single argument, occur, the values are counted. -/
  covers : member.isOption = false ∨ member.arguments.length = 1 →
    ∀ usage, List.Forall₂ Argument.Allows member.arguments usage →
      Count.pieces usage.flatten ≤ Count.wordMax → member.count.Admits (Count.pieces usage.flatten)
  /-- A single argument can give as few values as the count says. -/
  fewest : ∀ argument, member.arguments = [argument] → member.count.min.toNat < Count.wordMax →
    ∃ occurrences, argument.Allows occurrences ∧
      Count.pieces occurrences = member.count.min.toNat
  /-- A single argument can give as many values as the count says. -/
  most : ∀ argument limit, member.arguments = [argument] → member.count.max = .bounded limit →
    limit.toNat < Count.wordMax →
      ∃ occurrences, argument.Allows occurrences ∧ Count.pieces occurrences = limit.toNat

/-- An argument may occur with the same admitted number of delimiters each time. -/
theorem Argument.allows_replicate {argument : Argument} {n d : Nat} (hn : argument.count.Admits n)
    (hd : argument.delimiterCount.Admits d) : argument.Allows (List.replicate n d) := by
  refine ⟨by rwa [List.length_replicate], fun other hm => ?_⟩
  rw [List.eq_of_mem_replicate hm]
  exact hd

/-- The member of a group whose arguments have counts is counted by its values. -/
theorem Group.Deduces.countsValues {group : Group} {occurrences : Count} {member : Member}
    (h : group.Deduces occurrences member) (hg : group.HasCounts) : member.CountsValues := by
  have hmet : occurrences.CanBeMet := hg.canBeMet_count h.occurs
  -- A single argument has the occurrences and the delimiters of its group.
  have hsingle : ∀ argument, member.arguments = [argument] →
      occurrences = argument.count ∧ group.delimiters = argument.delimiterCount := by
    intro argument hargument
    rw [h.arguments] at hargument
    refine ⟨Group.count_of_single hargument h.occurs, ?_⟩
    rw [Group.delimiters, hargument]
    rfl
  constructor
  case canBeMet =>
    rw [h.count]
    exact hmet.timesArity hg.isRange_delimiters
  case covers =>
    intro hs usage hu hfits
    rw [Member.isOption, h.arguments] at hs
    rw [h.arguments] at hu
    rw [h.count]
    exact Group.admits_pieces hg.inhabited hs h.occurs hu hfits
  case fewest =>
    intro argument hargument hfits
    obtain ⟨hcount, hdelimiters⟩ := hsingle argument hargument
    have hranges := hg.isRange_delimiters
    rw [h.count] at hfits ⊢
    rw [Count.timesArity_min_of_lt hfits]
    exact ⟨_, Argument.allows_replicate (hcount ▸ hmet.ordered.admits_min)
      (hdelimiters ▸ hranges.admits_min), Count.pieces_replicate _ _⟩
  case most =>
    intro argument limit hargument hlimit hfits
    obtain ⟨hcount, hdelimiters⟩ := hsingle argument hargument
    have hranges := hg.isRange_delimiters
    rw [h.count] at hlimit
    obtain ⟨times, delimiters, htimes, hmost, hexact⟩ := Count.timesArity_max_of_lt hlimit hfits
    rw [hexact]
    exact ⟨_, Argument.allows_replicate (hcount ▸ hmet.ordered.admits_max htimes)
      (hdelimiters ▸ hranges.admits_max hmost), Count.pieces_replicate _ _⟩

/-- Allowed occurrences do not depend on the place of the member. -/
theorem Member.countsValues_withPlace {member : Member} (h : member.CountsValues) (place : Nat) :
    (member.withPlace place).CountsValues := by
  constructor
  case canBeMet => exact h.canBeMet
  case covers =>
    intro hs usage hu hfits
    rw [isOption_withPlace, withPlace, List.length_map] at hs
    exact h.covers hs usage
      ((List.forall₂_map_left_iff (f := fun argument : Argument =>
        { argument with memberIndex := some place })).mp hu) hfits
  case fewest =>
    intro argument hargument hfits
    obtain ⟨base, hbase, rfl⟩ := List.map_eq_singleton_iff.mp hargument
    exact h.fewest base hbase hfits
  case most =>
    intro argument limit hargument hlimit hfits
    obtain ⟨base, hbase, rfl⟩ := List.map_eq_singleton_iff.mp hargument
    exact h.most base limit hbase hlimit hfits

/-- A group of arguments that are made from definitions has counts as these give them. -/
theorem Group.hasCounts_of_made {marks : Marks} {dialect : Dialect} {blocks : List Block}
    {group : Group} (hne : group.arguments ≠ [])
    (hmade : ∀ argument ∈ group.arguments, argument.MadeFrom marks dialect blocks) :
    group.HasCounts :=
  ⟨hne, fun argument ha => (hmade argument ha).counts.1,
    fun argument ha => (hmade argument ha).counts.2⟩

/-- The groups of a document have counts as definitions give them. -/
theorem Document.Deduced.hasCounts {settings : Settings} {marks : Marks} {blocks : List Block}
    {drafts : List Draft} {groups : List Group} {document : Document}
    (h : Deduced settings marks blocks drafts groups document) {group : Group}
    (hg : group ∈ groups) : group.HasCounts :=
  Group.hasCounts_of_made (h.inhabited group hg) (h.made group hg)

/-- Joining counts never wraps around, and every member of a document that is read, in whatever
session, is counted by its values. -/
theorem Document.read_countsValues :
    (∀ a b : Count, Count.EndsExact a b) ∧
    ∀ (settings : Settings) (counters after : Counters) (text : String) (document : Document),
      read settings counters text = (.ok document, after) →
        ∀ member ∈ document.members, member.CountsValues := by
  refine ⟨Count.endsExact, ?_⟩
  intro settings counters after text document h member hm
  obtain ⟨marks, annotated, drafts, groups, -, -, -, hdeduced⟩ := read_deduced h
  obtain ⟨group, hg, occurrences, base, place, hdeduces, rfl⟩ := hdeduced.members member hm
  exact Member.countsValues_withPlace (hdeduces.countsValues (hdeduced.hasCounts hg)) place

/-- Two positional arguments share a member, and one of them may have more delimiters than the
other. -/
def sharedCounts : String :=
  "$\x7bA,B | Member: m | Count: 1..2\x7d$ $\x7bC,D | Member: m | DelimiterCount: 1..3\x7d$"

/-- An option with a delimiter is given twice or three times. -/
def repeatedCounts : String :=
  "$\x7b-x P:Q | Delimiter: : | Count: 2..3\x7d$"

/-- The count of the shared member admits the pieces of occurrences that are allowed, and both ends of the
other count are reached. -/
theorem Document.read_countsValues_shared :
    (∃ document, read .standard .zero sharedCounts = (.ok document, ⟨2, 0⟩) ∧
      ∃ member ∈ document.members, member.count = ⟨4, .bounded 12⟩ ∧ member.isOption = false ∧
        List.Forall₂ Argument.Allows member.arguments [[1, 1], [3]] ∧ member.count.Admits 8) ∧
    ∃ document, read .standard .zero repeatedCounts = (.ok document, ⟨0, 1⟩) ∧
      ∃ member ∈ document.members, member.count = ⟨4, .bounded 6⟩ ∧
        ∃ argument, member.arguments = [argument] ∧
          (∃ occurrences, argument.Allows occurrences ∧ Count.pieces occurrences = 4) ∧
          ∃ occurrences, argument.Allows occurrences ∧ Count.pieces occurrences = 6 := by
  constructor
  · have hafter : (read .standard .zero sharedCounts).2 = ⟨2, 0⟩ := by decide +kernel
    have hread : (read .standard .zero sharedCounts).1.toOption.any
        (·.members.any fun member => member.count == ⟨4, .bounded 12⟩ && !member.isOption &&
          decide (List.Forall₂ Argument.Allows member.arguments [[1, 1], [3]])) = true := by
      decide +kernel
    obtain ⟨document, hok, hfound⟩ := exists_ok_of_any hread
    simp only [List.any_eq_true, Bool.and_eq_true, beq_iff_eq, Bool.not_eq_true',
      decide_eq_true_eq] at hfound
    obtain ⟨member, hm, ⟨hcount, hpositional⟩, husage⟩ := hfound
    have hdocument : read .standard .zero sharedCounts = (.ok document, ⟨2, 0⟩) :=
      Prod.ext hok hafter
    have hcounts := read_countsValues.2 _ _ _ _ document hdocument member hm
    exact ⟨document, hdocument, member, hm, hcount, hpositional, husage,
      hcounts.covers (.inl hpositional) _ husage (by decide)⟩
  · have hafter : (read .standard .zero repeatedCounts).2 = ⟨0, 1⟩ := by decide +kernel
    have hread : (read .standard .zero repeatedCounts).1.toOption.any
        (·.members.any fun member => member.count == ⟨4, .bounded 6⟩ &&
          decide (member.arguments.length = 1)) = true := by
      decide +kernel
    obtain ⟨document, hok, hfound⟩ := exists_ok_of_any hread
    simp only [List.any_eq_true, Bool.and_eq_true, beq_iff_eq, decide_eq_true_eq] at hfound
    obtain ⟨member, hm, hcount, hlength⟩ := hfound
    obtain ⟨argument, hargument⟩ := List.length_eq_one_iff.mp hlength
    have hdocument : read .standard .zero repeatedCounts = (.ok document, ⟨0, 1⟩) :=
      Prod.ext hok hafter
    have hcounts := read_countsValues.2 _ _ _ _ document hdocument member hm
    have hleast := hcounts.fewest argument hargument
    have hmost := hcounts.most argument 6 hargument (congrArg Count.max hcount) (by decide)
    rw [hcount] at hleast
    exact ⟨document, hdocument, member, hm, hcount, argument, hargument, hleast (by decide), hmost⟩

end AnnotatedHelp
