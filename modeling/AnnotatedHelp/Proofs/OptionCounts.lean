import Mathlib
import AnnotatedHelp.Proofs.DefinitionOrder
import AnnotatedHelp.Proofs.Locations
import AnnotatedHelp.Proofs.MemberOrigins

/-!
# Counts of options that share a member

Options of one member say each how often they can be given, and the count of zero or one gives way to
any other. The counts that do not give way are the firm ones. The main statement says that options
agree exactly if there is at most one firm count, which is then the count of the member; that nothing
else about the options matters; and that where they do not agree, the failure names the lines of all
of them.
-/

namespace AnnotatedHelp

open Outcome

/-- Dropping repetitions leaves different entries. -/
theorem nodup_eraseDups {α : Type} [BEq α] [LawfulBEq α] (entries : List α) :
    entries.eraseDups.Nodup := by
  induction hn : entries.length using Nat.strong_induction_on generalizing entries with
  | _ n ih =>
    cases entries with
    | nil => exact List.nodup_nil
    | cons first entries =>
      have hlength := List.length_filter_le (fun other => !other == first) entries
      rw [List.length_cons] at hn
      rw [List.eraseDups_cons, List.nodup_cons]
      constructor
      · rw [List.mem_eraseDups]
        simp
      · exact ih _ (by omega) _ rfl

namespace Count

/-- The counts that do not give way. -/
def firm (counts : List Count) : Finset Count :=
  counts.toFinset.erase zeroOrOne

/-- A count is firm if it is one of the counts and not zero or one. -/
theorem mem_firm {count : Count} {counts : List Count} :
    count ∈ firm counts ↔ count ≠ zeroOrOne ∧ count ∈ counts := by
  rw [firm, Finset.mem_erase, List.mem_toFinset]

/-- The count on which options agree that have these firm counts. -/
inductive AgreedBy (firmCounts : Finset Count) : Count → Prop
  /-- Without a firm count it is zero or one. -/
  | yielding : firmCounts = ∅ → AgreedBy firmCounts zeroOrOne
  /-- It is the only firm count. -/
  | only {count : Count} : firmCounts = {count} → AgreedBy firmCounts count

/-- There is such a count exactly if at most one count is firm. -/
theorem exists_agreedBy_iff {firmCounts : Finset Count} :
    (∃ count, AgreedBy firmCounts count) ↔ firmCounts.card ≤ 1 := by
  rw [Nat.le_one_iff_eq_zero_or_eq_one, Finset.card_eq_zero, Finset.card_eq_one]
  constructor
  · rintro ⟨count, hnone | honly⟩
    · exact .inl hnone
    · exact .inr ⟨count, honly⟩
  · rintro (hnone | ⟨count, honly⟩)
    · exact ⟨zeroOrOne, .yielding hnone⟩
    · exact ⟨count, .only honly⟩

/-- Options agree on zero or one, or on a count of their own, to which all others give way. -/
theorem agreedBy_firm_iff {count : Count} {counts : List Count} :
    AgreedBy (firm counts) count ↔
      (count = zeroOrOne ∨ count ∈ counts) ∧ ∀ other ∈ counts, other = count ∨ other = zeroOrOne := by
  constructor
  · rintro (hnone | honly)
    · refine ⟨.inl rfl, fun other hm => .inl ?_⟩
      by_contra hfirm
      have hmem : other ∈ firm counts := mem_firm.mpr ⟨hfirm, hm⟩
      exact absurd hmem (hnone ▸ Finset.notMem_empty other)
    · have hcount : count ∈ firm counts := honly ▸ Finset.mem_singleton_self count
      refine ⟨.inr (mem_firm.mp hcount).2, fun other hm => or_iff_not_imp_right.mpr fun hfirm => ?_⟩
      have hother : other ∈ firm counts := mem_firm.mpr ⟨hfirm, hm⟩
      rw [honly] at hother
      exact Finset.mem_singleton.mp hother
  · rintro ⟨hcount, hall⟩
    by_cases hyields : count = zeroOrOne
    · subst hyields
      refine .yielding (Finset.eq_empty_of_forall_notMem fun other hm => ?_)
      obtain ⟨hfirm, hm⟩ := mem_firm.mp hm
      exact hfirm ((or_self_iff).mp (hall other hm))
    · have hown : count ∈ counts := hcount.resolve_left hyields
      refine .only (Finset.eq_singleton_iff_unique_mem.mpr
        ⟨mem_firm.mpr ⟨hyields, hown⟩, fun other hm => ?_⟩)
      obtain ⟨hfirm, hm⟩ := mem_firm.mp hm
      exact (hall other hm).resolve_right hfirm

/-- Options agree on what their firm counts come to. -/
theorem foldlM_agree?_iff_agreedBy {count : Count} {counts : List Count} :
    counts.foldlM agree? zeroOrOne = some count ↔ AgreedBy (firm counts) count := by
  rw [foldlM_agree?_eq_some_iff, agreedBy_firm_iff]
  simp only [or_true, true_and]

/-- The count that can be told from a list of different counts: one that stands alone, or one that
stands beside zero or one. -/
def settle? : List Count → Option Count
  | [] => some zeroOrOne
  | [count] => some count
  | [first, second] =>
    if first = zeroOrOne then some second
    else if second = zeroOrOne then some first
    else Option.none
  | _ :: _ :: _ :: _ => Option.none

/-- A list of different counts tells the count on which options with these counts agree. -/
theorem settle?_eq_some_iff {count : Count} {counts : List Count} (h : counts.Nodup) :
    settle? counts = some count ↔ AgreedBy (firm counts) count := by
  rw [agreedBy_firm_iff]
  match counts with
  | [] => simp [settle?, eq_comm]
  | [only] =>
    simp only [settle?, List.mem_singleton, forall_eq, Option.some.injEq]
    grind
  | [first, second] =>
    simp only [settle?, List.mem_cons, List.not_mem_nil, or_false, forall_eq_or_imp, forall_eq]
    split_ifs <;> grind
  | first :: second :: third :: rest =>
    -- Of three different counts two are neither the agreed one nor zero or one.
    refine iff_of_false nofun ?_
    rintro ⟨-, hall⟩
    simp only [List.nodup_cons, List.mem_cons, not_or] at h
    simp only [List.mem_cons, forall_eq_or_imp] at hall
    grind

/-- Asking one option after the other comes to the same as listing their counts, each where it appears
first, and telling the agreed one from the list. -/
theorem foldlM_agree?_eq_settle? (counts : List Count) :
    counts.foldlM agree? zeroOrOne = settle? counts.eraseDups := by
  have hfirm : firm counts.eraseDups = firm counts := by
    ext count
    rw [mem_firm, mem_firm, List.mem_eraseDups]
  refine Option.ext fun count => ?_
  rw [foldlM_agree?_iff_agreedBy, settle?_eq_some_iff (nodup_eraseDups counts), hfirm]

end Count

namespace Group

variable {group other : Group}

/-- The count of options is the one on which they agree. -/
theorem count_ok_iff (h : group.isOption = true) {count : Count} :
    group.count = .ok count ↔ Count.AgreedBy (Count.firm group.counts) count := by
  rw [Group.count, if_pos h, optionCount, ← Count.foldlM_agree?_iff_agreedBy]
  cases group.counts.foldlM Count.agree? Count.zeroOrOne <;> simp

/-- Options fail to have a count where more than one count is firm. -/
theorem count_error_iff (h : group.isOption = true) {problem : Problem} :
    group.count = .error problem ↔
      1 < (Count.firm group.counts).card ∧ problem = .differingCounts group.name := by
  have hagreed : (∃ count, Count.AgreedBy (Count.firm group.counts) count) ↔
      (Count.firm group.counts).card ≤ 1 := Count.exists_agreedBy_iff
  simp only [← Count.foldlM_agree?_iff_agreedBy] at hagreed
  rw [← not_le, ← hagreed, Group.count, if_pos h, optionCount]
  cases group.counts.foldlM Count.agree? Count.zeroOrOne with
  | none => simp [eq_comm]
  | some count => simp

/-- Options of one member name with the same firm counts have one count or fail alike. -/
theorem count_congr (h : group.isOption = true) (hother : other.isOption = true)
    (hname : other.name = group.name) (hfirm : Count.firm other.counts = Count.firm group.counts) :
    other.count = group.count := by
  cases hcount : group.count with
  | ok count =>
    rw [count_ok_iff h, ← hfirm] at hcount
    exact (count_ok_iff hother).mpr hcount
  | error problem =>
    rw [count_error_iff h, ← hfirm, ← hname] at hcount
    exact (count_error_iff hother).mpr hcount

/-- What it means that the count of options is decided by their firm counts. -/
structure FollowsFirmCounts (group : Group) : Prop where
  /-- There is a count exactly if at most one count is firm. -/
  succeeds : (∃ count, group.count = .ok count) ↔ (Count.firm group.counts).card ≤ 1
  /-- It is the firm one, or zero or one where none is firm. -/
  agreed : ∀ count, group.count = .ok count ↔ Count.AgreedBy (Count.firm group.counts) count
  /-- It can be told from the counts in the order in which they first appear. -/
  listed : group.count =
    (Count.settle? group.counts.eraseDups).elim (.error (.differingCounts group.name)) .ok
  /-- Other options of the member with the same firm counts, however many and in whatever order, have
  the same count or fail alike. -/
  unordered : ∀ other : Group, other.name = group.name → other.isOption = true →
    Count.firm other.counts = Count.firm group.counts → other.count = group.count
  /-- It does not matter which of the counts are declared. -/
  undeclared : ∀ declares : Argument → Bool,
    { group with arguments := group.arguments.map fun argument : Argument =>
      { argument with countDeclared := declares argument } }.count = group.count
  /-- Every option has the agreed count or zero or one. -/
  own : ∀ count, group.count = .ok count → ∀ argument ∈ group.arguments,
    argument.count = count ∨ argument.count = .zeroOrOne
  /-- The member that is deduced has the agreed count, once for every value of an occurrence. -/
  member : ∀ rule member, group.member rule = .ok member →
    ∃ count, Count.AgreedBy (Count.firm group.counts) count ∧
      member.count = count.timesArity group.delimiters
  /-- Where more than one count is firm, no member is deduced, for this reason. -/
  fails : 1 < (Count.firm group.counts).card → ∀ rule,
    group.member rule = .error (.differingCounts group.name)
  /-- The failure concerns the lines of all options, where no group before fails. -/
  refused : 1 < (Count.firm group.counts).card → ∀ rule before after,
    (∀ first ∈ before, ∃ member, first.member rule = .ok member) →
      Group.members rule (before ++ group :: after) =
        .error ((Problem.differingCounts group.name).atLines group.lineNumbers)

/-- Options that do not agree have no member. -/
theorem member_conflictingCount (h : group.isOption = true)
    (hcard : 1 < (Count.firm group.counts).card) (rule : DefaultRule) :
    group.member rule = .error (.differingCounts group.name) := by
  have hcount : group.count = .error (.differingCounts group.name) :=
    (count_error_iff h).mpr ⟨hcard, rfl⟩
  exact bind_error_iff.mpr (.inl hcount)

/-- The count of options is decided by their firm counts. -/
theorem followsFirmCounts (h : group.isOption = true) : group.FollowsFirmCounts := by
  constructor
  case succeeds => simp only [count_ok_iff h, Count.exists_agreedBy_iff]
  case agreed => exact fun count => count_ok_iff h
  case listed =>
    rw [Group.count, if_pos h, optionCount, Count.foldlM_agree?_eq_settle?]
    cases Count.settle? group.counts.eraseDups with
    | none => rfl
    | some count => rfl
  case unordered => exact fun other hname hother hfirm => count_congr h hother hname hfirm
  case undeclared =>
    intro declares
    refine count_congr h ?_ rfl ?_
    · simpa only [isOption, Argument.isOption, List.all_map, Function.comp_def] using h
    · simp only [counts, List.map_map, Function.comp_def]
  case own =>
    intro count hcount argument hm
    have hall := (Count.agreedBy_firm_iff.mp ((count_ok_iff h).mp hcount)).2
    exact hall argument.count (List.mem_map_of_mem hm)
  case member =>
    intro rule member hmember
    obtain ⟨count, hdeduces⟩ := member_deduces hmember
    exact ⟨count, (count_ok_iff h).mp hdeduces.occurs, hdeduces.count⟩
  case fails => exact member_conflictingCount h
  case refused =>
    intro hcard rule before after hbefore
    refine mapM_error_iff.mpr ⟨before, group, after, rfl, fun first hm => ?_, ?_⟩
    · obtain ⟨member, hmember⟩ := hbefore first hm
      exact ⟨member, mapError_ok_iff.mpr hmember⟩
    · exact mapError_error_iff.mpr ⟨_, member_conflictingCount h hcard rule, rfl⟩

end Group

/-- Drafts whose first member without a count is one of options that do not agree are refused, on the
lines of all these options. -/
theorem Member.ofDrafts_conflictingCount {settings : Settings} {drafts : List Draft}
    {before after : List Group} {group : Group}
    (h : Group.ofDrafts drafts = .ok (before ++ group :: after))
    (hbefore : ∀ first ∈ before, ∃ member, first.member settings.defaultRule = .ok member)
    (hoption : group.isOption = true) (hcard : 1 < (Count.firm group.counts).card) :
    ∃ diagnostic, ofDrafts settings drafts = .error diagnostic ∧
      diagnostic.category = .conflictingCount ∧
      ∀ line, line ∈ diagnostic.lines ↔ ∃ draft ∈ drafts,
        draft.argument.memberName = group.name ∧ draft.argument.lineNumber = line := by
  have hmembers := (Group.followsFirmCounts hoption).refused hcard _ before after hbefore
  refine ⟨_, bind_error_iff.mpr (.inr ⟨_, h, bind_error_iff.mpr (.inl hmembers)⟩), rfl, ?_⟩
  intro line
  have hgathered := Group.ofDrafts_gathered h
  rw [Problem.mem_atLines, Group.lineNumbers, List.mem_map]
  constructor
  · rintro ⟨argument, ha, rfl⟩
    obtain ⟨draft, hd, hname, rfl⟩ := (hgathered.mem_arguments (by simp)).mp ha
    exact ⟨draft, hd, hname, rfl⟩
  · rintro ⟨draft, hd, hname, rfl⟩
    exact ⟨draft.argument, (hgathered.mem_arguments (by simp)).mpr ⟨draft, hd, hname, rfl⟩, rfl⟩

/-- The count of options that share a member is decided by the set of their firm counts. They have one
exactly if at most one count is firm, and it is this one, or zero or one where there is none; it does not
matter how many options there are, in which order, how often a count is repeated and which counts are
declared. Otherwise the member fails for conflicting counts, and where it is the first to fail, its
document is refused on the lines of all its options. -/
theorem Group.count_firmCounts :
    (∀ group : Group, group.isOption = true → group.FollowsFirmCounts) ∧
      ∀ (settings : Settings) (drafts : List Draft) (before after : List Group) (group : Group),
        Group.ofDrafts drafts = .ok (before ++ group :: after) →
        (∀ first ∈ before, ∃ member, first.member settings.defaultRule = .ok member) →
        group.isOption = true → 1 < (Count.firm group.counts).card →
        ∃ diagnostic, Member.ofDrafts settings drafts = .error diagnostic ∧
          diagnostic.category = .conflictingCount ∧
          ∀ line, line ∈ diagnostic.lines ↔ ∃ draft ∈ drafts,
            draft.argument.memberName = group.name ∧ draft.argument.lineNumber = line :=
  ⟨fun _ => followsFirmCounts, fun _ _ _ _ _ => Member.ofDrafts_conflictingCount⟩

/-- The drafts of options of one member, one on each line, with these further fields. -/
def optionsOf (fields : List String) : Except Diagnostic (List Draft) :=
  (Draft.ofBlocks Draft.shortMarks .classic .zero 0 (fields.mapIdx fun place field =>
    ⟨place + 1, ("-o | Member: x |" ++ field).toList⟩)).1

/-- Four options agree on the count that two of them declare in two ways, while zero or one is declared
by one and implied by another. Three options do not agree, although one gives way. -/
theorem Group.count_firmCounts_shared :
    (∃ drafts group, optionsOf ["Count: 0..1", "Count: 0..3", "", "Count: ..3"] = .ok drafts ∧
      Group.ofDrafts drafts = .ok [group] ∧ group.isOption = true ∧
      (Count.firm group.counts).card ≤ 1 ∧ group.count = .ok ⟨0, .bounded 3⟩) ∧
    ∃ drafts group diagnostic, optionsOf ["Count: 0..1", "Count: 2", "Count: 3"] = .ok drafts ∧
      Group.ofDrafts drafts = .ok [group] ∧ group.isOption = true ∧
      1 < (Count.firm group.counts).card ∧ group.member .listKind = .error (.differingCounts "x") ∧
      Member.ofDrafts .standard drafts = .error diagnostic ∧
      diagnostic.category = .conflictingCount ∧ 1 ∈ diagnostic.lines := by
  obtain ⟨hfollows, hrefused⟩ := Group.count_firmCounts
  constructor
  · have hread : (optionsOf ["Count: 0..1", "Count: 0..3", "", "Count: ..3"] >>=
        Group.ofDrafts).toOption.map
          (fun groups => groups.map fun group => (group.isOption, group.counts)) =
          some [(true, [.zeroOrOne, ⟨0, .bounded 3⟩, .zeroOrOne, ⟨0, .bounded 3⟩])] := by
      decide +kernel
    obtain ⟨groups, hgroups, hread⟩ := exists_ok_of_toOption hread
    obtain ⟨drafts, hdrafts, hgrouped⟩ := bind_ok_iff.mp hgroups
    obtain ⟨group, rfl, hgroup⟩ := List.map_eq_singleton_iff.mp hread
    obtain ⟨hoption, hcounts⟩ := Prod.mk.inj hgroup
    have hagreed : Count.AgreedBy (Count.firm group.counts) ⟨0, .bounded 3⟩ := by
      rw [hcounts]
      exact .only (by decide +kernel)
    have hcount := ((hfollows group hoption).agreed _).mpr hagreed
    exact ⟨drafts, group, hdrafts, hgrouped, hoption, (hfollows group hoption).succeeds.mp ⟨_, hcount⟩,
      hcount⟩
  · have hread : (optionsOf ["Count: 0..1", "Count: 2", "Count: 3"] >>= Group.ofDrafts).toOption.map
        (fun groups => groups.map fun group => (group.name, group.isOption, group.counts)) =
          some [("x", true, [.zeroOrOne, ⟨2, .bounded 2⟩, ⟨3, .bounded 3⟩])] := by
      decide +kernel
    obtain ⟨groups, hgroups, hread⟩ := exists_ok_of_toOption hread
    obtain ⟨drafts, hdrafts, hgrouped⟩ := bind_ok_iff.mp hgroups
    obtain ⟨group, rfl, hgroup⟩ := List.map_eq_singleton_iff.mp hread
    obtain ⟨hname, hrest⟩ := Prod.mk.inj hgroup
    obtain ⟨hoption, hcounts⟩ := Prod.mk.inj hrest
    have hcard : 1 < (Count.firm group.counts).card := by
      rw [hcounts]
      decide +kernel
    obtain ⟨diagnostic, herror, hcategory, hnamed⟩ :=
      hrefused .standard drafts [] [] group hgrouped nofun hoption hcard
    have hlines : (optionsOf ["Count: 0..1", "Count: 2", "Count: 3"]).toOption.map (fun drafts =>
        drafts.any fun draft => draft.argument.memberName == "x" && draft.argument.lineNumber == 1) =
          some true := by
      decide +kernel
    rw [hdrafts] at hlines
    obtain ⟨draft, hm, hdraft⟩ := List.any_eq_true.mp (Option.some.inj hlines)
    obtain ⟨hmember, hline⟩ := Bool.and_eq_true_iff.mp hdraft
    have hone : 1 ∈ diagnostic.lines :=
      (hnamed 1).mpr ⟨draft, hm, (beq_iff_eq.mp hmember).trans hname.symm, beq_iff_eq.mp hline⟩
    have hfails := (hfollows group hoption).fails hcard .listKind
    exact ⟨drafts, group, diagnostic, hdrafts, hgrouped, hoption, hcard, hname ▸ hfails, herror,
      hcategory, hone⟩

end AnnotatedHelp
