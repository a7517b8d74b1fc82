import Mathlib
import AnnotatedHelp.Proofs.CountRanges
import AnnotatedHelp.Proofs.SpecialMembers

/-!
# Inferred kinds may be declared

The kind of a member is inferred from the count of the whole group and from the range that contains
all delimiter counts, while a declared kind is checked against every argument on its own. The two do
not contradict each other: where a range of delimiter counts is fixed, every count in it is. So a
member whose kind is inferred is the same with that kind and its value type declared, unless the kind
is a special one.
-/

namespace AnnotatedHelp

open Outcome

namespace Group

variable {group : Group} {valueType : ValueType} {count : Count}

/-- The delimiter counts of all arguments are ranges. -/
def HasRanges (group : Group) : Prop :=
  ∀ argument ∈ group.arguments, argument.delimiterCount.IsRange

/-- The group with a kind and a value type declared. -/
def declaring (kind : Kind) (valueType : ValueType) (group : Group) : Group :=
  { group with properties :=
    { group.properties with kind := some kind, valueType := some valueType } }

/-- If the range of all delimiter counts is fixed, every argument has a fixed number of
delimiters. -/
theorem hasFixedDelimiters_of_isFixed (hr : group.HasRanges)
    (hf : group.delimiters.isFixed = true) : group.hasFixedDelimiters = true := by
  have hall := Count.isFixed_of_join Count.none (List.forall_mem_map.mpr hr) hf
  exact List.all_eq_true.mpr (List.forall_mem_map.mp hall)

/-- A multivalue is inferred only where every argument has a fixed number of delimiters. -/
theorem hasFixedDelimiters_of_inferKind (hr : group.HasRanges)
    (h : group.inferKind valueType count = .multivalue) : group.hasFixedDelimiters = true := by
  unfold inferKind at h
  split at h
  · split at h <;> cases h
  · split_ifs at h with _ _ hfixed hopen
    · exact hasFixedDelimiters_of_isFixed hr hfixed
    · simpa using hopen

/-- A kind that is no collection is inferred only where the member can be given once at most. -/
theorem max_of_inferKind (h : (group.inferKind valueType count).isCollection = false) :
    count.max = .bounded 1 := by
  unfold inferKind at h
  split at h
  · next hswitch =>
    rw [hswitch.2.1]
    rfl
  · split_ifs at h with hmany _ _ _
    · cases h
    · rw [not_or] at hmany
      exact not_not.mp hmany.1
    all_goals cases h

/-- A kind that is not special is accepted if a multivalue has fixed delimiters and a single value
can be given once at most. -/
theorem checkKind_plain {kind : Kind} (hs : kind.isSpecial = false)
    (hm : kind = .multivalue → group.hasFixedDelimiters = true)
    (hv : kind = .value → count.max = .bounded 1) : group.checkKind kind valueType count = .ok () := by
  cases kind with
  | value => simp [checkKind, hv, Kind.isSpecial]
  | list => simp [checkKind, Kind.isCollection, Kind.isSpecial]
  | multivalue => simp [checkKind, hm, Kind.isCollection, Kind.isSpecial]
  | help | info | final => cases hs

/-- A kind that is inferred and not special passes the check for declared kinds. -/
theorem checkKind_inferKind (hr : group.HasRanges)
    (hs : (group.inferKind valueType count).isSpecial = false) :
    group.checkKind (group.inferKind valueType count) valueType count = .ok () :=
  checkKind_plain hs (hasFixedDelimiters_of_inferKind hr) fun hv => max_of_inferKind (by rw [hv]; rfl)

end Group

/-- The groups of the drafts of a document have ranges as delimiter counts. -/
theorem Gathered.hasRanges {drafts : List Draft} {groups : List Group} (h : Gathered drafts groups)
    (hr : ∀ draft ∈ drafts, draft.argument.delimiterCount.IsRange) :
    ∀ group ∈ groups, group.HasRanges := by
  intro group hg argument ha
  obtain ⟨draft, hd, _, rfl⟩ := (h.mem_arguments hg).mp ha
  exact hr draft hd

/-- Naming drafts apart and resolving their indices leaves their delimiter counts ranges. -/
theorem Draft.isRange_settled {marks : Marks} {dialect : Dialect} {counters after : Counters}
    {ordinal : Nat} {blocks : List Block} {drafts resolved : List Draft}
    (h : ofBlocks marks dialect counters ordinal blocks = (.ok drafts, after))
    (hr : resolveIndices (uniqueNames drafts) = .ok resolved) :
    ∀ draft ∈ resolved, draft.argument.delimiterCount.IsRange := by
  have hkept := map_settled (·.argument.delimiterCount) (fun _ _ => rfl) (fun _ _ => rfl) hr
  have hread : ∀ count ∈ drafts.map (·.argument.delimiterCount), count.IsRange := by
    refine List.forall_mem_map.mpr fun draft hd => ?_
    obtain ⟨_, _, _, _, definition, _, hdefinition⟩ := exists_definition h draft hd
    obtain ⟨source, hmade⟩ := ofDefinition_made hdefinition
    exact isRange_of_readDelimiterCount hmade.delimiterCount
  rw [← hkept] at hread
  exact List.forall_mem_map.mp hread

/-- The delimiter counts that definitions lead to are ranges. In every group of which this is true, a
kind that is inferred and not special can be declared together with the value type, and the member
stays the same. -/
theorem Group.member_declaring :
    (∀ marks dialect counters after ordinal blocks drafts resolved groups,
      Draft.ofBlocks marks dialect counters ordinal blocks = (.ok drafts, after) →
      Draft.resolveIndices (Draft.uniqueNames drafts) = .ok resolved →
      Group.ofDrafts resolved = .ok groups → ∀ group ∈ groups, group.HasRanges) ∧
    ∀ (group : Group) (rule : DefaultRule) (member : Member), group.HasRanges →
      group.properties.kind = none → group.member rule = .ok member →
      member.kind.isSpecial = false →
        (group.declaring member.kind member.valueType).member rule = .ok member := by
  constructor
  · intro marks dialect counters after ordinal blocks drafts resolved groups hread hresolved hgroups
    exact (Group.ofDrafts_gathered hgroups).hasRanges (Draft.isRange_settled hread hresolved)
  · intro group rule member hr hundeclared h hs
    simp only [Group.member, bind_ok_iff] at h ⊢
    obtain ⟨count, hcount, valueType, _, kind, hkind, default, hdefault, he⟩ := h
    cases he
    have hinferred := kind_of_undeclared hundeclared hkind
    have hcheck : group.checkKind kind valueType count = .ok () :=
      hinferred ▸ checkKind_inferKind hr (hinferred ▸ hs)
    have hdeclared : (group.declaring kind valueType).kind valueType count = .ok kind :=
      congrArg (Except.map fun _ => kind) hcheck
    exact ⟨count, hcount, valueType, rfl, kind, hdeclared, default, hdefault, rfl⟩

/-- The groups of two options with one delimiter each, which share a member and its default, and of a
positional argument between them. -/
def pairGroups : Except Diagnostic (List Group) := do
  let drafts ← (Draft.ofBlocks Draft.shortMarks .classic .zero 0
    [⟨1, "-a X,Y | Member: m | Default: 1,2".toList⟩, ⟨2, "F".toList⟩,
      ⟨3, "-b P,Q | Member: m | Count: 0..1".toList⟩]).1
  let resolved ← Draft.resolveIndices (Draft.uniqueNames drafts)
  Group.ofDrafts resolved

/-- The first group has the same member when it declares the kind and the type that were inferred. -/
theorem Group.member_declaring_pair :
    ∃ group groups member, pairGroups = .ok (group :: groups) ∧ group.HasRanges ∧
      group.properties.kind = none ∧ group.member .nonZeroMinimum = .ok member ∧
      member.kind = .multivalue ∧ member.default = ["1", "2"] ∧
      (group.declaring .multivalue .int).member .nonZeroMinimum = .ok member := by
  have hdeduced : pairGroups.toOption.map (fun groups => groups.head?.bind fun group =>
      (group.member .nonZeroMinimum).toOption.map fun member =>
        (group.properties.kind, member.kind, member.valueType, member.default)) =
          some (some (none, .multivalue, .int, ["1", "2"])) := by
    decide +kernel
  obtain ⟨all, h, hhead⟩ := exists_ok_of_toOption hdeduced
  obtain ⟨drafts, hdrafts, hrest⟩ := bind_ok_iff.mp h
  obtain ⟨resolved, hresolved, hgroups⟩ := bind_ok_iff.mp hrest
  cases all with
  | nil => cases hhead
  | cons group groups =>
    have hranges : group.HasRanges := Group.member_declaring.1 _ _ _ _ _ _ _ _ _
      (Prod.ext hdrafts rfl) hresolved hgroups group List.mem_cons_self
    obtain ⟨member, hm, hfound⟩ := exists_ok_of_toOption hhead
    simp only [Prod.mk.injEq] at hfound
    obtain ⟨hundeclared, hkind, htype, hdefault⟩ := hfound
    have hspecial : member.kind.isSpecial = false := by rw [hkind]; rfl
    have hsame := Group.member_declaring.2 group .nonZeroMinimum member hranges hundeclared hm
      hspecial
    rw [hkind, htype] at hsame
    exact ⟨group, groups, member, h, hranges, hundeclared, hm, hkind, hdefault, hsame⟩

end AnnotatedHelp
