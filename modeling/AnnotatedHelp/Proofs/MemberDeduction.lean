import Mathlib
import AnnotatedHelp.Proofs.Agreement
import AnnotatedHelp.Proofs.ModelGraph

/-!
# Members as images of groups

Every member is deduced from one group and every group has a member; sorting and numbering change
neither. So what is asked of all members can be asked of the groups, one at a time.
-/

namespace AnnotatedHelp

open Outcome

namespace Group

variable {rule : DefaultRule} {groups : List Group}

/-- The members of groups exist if every group has one. -/
theorem members_exists_iff :
    (∃ members, Group.members rule groups = .ok members) ↔
      ∀ group ∈ groups, ∃ member, group.member rule = .ok member := by
  simp only [members, mapM_exists_iff, mapError_ok_iff]

/-- The members of groups are the members of the single groups. -/
theorem mem_members {members : List Member} (h : Group.members rule groups = .ok members)
    {member : Member} : member ∈ members ↔ ∃ group ∈ groups, group.member rule = .ok member := by
  simp only [mem_of_mapM_ok h, mapError_ok_iff]

end Group

namespace Member

variable {settings : Settings} {drafts : List Draft}

/-- A help member is missing only where one is required. -/
theorem checkHelp_ok_iff {requireHelp : Bool} {members : List Member} {done : Unit} :
    checkHelp requireHelp members = .ok done ↔
      (requireHelp = true → ∃ member ∈ members, member.kind = .help) := by
  rw [checkHelp]
  split
  · next h => simpa using h
  · next h => simpa using h

/-- Members deduced from drafts are those of the groups that have gathered the drafts, sorted by
name and numbered. -/
theorem ofDrafts_gathered {members : List Member} (h : ofDrafts settings drafts = .ok members) :
    ∃ (groups : List Group) (sorted : List Member), Gathered drafts groups ∧
      (∀ member, member ∈ sorted ↔
        ∃ group ∈ groups, group.member settings.defaultRule = .ok member) ∧
      (sorted.map (·.name)).Pairwise (· < ·) ∧ members = sorted.mapIdx withPlace := by
  simp only [ofDrafts, bind_ok_iff] at h
  obtain ⟨groups, hgroups, unsorted, hmembers, _, _, he⟩ := h
  cases he
  have hgathered := Group.ofDrafts_gathered hgroups
  refine ⟨groups, sortByName unsorted, hgathered, ?_, ?_, rfl⟩
  · intro member
    rw [(sortByName_perm unsorted).mem_iff]
    exact Group.mem_members hmembers
  · apply sortByName_ascending
    have hdistinct := hgathered.partition.distinct
    rw [← Group.members_ok hmembers] at hdistinct
    simpa [share, Function.comp_def] using hdistinct

/-- Members can be deduced from drafts that can be grouped if every group has a member and, where
it is required, a group has a help member. -/
theorem ofDrafts_exists_iff :
    (∃ members, ofDrafts settings drafts = .ok members) ↔
      ∃ groups, Group.ofDrafts drafts = .ok groups ∧
        (∀ group ∈ groups, ∃ member, group.member settings.defaultRule = .ok member) ∧
        (settings.requireHelp = true → ∃ group ∈ groups, ∃ member,
          group.member settings.defaultRule = .ok member ∧ member.kind = .help) := by
  simp only [ofDrafts, bind_ok_iff, checkHelp_ok_iff]
  constructor
  · rintro ⟨members, groups, hgroups, unsorted, hmembers, _, hhelp, _⟩
    refine ⟨groups, hgroups, Group.members_exists_iff.mp ⟨unsorted, hmembers⟩, ?_⟩
    intro hrequired
    obtain ⟨member, hm, hkind⟩ := hhelp hrequired
    obtain ⟨group, hg, hdeduced⟩ := (Group.mem_members hmembers).mp hm
    exact ⟨group, hg, member, hdeduced, hkind⟩
  · rintro ⟨groups, hgroups, hall, hhelp⟩
    obtain ⟨unsorted, hmembers⟩ := Group.members_exists_iff.mpr hall
    refine ⟨_, groups, hgroups, unsorted, hmembers, (), ?_, rfl⟩
    intro hrequired
    obtain ⟨group, hg, member, hdeduced, hkind⟩ := hhelp hrequired
    exact ⟨member, (Group.mem_members hmembers).mpr ⟨group, hg, hdeduced⟩, hkind⟩

end Member

end AnnotatedHelp
