import Mathlib
import AnnotatedHelp.Proofs.InferredKinds
import AnnotatedHelp.Proofs.WellFormedArguments

/-!
# Where the members of a document come from

A member of a document is the member of one group, numbered by its place, and the arguments of the
group are those of drafts, each made from the definition of one block. What the deduction says about
a group, and what a definition says about its draft, can so be read off the document.
-/

namespace AnnotatedHelp

open Outcome

/-- What the deduction of a member settles in turn: how often the member can be given, its value type,
its kind, and from these how many values it can hold. -/
structure Group.Deduces (group : Group) (occurrences : Count) (member : Member) : Prop where
  /-- The occurrences are those of the group. -/
  occurs : group.count = .ok occurrences
  /-- The kind is declared and checked, or inferred. -/
  kind : group.kind member.valueType occurrences = .ok member.kind
  /-- Every occurrence has a piece more than it has delimiters. -/
  count : member.count = occurrences.timesArity group.delimiters
  /-- The arguments are those of the group. -/
  arguments : member.arguments = group.arguments
  /-- The name is that of the group. -/
  name : member.name = group.name

/-- A member that is deduced is settled step by step. -/
theorem Group.member_deduces {group : Group} {rule : DefaultRule} {member : Member}
    (h : group.member rule = .ok member) : ∃ occurrences, group.Deduces occurrences member := by
  simp only [Group.member, bind_ok_iff] at h
  obtain ⟨count, hcount, valueType, _, kind, hkind, default, _, he⟩ := h
  cases he
  exact ⟨count, hcount, hkind, rfl, rfl, rfl⟩

/-- Writing places into arguments leaves what does not depend on the place. -/
theorem Member.forall_withPlace {P : Argument → Prop}
    (hP : ∀ place argument, P { argument with memberIndex := place } ↔ P argument) (place : Nat)
    (member : Member) :
    (∀ argument ∈ (member.withPlace place).arguments, P argument) ↔
      ∀ argument ∈ member.arguments, P argument := by
  simp only [withPlace, List.forall_mem_map, hP]

/-- An argument is made from the definition of one of the blocks, up to its name, its index and the
place of its member. -/
def Argument.MadeFrom (marks : Marks) (dialect : Dialect) (blocks : List Block)
    (argument : Argument) : Prop :=
  ∃ block earlier later definition source draft name index place,
    blocks[argument.ordinal]? = some block ∧
      Definition.ofBlock marks dialect earlier block = (.ok definition, later) ∧
      Draft.Made argument.ordinal definition source draft ∧
      argument = { draft.argument with name := name, index := index, memberIndex := place }

/-- Drafts that are read from blocks, named apart and given their indices have arguments made from
the definitions of the blocks. -/
theorem Draft.madeFrom_of_ofBlocks {marks : Marks} {dialect : Dialect} {counters after : Counters}
    {blocks : List Block} {drafts resolved : List Draft}
    (h : ofBlocks marks dialect counters 0 blocks = (.ok drafts, after))
    (hr : resolveIndices (uniqueNames drafts) = .ok resolved) :
    ∀ draft ∈ resolved, draft.argument.MadeFrom marks dialect blocks := by
  intro draft hm
  obtain ⟨original, horiginal, name, index, he⟩ := exists_unsettled hr draft hm
  obtain ⟨earlier, later, block, place, definition, hblock, hordinal, hread, hdraft⟩ :=
    exists_definition_at h original horiginal
  obtain ⟨source, hmade⟩ := ofDefinition_made hdraft
  rw [he]
  rw [← hordinal] at hmade
  rw [Nat.zero_add] at hordinal
  rw [← hordinal] at hblock
  exact ⟨block, earlier, later, definition, source, original, name, index, _, hblock, hread, hmade,
    rfl⟩

/-- What the groups of a document have gathered from its text, and how its members come from the
groups. -/
structure Document.Deduced (settings : Settings) (marks : Marks) (blocks : List Block)
    (drafts : List Draft) (groups : List Group) (document : Document) : Prop where
  /-- The drafts of the groups have arguments made from the blocks. -/
  made : ∀ group ∈ groups, ∀ argument ∈ group.arguments,
    argument.MadeFrom marks settings.dialect blocks
  /-- Every group has an argument. -/
  inhabited : ∀ group ∈ groups, group.arguments ≠ []
  /-- A group has a kind if one of the drafts of its member declares one. -/
  undeclared : ∀ group ∈ groups, (∀ draft ∈ drafts, draft.argument.memberName = group.name →
    draft.member.kind = none) → group.properties.kind = none
  /-- Every member is deduced from a group and numbered. -/
  members : ∀ member ∈ document.members, ∃ group ∈ groups, ∃ occurrences base place,
    group.Deduces occurrences base ∧ member = base.withPlace place

/-- The members of a document that is read are deduced from groups of its drafts. -/
theorem Document.read_deduced {settings : Settings} {counters after : Counters} {text : String}
    {document : Document} (h : read settings counters text = (.ok document, after)) :
    ∃ marks annotated drafts groups, settings.marks = .ok marks ∧
      Annotated.scan marks text = .ok annotated ∧
      Draft.ofBlocks marks settings.dialect counters 0 annotated.blocks = (.ok drafts, after) ∧
      Deduced settings marks annotated.blocks drafts groups document := by
  obtain ⟨marks, annotated, drafts, hmarks, hscan, hdrafts, hmembers, -, -⟩ := read_ok h
  obtain ⟨resolved, hresolved, hdeduced⟩ := bind_ok_iff.mp hmembers
  obtain ⟨groups, sorted, hgathered, hmem, -, hplaced⟩ := Member.ofDrafts_gathered hdeduced
  refine ⟨marks, annotated, drafts, groups, hmarks, hscan, hdrafts, ?_, ?_, ?_, ?_⟩
  · intro group hg argument ha
    obtain ⟨draft, hd, -, rfl⟩ := (hgathered.mem_arguments hg).mp ha
    exact Draft.madeFrom_of_ofBlocks hdrafts hresolved draft hd
  · intro group hg
    exact hgathered.partition.inhabited _ (List.mem_map_of_mem hg)
  · intro group hg hundeclared
    have hkept := Draft.map_settled (fun draft => (draft.argument.memberName, draft.member.kind))
      (fun _ _ => rfl) (fun _ _ => rfl) hresolved
    have hall : ∀ declared ∈ resolved.map fun draft =>
        (draft.argument.memberName, draft.member.kind),
          declared.1 = group.name → declared.2 = none := by
      rw [hkept]
      exact List.forall_mem_map.mpr hundeclared
    exact (hgathered.kind_eq_none_iff hg).mpr (List.forall_mem_map.mp hall)
  · intro member hm
    rw [hplaced] at hm
    obtain ⟨place, -, base, hbase, rfl⟩ := exists_of_mem_mapIdx_withPlace hm
    obtain ⟨group, hg, hmember⟩ := (hmem base).mp hbase
    obtain ⟨occurrences, hdeduces⟩ := Group.member_deduces hmember
    exact ⟨group, hg, occurrences, base, place, hdeduces, rfl⟩

end AnnotatedHelp
