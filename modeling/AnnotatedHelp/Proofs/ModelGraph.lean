import Mathlib
import AnnotatedHelp.Proofs.Grouping
import AnnotatedHelp.Proofs.Positions

/-!
# The graph of members and arguments

A parsed document holds every definition of its text exactly once: as an argument of the one member
whose name it carries. The members are those of the groups, sorted by name, and every argument
points back to the place of its member in the sorted list.
-/

namespace AnnotatedHelp

open Outcome

/-- The name and the arguments of a member. -/
def Member.share (member : Member) : String × List Argument :=
  (member.name, member.arguments)

/-- A member has the name and the arguments of its group. -/
theorem Group.member_ok {rule : DefaultRule} {group : Group} {member : Member}
    (h : group.member rule = .ok member) : member.share = group.share := by
  simp only [Group.member, bind_ok_iff] at h
  obtain ⟨count, _, valueType, _, kind, _, default, _, he⟩ := h
  cases he
  rfl

/-- The members of groups have their names and arguments, in order. -/
theorem Group.members_ok {rule : DefaultRule} {groups : List Group} {members : List Member}
    (h : Group.members rule groups = .ok members) :
    members.map Member.share = groups.map Group.share := by
  have hall := mapM_ok_iff.mp h
  clear h
  induction hall with
  | nil => rfl
  | cons hm _ ih => rw [List.map_cons, List.map_cons, ih, member_ok (mapError_ok_iff.mp hm)]

namespace Member

/-- Sorting neither drops nor doubles a member. -/
theorem sortByName_perm (members : List Member) : (sortByName members).Perm members :=
  List.mergeSort_perm _ _

/-- Sorted members whose names differ have ascending names. -/
theorem sortByName_ascending {members : List Member} (h : (members.map (·.name)).Nodup) :
    ((sortByName members).map (·.name)).Pairwise (· < ·) := by
  have hsorted : (sortByName members).Pairwise fun a b => decide (a.name ≤ b.name) = true :=
    List.pairwise_mergeSort
      (fun a b c hab hbc => by simpa using le_trans (by simpa using hab) (by simpa using hbc))
      (fun a b => by simpa using le_total a.name b.name) members
  have hdistinct : ((sortByName members).map (·.name)).Nodup :=
    ((sortByName_perm members).map _).nodup_iff.mpr h
  rw [List.pairwise_map]
  exact hsorted.imp₂ (fun _ _ hle hne => lt_of_le_of_ne (of_decide_eq_true hle) hne)
    (List.pairwise_map.mp hdistinct)

/-- Writing places into the arguments keeps whatever does not depend on the place. -/
theorem map_withPlace {α : Type} (f : Argument → α)
    (hf : ∀ place argument, f { argument with memberIndex := place } = f argument) (place : Nat)
    (member : Member) : (member.withPlace place).arguments.map f = member.arguments.map f := by
  simp [withPlace, Function.comp_def, hf]

/-- Numbering members keeps whatever does not depend on the place. -/
theorem map_mapIdx_withPlace {α : Type} (f : Member → α)
    (hf : ∀ place member, f (withPlace place member) = f member) (members : List Member) :
    (members.mapIdx withPlace).map f = members.map f := by
  apply List.ext_getElem?
  intro place
  rw [List.getElem?_map, List.getElem?_map, List.getElem?_mapIdx, Option.map_map]
  congr 1
  funext member
  exact hf place member

/-- Members deduced from drafts are a partition of their arguments, sorted by name. -/
theorem ofDrafts_ok {settings : Settings} {drafts : List Draft} {members : List Member}
    (h : ofDrafts settings drafts = .ok members) :
    ∃ sorted : List Member, Partition (drafts.map (·.argument)) (sorted.map share) ∧
      (sorted.map (·.name)).Pairwise (· < ·) ∧ members = sorted.mapIdx withPlace := by
  simp only [ofDrafts, bind_ok_iff] at h
  obtain ⟨groups, hg, unsorted, hm, _, _, he⟩ := h
  cases he
  have hpart := Group.ofDrafts_partition hg
  rw [← Group.members_ok hm] at hpart
  refine ⟨sortByName unsorted, hpart.perm ((sortByName_perm unsorted).symm.map _), ?_, rfl⟩
  apply sortByName_ascending
  simpa [share, Function.comp_def] using hpart.distinct

/-- The name of a member and the places of the definitions that contribute to it. -/
def contributors (member : Member) : String × List Nat :=
  (member.name, member.arguments.map (·.ordinal))

/-- The members deduced from drafts are listed by the ascending names of the drafts, each with the
drafts of its name in their order. -/
theorem map_contributors {settings : Settings} {drafts : List Draft} {members : List Member}
    (h : ofDrafts settings drafts = .ok members) {names : List String} (hn : names.Pairwise (· < ·))
    (hnames : ∀ name, name ∈ names ↔ name ∈ drafts.map (·.argument.memberName)) :
    members.map contributors = names.map fun name => (name,
      (drafts.filter (·.argument.memberName == name)).map (·.argument.ordinal)) := by
  obtain ⟨sorted, hpart, hascending, rfl⟩ := ofDrafts_ok h
  have hplaces : ∀ place member, contributors (withPlace place member) = contributors member := by
    intro place member
    rw [contributors, map_withPlace (·.ordinal) (fun _ _ => rfl)]
    rfl
  have hlisted : sorted.map (·.name) = names := by
    refine List.Perm.eq_of_pairwise' (hascending.imp le_of_lt) (hn.imp le_of_lt) ?_
    refine (List.perm_ext_iff_of_nodup (hascending.imp ne_of_lt) (hn.imp ne_of_lt)).mpr ?_
    intro name
    rw [hnames]
    constructor
    · intro hm
      obtain ⟨member, hmember, rfl⟩ := List.mem_map.mp hm
      have hshare := List.mem_map_of_mem (f := share) hmember
      obtain ⟨argument, hin⟩ := List.exists_mem_of_ne_nil _ (hpart.inhabited _ hshare)
      rw [hpart.owned _ hshare] at hin
      obtain ⟨hdrafts, hname⟩ := List.mem_filter.mp hin
      obtain ⟨draft, hdraft, rfl⟩ := List.mem_map.mp hdrafts
      exact List.mem_map.mpr ⟨draft, hdraft, beq_iff_eq.mp hname⟩
    · intro hm
      obtain ⟨draft, hdraft, rfl⟩ := List.mem_map.mp hm
      have hcovered := hpart.covered draft.argument (List.mem_map_of_mem hdraft)
      rwa [List.map_map] at hcovered
  rw [map_mapIdx_withPlace contributors hplaces, ← hlisted, List.map_map]
  refine List.map_congr_left fun member hm => ?_
  have howned : member.arguments =
      (drafts.map (·.argument)).filter (·.memberName == member.name) :=
    hpart.owned _ (List.mem_map_of_mem hm)
  rw [contributors, howned, List.filter_map, List.map_map]
  rfl

end Member

/-- How the members and the arguments of a document with `count` definitions belong together. -/
structure ModelGraph (count : Nat) (document : Document) : Prop where
  /-- The members are sorted by name, and no two have one name. -/
  names : (document.members.map (·.name)).Pairwise (· < ·)
  /-- Every member has an argument. -/
  inhabited : ∀ member ∈ document.members, member.arguments ≠ []
  /-- The arguments of a member are options, or they are positional arguments. -/
  uniform : ∀ member ∈ document.members,
    (∀ argument ∈ member.arguments, argument.isOption = true) ∨
      ∀ argument ∈ member.arguments, argument.isOption = false
  /-- Every argument of a member carries its name. -/
  owned : ∀ member ∈ document.members, ∀ argument ∈ member.arguments,
    argument.memberName = member.name
  /-- The arguments of a member are in document order. -/
  ascending : ∀ member ∈ document.members,
    (member.arguments.map (·.ordinal)).Pairwise (· < ·)
  /-- All arguments together are the definitions, each once and in order. -/
  complete : document.arguments.map (·.ordinal) = List.range count
  /-- Every argument is an option or a positional argument, and is listed once. -/
  split : (document.options ++ document.positionals).Perm document.arguments
  /-- The options are in document order. -/
  options : document.options.Sublist document.arguments ∧
    ∀ argument ∈ document.options, argument.isOption = true
  /-- The positional arguments are in document order. -/
  positionals : document.positionals.Sublist document.arguments ∧
    ∀ argument ∈ document.positionals, argument.isOption = false
  /-- Every argument points to the one member that has it. -/
  owner : ∀ argument ∈ document.arguments, ∀ member,
    document.memberOf? argument = some member ↔
      member ∈ document.members ∧ argument ∈ member.arguments

namespace Document

/-- The arguments of a document are those of its members, rearranged. -/
theorem arguments_perm (document : Document) :
    document.arguments.Perm (document.members.flatMap (·.arguments)) :=
  List.mergeSort_perm _ _

/-- The arguments of a document are listed by their ordinals. -/
theorem arguments_ascending (document : Document) :
    (document.arguments.map (·.ordinal)).Pairwise (· ≤ ·) := by
  have hsorted : document.arguments.Pairwise fun a b => decide (a.ordinal ≤ b.ordinal) = true :=
    List.pairwise_mergeSort
      (fun a b c hab hbc => by simpa using le_trans (by simpa using hab) (by simpa using hbc))
      (fun a b => by simpa using le_total a.ordinal b.ordinal) _
  rw [List.pairwise_map]
  exact hsorted.imp of_decide_eq_true

/-- If the arguments of every member point to it, an argument points to no member but its own. -/
theorem memberOf?_eq_some_iff {document : Document}
    (h : ∀ member ∈ document.members, ∀ argument ∈ member.arguments,
      document.memberOf? argument = some member)
    {argument : Argument} (ha : argument ∈ document.arguments) (member : Member) :
    document.memberOf? argument = some member ↔
      member ∈ document.members ∧ argument ∈ member.arguments := by
  constructor
  · intro hof
    obtain ⟨found, hfound, hin⟩ := List.mem_flatMap.mp (document.arguments_perm.mem_iff.mp ha)
    have := h found hfound argument hin
    rw [hof] at this
    cases this
    exact ⟨hfound, hin⟩
  · rintro ⟨hmem, hin⟩
    exact h member hmem argument hin

end Document

section Building

variable {arguments : List Argument} {sorted : List Member}

/-- A member with its place is a sorted member whose arguments carry that place. -/
theorem exists_of_mem_mapIdx_withPlace {member : Member}
    (h : member ∈ sorted.mapIdx Member.withPlace) :
    ∃ place, (sorted.mapIdx Member.withPlace)[place]? = some member ∧
      ∃ base ∈ sorted, member = base.withPlace place := by
  obtain ⟨place, hlt, rfl⟩ := List.mem_mapIdx.mp h
  exact ⟨place, by simp [hlt], sorted[place], List.getElem_mem hlt, rfl⟩

/-- Whatever does not depend on places, the arguments of all members have it as the arguments that
they were made from. -/
theorem Partition.map_arguments_perm (h : Partition arguments (sorted.map Member.share))
    {α : Type} (f : Argument → α)
    (hf : ∀ place argument, f { argument with memberIndex := place } = f argument) :
    (((sorted.mapIdx Member.withPlace).flatMap (·.arguments)).map f).Perm (arguments.map f) := by
  have hkeep : ((sorted.mapIdx Member.withPlace).flatMap (·.arguments)).map f =
      (sorted.flatMap (·.arguments)).map f := by
    rw [List.map_flatMap, List.map_flatMap, List.flatMap_def, List.flatMap_def,
      Member.map_mapIdx_withPlace _ (Member.map_withPlace f hf)]
  rw [hkeep]
  have := (h.flatMap_perm).map f
  rwa [List.flatMap_map] at this

/-- A share holds options only or positional arguments only. -/
theorem Partition.options_or_positionals {shares : List (String × List Argument)}
    (h : Partition arguments shares) {share : String × List Argument} (hm : share ∈ shares) :
    (∀ argument ∈ share.2, argument.isOption = true) ∨
      ∀ argument ∈ share.2, argument.isOption = false := by
  obtain ⟨first, rest, he⟩ := List.exists_cons_of_ne_nil (h.inhabited share hm)
  have hfirst : first ∈ share.2 := he ▸ List.mem_cons_self
  cases hf : first.isOption with
  | true => exact .inl fun a ha => (h.uniform share hm a ha first hfirst).trans hf
  | false => exact .inr fun a ha => (h.uniform share hm a ha first hfirst).trans hf

/-- Members that share out arguments with ascending ordinals, sorted by name and numbered, make up
the graph of a document. -/
theorem Partition.modelGraph (h : Partition arguments (sorted.map Member.share)) {count : Nat}
    (ho : arguments.map (·.ordinal) = List.range count)
    (hn : (sorted.map (·.name)).Pairwise (· < ·)) {document : Document}
    (hm : document.members = sorted.mapIdx Member.withPlace) : ModelGraph count document := by
  have hbase : ∀ member ∈ document.members, ∃ (place : Nat) (base : Member),
      base.share ∈ sorted.map Member.share ∧ document.members[place]? = some member ∧
        member = base.withPlace place := by
    intro member hmem
    rw [hm] at hmem ⊢
    obtain ⟨place, hget, base, hb, he⟩ := exists_of_mem_mapIdx_withPlace hmem
    exact ⟨place, base, List.mem_map_of_mem hb, hget, he⟩
  refine ⟨?_, ?_, ?_, ?_, ?_, ?_, ?_, ?_, ?_, ?_⟩
  · rw [hm, Member.map_mapIdx_withPlace _ fun _ _ => rfl]
    exact hn
  · intro member hmem
    obtain ⟨place, base, hb, _, rfl⟩ := hbase member hmem
    have hne : base.arguments ≠ [] := h.inhabited _ hb
    simpa [Member.withPlace] using hne
  · intro member hmem
    obtain ⟨place, base, hb, _, rfl⟩ := hbase member hmem
    have heither : (∀ argument ∈ base.arguments, argument.isOption = true) ∨
        ∀ argument ∈ base.arguments, argument.isOption = false := h.options_or_positionals hb
    simpa [Member.withPlace, Argument.isOption] using heither
  · intro member hmem argument harg
    obtain ⟨place, base, hb, _, rfl⟩ := hbase member hmem
    obtain ⟨a, ha, rfl⟩ := List.mem_map.mp harg
    have howned : base.arguments = arguments.filter (·.memberName == base.name) := h.owned _ hb
    rw [howned] at ha
    exact beq_iff_eq.mp (List.mem_filter.mp ha).2
  · intro member hmem
    obtain ⟨place, base, hb, _, rfl⟩ := hbase member hmem
    have howned : base.arguments = arguments.filter (·.memberName == base.name) := h.owned _ hb
    rw [Member.map_withPlace (·.ordinal) fun _ _ => rfl, howned]
    have hsub := (List.filter_sublist (p := (·.memberName == base.name)) (l := arguments)).map
      (·.ordinal)
    rw [ho] at hsub
    exact List.pairwise_lt_range.sublist hsub
  · have hperm := (document.arguments_perm.map (·.ordinal)).trans
      (hm ▸ h.map_arguments_perm (·.ordinal) fun _ _ => rfl)
    rw [ho] at hperm
    exact List.Perm.eq_of_pairwise' document.arguments_ascending
      (List.pairwise_lt_range.imp le_of_lt) hperm
  · exact List.filter_append_perm _ _
  · exact ⟨List.filter_sublist, fun argument hmem => (List.mem_filter.mp hmem).2⟩
  · refine ⟨List.filter_sublist, fun argument hmem => ?_⟩
    simpa using (List.mem_filter.mp hmem).2
  · intro argument harg
    refine Document.memberOf?_eq_some_iff ?_ harg
    -- An argument carries the place at which its member is found.
    intro member hmem found hfound
    obtain ⟨place, base, _, hget, rfl⟩ := hbase member hmem
    obtain ⟨_, _, rfl⟩ := List.mem_map.mp hfound
    exact hget

end Building

/-- A document that is parsed has its definitions as arguments, each once, of members that are
sorted by name; and every argument points back to its member. -/
theorem parse_modelGraph {settings : Settings} {text : String} {document : Document}
    (h : Document.parse settings text = .ok document) :
    ∃ marks annotated, settings.marks = .ok marks ∧ Annotated.scan marks text = .ok annotated ∧
      ModelGraph annotated.blocks.length document := by
  obtain ⟨marks, annotated, drafts, hmarks, hscan, hdrafts, hmembers, _, _⟩ :=
    Document.read_ok (Prod.ext h rfl)
  refine ⟨marks, annotated, hmarks, hscan, ?_⟩
  obtain ⟨resolved, hresolved, hdeduced⟩ := bind_ok_iff.mp hmembers
  obtain ⟨sorted, hpart, hnames, hplaced⟩ := Member.ofDrafts_ok hdeduced
  have hordinals : resolved.map (·.argument.ordinal) = List.range annotated.blocks.length := by
    rw [Draft.map_resolveIndices (·.argument.ordinal) (fun _ _ => rfl) hresolved,
      (Draft.ofBlocks_ok hdrafts).uniqueNames.ordinals, List.range_eq_range']
  exact hpart.modelGraph (by rw [List.map_map]; exact hordinals) hnames hplaced

/-- Two options share a member whose name comes last, with another definition between them. -/
def sharedText : String :=
  "$\x7b-v|Member:z\x7d$ $\x7b<f>\x7d$ $\x7b-q|Member:z|Value:false\x7d$ $\x7b-a\x7d$"

/-- The four definitions of this text make up the graph of its document. -/
theorem parse_modelGraph_shared :
    ∃ document, Document.parse .standard sharedText = .ok document ∧ ModelGraph 4 document := by
  have hcount : (Settings.standard.marks.toOption.bind fun marks =>
      (Annotated.scan marks sharedText).toOption.map (·.blocks.length)) = some 4 := by
    decide +kernel
  have hread : (Document.parse .standard sharedText).toOption.isSome = true := by
    decide +kernel
  cases h : Document.parse .standard sharedText with
  | error diagnostic =>
    rw [h] at hread
    cases hread
  | ok document =>
    obtain ⟨marks, annotated, hmarks, hscan, hgraph⟩ := parse_modelGraph h
    rw [hmarks] at hcount
    have hlength : (Annotated.scan marks sharedText).toOption.map (·.blocks.length) = some 4 :=
      hcount
    rw [hscan] at hlength
    exact ⟨document, rfl, Option.some.inj hlength ▸ hgraph⟩

end AnnotatedHelp
