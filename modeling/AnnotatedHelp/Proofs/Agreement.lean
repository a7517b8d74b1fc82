import Mathlib
import AnnotatedHelp.Proofs.Grouping

/-!
# Agreement of declarations

Definitions that share a member may each declare properties of it, but no two may declare different
values. What a group holds of a property is therefore the value that some of its drafts declare, if
any does, whatever the order of the drafts; and drafts can be grouped exactly when those of one
member are all options or all positional arguments and agree on every property.
-/

namespace AnnotatedHelp

open Outcome

/-- The value on which optional declarations agree: some of them give it, and none gives another. -/
def AgreedOn {α : Type} (value : Option α) (declared : List (Option α)) : Prop :=
  ∀ a, value = some a ↔ some a ∈ declared

namespace AgreedOn

variable {α : Type} {value other : Option α} {declared others : List (Option α)}

/-- Declarations agree on one value at most. -/
theorem unique (h : AgreedOn value declared) (h' : AgreedOn other declared) : value = other :=
  Option.ext fun a => (h a).trans (h' a).symm

/-- The order of the declarations does not matter. -/
theorem perm (h : AgreedOn value declared) (hp : declared.Perm others) : AgreedOn value others :=
  fun a => (h a).trans hp.mem_iff

/-- One declaration agrees with itself. -/
theorem single (value : Option α) : AgreedOn value [value] := by
  intro a
  rw [List.mem_singleton, eq_comm]

end AgreedOn

/-- What definitions of one member declare about it agrees, property by property. -/
structure MemberProperties.AgreedOn (properties : MemberProperties)
    (declared : List MemberProperties) : Prop where
  /-- They agree on the default. -/
  default : AnnotatedHelp.AgreedOn properties.default (declared.map (·.default))
  /-- They agree on the extra include. -/
  extraInclude : AnnotatedHelp.AgreedOn properties.extraInclude (declared.map (·.extraInclude))
  /-- They agree on the kind. -/
  kind : AnnotatedHelp.AgreedOn properties.kind (declared.map (·.kind))
  /-- They agree on the constraints on values. -/
  values : AnnotatedHelp.AgreedOn properties.values (declared.map (·.values))
  /-- They agree on the value type. -/
  valueType : AnnotatedHelp.AgreedOn properties.valueType (declared.map (·.valueType))

namespace MemberProperties.AgreedOn

variable {properties other : MemberProperties} {declared others : List MemberProperties}

/-- Definitions agree on one set of properties at most. -/
theorem unique (h : properties.AgreedOn declared) (h' : other.AgreedOn declared) :
    properties = other := by
  obtain ⟨default, extraInclude, kind, values, valueType⟩ := properties
  obtain ⟨default', extraInclude', kind', values', valueType'⟩ := other
  congr
  · exact h.default.unique h'.default
  · exact h.extraInclude.unique h'.extraInclude
  · exact h.kind.unique h'.kind
  · exact h.values.unique h'.values
  · exact h.valueType.unique h'.valueType

/-- The order of the definitions does not matter. -/
theorem perm (h : properties.AgreedOn declared) (hp : declared.Perm others) :
    properties.AgreedOn others :=
  ⟨h.default.perm (hp.map _), h.extraInclude.perm (hp.map _), h.kind.perm (hp.map _),
    h.values.perm (hp.map _), h.valueType.perm (hp.map _)⟩

/-- One definition agrees with itself. -/
theorem single (properties : MemberProperties) : properties.AgreedOn [properties] :=
  ⟨.single _, .single _, .single _, .single _, .single _⟩

end MemberProperties.AgreedOn

namespace Group

section Joining

variable {α : Type} [DecidableEq α] {member : String} {key : PropertyKey} {shown : α → String}

/-- A property that is joined with one more declaration is agreed on with it. -/
theorem mergeField_ok {current other joined : Option α} {declared : List (Option α)}
    (h : mergeField member key shown current other = .ok joined) (hc : AgreedOn current declared) :
    AgreedOn joined (declared ++ [other]) := by
  intro a
  rw [List.mem_append, List.mem_singleton, ← hc a]
  cases current with
  | none =>
    cases h
    simp [eq_comm]
  | some first =>
    cases other with
    | none =>
      cases h
      simp
    | some second =>
      rw [mergeField] at h
      split at h
      · next heq =>
        cases h
        rw [heq]
        simp [eq_comm]
      · cases h

/-- Two declarations of one property can be joined if all declarations agree. -/
theorem mergeField_exists (member : String) (key : PropertyKey) (shown : α → String)
    {current other final : Option α} {declared all : List (Option α)}
    (hf : AgreedOn final all) (hc : AgreedOn current declared) (hd : declared ⊆ all)
    (ho : other ∈ all) : ∃ joined, mergeField member key shown current other = .ok joined := by
  cases current with
  | none => exact ⟨other, rfl⟩
  | some first =>
    cases other with
    | none => exact ⟨some first, rfl⟩
    | some second =>
      have hfirst : final = some first := (hf first).mpr (hd ((hc first).mp rfl))
      have hsecond : final = some second := (hf second).mpr ho
      have heq : first = second := Option.some.inj (hfirst.symm.trans hsecond)
      exact ⟨some first, by rw [mergeField, if_pos heq]⟩

/-- Properties that are joined with one more definition are agreed on with it. -/
theorem mergeProperties_ok {current other joined : MemberProperties}
    {declared : List MemberProperties} (h : mergeProperties member current other = .ok joined)
    (hc : current.AgreedOn declared) : joined.AgreedOn (declared ++ [other]) := by
  simp only [mergeProperties, bind_ok_iff] at h
  obtain ⟨default, hdefault, extraInclude, hinclude, kind, hkind, values, hvalues, valueType,
    htype, he⟩ := h
  cases he
  refine ⟨?_, ?_, ?_, ?_, ?_⟩ <;> rw [List.map_append]
  · exact mergeField_ok hdefault hc.default
  · exact mergeField_ok hinclude hc.extraInclude
  · exact mergeField_ok hkind hc.kind
  · exact mergeField_ok hvalues hc.values
  · exact mergeField_ok htype hc.valueType

/-- What two definitions declare can be joined if all definitions of the member agree. -/
theorem mergeProperties_exists {current other final : MemberProperties}
    {declared all : List MemberProperties} (hf : final.AgreedOn all) (hc : current.AgreedOn declared)
    (hd : declared ⊆ all) (ho : other ∈ all) :
    ∃ joined, mergeProperties member current other = .ok joined := by
  obtain ⟨default, hdefault⟩ := mergeField_exists member .default ("|".intercalate ·) hf.default
    hc.default (List.map_subset _ hd) (List.mem_map_of_mem ho)
  obtain ⟨extraInclude, hinclude⟩ := mergeField_exists member .extraInclude id hf.extraInclude
    hc.extraInclude (List.map_subset _ hd) (List.mem_map_of_mem ho)
  obtain ⟨kind, hkind⟩ := mergeField_exists member .kind Kind.name hf.kind hc.kind
    (List.map_subset _ hd) (List.mem_map_of_mem ho)
  obtain ⟨values, hvalues⟩ := mergeField_exists member .values (·.text) hf.values hc.values
    (List.map_subset _ hd) (List.mem_map_of_mem ho)
  obtain ⟨valueType, htype⟩ := mergeField_exists member .valueType ValueType.name hf.valueType
    hc.valueType (List.map_subset _ hd) (List.mem_map_of_mem ho)
  refine ⟨⟨default, extraInclude, kind, values, valueType⟩, ?_⟩
  simp only [mergeProperties, bind_ok_iff]
  exact ⟨default, hdefault, extraInclude, hinclude, kind, hkind, values, hvalues, valueType, htype,
    rfl⟩

end Joining

end Group

/-- What the drafts of one member declare about it. -/
def Draft.declarations (name : String) (drafts : List Draft) : List MemberProperties :=
  (drafts.filter (·.argument.memberName == name)).map (·.member)

namespace Draft

/-- Drafts behind others declare behind them. -/
theorem declarations_append (name : String) (drafts more : List Draft) :
    declarations name (drafts ++ more) = declarations name drafts ++ declarations name more := by
  rw [declarations, List.filter_append, List.map_append]
  rfl

/-- A draft declares something about its member only. -/
theorem declarations_singleton (name : String) (draft : Draft) :
    declarations name [draft] = if draft.argument.memberName = name then [draft.member] else [] := by
  by_cases h : draft.argument.memberName = name <;> simp [declarations, h]

/-- What is declared about a member is declared by a draft of it. -/
theorem mem_declarations {name : String} {drafts : List Draft} {properties : MemberProperties} :
    properties ∈ declarations name drafts ↔
      ∃ draft ∈ drafts, draft.argument.memberName = name ∧ draft.member = properties := by
  simp [declarations, and_assoc]

/-- Drafts in another order declare the same in that order. -/
theorem declarations_perm (name : String) {drafts others : List Draft} (hp : drafts.Perm others) :
    (declarations name drafts).Perm (declarations name others) :=
  (hp.filter _).map _

end Draft

/-- Drafts that can be grouped: the drafts of one member are of one sort, and they agree. -/
structure Groupable (drafts : List Draft) : Prop where
  /-- The drafts of one member are options, or they are positional arguments. -/
  uniform : ∀ a ∈ drafts, ∀ b ∈ drafts, a.argument.memberName = b.argument.memberName →
    a.argument.isOption = b.argument.isOption
  /-- The drafts of one member agree on its properties. -/
  agreed : ∀ name, ∃ properties : MemberProperties,
    properties.AgreedOn (Draft.declarations name drafts)

/-- The order of the drafts does not matter. -/
theorem Groupable.perm {drafts others : List Draft} (h : Groupable drafts)
    (hp : drafts.Perm others) : Groupable others := by
  refine ⟨?_, ?_⟩
  · intro a ha b hb
    exact h.uniform a (hp.mem_iff.mpr ha) b (hp.mem_iff.mpr hb)
  · intro name
    obtain ⟨properties, hagreed⟩ := h.agreed name
    exact ⟨properties, hagreed.perm (Draft.declarations_perm name hp)⟩

/-- Groups that have gathered drafts: the arguments are shared out by name, and every group has the
properties on which the drafts of its member agree. -/
structure Gathered (drafts : List Draft) (groups : List Group) : Prop where
  /-- The groups are a partition of the arguments. -/
  partition : Partition (drafts.map (·.argument)) (groups.map Group.share)
  /-- A group has the properties that are declared. -/
  agreed : ∀ group ∈ groups, group.properties.AgreedOn (Draft.declarations group.name drafts)

/-- What a group has of a property is what a draft of its member declares. -/
theorem AgreedOn.eq_some_iff {α : Type} {field : MemberProperties → Option α} {value : Option α}
    {name : String} {drafts : List Draft}
    (h : AgreedOn value ((Draft.declarations name drafts).map field)) {a : α} :
    value = some a ↔
      ∃ draft ∈ drafts, draft.argument.memberName = name ∧ field draft.member = some a := by
  rw [h a, List.mem_map]
  constructor
  · rintro ⟨properties, hm, hfield⟩
    obtain ⟨draft, hd, hname, rfl⟩ := Draft.mem_declarations.mp hm
    exact ⟨draft, hd, hname, hfield⟩
  · rintro ⟨draft, hd, hname, hfield⟩
    exact ⟨draft.member, Draft.mem_declarations.mpr ⟨draft, hd, hname, rfl⟩, hfield⟩

/-- A group lacks a property exactly when no draft of its member declares it. -/
theorem AgreedOn.eq_none_iff {α : Type} {field : MemberProperties → Option α} {value : Option α}
    {name : String} {drafts : List Draft}
    (h : AgreedOn value ((Draft.declarations name drafts).map field)) :
    value = none ↔
      ∀ draft ∈ drafts, draft.argument.memberName = name → field draft.member = none := by
  simp only [Option.eq_none_iff_forall_ne_some, ne_eq, h.eq_some_iff]
  exact ⟨fun hnone draft hd hname a hfield => hnone a ⟨draft, hd, hname, hfield⟩,
    fun hall a ⟨draft, hd, hname, hfield⟩ => hall draft hd hname a hfield⟩

/-- The arguments of a group are those of the drafts of its member. -/
theorem Gathered.mem_arguments {drafts : List Draft} {groups : List Group}
    (h : Gathered drafts groups) {group : Group} (hm : group ∈ groups) {argument : Argument} :
    argument ∈ group.arguments ↔
      ∃ draft ∈ drafts, draft.argument.memberName = group.name ∧ draft.argument = argument := by
  have howned : group.arguments = _ := h.partition.owned _ (List.mem_map_of_mem hm)
  rw [howned, List.mem_filter, List.mem_map, beq_iff_eq]
  constructor
  · rintro ⟨⟨draft, hd, rfl⟩, hname⟩
    exact ⟨draft, hd, hname, rfl⟩
  · rintro ⟨draft, hd, hname, rfl⟩
    exact ⟨⟨draft, hd, rfl⟩, hname⟩

namespace Group

/-- A draft that joins a group joins its declarations to those of the group. -/
theorem add_properties {group added : Group} {draft : Draft} (h : group.add draft = .ok added) :
    mergeProperties group.name group.properties draft.member = .ok added.properties := by
  unfold add at h
  dsimp only at h
  split at h
  · cases h
  · split at h
    · cases h
    · next hmerge =>
      cases h
      exact hmerge

/-- A draft can join the group of its member if it is of the same sort and can be joined with what
the group has. -/
theorem add_exists {group : Group} {draft : Draft}
    (hu : ∀ a ∈ group.arguments, a.isOption = draft.argument.isOption)
    (hm : ∃ joined, mergeProperties group.name group.properties draft.member = .ok joined) :
    ∃ added, group.add draft = .ok added := by
  obtain ⟨joined, hjoined⟩ := hm
  have hsame : group.arguments.head?.any (·.isOption != draft.argument.isOption) = false := by
    cases hargs : group.arguments with
    | nil => rfl
    | cons first rest => simp [hu first (hargs ▸ List.mem_cons_self)]
  refine ⟨⟨group.name, joined, group.arguments ++ [draft.argument]⟩, ?_⟩
  simp [add, hsame, hjoined]

/-- A draft can be grouped if the group of its member, if there is one, takes it. -/
theorem insert_exists {draft : Draft} {groups : List Group}
    (h : ∀ group ∈ groups, group.name = draft.argument.memberName →
      ∃ added, group.add draft = .ok added) : ∃ next, insert draft groups = .ok next := by
  induction groups with
  | nil => exact ⟨_, rfl⟩
  | cons group groups ih =>
    by_cases hname : group.name = draft.argument.memberName
    · obtain ⟨added, hadded⟩ := h group List.mem_cons_self hname
      exact ⟨added :: groups, by rw [insert, if_pos hname, hadded]; rfl⟩
    · obtain ⟨next, hnext⟩ := ih fun other hm => h other (List.mem_cons_of_mem _ hm)
      exact ⟨group :: next, by rw [insert, if_neg hname, hnext]; rfl⟩

/-- Grouping one more draft keeps what the groups have gathered. -/
theorem insert_gathered {drafts : List Draft} {draft : Draft} {groups next : List Group}
    (hg : Gathered drafts groups) (h : insert draft groups = .ok next) :
    Gathered (drafts ++ [draft]) next := by
  refine ⟨by simpa using insert_partition hg.partition h, ?_⟩
  -- The groups of other members have nothing new to gather.
  have hother : ∀ group ∈ groups, group.name ≠ draft.argument.memberName →
      group.properties.AgreedOn (Draft.declarations group.name (drafts ++ [draft])) := by
    intro group hm hne
    rw [Draft.declarations_append, Draft.declarations_singleton, if_neg hne.symm, List.append_nil]
    exact hg.agreed group hm
  have hdistinct : (groups.map (·.name)).Nodup := by
    simpa [share, Function.comp_def] using hg.partition.distinct
  rcases insert_ok h with ⟨before, group, added, after, rfl, hname, hadd, rfl⟩ | ⟨hnew, rfl⟩
  · rw [List.map_append, List.map_cons, List.nodup_append, List.nodup_cons] at hdistinct
    obtain ⟨_, ⟨hafter, _⟩, hbefore⟩ := hdistinct
    intro other hm
    have hcases : other = added ∨ other ∈ before ++ after := by
      simp only [List.mem_append, List.mem_cons] at hm ⊢
      tauto
    rcases hcases with rfl | hm
    · have hsame : other.name = group.name := congrArg Prod.fst (add_ok hadd).1
      rw [Draft.declarations_append, Draft.declarations_singleton, hsame, if_pos hname.symm]
      exact mergeProperties_ok (add_properties hadd) (hg.agreed group (by simp))
    · rcases List.mem_append.mp hm with hm | hm
      · refine hother other (List.mem_append_left _ hm) fun he => ?_
        exact hbefore _ (List.mem_map_of_mem hm) _ List.mem_cons_self (he.trans hname.symm)
      · refine hother other (by simp [hm]) fun he => ?_
        exact hafter (List.mem_map.mpr ⟨other, hm, he.trans hname.symm⟩)
  · intro other hm
    rcases List.mem_append.mp hm with hm | hm
    · exact hother other hm fun he => hnew (List.mem_map.mpr ⟨other, hm, he⟩)
    · obtain rfl := List.mem_singleton.mp hm
      have hnone : Draft.declarations draft.argument.memberName drafts = [] := by
        rw [List.eq_nil_iff_forall_not_mem]
        intro properties hp
        obtain ⟨earlier, he, hname, _⟩ := Draft.mem_declarations.mp hp
        have hcovered := hg.partition.covered _ (List.mem_map_of_mem he)
        rw [hname, List.map_map] at hcovered
        exact hnew hcovered
      rw [Draft.declarations_append, Draft.declarations_singleton, ofDraft, hnone, if_pos rfl]
      exact .single _

/-- Groups of drafts that can be grouped take one more of them. -/
theorem insert_exists_of_groupable {earlier later : List Draft} {draft : Draft}
    {groups : List Group} (h : Groupable (earlier ++ draft :: later)) (hg : Gathered earlier groups) :
    ∃ next, insert draft groups = .ok next := by
  apply insert_exists
  intro group hm hname
  have hdraft : draft ∈ earlier ++ draft :: later := by simp
  refine add_exists ?_ ?_
  · intro argument ha
    obtain ⟨other, hother, hn, rfl⟩ := (hg.mem_arguments hm).mp ha
    exact h.uniform other (List.mem_append_left _ hother) draft hdraft (hn.trans hname)
  · obtain ⟨final, hfinal⟩ := h.agreed group.name
    refine mergeProperties_exists hfinal (hg.agreed group hm) ?_ ?_
    · rw [Draft.declarations_append]
      exact List.subset_append_left _ _
    · exact Draft.mem_declarations.mpr ⟨draft, hdraft, hname.symm, rfl⟩

/-- Grouping drafts behind others keeps what the groups have gathered. -/
theorem foldlM_insert_gathered {earlier drafts : List Draft} {groups next : List Group}
    (hg : Gathered earlier groups)
    (h : drafts.foldlM (fun groups draft => insert draft groups) groups = .ok next) :
    Gathered (earlier ++ drafts) next := by
  induction drafts generalizing earlier groups with
  | nil =>
    cases h
    simpa using hg
  | cons draft drafts ih =>
    rw [List.foldlM_cons] at h
    obtain ⟨middle, hm, hrest⟩ := bind_ok_iff.mp h
    simpa using ih (insert_gathered hg hm) hrest

/-- Drafts behind others are grouped if all together can be grouped. -/
theorem foldlM_insert_exists {earlier drafts : List Draft} {groups : List Group}
    (h : Groupable (earlier ++ drafts)) (hg : Gathered earlier groups) :
    ∃ next, drafts.foldlM (fun groups draft => insert draft groups) groups = .ok next := by
  induction drafts generalizing earlier groups with
  | nil => exact ⟨groups, rfl⟩
  | cons draft drafts ih =>
    obtain ⟨middle, hm⟩ := insert_exists_of_groupable h hg
    obtain ⟨next, hnext⟩ := ih (by simpa using h) (insert_gathered hg hm)
    exact ⟨next, by rw [List.foldlM_cons, hm]; exact hnext⟩

/-- No groups have gathered no drafts. -/
theorem gathered_nil : Gathered [] [] :=
  ⟨⟨by simp, by simp, by simp, by simp, by simp⟩, by simp⟩

/-- Grouping gathers all drafts. -/
theorem ofDrafts_gathered {drafts : List Draft} {groups : List Group}
    (h : ofDrafts drafts = .ok groups) : Gathered drafts groups := by
  simpa using foldlM_insert_gathered gathered_nil h

end Group

/-- What has been gathered could be grouped. -/
theorem Gathered.groupable {drafts : List Draft} {groups : List Group} (h : Gathered drafts groups) :
    Groupable drafts := by
  have hshare : ∀ draft ∈ drafts, ∃ group ∈ groups, group.name = draft.argument.memberName ∧
      draft.argument ∈ group.arguments := by
    intro draft hm
    have hcovered := h.partition.covered _ (List.mem_map_of_mem hm)
    rw [List.map_map] at hcovered
    obtain ⟨group, hgroup, hname⟩ := List.mem_map.mp hcovered
    exact ⟨group, hgroup, hname, (h.mem_arguments hgroup).mpr ⟨draft, hm, hname.symm, rfl⟩⟩
  have hnames : (groups.map (·.name)).Nodup := by
    simpa [Group.share, Function.comp_def] using h.partition.distinct
  refine ⟨?_, ?_⟩
  · intro a ha b hb hab
    obtain ⟨group, hgroup, hname, hin⟩ := hshare a ha
    obtain ⟨other, hother, hname', hin'⟩ := hshare b hb
    have hsame : group = other :=
      List.inj_on_of_nodup_map hnames hgroup hother (hname.trans (hab.trans hname'.symm))
    subst hsame
    exact h.partition.uniform _ (List.mem_map_of_mem hgroup) _ hin _ hin'
  · intro name
    by_cases hname : name ∈ groups.map (·.name)
    · obtain ⟨group, hgroup, rfl⟩ := List.mem_map.mp hname
      exact ⟨group.properties, h.agreed group hgroup⟩
    · have hnone : Draft.declarations name drafts = [] := by
        rw [List.eq_nil_iff_forall_not_mem]
        intro properties hp
        obtain ⟨draft, hm, rfl, _⟩ := Draft.mem_declarations.mp hp
        obtain ⟨group, hgroup, hn, _⟩ := hshare draft hm
        exact hname (List.mem_map.mpr ⟨group, hgroup, hn⟩)
      refine ⟨⟨none, none, none, none, none⟩, ?_⟩
      rw [hnone]
      exact ⟨by simp [AgreedOn], by simp [AgreedOn], by simp [AgreedOn], by simp [AgreedOn],
        by simp [AgreedOn]⟩

/-- Drafts are grouped exactly when those of one member are of one sort and agree. -/
theorem Group.ofDrafts_exists_iff {drafts : List Draft} :
    (∃ groups, Group.ofDrafts drafts = .ok groups) ↔ Groupable drafts := by
  constructor
  · rintro ⟨groups, h⟩
    exact (Group.ofDrafts_gathered h).groupable
  · intro h
    have hall : Groupable ([] ++ drafts) := h
    exact Group.foldlM_insert_exists hall Group.gathered_nil

end AnnotatedHelp
