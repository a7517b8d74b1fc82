import Mathlib
import AnnotatedHelp.Proofs.CountRanges
import AnnotatedHelp.Proofs.MemberDeduction

/-!
# Members and the order of definitions

A member is deduced from its arguments taken together: counts are agreed on or added up, delimiter
counts are covered, the types of literals are collected. Every rule of the deduction reads the
arguments through a quantifier, a set of literals or a join of counts, and so gives the same in
whatever order they stand. Drafts in another order have the same members, each with its arguments in
another order, or have no members either.
-/

namespace AnnotatedHelp

open Outcome

section Rearrangement

variable {α β : Type} {xs ys : List α}

/-- Steps that can be exchanged end in the same state, or fail, in every order. -/
theorem foldlM_perm {step : β → α → Option β}
    (hstep : ∀ state x y, (step state x >>= (step · y)) = (step state y >>= (step · x)))
    (h : xs.Perm ys) (state : β) : xs.foldlM step state = ys.foldlM step state := by
  induction h generalizing state with
  | nil => rfl
  | cons x _ ih =>
    rw [List.foldlM_cons, List.foldlM_cons]
    congr 1
    funext next
    exact ih next
  | swap x y zs =>
    have hexchange := congrArg (· >>= fun next => zs.foldlM step next) (hstep state y x)
    simpa only [List.foldlM_cons, bind_assoc] using hexchange
  | trans _ _ ih ih' => exact (ih state).trans (ih' state)

/-- A reading of all entries gives the results in the order of the entries, or fails in every
order. -/
theorem mapM_perm (read : α → Option β) (h : xs.Perm ys) :
    Option.Rel List.Perm (xs.mapM read) (ys.mapM read) := by
  induction h with
  | nil => exact .some (.refl _)
  | @cons x zs ws _ ih =>
    rw [List.mapM_cons, List.mapM_cons]
    cases read x with
    | none => exact .none
    | some value =>
      generalize zs.mapM read = left at ih ⊢
      generalize ws.mapM read = right at ih ⊢
      cases ih with
      | none => exact .none
      | some hp => exact .some (hp.cons value)
  | swap x y zs =>
    simp only [List.mapM_cons]
    cases read x with
    | none => cases read y <;> exact .none
    | some value =>
      cases read y with
      | none => exact .none
      | some other =>
        cases zs.mapM read with
        | none => exact .none
        | some rest => exact .some (.swap value other rest)
  | @trans zs ws us _ _ ih ih' =>
    generalize zs.mapM read = left at ih ⊢
    generalize ws.mapM read = middle at ih ih'
    cases ih with
    | none => exact ih'
    | some hp =>
      generalize us.mapM read = right at ih' ⊢
      cases ih' with
      | some hp' => exact .some (hp.trans hp')

/-- The smallest number does not depend on the order. -/
theorem min?_perm {ns ms : List Nat} (h : ns.Perm ms) : ns.min? = ms.min? := by
  apply Option.ext
  intro least
  simp only [List.min?_eq_some_iff, h.mem_iff]

end Rearrangement

namespace Count

theorem minWord_comm (a b : UInt32) : minWord a b = minWord b a := by
  rw [← UInt32.toNat_inj, toNat_minWord, toNat_minWord]
  exact Nat.min_comm _ _

theorem minWord_assoc (a b c : UInt32) : minWord (minWord a b) c = minWord a (minWord b c) := by
  rw [← UInt32.toNat_inj]
  simp only [toNat_minWord]
  exact Nat.min_assoc _ _ _

theorem maxWord_comm (a b : UInt32) : maxWord a b = maxWord b a := by
  rw [← UInt32.toNat_inj, toNat_maxWord, toNat_maxWord]
  exact Nat.max_comm _ _

theorem maxWord_assoc (a b c : UInt32) : maxWord (maxWord a b) c = maxWord a (maxWord b c) := by
  rw [← UInt32.toNat_inj]
  simp only [toNat_maxWord]
  exact Nat.max_assoc _ _ _

theorem addWord_comm (a b : UInt32) : addWord a b = addWord b a := by
  rw [addWord, addWord, Nat.add_comm]

/-- A sum that stops at the largest word stops there in whatever order it is taken. -/
theorem addWord_assoc (a b c : UInt32) : addWord (addWord a b) c = addWord a (addWord b c) := by
  rw [← UInt32.toNat_inj]
  simp only [addWord, toNat_clamp]
  omega

end Count

namespace Bound

theorem max_comm (a b : Bound) : a.max b = b.max a := by
  cases a <;> cases b <;> simp [max, Count.maxWord_comm]

theorem max_assoc (a b c : Bound) : (a.max b).max c = a.max (b.max c) := by
  cases a <;> cases b <;> cases c <;> simp [max, Count.maxWord_assoc]

theorem add_comm (a b : Bound) : a.add b = b.add a := by
  cases a <;> cases b <;> simp [add, Count.addWord_comm]

theorem add_assoc (a b c : Bound) : (a.add b).add c = a.add (b.add c) := by
  cases a <;> cases b <;> cases c <;> simp [add, Count.addWord_assoc]

end Bound

namespace Count

instance : Std.Commutative combine :=
  ⟨fun a b => by rw [combine, combine, minWord_comm, Bound.max_comm]⟩

instance : Std.Associative combine :=
  ⟨fun a b c => by simp only [combine, minWord_assoc, Bound.max_assoc]⟩

instance : Std.Commutative sum :=
  ⟨fun a b => by rw [sum, sum, addWord_comm, Bound.add_comm]⟩

instance : Std.Associative sum :=
  ⟨fun a b c => by simp only [sum, addWord_assoc, Bound.add_assoc]⟩

/-- Counts are joined in whatever order they stand. -/
theorem join_perm (operation : Count → Count → Count) [Std.Commutative operation]
    [Std.Associative operation] (ofNone : Count) {counts others : List Count}
    (h : counts.Perm others) : join operation ofNone counts = join operation ofNone others := by
  induction h with
  | nil => rfl
  | cons count hp _ => exact hp.foldl_eq count
  | swap a b counts =>
    have hfirst : operation b a = operation a b := Std.Commutative.comm b a
    exact congrArg (counts.foldl operation) hfirst
  | trans _ _ ih ih' => exact ih.trans ih'

/-- The count on which two options agree is that of one of them, and the other gives way to it or
has it too. -/
theorem agree?_eq_some_iff {a b count : Count} :
    agree? a b = some count ↔
      (count = a ∨ count = b) ∧ (a = count ∨ a = zeroOrOne) ∧ (b = count ∨ b = zeroOrOne) := by
  unfold agree?
  generalize zeroOrOne = yielding
  by_cases hab : a = b
  · subst hab
    grind
  · by_cases ha : a = yielding
    · grind
    · grind

/-- Three options agree on the count of one of them to which the others give way. -/
theorem agree?_twice_eq_some_iff {a b c count : Count} :
    (agree? a b >>= (agree? · c)) = some count ↔
      (count = a ∨ count = b ∨ count = c) ∧ (a = count ∨ a = zeroOrOne) ∧
        (b = count ∨ b = zeroOrOne) ∧ (c = count ∨ c = zeroOrOne) := by
  simp only [Option.bind_eq_bind, Option.bind_eq_some_iff, agree?_eq_some_iff]
  generalize zeroOrOne = yielding
  constructor
  · rintro ⟨middle, ⟨hmiddle, ha, hb⟩, hcount, hm, hc⟩
    grind
  · rintro ⟨hcount, ha, hb, hc⟩
    -- What `a` and `b` agree on is `count` unless both give way.
    by_cases hyields : a = yielding
    · exact ⟨b, by grind⟩
    · exact ⟨a, by grind⟩

/-- Options agree on a count in whatever order they are asked. -/
theorem agree?_exchange (count a b : Count) :
    (agree? count a >>= (agree? · b)) = (agree? count b >>= (agree? · a)) := by
  apply Option.ext
  intro agreed
  rw [agree?_twice_eq_some_iff, agree?_twice_eq_some_iff]
  tauto

/-- Options that are asked one after the other agree on a count exactly if it is that of one of them
and the others have it or give way. -/
theorem foldlM_agree?_eq_some_iff {start count : Count} {counts : List Count} :
    counts.foldlM agree? start = some count ↔ (count = start ∨ count ∈ counts) ∧
      (start = count ∨ start = zeroOrOne) ∧ ∀ other ∈ counts, other = count ∨ other = zeroOrOne := by
  induction counts generalizing start with
  | nil =>
    constructor
    · rintro ⟨⟩
      exact ⟨.inl rfl, .inl rfl, nofun⟩
    · rintro ⟨rfl | hm, -⟩
      · rfl
      · cases hm
  | cons first counts ih =>
    rw [List.foldlM_cons, Option.bind_eq_bind, Option.bind_eq_some_iff, List.forall_mem_cons,
      List.mem_cons]
    simp only [ih, agree?_eq_some_iff]
    constructor
    · rintro ⟨next, ⟨hnext, hstart, hfirst⟩, hcount, hyields, hall⟩
      refine ⟨?_, ?_, ?_, hall⟩
      · grind
      · grind
      · grind
    · rintro ⟨hcount, hstart, hfirst, hall⟩
      -- The first two agree on `count` unless both give way.
      by_cases hboth : start = zeroOrOne
      · exact ⟨first, by grind⟩
      · exact ⟨start, by grind⟩

end Count

/-- The same group with its arguments in another order. -/
structure Group.Reordered (group other : Group) : Prop where
  /-- The groups are of one member. -/
  name : other.name = group.name
  /-- The groups have the same properties. -/
  properties : other.properties = group.properties
  /-- The groups hold the same arguments. -/
  arguments : group.arguments.Perm other.arguments

/-- The same member with its arguments in another order. -/
structure Member.Reordered (member other : Member) : Prop where
  /-- The members have the same arguments. -/
  arguments : member.arguments.Perm other.arguments
  /-- The members differ in nothing else. -/
  rest : other = { member with arguments := other.arguments }

theorem Member.Reordered.symm {member other : Member} (h : member.Reordered other) :
    other.Reordered member := by
  refine ⟨h.arguments.symm, ?_⟩
  rw [h.rest]

/-- The same place is written into members that differ in the order of their arguments only. -/
theorem Member.Reordered.withPlace {member other : Member} (h : member.Reordered other)
    (place : Nat) : (member.withPlace place).Reordered (other.withPlace place) := by
  refine ⟨h.arguments.map _, ?_⟩
  rw [h.rest]
  rfl

namespace Group.Reordered

variable {group other : Group}

theorem symm (h : group.Reordered other) : other.Reordered group :=
  ⟨h.name.symm, h.properties.symm, h.arguments.symm⟩

theorem isOption (h : group.Reordered other) : other.isOption = group.isOption :=
  h.arguments.symm.all_eq

theorem hasFixedDelimiters (h : group.Reordered other) :
    other.hasFixedDelimiters = group.hasFixedDelimiters :=
  h.arguments.symm.all_eq

theorem delimiters (h : group.Reordered other) : other.delimiters = group.delimiters :=
  Count.join_perm _ _ (h.arguments.symm.map _)

theorem leastDelimiters (h : group.Reordered other) :
    other.leastDelimiters = group.leastDelimiters := by
  rw [Group.leastDelimiters, min?_perm (h.arguments.symm.map _)]
  rfl

theorem count (h : group.Reordered other) : other.count = group.count := by
  have hcounts : other.counts.Perm group.counts := h.arguments.symm.map _
  rw [Group.count, Group.count, h.isOption, Count.join_perm _ _ hcounts, optionCount, optionCount,
    foldlM_perm Count.agree?_exchange hcounts, h.name]

/-- The literals of a member do not depend on the order of its arguments. -/
theorem candidates (h : group.Reordered other) : other.candidates.Perm group.candidates := by
  rw [Group.candidates, Group.candidates, h.properties]
  exact (h.arguments.symm.flatMap_right _).append_left _

theorem inferValueType (h : group.Reordered other) :
    other.inferValueType = group.inferValueType := by
  have htypes := mapM_perm ValueType.ofLiteral? h.candidates
  unfold Group.inferValueType
  rw [h.name]
  generalize other.candidates.mapM ValueType.ofLiteral? = left at htypes ⊢
  generalize group.candidates.mapM ValueType.ofLiteral? = right at htypes ⊢
  cases htypes with
  | none => rfl
  | @some types types' hp =>
    have hcontains : types.contains = types'.contains := by
      funext valueType
      exact hp.contains_eq
    exact congrArg (fun admitted => ValueType.common group.name (ValueType.all.filter admitted))
      hcontains

theorem valueType (h : group.Reordered other) : other.valueType = group.valueType := by
  rw [Group.valueType, Group.valueType, h.properties, h.inferValueType]

theorem kind (h : group.Reordered other) (valueType : ValueType) (count : Count) :
    other.kind valueType count = group.kind valueType count := by
  have hcheck : ∀ kind, other.checkKind kind valueType count = group.checkKind kind valueType count := by
    intro kind
    simp only [Group.checkKind, h.name, h.properties, h.isOption, h.hasFixedDelimiters]
  have hinfer : other.inferKind valueType count = group.inferKind valueType count := by
    simp only [Group.inferKind, h.name, h.isOption, h.delimiters, h.hasFixedDelimiters]
  simp only [Group.kind, h.properties, hcheck, hinfer]

theorem default (h : group.Reordered other) (rule : DefaultRule) (kind : Kind)
    (valueType : ValueType) (count : Count) :
    other.default rule kind valueType count = group.default rule kind valueType count := by
  simp only [Group.default, Group.checkDefault, Group.inferDefault, h.name, h.properties,
    h.leastDelimiters]

/-- A group in another order has the same member, or fails in the same way, except that the
arguments of the member stand in that order. -/
theorem member (h : group.Reordered other) (rule : DefaultRule) :
    other.member rule =
      (group.member rule).map fun member => { member with arguments := other.arguments } := by
  simp only [Group.member, h.count, h.valueType, h.kind, h.default, h.delimiters, h.name,
    h.properties]
  cases group.count with
  | error problem => rfl
  | ok count =>
    cases group.valueType with
    | error problem => rfl
    | ok valueType =>
      cases hkind : group.kind valueType count with
      | error problem => simp [bind, Except.bind, hkind, Except.map]
      | ok kind =>
        cases hdefault : group.default rule kind valueType count <;>
          simp [bind, Except.bind, hkind, hdefault, Except.map]

/-- A group in another order has a member if the group has one, and the two members differ in the
order of their arguments only. -/
theorem member_ok (h : group.Reordered other) {rule : DefaultRule} {member : Member}
    (hm : group.member rule = .ok member) :
    ∃ same, other.member rule = .ok same ∧ member.Reordered same := by
  refine ⟨{ member with arguments := other.arguments }, by rw [h.member, hm]; rfl, ?_, rfl⟩
  have hown : member.arguments = group.arguments := congrArg Prod.snd (Group.member_ok hm)
  rw [hown]
  exact h.arguments

end Group.Reordered

/-- Drafts in another order are gathered in the same groups, each in another order. -/
theorem Gathered.reordered {drafts others : List Draft} {groups groups' : List Group}
    (h : Gathered drafts groups) (h' : Gathered others groups') (hp : drafts.Perm others)
    {group : Group} (hm : group ∈ groups) : ∃ other ∈ groups', group.Reordered other := by
  obtain ⟨argument, ha⟩ := List.exists_mem_of_ne_nil _
    (h.partition.inhabited _ (List.mem_map_of_mem hm))
  obtain ⟨draft, hd, hname, -⟩ := (h.mem_arguments hm).mp ha
  have hcovered := h'.partition.covered _ (List.mem_map_of_mem (hp.mem_iff.mp hd))
  rw [hname, List.map_map] at hcovered
  obtain ⟨other, ho, hsame⟩ := List.mem_map.mp hcovered
  change other.name = group.name at hsame
  have howned : group.arguments = _ := h.partition.owned _ (List.mem_map_of_mem hm)
  have howned' : other.arguments = _ := h'.partition.owned _ (List.mem_map_of_mem ho)
  refine ⟨other, ho, hsame, ?_, ?_⟩
  · have hagreed := (h.agreed group hm).perm (Draft.declarations_perm group.name hp)
    exact (hsame ▸ h'.agreed other ho).unique hagreed
  · rw [howned, howned']
    simp only [Group.share, hsame]
    exact (hp.map _).filter _

namespace Member

variable {settings : Settings} {drafts others : List Draft}

/-- Members that belong together by name are found at the same places of two sorted lists. -/
theorem forall₂_of_ascending {r : Member → Member → Prop} {members members' : List Member}
    (ha : (members.map (·.name)).Pairwise (· < ·)) (ha' : (members'.map (·.name)).Pairwise (· < ·))
    (hr : ∀ member other, r member other → other.name = member.name)
    (hp : ∀ member ∈ members, ∃ other ∈ members', r member other)
    (hp' : ∀ other ∈ members', ∃ member ∈ members, r member other) :
    List.Forall₂ r members members' := by
  have hnodup : (members'.map (·.name)).Nodup := ha'.imp fun h => h.ne
  have hnames : members.map (·.name) = members'.map (·.name) := by
    refine List.Perm.eq_of_pairwise' (ha.imp le_of_lt) (ha'.imp le_of_lt) ?_
    rw [List.perm_ext_iff_of_nodup (ha.imp fun h => h.ne) hnodup]
    intro name
    rw [List.mem_map, List.mem_map]
    constructor
    · rintro ⟨member, hm, rfl⟩
      obtain ⟨other, ho, hboth⟩ := hp member hm
      exact ⟨other, ho, hr _ _ hboth⟩
    · rintro ⟨other, ho, rfl⟩
      obtain ⟨member, hm, hboth⟩ := hp' other ho
      exact ⟨member, hm, (hr _ _ hboth).symm⟩
  rw [List.forall₂_iff_get]
  refine ⟨by simpa using congrArg List.length hnames, ?_⟩
  intro place hlt hlt'
  obtain ⟨other, ho, hboth⟩ := hp _ (List.get_mem members ⟨place, hlt⟩)
  have hat : (members.get ⟨place, hlt⟩).name = (members'.get ⟨place, hlt'⟩).name := by
    have := congrArg (·[place]?) hnames
    simpa [hlt, hlt'] using this
  have hsame : other = members'.get ⟨place, hlt'⟩ :=
    List.inj_on_of_nodup_map hnodup ho (List.get_mem _ _) ((hr _ _ hboth).trans hat)
  exact hsame ▸ hboth

/-- Drafts in another order have members if the drafts have. -/
theorem ofDrafts_exists_of_perm (hp : drafts.Perm others)
    (h : ∃ members, ofDrafts settings drafts = .ok members) :
    ∃ members, ofDrafts settings others = .ok members := by
  rw [ofDrafts_exists_iff] at h ⊢
  obtain ⟨groups, hgroups, hall, hhelp⟩ := h
  have hgathered := Group.ofDrafts_gathered hgroups
  obtain ⟨groups', hgroups'⟩ := Group.ofDrafts_exists_iff.mpr (hgathered.groupable.perm hp)
  have hgathered' := Group.ofDrafts_gathered hgroups'
  refine ⟨groups', hgroups', ?_, ?_⟩
  · intro other ho
    obtain ⟨group, hm, hr⟩ := hgathered'.reordered hgathered hp.symm ho
    obtain ⟨member, hmember⟩ := hall group hm
    obtain ⟨same, hsame, _⟩ := hr.symm.member_ok hmember
    exact ⟨same, hsame⟩
  · intro hrequired
    obtain ⟨group, hm, member, hmember, hkind⟩ := hhelp hrequired
    obtain ⟨other, ho, hr⟩ := hgathered.reordered hgathered' hp hm
    obtain ⟨same, hsame, hboth⟩ := hr.member_ok hmember
    refine ⟨other, ho, same, hsame, ?_⟩
    rw [hboth.rest]
    exact hkind

/-- The order of definitions decides neither whether drafts have members nor which they have, only
the order of the arguments inside the members. -/
theorem ofDrafts_perm (hp : drafts.Perm others) (settings : Settings) :
    ((∃ members, ofDrafts settings drafts = .ok members) ↔
      ∃ members, ofDrafts settings others = .ok members) ∧
    ∀ members members', ofDrafts settings drafts = .ok members →
      ofDrafts settings others = .ok members' → List.Forall₂ Reordered members members' := by
  refine ⟨⟨ofDrafts_exists_of_perm hp, ofDrafts_exists_of_perm hp.symm⟩, ?_⟩
  intro members members' h h'
  obtain ⟨groups, sorted, hgathered, hmem, hascending, rfl⟩ := ofDrafts_gathered h
  obtain ⟨groups', sorted', hgathered', hmem', hascending', rfl⟩ := ofDrafts_gathered h'
  have hsorted : List.Forall₂ Reordered sorted sorted' := by
    refine forall₂_of_ascending hascending hascending' ?_ ?_ ?_
    · intro member other hr
      rw [hr.rest]
    · intro member hm
      obtain ⟨group, hg, hmember⟩ := (hmem member).mp hm
      obtain ⟨other, ho, hr⟩ := hgathered.reordered hgathered' hp hg
      obtain ⟨same, hsame, hboth⟩ := hr.member_ok hmember
      exact ⟨same, (hmem' same).mpr ⟨other, ho, hsame⟩, hboth⟩
    · intro other ho
      obtain ⟨group', hg', hother⟩ := (hmem' other).mp ho
      obtain ⟨group, hg, hr⟩ := hgathered'.reordered hgathered hp.symm hg'
      obtain ⟨same, hsame, hboth⟩ := hr.member_ok hother
      exact ⟨same, (hmem same).mpr ⟨group, hg, hsame⟩, hboth.symm⟩
  rw [List.forall₂_iff_get] at hsorted ⊢
  obtain ⟨hlength, hall⟩ := hsorted
  refine ⟨by simpa using hlength, ?_⟩
  intro place hlt hlt'
  have hplace := hall place (by simpa using hlt) (by simpa using hlt')
  simpa using hplace.withPlace place

/-- Three options of one member with two options of another and a positional argument between
them. -/
def alternating : List Draft :=
  (Draft.ofBlocks Draft.shortMarks .classic .zero 0
    [⟨1, "-a N,N | Count: 0..3 | Member: m".toList⟩, ⟨2, "-q | Member: z".toList⟩,
      ⟨3, "-b N | Default: 1.5 | Member: m".toList⟩, ⟨4, "F".toList⟩,
      ⟨5, "-c | Value: 7 | Member: m".toList⟩,
      ⟨6, "-r | Value: false | Member: z".toList⟩]).1.toOption.getD []

/-- The drafts read backwards have the same three members, two of which have their arguments in
another order. -/
theorem ofDrafts_perm_alternating :
    alternating.length = 6 ∧ alternating.Perm alternating.reverse ∧
      ∃ members members', ofDrafts .standard alternating = .ok members ∧
        ofDrafts .standard alternating.reverse = .ok members' ∧
        members.map contributors = [("F", [3]), ("m", [0, 2, 4]), ("z", [1, 5])] ∧
        members'.map contributors = [("F", [3]), ("m", [4, 2, 0]), ("z", [5, 1])] ∧
        List.Forall₂ Reordered members members' := by
  have hlength : alternating.length = 6 := by decide +kernel
  have hp : alternating.Perm alternating.reverse := (List.reverse_perm _).symm
  have hread : (ofDrafts .standard alternating).toOption.isSome = true := by decide +kernel
  have hnames : alternating.map (·.argument.memberName) = ["m", "z", "m", "F", "m", "z"] := by
    decide +kernel
  have hforth : ∀ name, name ∈ ["F", "m", "z"] ↔ name ∈ alternating.map (·.argument.memberName) := by
    intro name
    rw [hnames]
    simp only [List.mem_cons, List.not_mem_nil]
    tauto
  have hback : ∀ name, name ∈ ["F", "m", "z"] ↔
      name ∈ alternating.reverse.map (·.argument.memberName) := by
    intro name
    rw [List.map_reverse, List.mem_reverse]
    exact hforth name
  obtain ⟨hboth, hsame⟩ := ofDrafts_perm hp .standard
  cases h : ofDrafts .standard alternating with
  | error diagnostic =>
    rw [h] at hread
    cases hread
  | ok members =>
    obtain ⟨members', h'⟩ := hboth.mp ⟨members, h⟩
    refine ⟨hlength, hp, members, members', rfl, h', ?_, ?_, hsame members members' h h'⟩
    · rw [map_contributors h (by decide) hforth]
      decide +kernel
    · rw [map_contributors h' (by decide) hback]
      decide +kernel

end Member

end AnnotatedHelp
