import Mathlib
import AnnotatedHelp.Proofs.Locations
import AnnotatedHelp.Proofs.WrittenProperties

/-!
# Declarations that several definitions share

Definitions of one member agree on a property as it is read, not as it is written. For four of the five
properties one text is read in one way; a default however is cut by each definition at its own
delimiter, so that one text can become different entries. The main statement says that this is the only
way in which definitions that write the same can contradict each other, and that a contradiction always
names a property that was written in two ways, or a default that was cut in two.
-/

namespace AnnotatedHelp

open Outcome

/-- Two definitions of a member declare different values of a property. -/
inductive MemberProperties.Differ (current other : MemberProperties) : PropertyKey → Prop
  /-- The entries of the default. -/
  | default {entries others : List String} : current.default = some entries →
      other.default = some others → entries ≠ others → Differ current other .default
  /-- The extra include. -/
  | extraInclude {text changed : String} : current.extraInclude = some text →
      other.extraInclude = some changed → text ≠ changed → Differ current other .extraInclude
  /-- The kind. -/
  | kind {kind changed : Kind} : current.kind = some kind → other.kind = some changed →
      kind ≠ changed → Differ current other .kind
  /-- The constraints on values, or their text. -/
  | values {values changed : DeclaredValues} : current.values = some values →
      other.values = some changed → values ≠ changed → Differ current other .values
  /-- The value type. -/
  | valueType {valueType changed : ValueType} : current.valueType = some valueType →
      other.valueType = some changed → valueType ≠ changed → Differ current other .valueType

namespace Group

/-- Two declarations of a property are joined unless both are there and differ. -/
theorem mergeField_error_iff {α : Type} [DecidableEq α] {member : String} {key : PropertyKey}
    {shown : α → String} {current other : Option α} {problem : Problem} :
    mergeField member key shown current other = .error problem ↔
      ∃ a b, current = some a ∧ other = some b ∧ a ≠ b ∧
        problem = .differingProperty member key (shown a) (shown b) := by
  unfold mergeField
  cases current with
  | none => simp
  | some a =>
    cases other with
    | none => simp
    | some b =>
      dsimp only
      split_ifs with hsame
      · simp [hsame]
      · simp [hsame, eq_comm]

/-- What cannot be joined is reported with a property on which the two differ. -/
theorem mergeProperties_error {member : String} {current other : MemberProperties} {problem : Problem}
    (h : mergeProperties member current other = .error problem) :
    ∃ key first second, problem = .differingProperty member key first second ∧
      current.Differ other key := by
  simp only [mergeProperties, bind_error_iff, mergeField_error_iff] at h
  rcases h with ⟨a, b, ha, hb, hne, rfl⟩ | ⟨_, -, ⟨a, b, ha, hb, hne, rfl⟩ | ⟨_, -,
    ⟨a, b, ha, hb, hne, rfl⟩ | ⟨_, -, ⟨a, b, ha, hb, hne, rfl⟩ | ⟨_, -,
    ⟨a, b, ha, hb, hne, rfl⟩ | ⟨_, -, hnone⟩⟩⟩⟩⟩
  · exact ⟨_, _, _, rfl, .default ha hb hne⟩
  · exact ⟨_, _, _, rfl, .extraInclude ha hb hne⟩
  · exact ⟨_, _, _, rfl, .kind ha hb hne⟩
  · exact ⟨_, _, _, rfl, .values ha hb hne⟩
  · exact ⟨_, _, _, rfl, .valueType ha hb hne⟩
  · cases hnone

end Group

/-- A group differs from a definition where a draft of its member does. -/
theorem Gathered.exists_differ {drafts : List Draft} {groups : List Group} (h : Gathered drafts groups)
    {group : Group} (hg : group ∈ groups) {other : MemberProperties} {key : PropertyKey}
    (hd : group.properties.Differ other key) :
    ∃ draft ∈ drafts, draft.argument.memberName = group.name ∧ draft.member.Differ other key := by
  have hagreed := h.agreed group hg
  cases hd with
  | default ha hb hne =>
    obtain ⟨draft, hm, hname, hdraft⟩ := hagreed.default.eq_some_iff.mp ha
    exact ⟨draft, hm, hname, .default hdraft hb hne⟩
  | extraInclude ha hb hne =>
    obtain ⟨draft, hm, hname, hdraft⟩ := hagreed.extraInclude.eq_some_iff.mp ha
    exact ⟨draft, hm, hname, .extraInclude hdraft hb hne⟩
  | kind ha hb hne =>
    obtain ⟨draft, hm, hname, hdraft⟩ := hagreed.kind.eq_some_iff.mp ha
    exact ⟨draft, hm, hname, .kind hdraft hb hne⟩
  | values ha hb hne =>
    obtain ⟨draft, hm, hname, hdraft⟩ := hagreed.values.eq_some_iff.mp ha
    exact ⟨draft, hm, hname, .values hdraft hb hne⟩
  | valueType ha hb hne =>
    obtain ⟨draft, hm, hname, hdraft⟩ := hagreed.valueType.eq_some_iff.mp ha
    exact ⟨draft, hm, hname, .valueType hdraft hb hne⟩

namespace Draft

variable {written : PropertyKey → Argument → Option String} {drafts : List Draft}

/-- The entries into which a draft cuts a default. -/
def cut (draft : Draft) (text : String) : Except Problem (List String) :=
  splitDefault draft.argument.delimiter draft.argument.delimiterCount text

/-- How two drafts can contradict each other in what their definitions write under a key. -/
inductive Contradicts (written : PropertyKey → Argument → Option String) (draft other : Draft) :
    PropertyKey → Prop
  /-- They write different texts. -/
  | texts {key : PropertyKey} {text changed : String} : key ∈ PropertyKey.ofMember →
      written key draft.argument = some text → written key other.argument = some changed →
      text ≠ changed → Contradicts written draft other key
  /-- They write one default and cut it into different entries. -/
  | cuts {text : String} : written .default draft.argument = some text →
      written .default other.argument = some text → draft.cut text ≠ other.cut text →
      Contradicts written draft other .default

/-- Properties that differ contradict each other in what is written. -/
theorem contradicts_of_differ {draft other : Draft} {key : PropertyKey}
    (hd : draft.Declares fun key => written key draft.argument)
    (ho : other.Declares fun key => written key other.argument)
    (h : draft.member.Differ other.member key) : Contradicts written draft other key := by
  cases h with
  | default ha hb hne =>
    obtain ⟨text, htext, hcut⟩ := mapM_ok_some_iff.mp (ha ▸ hd.default)
    obtain ⟨changed, hchanged, hother⟩ := mapM_ok_some_iff.mp (hb ▸ ho.default)
    by_cases hsame : text = changed
    · subst hsame
      refine .cuts htext hchanged fun hcuts => hne ?_
      exact Except.ok.inj (hcut.symm.trans (hcuts.trans hother))
    · exact .texts (by decide) htext hchanged hsame
  | extraInclude ha hb hne =>
    exact .texts (by decide) (hd.extraInclude ▸ ha) (ho.extraInclude ▸ hb) hne
  | kind ha hb hne =>
    obtain ⟨text, htext, hread⟩ := Option.bind_eq_some_iff.mp (hd.kind ▸ ha)
    obtain ⟨changed, hchanged, hother⟩ := Option.bind_eq_some_iff.mp (ho.kind ▸ hb)
    refine .texts (by decide) htext hchanged fun hsame => hne ?_
    exact Option.some.inj (hread.symm.trans (hsame ▸ hother))
  | values ha hb hne =>
    obtain ⟨text, htext, hread⟩ := mapM_ok_some_iff.mp (ha ▸ hd.values)
    obtain ⟨changed, hchanged, hother⟩ := mapM_ok_some_iff.mp (hb ▸ ho.values)
    refine .texts (by decide) htext hchanged fun hsame => hne ?_
    exact Except.ok.inj (hread.symm.trans (hsame ▸ hother))
  | valueType ha hb hne =>
    obtain ⟨text, htext, hread⟩ := Option.bind_eq_some_iff.mp (hd.valueType ▸ ha)
    obtain ⟨changed, hchanged, hother⟩ := Option.bind_eq_some_iff.mp (ho.valueType ▸ hb)
    refine .texts (by decide) htext hchanged fun hsame => hne ?_
    exact Option.some.inj (hread.symm.trans (hsame ▸ hother))

/-- Why drafts cannot be grouped: two drafts of one member are of different sorts, or what their
definitions write contradicts each other. -/
inductive Clash (written : PropertyKey → Argument → Option String) (drafts : List Draft) :
    Problem → Prop
  /-- One is an option and the other a positional argument. -/
  | mixed {draft other : Draft} : draft ∈ drafts → other ∈ drafts →
      draft.argument.memberName = other.argument.memberName →
      draft.argument.isOption ≠ other.argument.isOption →
      Clash written drafts (.mixedMember draft.argument.memberName)
  /-- The report names the property and shows both values. -/
  | differing {draft other : Draft} {key : PropertyKey} {first second : String} : draft ∈ drafts →
      other ∈ drafts → draft.argument.memberName = other.argument.memberName →
      Contradicts written draft other key →
      Clash written drafts (.differingProperty draft.argument.memberName key first second)

/-- Drafts that cannot be grouped clash. -/
theorem clash_of_ofDrafts_error
    (hd : ∀ draft ∈ drafts, draft.Declares fun key => written key draft.argument)
    {diagnostic : Diagnostic} (h : Group.ofDrafts drafts = .error diagnostic) :
    ∃ problem lines, diagnostic = problem.atLines lines ∧ Clash written drafts problem := by
  obtain ⟨before, draft, after, groups, group, problem, rfl, hg, hm, hname, hrejects, rfl⟩ :=
    Group.ofDrafts_error h
  have hbefore : ∀ other ∈ before, other ∈ before ++ draft :: after :=
    fun other => List.mem_append_left _
  have hdraft : draft ∈ before ++ draft :: after := by simp
  refine ⟨problem, _, rfl, ?_⟩
  cases hrejects with
  | mixed ha hsort =>
    obtain ⟨other, hother, hsame, rfl⟩ := (hg.mem_arguments hm).mp ha
    rw [← hsame]
    exact .mixed (hbefore other hother) hdraft (hsame.trans hname) hsort
  | differing hmerge =>
    obtain ⟨key, first, second, rfl, hdiffer⟩ := Group.mergeProperties_error hmerge
    obtain ⟨other, hother, hsame, hdiffer⟩ := hg.exists_differ hm hdiffer
    rw [← hsame]
    exact .differing (hbefore other hother) hdraft (hsame.trans hname)
      (contradicts_of_differ (hd other (hbefore other hother)) (hd draft hdraft) hdiffer)

/-- Drafts of one member are related to each other. -/
def Together (drafts : List Draft) (related : Draft → Draft → Prop) : Prop :=
  ∀ draft ∈ drafts, ∀ other ∈ drafts,
    draft.argument.memberName = other.argument.memberName → related draft other

/-- Two drafts are options, or they are positional arguments. -/
def SameSort (draft other : Draft) : Prop :=
  draft.argument.isOption = other.argument.isOption

/-- Where the definitions of two drafts write a property of the member, they write the same. -/
def WriteAlike (written : PropertyKey → Argument → Option String) (draft other : Draft) : Prop :=
  ∀ key ∈ PropertyKey.ofMember, ∀ text changed, written key draft.argument = some text →
    written key other.argument = some changed → text = changed

/-- Where the definitions of two drafts write one default, it is cut alike. -/
def CutAlike (written : PropertyKey → Argument → Option String) (draft other : Draft) : Prop :=
  ∀ text, written .default draft.argument = some text → written .default other.argument = some text →
    draft.cut text = other.cut text

/-- Drafts that can be grouped cut a default alike. -/
theorem together_cutAlike
    (hd : ∀ draft ∈ drafts, draft.Declares fun key => written key draft.argument)
    {groups : List Group} (h : Group.ofDrafts drafts = .ok groups) :
    Together drafts (CutAlike written) := by
  intro draft hm other hother hname text htext hsame
  obtain ⟨properties, hagreed⟩ := (Group.ofDrafts_exists_iff.mp ⟨groups, h⟩).agreed
    draft.argument.memberName
  have hfirst := (hd draft hm).default
  have hsecond := (hd other hother).default
  rw [htext] at hfirst
  rw [hsame] at hsecond
  obtain ⟨entries, hcut, hentries⟩ := mapM_some_ok_iff.mp hfirst
  obtain ⟨others, hothers, hchanged⟩ := mapM_some_ok_iff.mp hsecond
  have heq : properties.default = some entries :=
    hagreed.default.eq_some_iff.mpr ⟨draft, hm, rfl, hentries⟩
  have heq' : properties.default = some others :=
    hagreed.default.eq_some_iff.mpr ⟨other, hother, hname.symm, hchanged⟩
  obtain rfl := Option.some.inj (heq.symm.trans heq')
  exact hcut.trans hothers.symm

/-- Drafts of one sort whose definitions write alike clash in nothing but a default, which some two of
them cut in two ways. -/
theorem Clash.default_of_alike {problem : Problem} (h : Clash written drafts problem)
    (hsort : Together drafts SameSort) (hwrite : Together drafts (WriteAlike written)) :
    (∃ name first second, problem = .differingProperty name .default first second) ∧
      ¬Together drafts (CutAlike written) := by
  cases h with
  | mixed hm hother hname hdiffer => exact absurd (hsort _ hm _ hother hname) hdiffer
  | differing hm hother hname hcontradicts =>
    cases hcontradicts with
    | texts hk htext hchanged hne =>
      exact absurd (hwrite _ hm _ hother hname _ hk _ _ htext hchanged) hne
    | cuts htext hchanged hne =>
      exact ⟨⟨_, _, _, rfl⟩, fun hcut => hne (hcut _ hm _ hother hname _ htext hchanged)⟩

/-- Drafts of one sort for each member, whose definitions write alike, can be grouped exactly when
they cut the defaults alike, and otherwise the default is reported. Whatever they write, a report of
two values names a property that two of the definitions write in two ways, or a default that they cut
in two ways. -/
theorem ofDrafts_shared {marks : Marks} {dialect : Dialect} {counters after : Counters}
    {blocks : List Block} {resolved : List Draft}
    (h : ofBlocks marks dialect counters 0 blocks = (.ok drafts, after))
    (hr : resolveIndices (uniqueNames drafts) = .ok resolved) :
    (Together resolved SameSort →
      Together resolved (WriteAlike (Argument.written marks dialect blocks)) →
        ((∃ groups, Group.ofDrafts resolved = .ok groups) ↔
          Together resolved (CutAlike (Argument.written marks dialect blocks))) ∧
        ∀ diagnostic, Group.ofDrafts resolved = .error diagnostic → ∃ name first second lines,
          diagnostic = (Problem.differingProperty name .default first second).atLines lines) ∧
    ∀ diagnostic, Group.ofDrafts resolved = .error diagnostic → ∃ problem lines,
      diagnostic = problem.atLines lines ∧
        Clash (Argument.written marks dialect blocks) resolved problem := by
  have hdeclares : ∀ draft ∈ resolved, draft.Declares fun key =>
      Argument.written marks dialect blocks key draft.argument :=
    fun draft hm => (declares_of_ofBlocks h hr draft hm).2
  refine ⟨fun hsort hwrite => ⟨⟨?_, ?_⟩, ?_⟩, fun diagnostic => clash_of_ofDrafts_error hdeclares⟩
  · rintro ⟨groups, hgroups⟩
    exact together_cutAlike hdeclares hgroups
  · intro hcut
    cases hgroups : Group.ofDrafts resolved with
    | ok groups => exact ⟨groups, rfl⟩
    | error diagnostic =>
      obtain ⟨problem, lines, -, hclash⟩ := clash_of_ofDrafts_error hdeclares hgroups
      exact absurd hcut (hclash.default_of_alike hsort hwrite).2
  · intro diagnostic hgroups
    obtain ⟨problem, lines, rfl, hclash⟩ := clash_of_ofDrafts_error hdeclares hgroups
    obtain ⟨⟨name, first, second, rfl⟩, -⟩ := hclash.default_of_alike hsort hwrite
    exact ⟨name, first, second, lines, rfl⟩

/-- Two options of one member with one default; the first captures two values, the second what the
placeholder says. -/
def sharedDefault (placeholder : String) : List Block :=
  [⟨1, "-p X,Y | Member: m | Default: 0".toList⟩,
    ⟨1, ("-q " ++ placeholder ++ " | Member: m | Default: 0").toList⟩]

/-- The drafts of the two options. -/
def sharedDrafts (placeholder : String) : Except Diagnostic (List Draft) := do
  let drafts ← (ofBlocks shortMarks .classic .zero 0 (sharedDefault placeholder)).1
  resolveIndices (uniqueNames drafts)

/-- Whether all arguments are of one sort and all definitions write the same properties. -/
def WriteOne (written : PropertyKey → Argument → Option String) (drafts : List Draft) : Prop :=
  ∀ draft ∈ drafts, ∀ other ∈ drafts, SameSort draft other ∧
    ∀ key ∈ PropertyKey.ofMember, written key draft.argument = written key other.argument

instance (draft other : Draft) : Decidable (SameSort draft other) := by
  unfold SameSort; infer_instance

instance (written : PropertyKey → Argument → Option String) (drafts : List Draft) :
    Decidable (WriteOne written drafts) := by
  unfold WriteOne; infer_instance

/-- Definitions that all write the same write alike. -/
theorem WriteOne.together (h : WriteOne written drafts) :
    Together drafts SameSort ∧ Together drafts (WriteAlike written) := by
  refine ⟨fun draft hm other hother _ => (h draft hm other hother).1, ?_⟩
  intro draft hm other hother _ key hk text changed htext hchanged
  have hsame := (h draft hm other hother).2 key hk
  rw [htext, hchanged] at hsame
  exact Option.some.inj hsame

/-- Definitions that write the same can still be refused for differing. -/
theorem ofDrafts_shared_cut :
    ¬ ∀ (marks : Marks) (dialect : Dialect) (counters after : Counters) (blocks : List Block)
        (drafts resolved : List Draft),
      ofBlocks marks dialect counters 0 blocks = (.ok drafts, after) →
      resolveIndices (uniqueNames drafts) = .ok resolved → Together resolved SameSort →
        Together resolved (WriteAlike (Argument.written marks dialect blocks)) →
          ∀ name key first second lines, Group.ofDrafts resolved ≠
            .error ((Problem.differingProperty name key first second).atLines lines) := by
  intro hall
  have hresolved : (sharedDrafts "Z").toOption.any fun resolved =>
      decide (WriteOne (Argument.written shortMarks .classic (sharedDefault "Z")) resolved) &&
        decide (Group.ofDrafts resolved =
          .error ((Problem.differingProperty "m" .default "0|0" "0").atLines [1, 1])) := by
    decide +kernel
  obtain ⟨resolved, h, hboth⟩ := exists_ok_of_any hresolved
  rw [Bool.and_eq_true, decide_eq_true_eq, decide_eq_true_eq] at hboth
  obtain ⟨drafts, hdrafts, hr⟩ := bind_ok_iff.mp h
  obtain ⟨hsort, hwrite⟩ := hboth.1.together
  exact hall _ _ _ _ _ _ _ (Prod.ext hdrafts rfl) hr hsort hwrite _ _ _ _ _ hboth.2

/-- Definitions that write the same and are cut alike are grouped. -/
theorem ofDrafts_shared_pairs :
    ∃ drafts after resolved,
      ofBlocks shortMarks .classic .zero 0 (sharedDefault "Z,W") = (.ok drafts, after) ∧
      resolveIndices (uniqueNames drafts) = .ok resolved ∧ resolved.length = 2 ∧
      Together resolved SameSort ∧
      Together resolved (WriteAlike (Argument.written shortMarks .classic (sharedDefault "Z,W"))) ∧
      ∃ groups, Group.ofDrafts resolved = .ok groups := by
  have hresolved : (sharedDrafts "Z,W").toOption.any fun resolved =>
      decide (WriteOne (Argument.written shortMarks .classic (sharedDefault "Z,W")) resolved) &&
        decide (resolved.map (fun draft => (draft.argument.delimiter, draft.argument.delimiterCount)) =
          [(some ',', .exactly 1), (some ',', .exactly 1)]) := by
    decide +kernel
  obtain ⟨resolved, h, hboth⟩ := exists_ok_of_any hresolved
  rw [Bool.and_eq_true, decide_eq_true_eq, decide_eq_true_eq] at hboth
  obtain ⟨hone, hpairs⟩ := hboth
  obtain ⟨drafts, hdrafts, hr⟩ := bind_ok_iff.mp h
  obtain ⟨hsort, hwrite⟩ := hone.together
  have hpair : ∀ draft ∈ resolved,
      (draft.argument.delimiter, draft.argument.delimiterCount) = (some ',', .exactly 1) := by
    intro draft hm
    have hin := List.mem_map_of_mem (f := fun draft : Draft =>
      (draft.argument.delimiter, draft.argument.delimiterCount)) hm
    rw [hpairs] at hin
    simpa using hin
  have hcut : Together resolved
      (CutAlike (Argument.written shortMarks .classic (sharedDefault "Z,W"))) := by
    intro draft hm other hother _ text _ _
    obtain ⟨hdelimiter, hcount⟩ := Prod.mk.inj ((hpair draft hm).trans (hpair other hother).symm)
    rw [cut, cut, hdelimiter, hcount]
  have hread : ofBlocks shortMarks .classic .zero 0 (sharedDefault "Z,W") =
      (.ok drafts, (ofBlocks shortMarks .classic .zero 0 (sharedDefault "Z,W")).2) :=
    Prod.ext hdrafts rfl
  have hlength : resolved.length = 2 := by simpa using congrArg List.length hpairs
  exact ⟨drafts, _, resolved, hread, hr, hlength, hsort, hwrite,
    ((ofDrafts_shared hread hr).1 hsort hwrite).1.mpr hcut⟩

end Draft

end AnnotatedHelp
