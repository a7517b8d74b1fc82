import Mathlib
import AnnotatedHelp.Proofs.DefaultArity

/-!
# Value types and literals

Without a declared value type, the type of a member follows from its literals: the first entry of a
declared default, the literals of the constraints and the alternatives of the options, from however
many definitions they come. The main statement says that it is the one type of all of them, or that of
decimal numbers where integers stand beside these; that nothing else about the literals matters, not
even to the report of a failure; and that a default which is inferred as well fits the type.
-/

namespace AnnotatedHelp

open Outcome

namespace ValueType

/-- What holds of every value type holds of the four. -/
theorem forall_iff {P : ValueType → Prop} :
    (∀ valueType, P valueType) ↔ P .bool ∧ P .double ∧ P .int ∧ P .string :=
  ⟨fun h => ⟨h _, h _, h _, h _⟩, fun h valueType => by cases valueType <;> tauto⟩

/-- Literals fit a type that they have; integers also fit the type of decimal numbers. -/
def Fits (valueType : ValueType) (literal : String) : Prop :=
  ofLiteral? literal = some valueType ∨ valueType = .double ∧ ofLiteral? literal = some .int

/-- The default of a value type fits it, or is the empty text. -/
theorem fits_zeroText (valueType : ValueType) :
    valueType.Fits valueType.zeroText ∨ valueType = .string ∧ valueType.zeroText = "" := by
  unfold Fits
  cases valueType <;> decide

/-- A type is common to literals of the types that pass a test. -/
inductive Covers (occurs : ValueType → Prop) : ValueType → Prop
  /-- Without literals it is text. -/
  | nothing : (∀ valueType, ¬occurs valueType) → Covers occurs .string
  /-- All literals have it. -/
  | single {valueType : ValueType} : (∀ other, occurs other ↔ other = valueType) →
      Covers occurs valueType
  /-- There are integers and decimal numbers, and nothing else. -/
  | widened : (∀ other, occurs other ↔ other = .int ∨ other = .double) → Covers occurs .double

/-- The types that pass a test have a common type exactly when it covers them. -/
theorem common_filter_ok_iff {member : String} {test : ValueType → Bool} {valueType : ValueType} :
    common member (all.filter test) = .ok valueType ↔
      Covers (fun other => test other = true) valueType := by
  have hcovers : Covers (fun other => test other = true) valueType ↔
      ((∀ other, test other = false) ∧ valueType = .string) ∨
      (∀ other, test other = true ↔ other = valueType) ∨
      ((∀ other, test other = true ↔ other = .int ∨ other = .double) ∧ valueType = .double) := by
    constructor
    · rintro (hnone | hone | htwo)
      · exact .inl ⟨by simpa using hnone, rfl⟩
      · exact .inr (.inl hone)
      · exact .inr (.inr ⟨htwo, rfl⟩)
    · rintro (⟨hnone, rfl⟩ | hone | ⟨htwo, rfl⟩)
      · exact .nothing (by simpa using hnone)
      · exact .single hone
      · exact .widened htwo
  rw [hcovers]
  simp only [forall_iff, all, List.filter_cons, List.filter_nil]
  cases test .bool <;> cases test .double <;> cases test .int <;> cases test .string <;>
    cases valueType <;> simp [common]

end ValueType

/-- The limit from which a default is inferred is a literal of the constraint. -/
theorem Constraint.mem_literals_of_inclusiveLower {constraint : Constraint}
    {literal : String} (h : constraint.inclusiveLower? = some literal) :
    literal ∈ constraint.literals := by
  unfold Constraint.inclusiveLower? at h
  split at h
  · cases h
    exact List.mem_singleton_self literal
  · split_ifs at h
    cases h
    exact List.mem_cons_self
  · cases h

/-- What a literal is taken from: a default, constraints, or an argument. -/
inductive MentionedBy (default : Option (List String)) (values : Option DeclaredValues)
    (Writes : Argument → Prop) (literal : String) : Prop
  /-- It is the first entry of the default. -/
  | default {entries : List String} : default = some entries → entries.head? = some literal →
      MentionedBy default values Writes literal
  /-- It is a literal of a constraint. -/
  | constraint {declared : DeclaredValues} {constraint : Constraint} : values = some declared →
      constraint ∈ declared.constraints → literal ∈ constraint.literals →
      MentionedBy default values Writes literal
  /-- It is an alternative of an argument. -/
  | alternative {argument : Argument} {alternatives : List String} : Writes argument →
      argument.value = some alternatives → literal ∈ alternatives →
      MentionedBy default values Writes literal

/-- The literals from which the value type of a group is inferred. -/
def Group.Mentions (group : Group) (literal : String) : Prop :=
  MentionedBy group.properties.default group.properties.values (· ∈ group.arguments) literal

/-- The literals that a draft contributes to its member. -/
def Draft.Mentions (draft : Draft) (literal : String) : Prop :=
  MentionedBy draft.member.default draft.member.values (· = draft.argument) literal

/-- A group mentions what the drafts of its member mention. -/
theorem Gathered.mentions_iff {drafts : List Draft} {groups : List Group} (h : Gathered drafts groups)
    {group : Group} (hg : group ∈ groups) {literal : String} :
    group.Mentions literal ↔
      ∃ draft ∈ drafts, draft.argument.memberName = group.name ∧ draft.Mentions literal := by
  have hagreed := h.agreed group hg
  constructor
  · rintro (⟨hdefault, hfirst⟩ | ⟨hvalues, hconstraint, hliteral⟩ | ⟨ha, hvalue, hliteral⟩)
    · obtain ⟨draft, hd, hname, hdraft⟩ := hagreed.default.eq_some_iff.mp hdefault
      exact ⟨draft, hd, hname, .default hdraft hfirst⟩
    · obtain ⟨draft, hd, hname, hdraft⟩ := hagreed.values.eq_some_iff.mp hvalues
      exact ⟨draft, hd, hname, .constraint hdraft hconstraint hliteral⟩
    · obtain ⟨draft, hd, hname, rfl⟩ := (h.mem_arguments hg).mp ha
      exact ⟨draft, hd, hname, .alternative rfl hvalue hliteral⟩
  · rintro ⟨draft, hd, hname,
      ⟨hdefault, hfirst⟩ | ⟨hvalues, hconstraint, hliteral⟩ | ⟨rfl, hvalue, hliteral⟩⟩
    · exact .default (hagreed.default.eq_some_iff.mpr ⟨draft, hd, hname, hdefault⟩) hfirst
    · exact .constraint (hagreed.values.eq_some_iff.mpr ⟨draft, hd, hname, hvalues⟩) hconstraint
        hliteral
    · exact .alternative ((h.mem_arguments hg).mpr ⟨draft, hd, hname, rfl⟩) hvalue hliteral

namespace Group

variable {group other : Group}

/-- The literals that are collected are those that the group mentions. -/
theorem mem_candidates {literal : String} : literal ∈ group.candidates ↔ group.Mentions literal := by
  simp only [candidates, List.mem_append, List.mem_flatMap, Option.mem_toList]
  constructor
  · rintro ((hfirst | hconstraint) | ⟨argument, ha, hliteral⟩)
    · obtain ⟨entries, hdefault, hhead⟩ := Option.bind_eq_some_iff.mp hfirst
      exact .default hdefault hhead
    · cases hvalues : group.properties.values with
      | none => simp [hvalues] at hconstraint
      | some declared =>
        rw [hvalues, Option.elim_some] at hconstraint
        obtain ⟨constraint, hm, hliteral⟩ := List.mem_flatMap.mp hconstraint
        exact .constraint hvalues hm hliteral
    · cases hvalue : argument.value with
      | none => simp [hvalue] at hliteral
      | some alternatives =>
        rw [hvalue, Option.getD_some] at hliteral
        exact .alternative ha hvalue hliteral
  · rintro (⟨hdefault, hfirst⟩ | ⟨hvalues, hconstraint, hliteral⟩ | ⟨ha, hvalue, hliteral⟩)
    · exact .inl (.inl (Option.bind_eq_some_iff.mpr ⟨_, hdefault, hfirst⟩))
    · refine .inl (.inr ?_)
      rw [hvalues, Option.elim_some]
      exact List.mem_flatMap.mpr ⟨_, hconstraint, hliteral⟩
    · refine .inr ⟨_, ha, ?_⟩
      rwa [hvalue, Option.getD_some]

/-- The types of the literals that the group mentions. -/
def HasType (group : Group) (valueType : ValueType) : Prop :=
  ∃ literal, group.Mentions literal ∧ ValueType.ofLiteral? literal = some valueType

/-- The value type that fits the literals of a group: all of them have types, and it covers these. -/
structure CommonType (group : Group) (valueType : ValueType) : Prop where
  /-- Every literal has a type. -/
  typed : ∀ literal, group.Mentions literal → ValueType.ofLiteral? literal ≠ none
  /-- The types have this one in common. -/
  covers : ValueType.Covers group.HasType valueType

/-- The value type is inferred from the set of types that occur, unless a literal has no type. -/
theorem inferValueType_cases (group : Group) :
    ((∃ literal, group.Mentions literal ∧ ValueType.ofLiteral? literal = none) ∧
      group.inferValueType = .error (.untypedLiteral group.name)) ∨
    (∀ literal, group.Mentions literal → ValueType.ofLiteral? literal ≠ none) ∧
      ∃ test : ValueType → Bool, (∀ valueType, test valueType = true ↔ group.HasType valueType) ∧
        group.inferValueType = ValueType.common group.name (ValueType.all.filter test) := by
  unfold inferValueType
  cases htypes : group.candidates.mapM ValueType.ofLiteral? with
  | none =>
    obtain ⟨literal, hm, hnone⟩ := exists_of_mapM_none htypes
    exact .inl ⟨⟨literal, mem_candidates.mp hm, hnone⟩, rfl⟩
  | some types =>
    obtain ⟨hall, hmem⟩ := mem_of_mapM_some htypes
    refine .inr ⟨fun literal hm => hall literal (mem_candidates.mpr hm), types.contains, ?_, rfl⟩
    intro valueType
    simp only [List.contains_iff_mem, hmem, mem_candidates, HasType]

/-- A value type is inferred exactly when it is common to the literals. -/
theorem inferValueType_ok_iff {valueType : ValueType} :
    group.inferValueType = .ok valueType ↔ group.CommonType valueType := by
  rcases inferValueType_cases group with
    ⟨⟨literal, hm, hnone⟩, hinfer⟩ | ⟨htyped, test, htest, hinfer⟩
  · rw [hinfer]
    exact ⟨nofun, fun hcommon => absurd hnone (hcommon.typed literal hm)⟩
  · have hsame : (fun other => test other = true) = group.HasType := by
      funext valueType
      exact propext (htest valueType)
    rw [hinfer, ValueType.common_filter_ok_iff, hsame]
    exact ⟨fun hcovers => ⟨htyped, hcovers⟩, fun hcommon => hcommon.covers⟩

/-- Whether a literal has no type or their types have none in common, the failure is of one sort. -/
theorem category_of_inferValueType {problem : Problem} (h : group.inferValueType = .error problem) :
    problem.category = .ambiguousOrInvalidType := by
  rcases inferValueType_cases group with ⟨-, hinfer⟩ | ⟨-, test, -, hinfer⟩
  · cases hinfer.symm.trans h
    rfl
  · rw [hinfer] at h
    unfold ValueType.common at h
    split at h <;> cases h
    rfl

/-- Groups of one name that mention the same literals, in whatever order and however often, have one
value type or fail with one report. -/
theorem inferValueType_congr (hname : other.name = group.name)
    (hsame : ∀ literal, other.Mentions literal ↔ group.Mentions literal) :
    other.inferValueType = group.inferValueType := by
  have htypes : other.HasType = group.HasType := by
    funext valueType
    simp only [HasType, hsame]
  rcases inferValueType_cases group with
    ⟨⟨literal, hm, hnone⟩, hinfer⟩ | ⟨htyped, test, htest, hinfer⟩ <;>
  rcases inferValueType_cases other with
    ⟨⟨literal', hm', hnone'⟩, hinfer'⟩ | ⟨htyped', test', htest', hinfer'⟩
  · rw [hinfer, hinfer', hname]
  · exact absurd hnone (htyped' literal ((hsame literal).mpr hm))
  · exact absurd hnone' (htyped literal' ((hsame literal').mp hm'))
  · have htests : test' = test := by
      funext valueType
      rw [Bool.eq_iff_iff, htest, htest', htypes]
    rw [hinfer, hinfer', hname, htests]

/-- A common type fits every literal. -/
theorem CommonType.fits {valueType : ValueType} (h : group.CommonType valueType) {literal : String}
    (hm : group.Mentions literal) : valueType.Fits literal := by
  obtain ⟨own, hown⟩ := Option.ne_none_iff_exists'.mp (h.typed literal hm)
  have hoccurs : group.HasType own := ⟨literal, hm, hown⟩
  cases h.covers with
  | nothing hnone => exact absurd hoccurs (hnone own)
  | single hone =>
    obtain rfl := (hone own).mp hoccurs
    exact .inl hown
  | widened htwo =>
    obtain rfl | rfl := (htwo own).mp hoccurs
    · exact .inr ⟨rfl, hown⟩
    · exact .inl hown

/-- An inferred default repeats a literal of the group or the default of the value type. -/
theorem eq_of_mem_inferDefault {kind : Kind} {valueType : ValueType} {entry : String}
    (h : entry ∈ group.inferDefault kind valueType) :
    group.Mentions entry ∨ entry = valueType.zeroText := by
  have hentry : entry = ((group.properties.values.bind (·.constraints.head?)).bind
      (·.inclusiveLower?)).getD valueType.zeroText := by
    unfold inferDefault at h
    dsimp only at h
    split at h
    · exact List.eq_of_mem_replicate h
    · exact List.mem_singleton.mp h
  cases hlowest : (group.properties.values.bind (·.constraints.head?)).bind (·.inclusiveLower?) with
  | none =>
    rw [hlowest, Option.getD_none] at hentry
    exact .inr hentry
  | some lowest =>
    rw [hlowest, Option.getD_some] at hentry
    obtain ⟨constraint, hfirst, hlower⟩ := Option.bind_eq_some_iff.mp hlowest
    obtain ⟨declared, hvalues, hhead⟩ := Option.bind_eq_some_iff.mp hfirst
    exact .inl (hentry ▸ .constraint hvalues (List.mem_of_mem_head? hhead)
      (Constraint.mem_literals_of_inclusiveLower hlower))

/-- The value type of a member is the one of its group. -/
theorem valueType_of_member {rule : DefaultRule} {member : Member}
    (h : group.member rule = .ok member) : group.valueType = .ok member.valueType := by
  simp only [Group.member, bind_ok_iff] at h
  obtain ⟨count, -, valueType, htype, kind, -, default, -, he⟩ := h
  cases he
  exact htype

/-- The value type of a group that declares none, and the default that goes with it. -/
structure TypeInferred (group : Group) : Prop where
  /-- There is one exactly when the literals have it in common. -/
  succeeds : ∀ valueType, group.valueType = .ok valueType ↔ group.CommonType valueType
  /-- Every failure is reported as an ambiguous or invalid type. -/
  fails : ∀ problem, group.valueType = .error problem → problem.category = .ambiguousOrInvalidType
  /-- Another group of the name with the same literals, in whatever order and however often, has the
  same type or fails with the same report. -/
  unordered : ∀ other : Group, other.name = group.name → other.properties.valueType = none →
    (∀ literal, other.Mentions literal ↔ group.Mentions literal) → other.valueType = group.valueType
  /-- The member has the common type, and every entry of an inferred default fits it or is the empty
  text. -/
  default : ∀ rule member, group.member rule = .ok member → group.CommonType member.valueType ∧
    (group.properties.default = none → ∀ entry ∈ member.default,
      member.valueType.Fits entry ∨ member.valueType = .string ∧ entry = "")

/-- Without a declared value type, that of a group is inferred. -/
theorem typeInferred (hnone : group.properties.valueType = none) : group.TypeInferred := by
  have hinferred : ∀ other : Group, other.properties.valueType = none →
      other.valueType = other.inferValueType := by
    intro other hother
    rw [valueType, hother]
  constructor
  case succeeds =>
    intro valueType
    rw [hinferred group hnone]
    exact inferValueType_ok_iff
  case fails =>
    intro problem h
    rw [hinferred group hnone] at h
    exact category_of_inferValueType h
  case unordered =>
    intro other hname hother hsame
    rw [hinferred group hnone, hinferred other hother]
    exact inferValueType_congr hname hsame
  case default =>
    intro rule member h
    have hcommon : group.CommonType member.valueType := by
      have htype := valueType_of_member h
      rw [hinferred group hnone] at htype
      exact inferValueType_ok_iff.mp htype
    refine ⟨hcommon, fun hdefault entry hentry => ?_⟩
    rw [member_default h, hdefault, Option.getD_none] at hentry
    rcases eq_of_mem_inferDefault hentry with hmentioned | rfl
    · exact .inl (hcommon.fits hmentioned)
    · exact member.valueType.fits_zeroText

/-- The drafts of a member declare its value type or leave it to their literals, those of the default
and the constraints that some of them declare and those of their own alternatives. It is inferred then
as the one type of all literals, or that of decimal numbers where integers stand beside these. -/
theorem valueType_common {drafts : List Draft} {groups : List Group}
    (h : ofDrafts drafts = .ok groups) (hg : group ∈ groups) :
    (group.properties.valueType = none ↔
      ∀ draft ∈ drafts, draft.argument.memberName = group.name → draft.member.valueType = none) ∧
    (∀ literal, group.Mentions literal ↔
      ∃ draft ∈ drafts, draft.argument.memberName = group.name ∧ draft.Mentions literal) ∧
    (group.properties.valueType = none → group.TypeInferred) := by
  have hgathered := ofDrafts_gathered h
  exact ⟨(hgathered.agreed group hg).valueType.eq_none_iff, fun literal => hgathered.mentions_iff hg,
    typeInferred⟩

/-- The groups of two options of one member, of which one has constraints on integers and the other a
decimal literal. -/
def numericGroups : Except Diagnostic (List Group) := do
  let drafts ← (Draft.ofBlocks Draft.shortMarks .classic .zero 0
    [⟨1, "-m M | Values: [1..4) | Member: n".toList⟩, ⟨2, "-b | Value: 2.5 | Member: n".toList⟩]).1
  ofDrafts drafts

/-- Integers and a decimal number have one type in common, however often they are repeated, and the
inferred default is of it. -/
theorem valueType_common_numeric :
    ∃ group member, numericGroups = .ok [group] ∧ group.properties.valueType = none ∧
      group.properties.default = none ∧ group.CommonType .double ∧
      { group with arguments := group.arguments ++ group.arguments }.valueType = .ok .double ∧
      group.member .listKind = .ok member ∧ member.default = ["1"] ∧
      ∀ entry ∈ member.default,
        member.valueType.Fits entry ∨ member.valueType = .string ∧ entry = "" := by
  have hdeduced : numericGroups.toOption.map (fun groups => groups.map fun group =>
      (group.properties.valueType.isNone && group.properties.default.isNone,
        group.valueType.toOption, (group.member .listKind).toOption.map (·.default))) =
          some [(true, some .double, some ["1"])] := by
    decide +kernel
  obtain ⟨groups, h, hgroups⟩ := exists_ok_of_toOption hdeduced
  obtain ⟨group, rfl, hgroup⟩ := List.map_eq_singleton_iff.mp hgroups
  simp only [Prod.mk.injEq, Bool.and_eq_true, Option.isNone_iff_eq_none] at hgroup
  obtain ⟨⟨hundeclared, hnone⟩, htype, hmember⟩ := hgroup
  obtain ⟨member, hm, hdefault⟩ := exists_ok_of_toOption hmember
  obtain ⟨drafts, -, hdrafts⟩ := bind_ok_iff.mp h
  have hinferred := (valueType_common hdrafts (List.mem_singleton_self group)).2.2 hundeclared
  have hdouble : group.valueType = .ok .double := by
    cases hvalueType : group.valueType with
    | error problem =>
      rw [hvalueType] at htype
      cases htype
    | ok valueType =>
      rw [hvalueType] at htype
      exact congrArg Except.ok (Option.some.inj htype)
  have hrepeated := hinferred.unordered
    { group with arguments := group.arguments ++ group.arguments } rfl hundeclared fun literal => by
      simp only [Mentions, List.mem_append, or_self]
  exact ⟨group, member, h, hundeclared, hnone, (hinferred.succeeds .double).mp hdouble,
    hrepeated.trans hdouble, hm, hdefault, (hinferred.default .listKind member hm).2 hnone⟩

end Group

end AnnotatedHelp
