import Mathlib
import AnnotatedHelp.Proofs.MemberDeduction

/-!
# Special members

A member that shows the help text, stops, or ends the options is meant to be a switch: a truth value
without constraints that its options set to true. A declared kind is checked against this, for the
definition that declares it and for the member; an inferred kind is not, and neither are the further
definitions of a member. The main statement says which special members are switches nevertheless.
-/

namespace AnnotatedHelp

open Outcome

/-- A switch is a truth value without constraints that all of its options set to true. -/
def Member.IsSwitch (member : Member) : Prop :=
  member.valueType = .bool ∧ member.values = [] ∧
    ∀ argument ∈ member.arguments, argument.isOption = true ∧ argument.value = some ["true"]

instance (member : Member) : Decidable member.IsSwitch := by
  unfold Member.IsSwitch
  infer_instance

namespace Group

variable {group : Group}

/-- A special kind is inferred for truth values that options set once. -/
theorem inferKind_special {valueType : ValueType} {count : Count}
    (h : (group.inferKind valueType count).isSpecial = true) :
    valueType = .bool ∧ group.isOption = true := by
  unfold inferKind at h
  split at h
  · next hbool => exact ⟨hbool.1, hbool.2.2⟩
  · split_ifs at h <;> cases h

/-- A special kind is declared for truth values that options set, without constraints. -/
theorem checkKind_special {kind : Kind} {valueType : ValueType} {count : Count} {done : Unit}
    (h : group.checkKind kind valueType count = .ok done) (hs : kind.isSpecial = true) :
    valueType = .bool ∧ group.isOption = true ∧ group.properties.values = none := by
  unfold checkKind at h
  split_ifs at h with _ _ hspecial hbool hoption hvalues
  · simp [hs] at hspecial
  · exact ⟨not_not.mp hbool, by simpa using hoption, by simpa using hvalues⟩

/-- A declared kind is the kind of the member if it passes the check. -/
theorem kind_of_declared {valueType : ValueType} {count : Count} {declared kind : Kind}
    (hd : group.properties.kind = some declared) (h : group.kind valueType count = .ok kind) :
    kind = declared ∧ ∃ done, group.checkKind declared valueType count = .ok done := by
  rw [Group.kind, hd] at h
  cases hcheck : group.checkKind declared valueType count with
  | error problem =>
    simp only [hcheck] at h
    cases h
  | ok done =>
    simp only [hcheck] at h
    cases h
    exact ⟨rfl, done, rfl⟩

/-- A kind that is not declared is inferred. -/
theorem kind_of_undeclared {valueType : ValueType} {count : Count} {kind : Kind}
    (hd : group.properties.kind = none) (h : group.kind valueType count = .ok kind) :
    kind = group.inferKind valueType count := by
  rw [Group.kind, hd] at h
  cases h
  rfl

/-- A special member has options that set a truth value. Constraints are kept from it where its kind
is declared. -/
theorem member_special {rule : DefaultRule} {member : Member}
    (h : group.member rule = .ok member) (hs : member.kind.isSpecial = true) :
    member.valueType = .bool ∧ group.isOption = true ∧
      member.values = group.properties.values.elim [] (·.constraints) ∧
      (group.properties.kind = some member.kind ∧ group.properties.values = none ∨
        group.properties.kind = none) := by
  simp only [Group.member, bind_ok_iff] at h
  obtain ⟨count, _, valueType, _, kind, hkind, default, _, he⟩ := h
  cases he
  cases hdeclared : group.properties.kind with
  | none =>
    have hinferred := kind_of_undeclared hdeclared hkind
    obtain ⟨hbool, hoption⟩ := inferKind_special (hinferred ▸ hs)
    exact ⟨hbool, hoption, rfl, .inr rfl⟩
  | some declared =>
    obtain ⟨rfl, done, hcheck⟩ := kind_of_declared hdeclared hkind
    obtain ⟨hbool, hoption, hvalues⟩ := checkKind_special hcheck hs
    exact ⟨hbool, hoption, rfl, .inl ⟨rfl, hvalues⟩⟩

end Group

namespace Draft

/-- A literal under a declared special kind is true alone. -/
theorem checkSpecial_ok {kind : Kind} {value : Option (List String)} {done : Unit}
    (h : checkSpecial (some kind) value = .ok done) (hs : kind.isSpecial = true) :
    value = some ["true"] := by
  simp only [checkSpecial, hs, Bool.not_true, Bool.false_eq_true, if_false] at h
  cases value with
  | none => cases h
  | some literals =>
    dsimp only at h
    split at h
    · next htrue => rw [htrue]
    · cases h

/-- A definition that declares a special kind sets its option to true. -/
theorem value_of_special {ordinal : Nat} {definition : Definition} {draft : Draft}
    (h : ofDefinition ordinal definition = .ok draft) {kind : Kind}
    (hk : draft.member.kind = some kind) (hs : kind.isSpecial = true) :
    draft.argument.value = some ["true"] := by
  obtain ⟨source, hmade⟩ := ofDefinition_made h
  have hcheck := hmade.special
  rw [hk] at hcheck
  exact checkSpecial_ok hcheck hs

/-- What the name and the place of a draft leave as it is, of what decides whether its member is a
switch. -/
def contribution (draft : Draft) : String × Option (List String) × MemberProperties :=
  (draft.argument.memberName, draft.argument.value, draft.member)

/-- The definitions of a member keep it a switch: those that declare no kind set their option to
true, and if none declares a kind then none has constraints. -/
structure KeepSwitch (name : String) (drafts : List Draft) : Prop where
  /-- Where no kind is declared, the option is set to true. -/
  literals : ∀ draft ∈ drafts, draft.argument.memberName = name → draft.member.kind = none →
    draft.argument.value = some ["true"]
  /-- If no kind is declared, there are no constraints. -/
  unconstrained : (∀ draft ∈ drafts, draft.argument.memberName = name → draft.member.kind = none) →
    ∀ draft ∈ drafts, draft.argument.memberName = name →
      ∀ values ∈ draft.member.values, values.constraints = []

instance (name : String) (drafts : List Draft) : Decidable (KeepSwitch name drafts) :=
  decidable_of_iff
    ((∀ draft ∈ drafts, draft.argument.memberName = name → draft.member.kind = none →
      draft.argument.value = some ["true"]) ∧
    ((∀ draft ∈ drafts, draft.argument.memberName = name → draft.member.kind = none) →
      ∀ draft ∈ drafts, draft.argument.memberName = name →
        ∀ values ∈ draft.member.values, values.constraints = []))
    ⟨fun h => ⟨h.1, h.2⟩, fun h => ⟨h.literals, h.unconstrained⟩⟩

/-- What a draft contributes is contributed by a draft of every list with the same contributions. -/
theorem exists_contribution {drafts others : List Draft}
    (hc : drafts.map contribution = others.map contribution) {other : Draft} (ho : other ∈ others) :
    ∃ draft ∈ drafts, draft.argument.memberName = other.argument.memberName ∧
      draft.argument.value = other.argument.value ∧ draft.member = other.member := by
  have hm : other.contribution ∈ others.map contribution := List.mem_map_of_mem ho
  rw [← hc] at hm
  obtain ⟨draft, hd, hsame⟩ := List.mem_map.mp hm
  simp only [contribution, Prod.mk.injEq] at hsame
  exact ⟨draft, hd, hsame⟩

/-- Whether a member is kept a switch depends on what its drafts contribute. -/
theorem KeepSwitch.congr {name : String} {drafts others : List Draft} (h : KeepSwitch name drafts)
    (hc : drafts.map contribution = others.map contribution) : KeepSwitch name others := by
  refine ⟨?_, ?_⟩
  · intro other ho hname hkind
    obtain ⟨draft, hd, hname', hvalue, hmember⟩ := exists_contribution hc ho
    rw [← hvalue]
    exact h.literals draft hd (hname'.trans hname) (by rw [hmember]; exact hkind)
  · intro hundeclared other ho hname values hvalues
    obtain ⟨draft, hd, hname', -, hmember⟩ := exists_contribution hc ho
    refine h.unconstrained ?_ draft hd (hname'.trans hname) values (by rw [hmember]; exact hvalues)
    intro draft hd hname
    obtain ⟨other, ho, hname', -, hmember⟩ := exists_contribution hc.symm hd
    rw [← hmember]
    exact hundeclared other ho (hname'.trans hname)

end Draft

section Gathering

variable {drafts : List Draft} {groups : List Group} {group : Group}

/-- A group has no kind if no draft of its member declares one. -/
theorem Gathered.kind_eq_none_iff (h : Gathered drafts groups) (hg : group ∈ groups) :
    group.properties.kind = none ↔
      ∀ draft ∈ drafts, draft.argument.memberName = group.name → draft.member.kind = none := by
  simp only [Option.eq_none_iff_forall_ne_some, ne_eq, (h.agreed group hg).kind.eq_some_iff]
  constructor
  · intro hnone draft hd hname kind hkind
    exact hnone kind ⟨draft, hd, hname, hkind⟩
  · rintro hnone kind ⟨draft, hd, hname, hkind⟩
    exact hnone draft hd hname kind hkind

/-- A member of a special kind is a switch exactly when its definitions keep it one. -/
theorem Gathered.isSwitch_iff (h : Gathered drafts groups) (hg : group ∈ groups)
    (hread : ∀ draft ∈ drafts, ∀ kind, draft.member.kind = some kind → kind.isSpecial = true →
      draft.argument.value = some ["true"])
    {rule : DefaultRule} {member : Member} (hm : group.member rule = .ok member)
    (hs : member.kind.isSpecial = true) :
    member.IsSwitch ↔ Draft.KeepSwitch member.name drafts := by
  obtain ⟨hname, harguments⟩ := Prod.mk.inj (Group.member_ok hm)
  obtain ⟨hbool, hoption, hvalues, hdeclared⟩ := Group.member_special hm hs
  rw [hname]
  constructor
  · rintro ⟨-, hnone, hswitch⟩
    refine ⟨?_, ?_⟩
    · intro draft hd hn _
      refine (hswitch draft.argument ?_).2
      rw [harguments]
      exact (h.mem_arguments hg).mpr ⟨draft, hd, hn, rfl⟩
    · intro _ draft hd hn values hv
      have hagreed : group.properties.values = some values :=
        (h.agreed group hg).values.eq_some_iff.mpr ⟨draft, hd, hn, hv⟩
      rw [hvalues, hagreed] at hnone
      exact hnone
  · rintro ⟨hliterals, hunconstrained⟩
    refine ⟨hbool, ?_, ?_⟩
    · rw [hvalues]
      cases hv : group.properties.values with
      | none => rfl
      | some values =>
        have hundeclared : group.properties.kind = none := by
          rcases hdeclared with ⟨-, hno⟩ | hno
          · rw [hno] at hv
            cases hv
          · exact hno
        obtain ⟨draft, hd, hn, hdv⟩ := (h.agreed group hg).values.eq_some_iff.mp hv
        exact hunconstrained ((h.kind_eq_none_iff hg).mp hundeclared) draft hd hn values hdv
    · intro argument ha
      rw [harguments] at ha
      refine ⟨List.all_eq_true.mp hoption argument ha, ?_⟩
      obtain ⟨draft, hd, hn, rfl⟩ := (h.mem_arguments hg).mp ha
      cases hk : draft.member.kind with
      | none => exact hliterals draft hd hn hk
      | some kind =>
        have hagreed : group.properties.kind = some kind :=
          (h.agreed group hg).kind.eq_some_iff.mpr ⟨draft, hd, hn, hk⟩
        rcases hdeclared with ⟨hown, -⟩ | hno
        · rw [hagreed] at hown
          exact hread draft hd kind hk (Option.some.inj hown ▸ hs)
        · rw [hagreed] at hno
          cases hno

end Gathering

/-- Writing a place into a member leaves it the switch that it is or is not. -/
theorem Member.isSwitch_withPlace (place : Nat) (member : Member) :
    (member.withPlace place).IsSwitch ↔ member.IsSwitch := by
  simp [IsSwitch, withPlace, Argument.isOption]

/-- Writing a place into a member leaves it the sort of arguments that it has. -/
theorem Member.isOption_withPlace (place : Nat) (member : Member) :
    (member.withPlace place).isOption = member.isOption := by
  simp [isOption, withPlace, Argument.isOption, Function.comp_def]

/-- Every special member of a document is a truth value that options set. It is a switch exactly when
its definitions keep it one, which is checked only where they declare the kind. -/
theorem parse_special {settings : Settings} {text : String} {document : Document}
    (h : Document.parse settings text = .ok document) :
    ∃ marks annotated drafts, settings.marks = .ok marks ∧ Annotated.scan marks text = .ok annotated ∧
      (Draft.ofBlocks marks settings.dialect .zero 0 annotated.blocks).1 = .ok drafts ∧
      ∀ member ∈ document.members, member.kind.isSpecial = true →
        member.valueType = .bool ∧ member.isOption = true ∧
          (member.IsSwitch ↔ Draft.KeepSwitch member.name drafts) := by
  obtain ⟨marks, annotated, drafts, hmarks, hscan, hdrafts, hmembers, _, _⟩ :=
    Document.read_ok (Prod.ext h rfl)
  refine ⟨marks, annotated, drafts, hmarks, hscan, by rw [hdrafts], ?_⟩
  obtain ⟨resolved, hresolved, hdeduced⟩ := bind_ok_iff.mp hmembers
  obtain ⟨groups, sorted, hgathered, hmem, _, hplaced⟩ := Member.ofDrafts_gathered hdeduced
  have hsame := Draft.map_settled Draft.contribution (fun _ _ => rfl) (fun _ _ => rfl) hresolved
  have hread : ∀ draft ∈ resolved, ∀ kind, draft.member.kind = some kind →
      kind.isSpecial = true → draft.argument.value = some ["true"] := by
    have hall : ∀ contribution ∈ resolved.map Draft.contribution, ∀ kind,
        contribution.2.2.kind = some kind → kind.isSpecial = true →
          contribution.2.1 = some ["true"] := by
      rw [hsame]
      refine List.forall_mem_map.mpr fun read hr kind hkind hspecial => ?_
      obtain ⟨_, _, _, _, definition, _, hdefinition⟩ := Draft.exists_definition hdrafts read hr
      exact Draft.value_of_special hdefinition hkind hspecial
    exact List.forall_mem_map.mp hall
  intro member hm hspecial
  rw [hplaced] at hm
  obtain ⟨place, _, base, hbase, rfl⟩ := exists_of_mem_mapIdx_withPlace hm
  obtain ⟨group, hg, hdeduced⟩ := (hmem base).mp hbase
  have hkind : base.kind.isSpecial = true := hspecial
  obtain ⟨hbool, hoption, _, _⟩ := Group.member_special hdeduced hkind
  refine ⟨hbool, ?_, ?_⟩
  · have harguments : base.arguments = group.arguments :=
      congrArg Prod.snd (Group.member_ok hdeduced)
    rw [Member.isOption_withPlace, Member.isOption, harguments]
    exact hoption
  · rw [Member.isSwitch_withPlace, hgathered.isSwitch_iff hg hread hdeduced hkind]
    exact ⟨fun hk => hk.congr hsame, fun hk => hk.congr hsame.symm⟩

/-- A help option to which constraints are declared. -/
def constrainedHelp : String :=
  "$\x7b-h, --help | Values: true\x7d$"

/-- Not every special member is a switch. -/
theorem parse_special_constrained :
    ¬ ∀ (settings : Settings) (text : String) (document : Document),
      Document.parse settings text = .ok document →
        ∀ member ∈ document.members, member.kind.isSpecial = true → member.IsSwitch := by
  intro hall
  have hread : (Document.parse .standard constrainedHelp).toOption.any
      (·.members.any fun member => member.kind.isSpecial && !decide member.IsSwitch) = true := by
    decide +kernel
  cases h : Document.parse .standard constrainedHelp with
  | error diagnostic =>
    rw [h] at hread
    cases hread
  | ok document =>
    rw [h] at hread
    obtain ⟨member, hm, hboth⟩ := List.any_eq_true.mp hread
    rw [Bool.and_eq_true, Bool.not_eq_true', decide_eq_false_iff_not] at hboth
    exact hboth.2 (hall _ _ document h member hm hboth.1)

/-- A help option of which no kind is declared shares its member with one that declares it. -/
def sharedHelp : String :=
  "$\x7b-h, --help\x7d$ $\x7b-x | Type: help | Member: help\x7d$"

/-- The member has the kind that one of its options declares, and is a switch. -/
theorem parse_special_shared :
    ∃ document, Document.parse .standard sharedHelp = .ok document ∧
      ∃ member ∈ document.members, member.kind = .help ∧ member.name = "help" ∧
        member.arguments.length = 2 ∧ member.IsSwitch := by
  have hread : (Document.parse .standard sharedHelp).toOption.any
      (·.members.any fun member => member.kind == .help && member.name == "help" &&
        member.arguments.length == 2) = true := by
    decide +kernel
  have hkeep : (Settings.standard.marks.toOption.bind fun marks =>
      (Annotated.scan marks sharedHelp).toOption.bind fun annotated =>
        (Draft.ofBlocks marks Settings.standard.dialect .zero 0 annotated.blocks).1.toOption.map
          fun drafts => decide (Draft.KeepSwitch "help" drafts)) = some true := by
    decide +kernel
  cases h : Document.parse .standard sharedHelp with
  | error diagnostic =>
    rw [h] at hread
    cases hread
  | ok document =>
    rw [h] at hread
    obtain ⟨member, hm, hhelp⟩ := List.any_eq_true.mp hread
    simp only [Bool.and_eq_true, beq_iff_eq] at hhelp
    obtain ⟨⟨hkind, hname⟩, hlength⟩ := hhelp
    obtain ⟨marks, annotated, drafts, hmarks, hscan, hdrafts, hall⟩ := parse_special h
    simp only [hmarks, hscan, hdrafts, Except.toOption, Option.bind_some, Option.map_some,
      Option.some.injEq, decide_eq_true_eq] at hkeep
    have hspecial : member.kind.isSpecial = true := by rw [hkind]; rfl
    refine ⟨document, rfl, member, hm, hkind, hname, hlength, ?_⟩
    exact (hall member hm hspecial).2.2.mpr (hname ▸ hkeep)

end AnnotatedHelp
