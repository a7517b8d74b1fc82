import Mathlib
import AnnotatedHelp.Proofs.LiteralArity
import AnnotatedHelp.Proofs.WrittenProperties

/-!
# Numbers of entries of defaults

A default is cut with the delimiter of the definition that declares it, at most as often as a capture
may contain delimiters, and is repeated where it has one part; an inferred one is repeated for the
fewest delimiters of all arguments. The arguments of a multivalue may require different numbers of
delimiters, and only some of them may declare a default. The main statement says that there are as
many entries nevertheless as a capture of some argument has values.
-/

namespace AnnotatedHelp

open Outcome Text

/-- Fields that give a text back give it back as strings. -/
theorem Text.intercalate_map_ofList {mark : Char} {fields : List (List Char)} {text : String}
    (h : [mark].intercalate fields = text.toList) :
    (String.singleton mark).intercalate (fields.map String.ofList) = text := by
  have hfields : (fields.map String.ofList).map String.toList = fields := by
    simp [Function.comp_def]
  rw [← String.toList_inj, String.toList_intercalate, hfields, String.toList_singleton, h]

/-- The entries of a default that is written as a text, where a capture may contain so many
delimiters. -/
structure EntriesOf (delimiter : Option Char) (count : Count) (text : String)
    (entries : List String) : Prop where
  /-- There are entries for every capture. -/
  least : count.min.toNat + 1 ≤ entries.length
  /-- There are no more entries than a capture may have values. -/
  most : ∀ limit, count.max = .bounded limit → entries.length ≤ limit.toNat + 1
  /-- The delimiter between them gives the text back, or the text is repeated. -/
  parts : (∃ c, delimiter = some c ∧ (String.singleton c).intercalate entries = text) ∨
    entries = List.replicate (count.min.toNat + 1) text

/-- The text repeated for the fewest delimiters is a default, where the ends of the delimiter count
are in order. -/
theorem EntriesOf.repeated {delimiter : Option Char} {count : Count} (hr : count.IsRange)
    (text : String) :
    EntriesOf delimiter count text (List.replicate (count.min.toNat + 1) text) := by
  refine ⟨by rw [List.length_replicate], fun limit hlimit => ?_, .inr rfl⟩
  rw [Count.IsRange, hlimit] at hr
  rw [List.length_replicate]
  exact Nat.succ_le_succ hr

/-- If every capture has the same number of delimiters, the entries are one more. -/
theorem EntriesOf.length_eq {delimiter : Option Char} {count : Count} {text : String}
    {entries : List String} (h : EntriesOf delimiter count text entries)
    (hf : count.isFixed = true) : entries.length = count.min.toNat + 1 :=
  Nat.le_antisymm (h.most count.min (of_decide_eq_true hf)) h.least

/-- A default that is cut has the entries that are asked for. -/
theorem Draft.splitDefault_entries {argument : Argument} (hd : Delimited argument) {text : String}
    {entries : List String}
    (h : splitDefault argument.delimiter argument.delimiterCount text = .ok entries) :
    EntriesOf argument.delimiter argument.delimiterCount text entries := by
  unfold splitDefault at h
  split at h
  · next hnone =>
    cases h
    have hsingle : EntriesOf argument.delimiter argument.delimiterCount text _ :=
      .repeated hd.range text
    rw [hd.undelimited hnone] at hsingle ⊢
    exact hsingle
  · next c hdelimiter =>
    dsimp only at h
    split_ifs at h with hsingle hshort
    · cases h
      exact EntriesOf.repeated hd.range text
    · cases h
      rw [Nat.not_lt] at hshort
      refine ⟨by rwa [List.length_map], fun limit hlimit => ?_, .inl ⟨c, hdelimiter, ?_⟩⟩
      · rw [List.length_map, hlimit]
        exact length_splitAtMost_le c limit.toNat text.toList
      · refine intercalate_map_ofList ?_
        split
        · exact intercalate_splitAtMost c _ text.toList
        · exact List.intercalate_splitOn c

namespace Group

variable {group : Group} {rule : DefaultRule} {member : Member}

/-- The default of a member is the declared one if there is one, else it is inferred. -/
theorem member_default (h : group.member rule = .ok member) :
    member.default =
      group.properties.default.getD (group.inferDefault member.kind member.valueType) := by
  simp only [Group.member, bind_ok_iff] at h
  obtain ⟨count, -, valueType, -, kind, -, default, hdefault, he⟩ := h
  cases he
  unfold Group.default at hdefault
  split at hdefault
  · next declared hdeclared =>
    rw [hdeclared]
    cases hcheck : group.checkDefault rule declared kind count <;> rw [hcheck] at hdefault <;>
      cases hdefault
    rfl
  · next hdeclared =>
    cases hdefault
    rw [hdeclared]
    rfl

/-- Some argument requires the fewest delimiters, and none requires fewer. -/
theorem leastDelimiters_of_mem (hne : group.arguments ≠ []) :
    (∃ argument ∈ group.arguments, group.leastDelimiters = argument.delimiterCount.min.toNat) ∧
      ∀ argument ∈ group.arguments, group.leastDelimiters ≤ argument.delimiterCount.min.toNat := by
  obtain ⟨least, hleast⟩ := Option.isSome_iff_exists.mp
    (List.isSome_min?_of_ne_nil (mt List.map_eq_nil_iff.mp hne) :
      (group.arguments.map fun argument => argument.delimiterCount.min.toNat).min?.isSome = true)
  obtain ⟨hm, hall⟩ := List.min?_eq_some_iff.mp hleast
  have heq : group.leastDelimiters = least := by rw [leastDelimiters, hleast, Option.getD_some]
  obtain ⟨argument, ha, hargument⟩ := List.mem_map.mp hm
  rw [heq]
  exact ⟨⟨argument, ha, hargument.symm⟩, List.forall_mem_map.mp hall⟩

/-- An inferred default has one entry, or as many as a multivalue has values at least. -/
theorem length_inferDefault (kind : Kind) (valueType : ValueType) :
    (group.inferDefault kind valueType).length =
      if kind = .multivalue then group.leastDelimiters + 1 else 1 := by
  unfold inferDefault
  dsimp only
  split
  · exact List.length_replicate
  · rfl

/-- The default that a group has gathered from what the definitions of its arguments write. -/
structure DefaultFrom (written : Argument → Option String) (group : Group) : Prop where
  /-- A default that is written is that of the group, cut for the argument that declares it. -/
  declared : ∀ argument ∈ group.arguments, ∀ text, written argument = some text →
    ∃ entries, group.properties.default = some entries ∧
      EntriesOf argument.delimiter argument.delimiterCount text entries
  /-- Without one that is written there is none. -/
  undeclared : (∀ argument ∈ group.arguments, written argument = none) →
    group.properties.default = none

end Group

/-- The groups of drafts that declare what is written have the defaults that are written. -/
theorem Gathered.defaultFrom {drafts : List Draft} {groups : List Group} (h : Gathered drafts groups)
    (written : PropertyKey → Argument → Option String)
    (hd : ∀ draft ∈ drafts, Draft.Delimited draft.argument ∧
      draft.Declares fun key => written key draft.argument) {group : Group} (hg : group ∈ groups) :
    group.DefaultFrom (written .default) := by
  constructor
  case declared =>
    intro argument ha text htext
    obtain ⟨draft, hm, hname, rfl⟩ := (h.mem_arguments hg).mp ha
    obtain ⟨hdelimited, hdeclares⟩ := hd draft hm
    have hdefault := hdeclares.default
    rw [htext] at hdefault
    obtain ⟨entries, hsplit, he⟩ := mapM_some_ok_iff.mp hdefault
    exact ⟨entries, (h.agreed group hg).default.eq_some_iff.mpr ⟨draft, hm, hname, he⟩,
      Draft.splitDefault_entries hdelimited hsplit⟩
  case undeclared =>
    intro hnone
    refine (h.agreed group hg).default.eq_none_iff.mpr fun draft hm hname => ?_
    have hdefault := (hd draft hm).2.default
    rw [hnone draft.argument ((h.mem_arguments hg).mpr ⟨draft, hm, hname, rfl⟩)] at hdefault
    exact (Except.ok.inj hdefault).symm

/-- How many entries the default of a member has, given what the definitions of its arguments write as
default. -/
structure Member.DefaultFits (written : Argument → Option String) (member : Member) : Prop where
  /-- A default that is written has the entries that are asked for by every argument that declares
  it. -/
  declared : ∀ argument ∈ member.arguments, ∀ text, written argument = some text →
    EntriesOf argument.delimiter argument.delimiterCount text member.default
  /-- Every argument of a multivalue has a fixed number of delimiters. -/
  fixed : member.kind = .multivalue →
    ∀ argument ∈ member.arguments, argument.hasFixedDelimiterCount = true
  /-- The default of a multivalue has as many entries as a capture of some argument has values. -/
  arity : member.kind = .multivalue →
    ∃ argument ∈ member.arguments, member.default.length = argument.delimiterCount.min.toNat + 1
  /-- If it is inferred, no argument has fewer values in a capture. -/
  fewest : member.kind = .multivalue → (∀ argument ∈ member.arguments, written argument = none) →
    ∀ argument ∈ member.arguments, member.default.length ≤ argument.delimiterCount.min.toNat + 1
  /-- For every other kind an inferred default has one entry. -/
  single : member.kind ≠ .multivalue → (∀ argument ∈ member.arguments, written argument = none) →
    member.default.length = 1

/-- The member of a group has the entries that the definitions of its arguments ask for. -/
theorem Group.DefaultFrom.fits {group : Group} {written : Argument → Option String}
    (h : group.DefaultFrom written) (hg : group.HasCounts) {rule : DefaultRule} {member : Member}
    (hm : group.member rule = .ok member) : member.DefaultFits written := by
  obtain ⟨occurrences, hdeduces⟩ := member_deduces hm
  have hdefault := member_default hm
  -- Without a default that is written, the length is that of the inferred one.
  have hinferred : (∀ argument ∈ member.arguments, written argument = none) →
      member.default.length = if member.kind = .multivalue then group.leastDelimiters + 1 else 1 := by
    intro hnone
    rw [hdeduces.arguments] at hnone
    rw [hdefault, h.undeclared hnone, Option.getD_none, length_inferDefault]
  have hdeclared : ∀ argument ∈ member.arguments, ∀ text, written argument = some text →
      EntriesOf argument.delimiter argument.delimiterCount text member.default := by
    intro argument ha text htext
    rw [hdeduces.arguments] at ha
    obtain ⟨entries, hentries, hcut⟩ := h.declared argument ha text htext
    rw [hdefault, hentries, Option.getD_some]
    exact hcut
  have hfixed : member.kind = .multivalue →
      ∀ argument ∈ member.arguments, argument.hasFixedDelimiterCount = true := by
    intro hkind
    rw [hdeduces.arguments]
    exact List.all_eq_true.mp (hasFixedDelimiters_of_kind hg.ranges (hkind ▸ hdeduces.kind))
  obtain ⟨⟨least, hleast, heq⟩, hall⟩ := leastDelimiters_of_mem hg.inhabited
  refine ⟨hdeclared, hfixed, ?_, ?_, ?_⟩
  · intro hkind
    by_cases hnone : ∀ argument ∈ member.arguments, written argument = none
    · refine ⟨least, hdeduces.arguments ▸ hleast, ?_⟩
      rw [hinferred hnone, if_pos hkind, heq]
    · push Not at hnone
      obtain ⟨argument, ha, hwritten⟩ := hnone
      obtain ⟨text, htext⟩ := Option.ne_none_iff_exists'.mp hwritten
      exact ⟨argument, ha, (hdeclared argument ha text htext).length_eq (hfixed hkind argument ha)⟩
  · intro hkind hnone
    rw [hinferred hnone, if_pos hkind, hdeduces.arguments]
    exact fun argument ha => Nat.succ_le_succ (hall argument ha)
  · intro hkind hnone
    rw [hinferred hnone, if_neg hkind]

/-- The entries of a default do not depend on the place of the member. -/
theorem Member.defaultFits_withPlace {written : Argument → Option String} {member : Member}
    (hw : ∀ place argument, written { argument with memberIndex := place } = written argument)
    (h : member.DefaultFits written) (place : Nat) : (member.withPlace place).DefaultFits written := by
  have hnone : (∀ argument ∈ (member.withPlace place).arguments, written argument = none) ↔
      ∀ argument ∈ member.arguments, written argument = none :=
    forall_withPlace (fun place argument => by rw [hw]) place member
  constructor
  case declared =>
    refine (forall_withPlace (fun place argument => ?_) place member).mpr h.declared
    rw [hw]
  case fixed =>
    exact fun hkind => (forall_withPlace (fun _ _ => Iff.rfl) place member).mpr (h.fixed hkind)
  case arity =>
    intro hkind
    obtain ⟨argument, ha, hlength⟩ := h.arity hkind
    exact ⟨_, List.mem_map_of_mem ha, hlength⟩
  case fewest =>
    exact fun hkind hall => (forall_withPlace (fun _ _ => Iff.rfl) place member).mpr
      (h.fewest hkind (hnone.mp hall))
  case single => exact fun hkind hall => h.single hkind (hnone.mp hall)

/-- The default of every member of a document that is read, in whatever session, has as many entries
as the definitions of its arguments ask for. A default that is written is cut or repeated for every
argument that declares it, and that of a multivalue fits the captures of some argument. -/
theorem Document.read_defaultArity {settings : Settings} {counters after : Counters} {text : String}
    {document : Document} (h : read settings counters text = (.ok document, after)) :
    ∃ marks annotated, settings.marks = .ok marks ∧ Annotated.scan marks text = .ok annotated ∧
      ∀ member ∈ document.members,
        member.DefaultFits (Argument.written marks settings.dialect annotated.blocks .default) := by
  obtain ⟨marks, annotated, drafts, hmarks, hscan, hdrafts, hmembers, -, -⟩ := read_ok h
  obtain ⟨resolved, hresolved, hdeduced⟩ := bind_ok_iff.mp hmembers
  obtain ⟨groups, sorted, hgathered, hmem, -, hplaced⟩ := Member.ofDrafts_gathered hdeduced
  refine ⟨marks, annotated, hmarks, hscan, ?_⟩
  intro member hm
  rw [hplaced] at hm
  obtain ⟨place, -, base, hbase, rfl⟩ := exists_of_mem_mapIdx_withPlace hm
  obtain ⟨group, hg, hmember⟩ := (hmem base).mp hbase
  have hmade : ∀ argument ∈ group.arguments,
      argument.MadeFrom marks settings.dialect annotated.blocks := by
    intro argument ha
    obtain ⟨draft, hd, -, rfl⟩ := (hgathered.mem_arguments hg).mp ha
    exact Draft.madeFrom_of_ofBlocks hdrafts hresolved draft hd
  have hcounts : group.HasCounts :=
    Group.hasCounts_of_made (hgathered.partition.inhabited _ (List.mem_map_of_mem hg)) hmade
  have hfrom := hgathered.defaultFrom (Argument.written marks settings.dialect annotated.blocks)
    (Draft.declares_of_ofBlocks hdrafts hresolved) hg
  exact Member.defaultFits_withPlace (fun _ _ => rfl) (hfrom.fits hcounts hmember) place

/-- Two options of a multivalue with different numbers of delimiters, of which one declares the
default. -/
def partlyDeclared : String :=
  "$\x7b-p X,Y,Z | Member: m | Default: 1\x7d$ $\x7b-q A,B | Member: m\x7d$"

/-- The declared default is repeated for the pieces of the option that declares it, and fits both
options. -/
theorem Document.read_defaultArity_partly :
    ∃ document, read .standard .zero partlyDeclared = (.ok document, ⟨0, 2⟩) ∧
      ∃ member ∈ document.members, member.kind = .multivalue ∧ member.default = ["1", "1", "1"] ∧
        member.arguments.map (·.delimiterCount) = [.exactly 2, .exactly 1] ∧
        ∃ marks annotated, Settings.standard.marks = .ok marks ∧
          Annotated.scan marks partlyDeclared = .ok annotated ∧
          member.arguments.map (Argument.written marks .classic annotated.blocks .default) =
            [some "1", none] ∧
          member.DefaultFits (Argument.written marks .classic annotated.blocks .default) := by
  have hafter : (read .standard .zero partlyDeclared).2 = ⟨0, 2⟩ := by decide +kernel
  have hread : (Settings.standard.marks.toOption.bind fun marks =>
      (Annotated.scan marks partlyDeclared).toOption.bind fun annotated =>
        (read .standard .zero partlyDeclared).1.toOption.map fun document =>
          document.members.any fun member => member.kind == .multivalue &&
            member.default == ["1", "1", "1"] &&
            member.arguments.map (·.delimiterCount) == [.exactly 2, .exactly 1] &&
            member.arguments.map (Argument.written marks .classic annotated.blocks .default) ==
              [some "1", none]) = some true := by
    decide +kernel
  have hsucceeds : (read .standard .zero partlyDeclared).1.toOption.map (·.members.length) =
      some 1 := by decide +kernel
  obtain ⟨document, hok, -⟩ := exists_ok_of_toOption hsucceeds
  have hdocument : read .standard .zero partlyDeclared = (.ok document, ⟨0, 2⟩) :=
    Prod.ext hok hafter
  obtain ⟨marks, annotated, hmarks, hscan, hall⟩ := read_defaultArity hdocument
  simp only [hmarks, hscan, hok, Except.toOption, Option.bind_some, Option.map_some,
    Option.some.injEq, List.any_eq_true, Bool.and_eq_true, beq_iff_eq] at hread
  obtain ⟨member, hm, ⟨⟨hkind, hdefault⟩, hcounts⟩, hwritten⟩ := hread
  exact ⟨document, hdocument, member, hm, hkind, hdefault, hcounts, marks, annotated, hmarks, hscan,
    hwritten, hall member hm⟩

end AnnotatedHelp
