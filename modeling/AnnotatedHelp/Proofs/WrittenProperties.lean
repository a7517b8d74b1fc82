import Mathlib
import AnnotatedHelp.Proofs.WellFormedArguments

/-!
# What definitions write about their member

Five properties of a definition belong to its member. A text never implies them, so a draft has of its
member what its definition writes; and since an argument keeps its ordinal through naming, indexing
and grouping, what its definition writes can be looked up in the blocks of the document. The default
alone is not kept as it is written: each draft cuts it at its own delimiter.
-/

namespace AnnotatedHelp

open Outcome Text

/-- The keys of the properties that belong to the member. -/
def PropertyKey.ofMember : List PropertyKey :=
  [.default, .extraInclude, .kind, .values, .valueType]

/-- The properties that a block declares. -/
def Block.declared (marks : Marks) (dialect : Dialect) (block : Block) : Except Problem Properties :=
  Property.readFields dialect (splitAlone marks.separator block.body).tail

/-- What the definition of an argument writes under a key. -/
def Argument.written (marks : Marks) (dialect : Dialect) (blocks : List Block) (key : PropertyKey)
    (argument : Argument) : Option String :=
  blocks[argument.ordinal]?.bind fun block =>
    (block.declared marks dialect).toOption.bind fun declared => declared key

namespace Definition

/-- A definition that is read declares what its block declares. -/
theorem ofBlock_declared {marks : Marks} {dialect : Dialect} {counters after : Counters}
    {block : Block} {definition : Definition}
    (h : ofBlock marks dialect counters block = (.ok definition, after)) :
    block.declared marks dialect = .ok definition.declared := by
  unfold ofBlock at h
  dsimp only at h
  split at h
  · cases h
  · next declared hread =>
    split at h
    · cases h
    · obtain ⟨hshape, -⟩ := Prod.mk.inj h
      unfold ofShape at hshape
      split at hshape
      · cases hshape
      · cases hshape
        exact hread

/-- A text implies nothing but a member name, flags, whether it is visible, a placeholder and a
count. -/
theorem Shape.implied_eq_none (shape : Shape) (counters : Counters) {key : PropertyKey}
    (hk : key ∉ [PropertyKey.memberName, .flags, .visible, .metaVariable, .count]) :
    shape.implied counters key = none := by
  simp only [List.mem_cons, List.not_mem_nil, or_false, not_or] at hk
  obtain ⟨hname, hflags, hvisible, hmetaVariable, hcount⟩ := hk
  have hempty : Properties.empty key = none := rfl
  cases shape with
  | declaredFlags flags => simp [implied, impliedByFlags, hname, hempty]
  | optionText flags placeholder =>
    cases placeholder <;>
      simp [implied, impliedByOption, hname, hflags, hvisible, hmetaVariable, hempty]
  | positionalText text =>
    cases text <;>
      simp [implied, impliedByPositional, hname, hvisible, hmetaVariable, hcount, hempty]

/-- A definition that is read has under the other keys what it declares. -/
theorem get_eq_declared {marks : Marks} {dialect : Dialect} {counters after : Counters} {block : Block}
    {definition : Definition}
    (h : ofBlock marks dialect counters block = (.ok definition, after)) {key : PropertyKey}
    (hk : key ∉ [PropertyKey.memberName, .flags, .visible, .metaVariable, .count]) :
    definition.get key = definition.declared key := by
  obtain ⟨shape, hshape⟩ := ofBlock_shaped h
  rw [get, hshape.implied, shape.implied_eq_none counters hk, Option.or_none]

/-- No text implies a property of the member. -/
theorem get_ofMember {marks : Marks} {dialect : Dialect} {counters after : Counters} {block : Block}
    {definition : Definition}
    (h : ofBlock marks dialect counters block = (.ok definition, after)) {key : PropertyKey}
    (hk : key ∈ PropertyKey.ofMember) : definition.get key = definition.declared key := by
  refine get_eq_declared h ?_
  revert key
  decide

end Definition

namespace Draft

/-- A draft has of its member what is written, the default cut at the delimiter of the argument. -/
structure Declares (written : PropertyKey → Option String) (draft : Draft) : Prop where
  /-- The default is cut, and repeated where it has one part. -/
  default : (written .default).mapM
    (splitDefault draft.argument.delimiter draft.argument.delimiterCount) = .ok draft.member.default
  /-- The extra include is kept as it is. -/
  extraInclude : draft.member.extraInclude = written .extraInclude
  /-- The kind is read. -/
  kind : draft.member.kind = (written .kind).bind Kind.ofName?
  /-- The constraints are read, and keep their text. -/
  values : (written .values).mapM readValues = .ok draft.member.values
  /-- The value type is read. -/
  valueType : draft.member.valueType = (written .valueType).bind ValueType.ofName?

/-- What a draft declares depends on the properties of the member alone. -/
theorem Declares.congr {written other : PropertyKey → Option String} {draft : Draft}
    (h : draft.Declares written) (hsame : ∀ key ∈ PropertyKey.ofMember, written key = other key) :
    draft.Declares other := by
  simp only [PropertyKey.ofMember, List.forall_mem_cons] at hsame
  obtain ⟨hdefault, hinclude, hkind, hvalues, htype, -⟩ := hsame
  exact ⟨hdefault ▸ h.default, hinclude ▸ h.extraInclude, hkind ▸ h.kind, hvalues ▸ h.values,
    htype ▸ h.valueType⟩

/-- The draft of a definition declares what the definition has of its member. -/
theorem ofDefinition_declares {ordinal : Nat} {definition : Definition} {draft : Draft}
    (h : ofDefinition ordinal definition = .ok draft) : draft.Declares definition.get := by
  simp only [ofDefinition, bind_ok_iff] at h
  obtain ⟨flags, -, source, -, delimiter, -, delimiterCount, -, _, -, default, hdefault, count, -,
    memberName, -, values, hvalues, he⟩ := h
  cases he
  exact ⟨hdefault, rfl, rfl, hvalues, rfl⟩

/-- What holds of the delimiter of an argument and of its count, as far as definitions settle it. -/
structure Delimited (argument : Argument) : Prop where
  /-- The ends of the delimiter count are in order. -/
  range : argument.delimiterCount.IsRange
  /-- Without a delimiter, no capture contains one. -/
  undelimited : argument.delimiter = none → argument.delimiterCount = .none

/-- Drafts that are read from blocks, named apart and given their indices declare what their
definitions write. -/
theorem declares_of_ofBlocks {marks : Marks} {dialect : Dialect} {counters after : Counters}
    {blocks : List Block} {drafts resolved : List Draft}
    (h : ofBlocks marks dialect counters 0 blocks = (.ok drafts, after))
    (hr : resolveIndices (uniqueNames drafts) = .ok resolved) :
    ∀ draft ∈ resolved, Delimited draft.argument ∧
      draft.Declares fun key => draft.argument.written marks dialect blocks key := by
  -- What the statement speaks of is left as it is by names and indices.
  have hkept := map_settled (fun draft => (draft.argument.ordinal, draft.argument.delimiter,
    draft.argument.delimiterCount, draft.member)) (fun _ _ => rfl) (fun _ _ => rfl) hr
  intro draft hm
  obtain ⟨original, horiginal, he⟩ :=
    List.mem_map.mp (hkept ▸ List.mem_map_of_mem hm)
  simp only [Prod.mk.injEq] at he
  obtain ⟨hordinal, hdelimiter, hcount, hmember⟩ := he
  obtain ⟨earlier, later, block, place, definition, hblock, hplace, hread, hdefinition⟩ :=
    exists_definition_at h original horiginal
  obtain ⟨source, hmade⟩ := ofDefinition_made hdefinition
  rw [Nat.zero_add, hordinal] at hplace
  have hwritten : ∀ key,
      draft.argument.written marks dialect blocks key = definition.declared key := by
    intro key
    rw [Argument.written, hplace, hblock, Option.bind_some, Definition.ofBlock_declared hread]
    rfl
  refine ⟨⟨?_, ?_⟩, ?_⟩
  · rw [← hcount]
    exact isRange_of_readDelimiterCount hmade.delimiterCount
  · intro hnone
    have hread := hmade.delimiterCount
    rw [hdelimiter, hnone] at hread
    rw [← hcount]
    exact readDelimiterCount_none hread
  · have hdeclares := (ofDefinition_declares hdefinition).congr fun key hk =>
      (Definition.get_ofMember hread hk).trans (hwritten key).symm
    have hdefault := hdeclares.default
    have hvalues := hdeclares.values
    rw [hdelimiter, hcount, hmember] at hdefault
    rw [hmember] at hvalues
    exact ⟨hdefault, hmember ▸ hdeclares.extraInclude, hmember ▸ hdeclares.kind, hvalues,
      hmember ▸ hdeclares.valueType⟩

end Draft

end AnnotatedHelp
