import Mathlib
import AnnotatedHelp.Proofs.ModelGraph

/-!
# Indices of the positional arguments of a document

A definition is numbered as a positional argument exactly when its argument has no flags. So what
holds of the drafts that are numbered holds of the positional arguments of the document made from
them: they have the indices below their number, and the counter has gone up by that number.
-/

namespace AnnotatedHelp

open Outcome Text

namespace Definition

/-- A definition has flags, declared or implied, unless its shape is that of a positional
argument. -/
theorem shapeOf_flags {declared : Properties} {visible : List Char} {shape : Shape}
    (h : shapeOf declared visible = .ok shape) (counters : Counters) :
    ((declared .flags).or (shape.implied counters .flags)).isSome = !shape.isPositional := by
  unfold shapeOf at h
  dsimp only at h
  cases hflags : declared .flags with
  | some flags =>
    rw [hflags] at h
    cases h
    rfl
  | none =>
    rw [hflags] at h
    dsimp only at h
    split at h
    · cases hparse : Flag.parse (trim ((declared .text).elim visible String.toList)) with
      | error problem =>
        rw [hparse] at h
        cases h
      | ok parsed =>
        obtain ⟨flags, placeholder⟩ := parsed
        rw [hparse] at h
        cases h
        cases placeholder <;> simp [Shape.implied, Shape.isPositional, impliedByOption]
    · cases h
      rw [Shape.implied, Shape.isPositional, impliedByPositional]
      split <;> simp [Properties.empty]

/-- A definition that is read is numbered unless it is an option, and the counter of positional
arguments goes up with every number. -/
theorem ofBlock_number {marks : Marks} {dialect : Dialect} {counters after : Counters}
    {block : Block} {definition : Definition}
    (h : ofBlock marks dialect counters block = (.ok definition, after)) :
    definition.number.isSome = !definition.isOption ∧
      after.arguments = counters.arguments + definition.number.toList.length := by
  obtain ⟨shape, hshape⟩ := ofBlock_shaped h
  obtain ⟨visible, hvisible⟩ := hshape.ofVisible
  have hflags := shapeOf_flags hvisible counters
  rw [hshape.number, hshape.after]
  refine ⟨?_, ?_⟩
  · rw [isOption, get, hshape.implied, hflags, Bool.not_not]
    cases shape <;> rfl
  · cases shape <;> rfl

end Definition

namespace Draft

/-- Flags that are read from a definition are some, unless the definition gives none. -/
theorem readFlags_isEmpty {declared : Option String} {flags : List String}
    (h : readFlags declared = .ok flags) : flags.isEmpty = declared.isNone := by
  unfold readFlags at h
  split at h
  · cases h
    rfl
  · split at h
    · cases h
    · next hne =>
      cases h
      simpa using hne

/-- The argument of a definition is an option if the definition is. -/
theorem ofDefinition_isOption {ordinal : Nat} {definition : Definition} {draft : Draft}
    (h : ofDefinition ordinal definition = .ok draft) :
    draft.argument.isOption = definition.isOption := by
  obtain ⟨source, hmade⟩ := ofDefinition_made h
  rw [Argument.isOption, readFlags_isEmpty hmade.flags, Definition.isOption, Option.not_isNone]

section Blocks

variable {marks : Marks} {dialect : Dialect} {counters after : Counters} {ordinal : Nat}
  {blocks : List Block} {drafts : List Draft}

/-- Drafts read from blocks are positional where their arguments are no options. -/
theorem isPositional_of_ofBlocks
    (h : ofBlocks marks dialect counters ordinal blocks = (.ok drafts, after)) :
    ∀ draft ∈ drafts, draft.isPositional = !draft.argument.isOption := by
  intro draft hm
  obtain ⟨_, _, _, _, definition, hd, hn⟩ := exists_definition h draft hm
  obtain ⟨source, hmade⟩ := ofDefinition_made hn
  rw [isPositional, hmade.number, (Definition.ofBlock_number hd).1, ofDefinition_isOption hn]

/-- They still are when they are named apart and their indices are resolved. -/
theorem isPositional_settled {resolved : List Draft}
    (h : ofBlocks marks dialect counters ordinal blocks = (.ok drafts, after))
    (hr : resolveIndices (uniqueNames drafts) = .ok resolved) :
    ∀ draft ∈ resolved, draft.isPositional = !draft.argument.isOption := by
  have hsorts := map_settled (fun draft => (draft.isPositional, draft.argument.isOption))
    (fun _ _ => rfl) (fun _ _ => rfl) hr
  have hall : ∀ sort ∈ resolved.map fun draft => (draft.isPositional, draft.argument.isOption),
      sort.1 = !sort.2 := by
    rw [hsorts]
    exact List.forall_mem_map.mpr (isPositional_of_ofBlocks h)
  exact List.forall_mem_map.mp hall

/-- Reading blocks adds the positional arguments among them to the counter. -/
theorem arguments_of_ofBlocks
    (h : ofBlocks marks dialect counters ordinal blocks = (.ok drafts, after)) :
    after.arguments = counters.arguments + positionalCount drafts := by
  induction blocks generalizing counters ordinal drafts with
  | nil =>
    cases h
    rfl
  | cons block blocks ih =>
    obtain ⟨definition, middle, draft, rest, hd, hn, hr, rfl⟩ := ofBlocks_cons_ok h
    have hcount : definition.number.toList.length = if draft.isPositional = true then 1 else 0 := by
      obtain ⟨source, hmade⟩ := ofDefinition_made hn
      rw [isPositional, hmade.number]
      cases definition.number <;> rfl
    rw [ih hr, (Definition.ofBlock_number hd).2, hcount, positionalCount, positionalCount,
      List.countP_cons]
    omega

end Blocks

end Draft

/-- The positional arguments of a document that is read have the indices below their number, each
once, and the counter has gone up by their number. -/
theorem Document.read_positionals {settings : Settings} {counters after : Counters} {text : String}
    {document : Document} (h : read settings counters text = (.ok document, after)) :
    (document.positionals.map (·.index)).Perm
        ((List.range document.positionals.length).map some) ∧
      after.arguments = counters.arguments + document.positionals.length := by
  obtain ⟨marks, annotated, drafts, hmarks, hscan, hdrafts, hmembers, _, _⟩ := read_ok h
  obtain ⟨resolved, hresolved, hdeduced⟩ := bind_ok_iff.mp hmembers
  obtain ⟨sorted, hpart, _, hplaced⟩ := Member.ofDrafts_ok hdeduced
  have horder := (Draft.ofBlocks_ok hdrafts).uniqueNames.inDocumentOrder
  have hindices := Draft.resolveIndices_ok horder hresolved
  have hpositional := Draft.isPositional_settled hdrafts hresolved
  have hperm : (document.positionals.map (·.index)).Perm
      ((resolved.filter (·.isPositional)).map (·.argument.index)) := by
    have hfilter : resolved.filter (·.isPositional) = resolved.filter (!·.argument.isOption) :=
      List.filter_congr hpositional
    have hpairs := (document.arguments_perm.map fun argument => (argument.isOption, argument.index))
    rw [hplaced] at hpairs
    have hpairs := hpairs.trans (hpart.map_arguments_perm
      (fun argument => (argument.isOption, argument.index)) fun _ _ => rfl)
    have hindex := (hpairs.filter (!·.1)).map (·.2)
    simp only [List.filter_map, List.map_map] at hindex
    rw [hfilter]
    exact hindex
  have hcount : Draft.positionalCount (Draft.uniqueNames drafts) = Draft.positionalCount drafts := by
    have hkept := Draft.map_uniqueNamesFrom (·.isPositional) (fun _ _ => rfl) [] drafts
    have hcounted := congrArg (List.countP id) hkept
    rw [List.countP_map, List.countP_map] at hcounted
    exact hcounted
  have hall := hperm.trans hindices.bijective
  have hlength : document.positionals.length = Draft.positionalCount drafts := by
    simpa [hcount] using hall.length_eq
  rw [hlength]
  exact ⟨hcount ▸ hall, Draft.arguments_of_ofBlocks hdrafts⟩

end AnnotatedHelp
