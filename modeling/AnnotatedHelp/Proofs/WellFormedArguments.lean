import Mathlib
import AnnotatedHelp.Proofs.CountRanges
import AnnotatedHelp.Proofs.Fields
import AnnotatedHelp.Proofs.OptionNames
import AnnotatedHelp.Proofs.PositionalIndices

/-!
# Well-formed arguments

Properties may be declared, declared as empty, implied or missing, and an option may declare what
another one implies. However they are combined, an argument either assigns a literal or captures a
value under a placeholder; its flags, its delimiter, its counts and its names are what the rest of
the library takes them for; and its alternatives are its literal, cut at the delimiter.
-/

namespace AnnotatedHelp

open Outcome Text

namespace Name

/-- The text of a positional argument always gives a name. -/
theorem ofPositional_ne_nil (number : Nat) (text : List Char) : ofPositional number text ≠ [] := by
  unfold ofPositional
  split
  · exact toList_append_ne_nil (by decide) _
  · next hname => exact hname

end Name

namespace Definition

/-- Every shape implies a member name, and that of a positional argument a placeholder. -/
theorem Shape.implied_names (shape : Shape) (counters : Counters) :
    (∃ name, shape.implied counters .memberName = some (String.ofList name) ∧ name ≠ []) ∧
      (shape.isPositional = true → (shape.implied counters .metaVariable).isSome = true) := by
  cases shape with
  | declaredFlags flags =>
    exact ⟨⟨_, rfl, Name.ofFlags_ne_nil _ _⟩, nofun⟩
  | optionText flags placeholder =>
    refine ⟨⟨_, ?_, Name.ofFlags_ne_nil counters.options flags⟩, nofun⟩
    cases placeholder <;> rfl
  | positionalText text =>
    refine ⟨⟨_, ?_, Name.ofPositional_ne_nil counters.arguments text⟩, fun _ => ?_⟩
    · cases text <;> rfl
    · cases text <;> rfl

/-- The literal of a definition that captures nothing: its value, or else `true`. -/
def literal (definition : Definition) : String :=
  (definition.get .value).getD "true"

/-- A definition that is read has a name. -/
theorem ofBlock_name {marks : Marks} {dialect : Dialect} {counters after : Counters} {block : Block}
    {definition : Definition}
    (h : ofBlock marks dialect counters block = (.ok definition, after)) :
    definition.name ≠ "" := by
  obtain ⟨shape, hshape⟩ := ofBlock_shaped h
  obtain ⟨⟨name, himplied, hne⟩, -⟩ := shape.implied_names counters
  rw [hshape.name, himplied, Option.getD_some]
  exact fun hempty => hne (String.ofList_eq_empty_iff.mp hempty)

/-- A definition that is read has a placeholder unless it is an option. -/
theorem ofBlock_placeholder {marks : Marks} {dialect : Dialect} {counters after : Counters}
    {block : Block} {definition : Definition}
    (h : ofBlock marks dialect counters block = (.ok definition, after))
    (hsort : definition.isOption = false) : (definition.get .metaVariable).isSome = true := by
  have hnumber := (ofBlock_number h).1
  obtain ⟨shape, hshape⟩ := ofBlock_shaped h
  rw [hsort, hshape.number] at hnumber
  have hpositional : shape.isPositional = true := by
    cases shape <;> first | rfl | cases hnumber
  have himplied := (shape.implied_names counters).2 hpositional
  rw [get, hshape.implied, Option.isSome_or, himplied, Bool.or_true]

end Definition

/-- A source is the literal, where there is no placeholder, or a placeholder; neither is empty. -/
theorem Source.ofDefinition_ok {isOption : Bool} {literal placeholder : Option String}
    {source : Source} (h : ofDefinition isOption literal placeholder = .ok source) :
    (source = .literal (literal.getD "true") ∧ literal.getD "true" ≠ "" ∧ placeholder = none) ∨
      ∃ text, source = .placeholder text ∧ text ≠ "" ∧ placeholder.isSome = true := by
  unfold ofDefinition at h
  split at h
  · next given declared =>
    split_ifs at h with hsort hplaceholder hempty
    cases h
    exact .inl ⟨rfl, hempty, by simpa using hplaceholder⟩
  · next given =>
    cases h
    refine .inr ⟨_, rfl, ?_, rfl⟩
    split
    · decide
    · assumption
  · cases h
    exact .inl ⟨rfl, by decide, rfl⟩

/-- Alternatives make up a literal that is cut at its delimiter. -/
structure CutAt (delimiter : Option Char) (literal : String) (alternatives : List String) :
    Prop where
  /-- Without a delimiter the literal is the only alternative. -/
  whole : delimiter = none → alternatives = [literal]
  /-- The delimiter between them gives the literal back. -/
  joined : ∀ c, delimiter = some c → (String.singleton c).intercalate alternatives = literal
  /-- No alternative contains the delimiter. -/
  apart : ∀ c, delimiter = some c → ∀ alternative ∈ alternatives, c ∉ alternative.toList

namespace Draft

/-- A text is cut into alternatives. -/
theorem alternatives_cutAt (delimiter : Option Char) (text : String) :
    CutAt delimiter text (alternatives delimiter text) := by
  cases delimiter with
  | none => exact ⟨fun _ => rfl, nofun, nofun⟩
  | some c =>
    refine ⟨nofun, ?_, ?_⟩
    · rintro _ ⟨⟩
      have hfields : ((alternatives (some c) text).map String.toList) = splitAll c text.toList := by
        simp [alternatives, Function.comp_def]
      rw [← String.toList_inj, String.toList_intercalate, hfields, String.toList_singleton]
      exact List.intercalate_splitOn c
    · rintro _ ⟨⟩ alternative hm
      obtain ⟨field, hfield, rfl⟩ := List.mem_map.mp hm
      rw [String.toList_ofList]
      exact not_mem_of_mem_splitAll hfield

/-- A delimiter is no blank. -/
theorem readDelimiter_ok {declared count : Option String} {source : List Char}
    {delimiter : Option Char} (h : readDelimiter declared source count = .ok delimiter) :
    ∀ c, delimiter = some c → isBlank c = false := by
  unfold readDelimiter at h
  dsimp only at h
  split at h
  · cases h
    exact nofun
  · split at h
    · cases h
    · next hblank =>
      cases h
      rintro _ ⟨⟩
      simpa using hblank
  · cases h

/-- Without a delimiter, no capture contains one. -/
theorem readDelimiterCount_none {source : List Char} {declared : Option String} {count : Count}
    (h : readDelimiterCount none source declared = .ok count) : count = .none := by
  unfold readDelimiterCount at h
  split at h
  · split at h <;> cases h
    rfl
  · cases h
    rfl
  · next hdelimiter => cases hdelimiter
  · next hdelimiter => cases hdelimiter

/-- An argument can occur, and the ends of its count are in order. -/
theorem readOccurrences_ok {isOption : Bool} {text : Option String} {count : Count}
    (h : readOccurrences isOption text = .ok count) : count.IsRange ∧ count.max ≠ .bounded 0 := by
  unfold readOccurrences at h
  split at h
  · cases h
    cases isOption <;> decide
  · split at h
    · cases h
    · next read hread =>
      split at h
      · cases h
      · next hmaximum =>
        cases h
        exact ⟨Count.isRange_of_parse (mapError_ok_iff.mp hread), hmaximum⟩

/-- Flags are not empty and have no blanks. -/
theorem readFlags_ok {declared : Option String} {flags : List String}
    (h : readFlags declared = .ok flags) :
    ∀ flag ∈ flags, flag ≠ "" ∧ ∀ c ∈ flag.toList, isBlank c = false := by
  unfold readFlags at h
  split at h
  · cases h
    simp
  · split at h
    · cases h
    · cases h
      intro flag hm
      obtain ⟨word, hword, rfl⟩ := List.mem_map.mp hm
      obtain ⟨hne, hblank⟩ := of_mem_words hword
      rw [String.toList_ofList]
      exact ⟨fun hempty => hne (String.ofList_eq_empty_iff.mp hempty), hblank⟩

/-- A member name is not empty. -/
theorem readMemberName_ok {text name : String} (h : readMemberName text = .ok name) :
    name ≠ "" := by
  unfold readMemberName at h
  split at h
  · cases h
  · next hempty =>
    cases h
    exact hempty

end Draft

namespace Argument

/-- What a definition settles about its argument, whatever else its document holds. -/
structure Settled (definition : Definition) (argument : Argument) : Prop where
  /-- It assigns a literal or has a placeholder, never both. -/
  exclusive : (argument.value.isSome ^^ argument.metaVariable.isSome) = true
  /-- It consumes input if it has a placeholder. -/
  input : argument.consumesInput = argument.metaVariable.isSome
  /-- The placeholder is not empty. -/
  placeholder : ∀ text, argument.metaVariable = some text → text ≠ ""
  /-- The literal is that of the definition, cut at the delimiter, and not empty. -/
  literal : ∀ alternatives, argument.value = some alternatives →
    definition.literal ≠ "" ∧ CutAt argument.delimiter definition.literal alternatives
  /-- It has no flags where the definition is numbered as a positional argument. -/
  positional : argument.flags.isEmpty = definition.number.isSome
  /-- A positional argument captures a value. -/
  captures : argument.flags.isEmpty = true → argument.consumesInput = true
  /-- Flags are not empty and have no blanks. -/
  flags : ∀ flag ∈ argument.flags, flag ≠ "" ∧ ∀ c ∈ flag.toList, isBlank c = false
  /-- The delimiter is no blank. -/
  delimiter : ∀ c, argument.delimiter = some c → isBlank c = false
  /-- Without a delimiter, no capture contains one. -/
  undelimited : argument.delimiter = none → argument.delimiterCount = .none
  /-- The ends of the delimiter count are in order. -/
  delimiterCount : argument.delimiterCount.IsRange
  /-- The ends of the count are in order. -/
  count : argument.count.IsRange
  /-- The argument can occur. -/
  occurs : argument.count.max ≠ .bounded 0
  /-- The member has a name. -/
  memberName : argument.memberName ≠ ""

/-- An argument of a document is settled by its definition, and named and placed by the document. -/
structure WellFormed (definition : Definition) (argument : Argument) : Prop
    extends Settled definition argument where
  /-- The argument has a name. -/
  name : argument.name ≠ ""
  /-- Positional arguments have an index, and options have none. -/
  index : argument.index.isSome = argument.flags.isEmpty

end Argument

namespace Draft

/-- The draft of a definition has an argument that is settled by the definition. -/
theorem ofDefinition_settled {ordinal : Nat} {definition : Definition} {draft : Draft}
    (hnumber : definition.number.isSome = !definition.isOption)
    (hplaceholder : definition.isOption = false → (definition.get .metaVariable).isSome = true)
    (h : ofDefinition ordinal definition = .ok draft) :
    draft.argument.Settled definition := by
  obtain ⟨source, hmade⟩ := ofDefinition_made h
  have hempty : draft.argument.flags.isEmpty = !definition.isOption := by
    rw [readFlags_isEmpty hmade.flags, Definition.isOption, Option.not_isSome]
  have htaken := Source.ofDefinition_ok hmade.takes
  have hvalue := hmade.value
  have hmetaVariable := hmade.placeholder
  constructor
  case exclusive =>
    rw [hvalue, hmetaVariable]
    cases source <;> rfl
  case input =>
    rw [Argument.consumesInput, hvalue, hmetaVariable]
    cases source <;> rfl
  case placeholder =>
    intro text htext
    rcases htaken with ⟨rfl, -, -⟩ | ⟨given, rfl, hne, -⟩
    · cases hmetaVariable.symm.trans htext
    · cases hmetaVariable.symm.trans htext
      exact hne
  case literal =>
    intro taken htext
    rcases htaken with ⟨rfl, hne, -⟩ | ⟨given, rfl, -, -⟩
    · cases hvalue.symm.trans htext
      exact ⟨hne, alternatives_cutAt _ definition.literal⟩
    · cases hvalue.symm.trans htext
  case positional => exact hempty.trans hnumber.symm
  case captures =>
    intro hpositional
    have hsort : definition.isOption = false := by
      rw [← Bool.not_eq_true', ← hempty]
      exact hpositional
    have hsome := hplaceholder hsort
    rcases htaken with ⟨-, -, hnone⟩ | ⟨given, rfl, -, -⟩
    · rw [hnone] at hsome
      cases hsome
    · rw [Argument.consumesInput, hvalue]
      rfl
  case flags => exact readFlags_ok hmade.flags
  case delimiter => exact readDelimiter_ok hmade.delimiter
  case undelimited =>
    intro hnone
    have hcount := hmade.delimiterCount
    rw [hnone] at hcount
    exact readDelimiterCount_none hcount
  case delimiterCount => exact isRange_of_readDelimiterCount hmade.delimiterCount
  case count => exact (readOccurrences_ok hmade.count).1
  case occurs => exact (readOccurrences_ok hmade.count).2
  case memberName => exact readMemberName_ok hmade.memberName

/-- Naming drafts apart leaves no name empty. -/
theorem name_of_uniqueNamesFrom {taken : List String} {drafts : List Draft}
    (h : ∀ draft ∈ drafts, draft.argument.name ≠ "") :
    ∀ draft ∈ uniqueNamesFrom taken drafts, draft.argument.name ≠ "" := by
  induction drafts generalizing taken with
  | nil => simp [uniqueNamesFrom]
  | cons draft drafts ih =>
    obtain ⟨hname, hrest⟩ := List.forall_mem_cons.mp h
    refine List.forall_mem_cons.mpr ⟨?_, ih hrest⟩
    change numbered draft.argument.name (freeNumber taken draft.argument.name) ≠ ""
    cases freeNumber taken draft.argument.name with
    | zero => exact hname
    | succ n => exact mt String.toList_eq_nil_iff.mpr (Name.toList_append_ne_nil hname _)

/-- Positional arguments whose indices are resolved have one, and options have none. -/
theorem Resolved.index_isSome {drafts result : List Draft} (h : Resolved drafts result) :
    ∀ draft ∈ result, draft.argument.index.isSome = draft.isPositional := by
  intro draft hm
  cases hsort : draft.isPositional with
  | false =>
    rw [h.options draft hm hsort]
    rfl
  | true =>
    have hindex : draft.argument.index ∈
        (List.range (positionalCount drafts)).map some :=
      h.bijective.mem_iff.mp (List.mem_map_of_mem (List.mem_filter.mpr ⟨hm, hsort⟩))
    obtain ⟨place, -, hplace⟩ := List.mem_map.mp hindex
    rw [← hplace]
    rfl

/-- Naming drafts apart and resolving their indices gives their arguments another name and an index,
and changes nothing else. -/
theorem exists_unsettled {drafts resolved : List Draft}
    (h : resolveIndices (uniqueNames drafts) = .ok resolved) :
    ∀ draft ∈ resolved, ∃ original ∈ drafts, ∃ name index,
      draft.argument = { original.argument with name := name, index := index } := by
  have hkept := map_settled (fun draft => { draft.argument with name := "", index := none })
    (fun _ _ => rfl) (fun _ _ => rfl) h
  intro draft hm
  have hdraft : { draft.argument with name := "", index := none } ∈
      drafts.map fun draft => { draft.argument with name := "", index := none } :=
    hkept ▸ List.mem_map_of_mem (f := fun draft =>
      { draft.argument with name := "", index := none }) hm
  obtain ⟨original, horiginal, he⟩ := List.mem_map.mp hdraft
  have hagain := congrArg (fun argument : Argument =>
    { argument with name := draft.argument.name, index := draft.argument.index }) he
  exact ⟨original, horiginal, _, _, hagain.symm⟩

/-- Drafts that are read from blocks, named apart and given their indices have well-formed
arguments, and their ordinals are the places of the blocks. -/
theorem wellFormed_of_ofBlocks {marks : Marks} {dialect : Dialect} {counters after : Counters}
    {blocks : List Block} {drafts resolved : List Draft}
    (h : ofBlocks marks dialect counters 0 blocks = (.ok drafts, after))
    (hr : resolveIndices (uniqueNames drafts) = .ok resolved) :
    ∀ draft ∈ resolved, ∃ block earlier later definition,
      blocks[draft.argument.ordinal]? = some block ∧
        Definition.ofBlock marks dialect earlier block = (.ok definition, later) ∧
        draft.argument.WellFormed definition := by
  have hnames : ∀ name ∈ resolved.map (·.argument.name), name ≠ "" := by
    rw [map_resolveIndices (·.argument.name) (fun _ _ => rfl) hr]
    refine List.forall_mem_map.mpr (name_of_uniqueNamesFrom fun draft hm => ?_)
    obtain ⟨_, _, _, _, definition, hblock, hdraft⟩ := exists_definition h draft hm
    obtain ⟨source, hmade⟩ := ofDefinition_made hdraft
    rw [hmade.name]
    exact Definition.ofBlock_name hblock
  intro draft hm
  have hname : draft.argument.name ≠ "" := hnames _ (List.mem_map_of_mem hm)
  have hindex : draft.argument.index.isSome = draft.argument.flags.isEmpty := by
    have horder := (ofBlocks_ok h).uniqueNames.inDocumentOrder
    rw [(resolveIndices_ok horder hr).index_isSome draft hm, isPositional_settled h hr draft hm,
      Argument.isOption, Bool.not_not]
  obtain ⟨original, horiginal, name, index, he⟩ := exists_unsettled hr draft hm
  rw [he] at hname hindex ⊢
  obtain ⟨earlier, later, block, place, definition, hblock, hordinal, hread, hdraft⟩ :=
    exists_definition_at h original horiginal
  rw [Nat.zero_add] at hordinal
  have hsettled := ofDefinition_settled (Definition.ofBlock_number hread).1
    (Definition.ofBlock_placeholder hread) hdraft
  refine ⟨block, earlier, later, definition, ?_, hread,
    { hsettled with name := hname, index := hindex }⟩
  rw [← hblock, ← hordinal]

end Draft

/-- Arguments of members are those of the drafts that the members are deduced from, with the place
of the member. -/
theorem Member.exists_draft {settings : Settings} {drafts : List Draft} {members : List Member}
    (h : ofDrafts settings drafts = .ok members) :
    ∀ argument ∈ members.flatMap (·.arguments), ∃ draft ∈ drafts, ∃ place,
      argument = { draft.argument with memberIndex := place } := by
  obtain ⟨sorted, hpart, -, rfl⟩ := ofDrafts_ok h
  have hperm := hpart.map_arguments_perm (fun argument => { argument with memberIndex := none })
    fun _ _ => rfl
  intro argument hm
  have hplaced := hperm.mem_iff.mp (List.mem_map_of_mem hm)
  rw [List.map_map] at hplaced
  obtain ⟨draft, hdraft, he⟩ := List.mem_map.mp hplaced
  have hagain := congrArg (fun other : Argument =>
    { other with memberIndex := argument.memberIndex }) he
  exact ⟨draft, hdraft, _, hagain.symm⟩

/-- The arguments of a document that is read are well formed, in every session. -/
theorem Document.read_wellFormed {settings : Settings} {counters after : Counters} {text : String}
    {document : Document} (h : read settings counters text = (.ok document, after)) :
    ∃ marks annotated, settings.marks = .ok marks ∧ Annotated.scan marks text = .ok annotated ∧
      ∀ argument ∈ document.arguments, ∃ block earlier later definition,
        annotated.blocks[argument.ordinal]? = some block ∧
          Definition.ofBlock marks settings.dialect earlier block = (.ok definition, later) ∧
          argument.WellFormed definition := by
  obtain ⟨marks, annotated, drafts, hmarks, hscan, hdrafts, hmembers, -, -⟩ := read_ok h
  obtain ⟨resolved, hresolved, hdeduced⟩ := bind_ok_iff.mp hmembers
  refine ⟨marks, annotated, hmarks, hscan, ?_⟩
  intro argument hm
  obtain ⟨draft, hdraft, place, rfl⟩ :=
    Member.exists_draft hdeduced argument (document.arguments_perm.mem_iff.mp hm)
  obtain ⟨block, earlier, later, definition, hblock, hread, hwell⟩ :=
    Draft.wellFormed_of_ofBlocks hdrafts hresolved draft hdraft
  exact ⟨block, earlier, later, definition, hblock, hread, { hwell with }⟩

/-- Every argument of a document that is parsed is well formed: it belongs to the definition of the
block that has its ordinal, and is settled by that definition, whichever properties are declared
there, declared as empty, implied or missing. -/
theorem Document.parse_wellFormed {settings : Settings} {text : String} {document : Document}
    (h : parse settings text = .ok document) :
    ∃ marks annotated, settings.marks = .ok marks ∧ Annotated.scan marks text = .ok annotated ∧
      ∀ argument ∈ document.arguments, ∃ block earlier later definition,
        annotated.blocks[argument.ordinal]? = some block ∧
          Definition.ofBlock marks settings.dialect earlier block = (.ok definition, later) ∧
          argument.WellFormed definition :=
  read_wellFormed (Prod.ext h rfl)

/-- An option whose flags and whose empty placeholder are declared shares its member with one whose
literal is cut. -/
def declaredText : String :=
  "$\x7b|Flags:-o --out|Meta_Variable:|Value_Type:integer|Member:x\x7d$ " ++
    "$\x7b-c|Value:1;2|Delimiter:;|Member:x\x7d$"

/-- The declared empty placeholder gives way to the standard one, the literal is cut, and both arguments
are well formed for the definitions they come from. -/
theorem Document.parse_wellFormed_declared :
    ∃ document, parse .standard declaredText = .ok document ∧
      document.members.map (fun member => member.arguments.map fun argument =>
        (argument.metaVariable, argument.value)) =
          [[(some "VALUE", none), (none, some ["1", "2"])]] ∧
      ∃ marks annotated, Settings.standard.marks = .ok marks ∧
        Annotated.scan marks declaredText = .ok annotated ∧
        ∀ argument ∈ document.arguments, ∃ block earlier later definition,
          annotated.blocks[argument.ordinal]? = some block ∧
            Definition.ofBlock marks Settings.standard.dialect earlier block =
              (.ok definition, later) ∧
            argument.WellFormed definition := by
  have hread : (parse .standard declaredText).toOption.map (fun document =>
      document.members.map fun member => member.arguments.map fun argument =>
        (argument.metaVariable, argument.value)) =
          some [[(some "VALUE", none), (none, some ["1", "2"])]] := by
    decide +kernel
  obtain ⟨document, hparse, hvalues⟩ := exists_ok_of_toOption hread
  exact ⟨document, hparse, hvalues, parse_wellFormed hparse⟩

end AnnotatedHelp
