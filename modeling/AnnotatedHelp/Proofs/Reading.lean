import Mathlib
import AnnotatedHelp.Session
import AnnotatedHelp.Proofs.Outcome

/-!
# Drafts read from blocks

What a list of drafts keeps of the blocks it was read from. The drafts stand in the order of the
blocks and have their lines; their ordinals count up from the first one, and the positional
arguments among them are numbered from the counter on. No draft has an index or a member yet.
-/

namespace AnnotatedHelp

open Outcome

/-- What a definition keeps of its block, and what it owes to its shape and to the counters. -/
structure Definition.Shaped (counters after : Counters) (block : Block) (definition : Definition)
    (shape : Shape) : Prop where
  /-- The shape is that of the declared properties and of what the block shows. -/
  ofVisible : ∃ visible, shapeOf definition.declared visible = .ok shape
  /-- The line is that of the block. -/
  line : definition.line = block.line
  /-- The name is the implied member name. -/
  name : definition.name = (shape.implied counters .memberName).getD ""
  /-- A positional argument takes the number that the counter shows. -/
  number : definition.number = shape.number counters
  /-- The properties that are not declared are implied by the shape. -/
  implied : definition.implied = shape.implied counters
  /-- The counters go up. -/
  after : after = shape.count counters

/-- A block that is read has a shape from which its definition is put together. -/
theorem Definition.ofBlock_shaped {marks : Marks} {dialect : Dialect} {counters after : Counters}
    {block : Block} {definition : Definition}
    (h : ofBlock marks dialect counters block = (.ok definition, after)) :
    ∃ shape, Shaped counters after block definition shape := by
  unfold ofBlock at h
  dsimp only at h
  split at h
  · cases h
  · split at h
    · cases h
    · next shape hshape =>
      obtain ⟨hd, ha⟩ := Prod.mk.inj h
      unfold ofShape at hd
      split at hd
      · cases hd
      · cases hd
        exact ⟨shape, ⟨_, hshape⟩, rfl, rfl, rfl, rfl, ha.symm⟩

namespace Draft

/-- What a draft owes to its definition, of which it is the `ordinal`-th. What it takes from the
command line, or assigns, is its source. -/
structure Made (ordinal : Nat) (definition : Definition) (source : Source) (draft : Draft) :
    Prop where
  /-- The ordinal is the given one. -/
  ordinal : draft.argument.ordinal = ordinal
  /-- The line is that of the definition. -/
  line : draft.argument.lineNumber = definition.line
  /-- The name is that of the definition. -/
  name : draft.argument.name = definition.name
  /-- The number is that of the definition. -/
  number : draft.number = definition.number
  /-- There is no index yet. -/
  unplaced : draft.argument.index = none
  /-- The flags are read. -/
  flags : readFlags (definition.get .flags) = .ok draft.argument.flags
  /-- The source is read. -/
  takes : Source.ofDefinition definition.isOption (definition.get .value)
    (definition.get .metaVariable) = .ok source
  /-- The placeholder is that of the source. -/
  placeholder : draft.argument.metaVariable = source.placeholder?
  /-- The literal is that of the source, cut at the delimiter. -/
  value : draft.argument.value = valueOf draft.argument.delimiter source
  /-- The delimiter is read, or found in the source. -/
  delimiter : readDelimiter (definition.get .delimiter) source.text.toList
    (definition.get .delimiterCount) = .ok draft.argument.delimiter
  /-- The delimiter count is read, or counted in the source. -/
  delimiterCount : readDelimiterCount draft.argument.delimiter source.text.toList
    (definition.get .delimiterCount) = .ok draft.argument.delimiterCount
  /-- The literal suits the declared kind. -/
  special : checkSpecial draft.member.kind draft.argument.value = .ok ()
  /-- The count is read. -/
  count : readOccurrences definition.isOption (definition.get .count) = .ok draft.argument.count
  /-- The member name is read. -/
  memberName : readMemberName ((definition.get .memberName).getD definition.name) =
    .ok draft.argument.memberName

/-- The draft of a definition is made from it, with some source. -/
theorem ofDefinition_made {ordinal : Nat} {definition : Definition} {draft : Draft}
    (h : ofDefinition ordinal definition = .ok draft) :
    ∃ source, Made ordinal definition source draft := by
  simp only [ofDefinition, bind_ok_iff] at h
  obtain ⟨flags, hflags, source, hsource, delimiter, hdelimiter, delimiterCount, hdelimiterCount, _,
    hspecial, default, _, count, hcount, memberName, hmemberName, values, _, he⟩ := h
  cases he
  exact ⟨source, rfl, rfl, rfl, rfl, rfl, hflags, hsource, rfl, rfl, hdelimiter, hdelimiterCount,
    hspecial, hcount, hmemberName⟩

/-- What a list of drafts read from blocks keeps of the blocks and of the counters before them. -/
structure ReadFrom (counters : Counters) (ordinal : Nat) (blocks : List Block)
    (drafts : List Draft) : Prop where
  /-- The ordinals count up, one for each block. -/
  ordinals : drafts.map (·.argument.ordinal) = List.range' ordinal blocks.length
  /-- Every draft has the line of its block. -/
  lines : drafts.map (·.argument.lineNumber) = blocks.map (·.line)
  /-- The positional arguments are numbered one after another. -/
  numbers : drafts.filterMap (·.number) =
    List.range' counters.arguments (drafts.filterMap (·.number)).length
  /-- No draft has an index. -/
  unplaced : ∀ draft ∈ drafts, draft.argument.index = none

section Blocks

variable {marks : Marks} {dialect : Dialect} {counters after : Counters} {ordinal : Nat}
  {blocks : List Block} {drafts : List Draft}

/-- Blocks that are read begin with one that has a definition and a draft, and the others are read
behind it. -/
theorem ofBlocks_cons_ok {block : Block}
    (h : ofBlocks marks dialect counters ordinal (block :: blocks) = (.ok drafts, after)) :
    ∃ definition middle draft rest,
      Definition.ofBlock marks dialect counters block = (.ok definition, middle) ∧
        ofDefinition ordinal definition = .ok draft ∧
        ofBlocks marks dialect middle (ordinal + 1) blocks = (.ok rest, after) ∧
        drafts = draft :: rest := by
  unfold ofBlocks at h
  split at h
  · cases h
  · next definition middle hd =>
    split at h
    · cases h
    · next draft hn =>
      split at h
      · cases h
      · next rest _ hr =>
        cases h
        exact ⟨definition, middle, draft, rest, hd, hn, hr, rfl⟩

/-- Reading blocks keeps their order and their lines, whatever the counters are at the start. -/
theorem ofBlocks_ok (h : ofBlocks marks dialect counters ordinal blocks = (.ok drafts, after)) :
    ReadFrom counters ordinal blocks drafts := by
  induction blocks generalizing counters ordinal drafts with
  | nil =>
    cases h
    exact ⟨rfl, rfl, rfl, by simp⟩
  | cons block blocks ih =>
    obtain ⟨definition, middle, draft, rest, hd, hn, hr, rfl⟩ := ofBlocks_cons_ok h
    obtain ⟨shape, hshape⟩ := Definition.ofBlock_shaped hd
    obtain ⟨source, hmade⟩ := ofDefinition_made hn
    obtain ⟨ordinals, lines, numbers, unplaced⟩ := ih hr
    refine ⟨?_, ?_, ?_, ?_⟩
    · simp [hmade.ordinal, ordinals, List.range'_succ]
    · simp [hmade.line, hshape.line, lines]
    · have hnum := hmade.number.trans hshape.number
      rw [hshape.after] at numbers
      cases shape <;>
        simpa [hnum, Definition.Shape.number, Definition.Shape.count,
          Counters.nextArgument, Counters.nextOption, List.range'_succ] using numbers
    · intro d hmem
      rcases List.mem_cons.mp hmem with rfl | hmem
      · exact hmade.unplaced
      · exact unplaced d hmem

/-- Every draft read from blocks is made from the definition of one of them, and has its place among
them as ordinal. -/
theorem exists_definition_at
    (h : ofBlocks marks dialect counters ordinal blocks = (.ok drafts, after)) :
    ∀ draft ∈ drafts, ∃ earlier later block place definition,
      blocks[place]? = some block ∧ draft.argument.ordinal = ordinal + place ∧
        Definition.ofBlock marks dialect earlier block = (.ok definition, later) ∧
        ofDefinition (ordinal + place) definition = .ok draft := by
  induction blocks generalizing counters ordinal drafts with
  | nil =>
    cases h
    simp
  | cons block blocks ih =>
    obtain ⟨definition, middle, draft, rest, hd, hn, hr, rfl⟩ := ofBlocks_cons_ok h
    obtain ⟨source, hmade⟩ := ofDefinition_made hn
    refine List.forall_mem_cons.mpr ⟨⟨_, _, _, 0, _, rfl, hmade.ordinal, hd, hn⟩, ?_⟩
    intro other hm
    obtain ⟨_, _, found, place, _, hfound, hordinal, hread, hdraft⟩ := ih hr other hm
    have hplace : ordinal + 1 + place = ordinal + (place + 1) := by omega
    rw [hplace] at hordinal hdraft
    exact ⟨_, _, found, place + 1, _, hfound, hordinal, hread, hdraft⟩

/-- Every draft read from blocks is made from the definition of one of them. -/
theorem exists_definition
    (h : ofBlocks marks dialect counters ordinal blocks = (.ok drafts, after)) :
    ∀ draft ∈ drafts, ∃ earlier later block place definition,
      Definition.ofBlock marks dialect earlier block = (.ok definition, later) ∧
        ofDefinition place definition = .ok draft := by
  intro draft hm
  obtain ⟨_, _, _, _, _, _, _, hread, hdraft⟩ := exists_definition_at h draft hm
  exact ⟨_, _, _, _, _, hread, hdraft⟩

end Blocks

/-- Making names differ changes nothing but names. -/
theorem map_uniqueNamesFrom {α : Type} (f : Draft → α)
    (hf : ∀ taken draft, f (rename taken draft) = f draft) (taken : List String)
    (drafts : List Draft) : (uniqueNamesFrom taken drafts).map f = drafts.map f := by
  induction drafts generalizing taken with
  | nil => rfl
  | cons draft drafts ih => simp [uniqueNamesFrom, hf, ih]

/-- Drafts whose names are made to differ are still those of their blocks. -/
theorem ReadFrom.uniqueNames {counters : Counters} {ordinal : Nat} {blocks : List Block}
    {drafts : List Draft} (h : ReadFrom counters ordinal blocks drafts) :
    ReadFrom counters ordinal blocks (uniqueNames drafts) := by
  have ho := map_uniqueNamesFrom (·.argument.ordinal) (fun _ _ => rfl) [] drafts
  have hl := map_uniqueNamesFrom (·.argument.lineNumber) (fun _ _ => rfl) [] drafts
  have hi := map_uniqueNamesFrom (·.argument.index) (fun _ _ => rfl) [] drafts
  have hn : (Draft.uniqueNames drafts).filterMap (·.number) = drafts.filterMap (·.number) := by
    have hm := map_uniqueNamesFrom (·.number) (fun _ _ => rfl) [] drafts
    have := congrArg (List.filterMap id) hm
    simpa [List.filterMap_map, Draft.uniqueNames] using this
  refine ⟨ho.trans h.ordinals, hl.trans h.lines, hn ▸ h.numbers, ?_⟩
  intro draft hmem
  have : draft.argument.index ∈ drafts.map (·.argument.index) :=
    hi ▸ List.mem_map_of_mem (f := (·.argument.index)) hmem
  obtain ⟨other, hother, he⟩ := List.mem_map.mp this
  exact he ▸ h.unplaced other hother

end Draft

/-- A document that is read has the members deduced from the drafts of its blocks. -/
theorem Document.read_ok {settings : Settings} {counters after : Counters} {text : String}
    {document : Document} (h : read settings counters text = (.ok document, after)) :
    ∃ marks annotated drafts,
      settings.marks = .ok marks ∧ Annotated.scan marks text = .ok annotated ∧
        Draft.ofBlocks marks settings.dialect counters 0 annotated.blocks = (.ok drafts, after) ∧
        Member.deduce settings drafts = .ok document.members ∧
        document.text = String.ofList annotated.text ∧
        document.definitionLines = annotated.visibleLines := by
  unfold read at h
  split at h
  · cases h
  · next marks hmarks =>
    split at h
    · cases h
    · next annotated hscan =>
      split at h
      · cases h
      · next drafts middle hdrafts =>
        split at h
        · cases h
        · next members hmembers =>
          cases h
          exact ⟨marks, annotated, drafts, hmarks, hscan, hdrafts, hmembers, rfl, rfl⟩

end AnnotatedHelp
