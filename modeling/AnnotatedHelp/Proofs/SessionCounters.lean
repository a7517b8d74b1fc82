import Mathlib
import AnnotatedHelp.Proofs.OptionNames
import AnnotatedHelp.Proofs.PositionalIndices

/-!
# Counters of a session and the documents it reads

A session numbers the definitions of all texts it reads. The numbers are seen in two places: in the
names of definitions that have nothing else to be named after, and in the order in which positional
arguments are queued for their indices. Numbers ascend in every document, so the queue is the same
wherever they start. A document whose definitions name themselves is therefore read as on its own,
whatever has been read before it.
-/

namespace AnnotatedHelp

open Outcome Text

namespace Definition

/-- A definition of this shape takes its name or its placeholder from its number. -/
def Shape.FallsBack : Shape → Prop
  | declaredFlags flags => Name.Nameless (words flags.toList)
  | optionText flags _ => Name.Nameless flags
  | positionalText text => text = [] ∨ Name.ofText text = []

instance (shape : Shape) : Decidable shape.FallsBack := by
  cases shape <;> unfold Shape.FallsBack <;> infer_instance

/-- A definition that does not fall back on its number implies the same under every number. -/
theorem Shape.implied_eq {shape : Shape} (h : ¬ shape.FallsBack) (counters other : Counters) :
    shape.implied counters = shape.implied other := by
  cases shape with
  | declaredFlags flags =>
    simp only [Shape.implied, impliedByFlags, Name.ofFlags_eq h counters.options other.options]
  | optionText flags placeholder =>
    simp only [Shape.implied, impliedByOption, Name.ofFlags_eq h counters.options other.options]
  | positionalText text =>
    obtain ⟨htext, hname⟩ := not_or.mp h
    have hplaceholder : ∀ number, Name.placeholder number text = text := by
      intro number
      simp [Name.placeholder, htext]
    have hpositional : Name.ofPositional counters.arguments text =
        Name.ofPositional other.arguments text := by
      rw [Name.ofPositional, Name.ofPositional, hplaceholder, hplaceholder]
      cases hparts : Name.ofText text with
      | nil => exact absurd hparts hname
      | cons c rest => rfl
    rw [Shape.implied, Shape.implied, impliedByPositional, impliedByPositional, hplaceholder,
      hplaceholder, hpositional]

/-- A block whose definition takes its name or its placeholder from its number. -/
def FallsBack (marks : Marks) (dialect : Dialect) (block : Block) : Prop :=
  match Property.readFields dialect (splitAlone marks.separator block.body).tail with
  | .error _ => False
  | .ok declared =>
    match shapeOf declared ((splitAlone marks.separator block.body).headD []) with
    | .error _ => False
    | .ok shape => shape.FallsBack

instance (marks : Marks) (dialect : Dialect) (block : Block) :
    Decidable (FallsBack marks dialect block) := by
  unfold FallsBack
  split
  · infer_instance
  · split <;> infer_instance

/-- The definition without its number; that it has one remains. -/
def anonymous (definition : Definition) : Definition :=
  { definition with number := definition.number.map fun _ => 0 }

/-- A block that does not fall back on its number is read, or refused, alike under every number. -/
theorem ofBlock_anonymous {marks : Marks} {dialect : Dialect} {block : Block}
    (h : ¬ FallsBack marks dialect block) (counters other : Counters) :
    (ofBlock marks dialect other block).1.map anonymous =
      (ofBlock marks dialect counters block).1.map anonymous := by
  unfold FallsBack at h
  unfold ofBlock
  dsimp only
  cases hread : Property.readFields dialect (splitAlone marks.separator block.body).tail with
  | error problem => rfl
  | ok declared =>
    cases hshape : shapeOf declared ((splitAlone marks.separator block.body).headD []) with
    | error problem => simp only [hshape]
    | ok shape =>
      simp only [hread, hshape] at h ⊢
      unfold ofShape
      split
      · rfl
      · rw [Shape.implied_eq h other counters]
        cases shape <;> rfl

end Definition

namespace Draft

/-- The draft without its number; that it has one remains. -/
def anonymous (draft : Draft) : Draft :=
  { draft with number := draft.number.map fun _ => 0 }

/-- The draft of a definition keeps the number and makes no other use of it. -/
theorem ofDefinition_anonymous (ordinal : Nat) (definition : Definition) :
    (ofDefinition ordinal definition).map anonymous = ofDefinition ordinal definition.anonymous := by
  simp only [ofDefinition, map_of_bind]
  rfl

/-- The draft of one block. -/
def ofBlock (marks : Marks) (dialect : Dialect) (counters : Counters) (ordinal : Nat)
    (block : Block) : Except Diagnostic Draft :=
  ((Definition.ofBlock marks dialect counters block).1 >>= ofDefinition ordinal).mapError
    (·.atLines [block.line])

/-- The draft of a block without its number is that of its definition without the number. -/
theorem map_anonymous_ofBlock (marks : Marks) (dialect : Dialect) (counters : Counters)
    (ordinal : Nat) (block : Block) :
    (ofBlock marks dialect counters ordinal block).map anonymous =
      ((Definition.ofBlock marks dialect counters block).1.map Definition.anonymous >>=
        ofDefinition ordinal).mapError (·.atLines [block.line]) := by
  rw [ofBlock, map_mapError, map_of_bind, bind_of_map]
  simp only [ofDefinition_anonymous]

/-- The first of several blocks is read before the others; where it is refused, it leaves the
counters. -/
theorem ofBlocks_cons_eq (marks : Marks) (dialect : Dialect) (counters : Counters) (ordinal : Nat)
    (block : Block) (blocks : List Block) :
    ofBlocks marks dialect counters ordinal (block :: blocks) =
      match ofBlock marks dialect counters ordinal block with
      | .error diagnostic => (.error diagnostic, (Definition.ofBlock marks dialect counters block).2)
      | .ok draft =>
        let rest := ofBlocks marks dialect (Definition.ofBlock marks dialect counters block).2
          (ordinal + 1) blocks
        (rest.1.map (draft :: ·), rest.2) := by
  rw [ofBlocks, ofBlock]
  obtain ⟨read, after⟩ := Definition.ofBlock marks dialect counters block
  cases read with
  | error problem => rfl
  | ok definition =>
    dsimp only
    cases hdraft : ofDefinition ordinal definition with
    | error problem => simp [bind, Except.bind, hdraft, Except.mapError]
    | ok draft =>
      obtain ⟨rest, final⟩ := ofBlocks marks dialect after (ordinal + 1) blocks
      cases rest <;> simp [bind, Except.bind, hdraft, Except.mapError, Except.map]

/-- The drafts of several blocks are that of the first one and those of the others. -/
theorem ofBlocks_cons (marks : Marks) (dialect : Dialect) (counters : Counters) (ordinal : Nat)
    (block : Block) (blocks : List Block) :
    (ofBlocks marks dialect counters ordinal (block :: blocks)).1 =
      ofBlock marks dialect counters ordinal block >>= fun draft =>
        (ofBlocks marks dialect (Definition.ofBlock marks dialect counters block).2 (ordinal + 1)
          blocks).1.map (draft :: ·) := by
  rw [ofBlocks_cons_eq]
  cases ofBlock marks dialect counters ordinal block <;> rfl

/-- A block that does not fall back on its number has the same draft under every number. -/
theorem ofBlock_anonymous {marks : Marks} {dialect : Dialect} {block : Block}
    (h : ¬ Definition.FallsBack marks dialect block) (counters other : Counters) (ordinal : Nat) :
    (ofBlock marks dialect other ordinal block).map anonymous =
      (ofBlock marks dialect counters ordinal block).map anonymous := by
  rw [map_anonymous_ofBlock, map_anonymous_ofBlock,
    Definition.ofBlock_anonymous h counters other]

/-- Several blocks without their numbers are read as the first one and the others are. -/
theorem map_anonymous_ofBlocks_cons (marks : Marks) (dialect : Dialect) (counters : Counters)
    (ordinal : Nat) (block : Block) (blocks : List Block) :
    (ofBlocks marks dialect counters ordinal (block :: blocks)).1.map (·.map anonymous) =
      (ofBlock marks dialect counters ordinal block).map anonymous >>= fun draft =>
        ((ofBlocks marks dialect (Definition.ofBlock marks dialect counters block).2 (ordinal + 1)
          blocks).1.map (·.map anonymous)).map (draft :: ·) := by
  rw [ofBlocks_cons, map_of_bind, bind_of_map]
  congr 1
  funext draft
  cases (ofBlocks marks dialect (Definition.ofBlock marks dialect counters block).2 (ordinal + 1)
    blocks).1 <;> rfl

/-- Of the blocks that are read under the given counters, which ends with the first block that is
refused, none falls back on its number. -/
def NameThemselves (marks : Marks) (dialect : Dialect) (counters : Counters) (ordinal : Nat)
    (blocks : List Block) : Prop :=
  ∀ before block behind drafts, blocks = before ++ block :: behind →
    (ofBlocks marks dialect counters ordinal before).1 = .ok drafts →
      ¬ Definition.FallsBack marks dialect block

/-- Behind a first block that is accepted, the others name themselves. -/
theorem NameThemselves.tail {marks : Marks} {dialect : Dialect} {counters : Counters}
    {ordinal : Nat} {block : Block} {blocks : List Block} {draft : Draft}
    (h : NameThemselves marks dialect counters ordinal (block :: blocks))
    (hread : ofBlock marks dialect counters ordinal block = .ok draft) :
    NameThemselves marks dialect (Definition.ofBlock marks dialect counters block).2 (ordinal + 1)
      blocks := by
  rintro before next behind drafts rfl hbefore
  refine h (block :: before) next behind (draft :: drafts) rfl ?_
  rw [ofBlocks_cons, hread, bind_ok_iff]
  exact ⟨draft, rfl, by rw [hbefore]; rfl⟩

/-- Blocks that name themselves have the same drafts, or the same fault, under all counters. -/
theorem ofBlocks_anonymous {marks : Marks} {dialect : Dialect} {counters : Counters} {ordinal : Nat}
    {blocks : List Block} (h : NameThemselves marks dialect counters ordinal blocks)
    (other : Counters) :
    (ofBlocks marks dialect other ordinal blocks).1.map (·.map anonymous) =
      (ofBlocks marks dialect counters ordinal blocks).1.map (·.map anonymous) := by
  induction blocks generalizing counters other ordinal with
  | nil => rfl
  | cons block blocks ih =>
    have hfirst : ¬ Definition.FallsBack marks dialect block := h [] block blocks [] rfl rfl
    rw [map_anonymous_ofBlocks_cons, map_anonymous_ofBlocks_cons,
      ofBlock_anonymous hfirst counters other]
    cases hread : ofBlock marks dialect counters ordinal block with
    | error diagnostic => rfl
    | ok draft => rw [ih (h.tail hread)]

section Resolution

/-- Anonymous drafts claim the same indices. -/
theorem claimIndices_anonymous (total : Nat) (claims : List (Nat × Nat)) (drafts : List Draft) :
    claimIndices total claims (drafts.map anonymous) = claimIndices total claims drafts := by
  induction drafts generalizing claims with
  | nil => rfl
  | cons draft drafts ih =>
    rw [List.map_cons, claimIndices, claimIndices]
    simp only [ih]
    rfl

/-- Anonymous drafts are assigned the same indices. -/
theorem assignIndices_anonymous (total : Nat) (free : List Nat) (drafts : List Draft) :
    assignIndices total free (drafts.map anonymous) = assignIndices total free drafts := by
  induction drafts generalizing free with
  | nil => rfl
  | cons draft drafts ih =>
    rw [List.map_cons, assignIndices, assignIndices]
    simp only [ih]
    rfl

/-- A draft without its number is positional if the draft is. -/
theorem isPositional_anonymous (draft : Draft) : draft.anonymous.isPositional = draft.isPositional := by
  simp [isPositional, anonymous]

/-- Indices are written into anonymous drafts at the same places. -/
theorem writeInOrder_anonymous (first : Nat) (indices : List (Option Nat)) (drafts : List Draft)
    (h : indices.length = (drafts.filter (·.isPositional)).length) :
    writeInOrder first indices (drafts.map anonymous) =
      (writeInOrder first indices drafts).map anonymous := by
  induction drafts generalizing first indices with
  | nil => rfl
  | cons draft drafts ih =>
    rw [List.map_cons]
    cases hp : draft.isPositional with
    | false =>
      have ha : draft.anonymous.isPositional = false := (isPositional_anonymous draft).trans hp
      rw [writeInOrder_cons_option hp, writeInOrder_cons_option ha, List.map_cons,
        ih (first + 1) indices (by simpa [hp] using h)]
    | true =>
      have ha : draft.anonymous.isPositional = true := (isPositional_anonymous draft).trans hp
      obtain _ | ⟨index, indices⟩ := indices
      · simp [hp] at h
      rw [writeInOrder_cons_positional hp, writeInOrder_cons_positional ha, List.map_cons,
        ih (first + 1) indices (by simpa [hp] using h)]
      rfl

/-- Indices of drafts that stand in document order, without a queue. -/
def placeInOrder (drafts : List Draft) : Except Diagnostic (List Draft) :=
  (claimIndices (positionalCount drafts) [] (drafts.filter (·.isPositional))).map fun claims =>
    writeInOrder 0 (assignIndices (positionalCount drafts)
      (freeIndices (positionalCount drafts) claims) (drafts.filter (·.isPositional))) drafts

/-- Drafts whose numbers ascend are placed in document order. -/
theorem resolveIndices_eq_placeInOrder {drafts : List Draft}
    (h : (drafts.filterMap (·.number)).Pairwise (· < ·)) :
    resolveIndices drafts = placeInOrder drafts := by
  rw [resolveIndices_eq h, placeInOrder]
  cases claimIndices (positionalCount drafts) [] (drafts.filter (·.isPositional)) <;> rfl

/-- The numbers of drafts in document order do not matter to their indices. -/
theorem placeInOrder_anonymous (drafts : List Draft) :
    placeInOrder (drafts.map anonymous) = (placeInOrder drafts).map (·.map anonymous) := by
  have hfilter : (drafts.map anonymous).filter (·.isPositional) =
      (drafts.filter (·.isPositional)).map anonymous := by
    rw [List.filter_map]
    simp only [Function.comp_def, isPositional_anonymous]
  have hcount : positionalCount (drafts.map anonymous) = positionalCount drafts := by
    rw [positionalCount, positionalCount, List.countP_map]
    simp only [Function.comp_def, isPositional_anonymous]
  rw [placeInOrder, placeInOrder, hfilter, hcount, claimIndices_anonymous]
  cases claimIndices (positionalCount drafts) [] (drafts.filter (·.isPositional)) with
  | error diagnostic => rfl
  | ok claims =>
    simp only [Except.map, assignIndices_anonymous]
    rw [writeInOrder_anonymous]
    exact length_assignIndices _ _ _

end Resolution

/-- Names are made to differ without regard to numbers. -/
theorem uniqueNames_anonymous (drafts : List Draft) :
    uniqueNames (drafts.map anonymous) = (uniqueNames drafts).map anonymous := by
  have hfrom : ∀ taken, uniqueNamesFrom taken (drafts.map anonymous) =
      (uniqueNamesFrom taken drafts).map anonymous := by
    induction drafts with
    | nil => exact fun _ => rfl
    | cons draft drafts ih =>
      intro taken
      rw [List.map_cons, uniqueNamesFrom, uniqueNamesFrom, List.map_cons, ← ih]
      rfl
  exact hfrom []

end Draft

/-- A draft is grouped without regard to its number. -/
theorem Group.insert_anonymous (draft : Draft) (groups : List Group) :
    insert draft.anonymous groups = insert draft groups := by
  induction groups with
  | nil => rfl
  | cons group groups ih =>
    rw [insert, insert, ih]
    rfl

namespace Member

/-- Members are deduced without regard to numbers. -/
theorem ofDrafts_anonymous (settings : Settings) (drafts : List Draft) :
    ofDrafts settings (drafts.map Draft.anonymous) = ofDrafts settings drafts := by
  have hgroups : Group.ofDrafts (drafts.map Draft.anonymous) = Group.ofDrafts drafts := by
    simp only [Group.ofDrafts, List.foldlM_map, Group.insert_anonymous]
  rw [ofDrafts, ofDrafts, hgroups]

/-- What is deduced from drafts whose numbers ascend depends on nothing else of their numbers. -/
theorem deduce_eq {drafts : List Draft} (h : (drafts.filterMap (·.number)).Pairwise (· < ·))
    (settings : Settings) :
    deduce settings drafts =
      Draft.placeInOrder (Draft.uniqueNames (drafts.map Draft.anonymous)) >>= ofDrafts settings := by
  have hnumbers : (Draft.uniqueNames drafts).filterMap (·.number) = drafts.filterMap (·.number) := by
    have hkept := Draft.map_uniqueNamesFrom (·.number) (fun _ _ => rfl) [] drafts
    simpa [List.filterMap_map, Draft.uniqueNames] using congrArg (List.filterMap id) hkept
  calc deduce settings drafts
      = Draft.placeInOrder (Draft.uniqueNames drafts) >>= ofDrafts settings := by
        rw [deduce, Draft.resolveIndices_eq_placeInOrder (hnumbers.symm ▸ h)]
    _ = (Draft.placeInOrder (Draft.uniqueNames drafts)).map (·.map Draft.anonymous) >>=
          ofDrafts settings := by
        simp only [bind_of_map, ofDrafts_anonymous]
    _ = Draft.placeInOrder (Draft.uniqueNames (drafts.map Draft.anonymous)) >>=
          ofDrafts settings := by
        rw [Draft.uniqueNames_anonymous, Draft.placeInOrder_anonymous]

/-- What is deduced from blocks depends on their drafts without their numbers. -/
theorem deduce_ofBlocks (settings : Settings) (marks : Marks) (counters : Counters)
    (blocks : List Block) :
    (Draft.ofBlocks marks settings.dialect counters 0 blocks).1 >>= deduce settings =
      (Draft.ofBlocks marks settings.dialect counters 0 blocks).1.map (·.map Draft.anonymous) >>=
        fun drafts => Draft.placeInOrder (Draft.uniqueNames drafts) >>= ofDrafts settings := by
  cases hread : Draft.ofBlocks marks settings.dialect counters 0 blocks with
  | mk result after =>
    cases result with
    | error diagnostic => rfl
    | ok drafts => exact deduce_eq (Draft.ofBlocks_ok hread).inDocumentOrder.numbered settings

end Member

namespace Document

/-- None of the definitions of a text, up to the first one that is refused, falls back on its
number. -/
def NamesItself (settings : Settings) (text : String) : Prop :=
  ∀ marks annotated, settings.marks = .ok marks → Annotated.scan marks text = .ok annotated →
    Draft.NameThemselves marks settings.dialect .zero 0 annotated.blocks

/-- A text that can be scanned is read as the members deduced from its blocks. -/
theorem read_of_scan {settings : Settings} {text : String} {marks : Marks} {annotated : Annotated}
    (hmarks : settings.marks = .ok marks) (hscan : Annotated.scan marks text = .ok annotated)
    (counters : Counters) :
    (read settings counters text).1 =
      ((Draft.ofBlocks marks settings.dialect counters 0 annotated.blocks).1 >>=
        Member.deduce settings).map fun members =>
          ⟨String.ofList annotated.text, members, annotated.visibleLines⟩ := by
  simp only [read, hmarks, hscan]
  obtain ⟨result, after⟩ := Draft.ofBlocks marks settings.dialect counters 0 annotated.blocks
  cases result with
  | error diagnostic => rfl
  | ok drafts => cases hdeduced : Member.deduce settings drafts <;>
      simp [bind, Except.bind, hdeduced, Except.map]

/-- A text that names itself is read as on its own, whatever the counters are. -/
theorem read_eq_parse {settings : Settings} {text : String} (h : NamesItself settings text)
    (counters : Counters) : (read settings counters text).1 = parse settings text := by
  cases hmarks : settings.marks with
  | error problem => simp only [parse, read, hmarks]
  | ok marks =>
    cases hscan : Annotated.scan marks text with
    | error diagnostic => simp only [parse, read, hmarks, hscan]
    | ok annotated =>
      have hsame := Draft.ofBlocks_anonymous (h marks annotated hmarks hscan) counters
      rw [parse, read_of_scan hmarks hscan, read_of_scan hmarks hscan, Member.deduce_ofBlocks,
        Member.deduce_ofBlocks, hsame]

/-- In a sequence of texts, every text that names itself is read as on its own, whatever the texts
before it have used up. The positional arguments of every document have the indices from zero up,
while the counter goes on by their number. -/
theorem readAll_independent (settings : Settings) :
    (∀ counters texts, List.Forall₂
      (fun text result => NamesItself settings text → result.1 = parse settings text)
      texts (readAll settings counters texts)) ∧
    ∀ counters text document after, read settings counters text = (.ok document, after) →
      (document.positionals.map (·.index)).Perm
          ((List.range document.positionals.length).map some) ∧
        after.arguments = counters.arguments + document.positionals.length := by
  refine ⟨?_, fun _ _ _ _ h => read_positionals h⟩
  intro counters texts
  induction texts generalizing counters with
  | nil => exact .nil
  | cons text texts ih => exact .cons (fun h => read_eq_parse h counters) (ih _)

/-- Two positional arguments, the first of which declares the last index, and an option. -/
def selfNamed : String :=
  "$\x7bD | Index: 1\x7d$ $\x7b-v\x7d$ $\x7bE\x7d$"

/-- The first text has a definition without a name of its own, the second one is refused at its
second definition, and the third one names itself. -/
def interrupted : List String :=
  ["$\x7bA\x7d$ $\x7b\x7d$", "$\x7bB\x7d$ $\x7bC | Shape: 1\x7d$", selfNamed]

/-- A text that names itself is read as on its own, although a text was refused before it and numbers
were taken; its positional arguments count from zero. -/
theorem readAll_independent_interrupted :
    ∃ first second third, readAll .standard .zero interrupted = [first, second, third] ∧
      [first.2, second.2, third.2] = [⟨2, 0⟩, ⟨3, 0⟩, ⟨5, 1⟩] ∧
      NamesItself .standard selfNamed ∧ third.1 = parse .standard selfNamed ∧
      ∃ document, third = (.ok document, ⟨5, 1⟩) ∧
        (document.positionals.map (·.index)).Perm [some 0, some 1] := by
  have hcounters : (readAll .standard .zero interrupted).map (·.2) = [⟨2, 0⟩, ⟨3, 0⟩, ⟨5, 1⟩] := by
    decide +kernel
  have hnamed : (Settings.standard.marks.toOption.bind fun marks =>
      (Annotated.scan marks selfNamed).toOption.map fun annotated => annotated.blocks.all fun block =>
        !decide (Definition.FallsBack marks Settings.standard.dialect block)) = some true := by
    decide +kernel
  have hitself : NamesItself .standard selfNamed := by
    intro marks annotated hmarks hscan before block behind drafts hsplit _
    simp only [hmarks, hscan, Except.toOption, Option.bind_some, Option.map_some,
      Option.some.injEq] at hnamed
    have hall := List.all_eq_true.mp hnamed block (by rw [hsplit]; simp)
    simpa using hall
  obtain ⟨hevery, hcounted⟩ := readAll_independent .standard
  obtain ⟨_, hplaces⟩ := List.forall₂_iff_get.mp (hevery .zero interrupted)
  refine ⟨_, _, _, rfl, hcounters, hitself, hplaces 2 (by decide) (by decide) hitself, ?_⟩
  -- Under the counters that the refused text leaves, the third text is accepted.
  simp only [readAll, interrupted, List.map_cons, List.cons.injEq] at hcounters
  rw [hcounters.2.1]
  have hread : (read .standard ⟨3, 0⟩ selfNamed).1.toOption.isSome = true := by decide +kernel
  have hafter : (read .standard ⟨3, 0⟩ selfNamed).2 = ⟨5, 1⟩ := by decide +kernel
  cases h : read .standard ⟨3, 0⟩ selfNamed with
  | mk result after =>
    rw [h] at hread hafter
    cases result with
    | error diagnostic => cases hread
    | ok document =>
      obtain rfl : after = ⟨5, 1⟩ := hafter
      obtain ⟨hperm, hcount⟩ := hcounted _ _ _ _ h
      have htwo : document.positionals.length = 2 := by
        change 5 = 3 + document.positionals.length at hcount
        omega
      rw [htwo] at hperm
      exact ⟨document, rfl, hperm⟩

end Document

end AnnotatedHelp
