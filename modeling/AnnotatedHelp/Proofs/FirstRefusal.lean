import Mathlib
import AnnotatedHelp.Proofs.SessionCounters

/-!
# The first definition that is refused

Definitions are read in document order before anything is asked of them together, and the first one
that is refused ends the reading. So what is reported depends on the definitions up to that one, and
neither on those behind it nor on indices and members. The counters keep what has been numbered: all
definitions that were accepted, and the refused one if its fields were in order and its flags could
be told apart.
-/

namespace AnnotatedHelp

open Outcome Text

/-- The counters behind definitions that are accepted as these drafts. -/
def Counters.behind (counters : Counters) (drafts : List Draft) : Counters :=
  ⟨counters.arguments + drafts.countP (!·.argument.isOption),
    counters.options + drafts.countP (·.argument.isOption)⟩

/-- No draft leaves the counters as they are. -/
@[simp] theorem Counters.behind_nil (counters : Counters) : counters.behind [] = counters := rfl

/-- Drafts are counted one after another. -/
theorem Counters.behind_cons (counters : Counters) (draft : Draft) (drafts : List Draft) :
    counters.behind (draft :: drafts) = (counters.behind [draft]).behind drafts := by
  simp only [behind, List.countP_cons, List.countP_nil, Counters.mk.injEq]
  omega

namespace Definition

/-- The shape of the definition in a block: its fields are checked and its flags told apart. -/
def shapeOfBlock (marks : Marks) (dialect : Dialect) (block : Block) : Except Problem Shape := do
  let fields := splitAlone marks.separator block.body
  let declared ← Property.readFields dialect fields.tail
  shapeOf declared (fields.headD [])

/-- A definition is counted, as an option or as a positional argument, exactly when it has a
shape. -/
theorem ofBlock_counters (marks : Marks) (dialect : Dialect) (counters : Counters) (block : Block) :
    (ofBlock marks dialect counters block).2 =
      match shapeOfBlock marks dialect block with
      | .error _ => counters
      | .ok shape => shape.count counters := by
  unfold ofBlock shapeOfBlock
  dsimp only
  cases hread : Property.readFields dialect (splitAlone marks.separator block.body).tail with
  | error problem => rfl
  | ok declared =>
    simp only [bind, Except.bind]
    cases shapeOf declared ((splitAlone marks.separator block.body).headD []) <;> rfl

end Definition

namespace Draft

variable {marks : Marks} {dialect : Dialect} {counters : Counters} {ordinal : Nat} {block : Block}
  {blocks : List Block} {draft : Draft} {drafts : List Draft} {problem : Problem}
  {diagnostic : Diagnostic}

/-- The definition of a block is refused because of a problem, when it is read or when its draft is
made. -/
def Refuses (marks : Marks) (dialect : Dialect) (counters : Counters) (ordinal : Nat)
    (block : Block) (problem : Problem) : Prop :=
  ((Definition.ofBlock marks dialect counters block).1 >>= ofDefinition ordinal) = .error problem

/-- The definitions of blocks are accepted as these drafts, each numbered behind the ones before
it. -/
inductive Accepted (marks : Marks) (dialect : Dialect) :
    Counters → (ordinal : Nat) → List Block → List Draft → Prop
  /-- Nothing is read. -/
  | nil {counters : Counters} {ordinal : Nat} : Accepted marks dialect counters ordinal [] []
  /-- A definition is accepted, and so are those behind it. -/
  | cons {counters : Counters} {ordinal : Nat} {block : Block} {blocks : List Block} {draft : Draft}
      {drafts : List Draft} :
      ofBlock marks dialect counters ordinal block = .ok draft →
      Accepted marks dialect (counters.behind [draft]) (ordinal + 1) blocks drafts →
      Accepted marks dialect counters ordinal (block :: blocks) (draft :: drafts)

/-- A block whose definition is refused is reported at its line. -/
theorem ofBlock_error_iff :
    ofBlock marks dialect counters ordinal block = .error diagnostic ↔
      ∃ problem, Refuses marks dialect counters ordinal block problem ∧
        diagnostic = problem.atLines [block.line] := by
  rw [ofBlock]
  unfold Refuses
  cases ((Definition.ofBlock marks dialect counters block).1 >>= ofDefinition ordinal) <;>
    simp [Except.mapError, eq_comm]

/-- Behind a block that is accepted, its draft is counted. -/
theorem counters_of_ofBlock (h : ofBlock marks dialect counters ordinal block = .ok draft) :
    (Definition.ofBlock marks dialect counters block).2 = counters.behind [draft] := by
  obtain ⟨definition, hread, hdraft⟩ := bind_ok_iff.mp (mapError_ok_iff.mp h)
  have hblock : Definition.ofBlock marks dialect counters block =
      (.ok definition, (Definition.ofBlock marks dialect counters block).2) := Prod.ext hread rfl
  obtain ⟨shape, hshape⟩ := Definition.ofBlock_shaped hblock
  have hsort := (Definition.ofBlock_number hblock).1
  rw [← ofDefinition_isOption hdraft, hshape.number] at hsort
  have hoption : draft.argument.isOption = !(shape.number counters).isSome := by
    rw [hsort, Bool.not_not]
  rw [hshape.after, Counters.behind, List.countP_singleton, List.countP_singleton, hoption]
  cases shape <;> rfl

/-- Blocks that are accepted are read before those that stand behind them. -/
theorem Accepted.ofBlocks_append (h : Accepted marks dialect counters ordinal blocks drafts)
    (others : List Block) :
    ofBlocks marks dialect counters ordinal (blocks ++ others) =
      let rest := ofBlocks marks dialect (counters.behind drafts) (ordinal + blocks.length) others
      (rest.1.map (drafts ++ ·), rest.2) := by
  induction h with
  | nil =>
    rw [List.nil_append, Counters.behind_nil, List.length_nil, Nat.add_zero]
    obtain ⟨rest, after⟩ := ofBlocks marks dialect _ _ others
    cases rest <;> rfl
  | @cons counters ordinal block blocks draft drafts hdraft _ ih =>
    rw [List.cons_append, ofBlocks_cons_eq, hdraft, counters_of_ofBlock hdraft, ih,
      Counters.behind_cons counters draft drafts, List.length_cons, Nat.add_right_comm]
    obtain ⟨rest, after⟩ := ofBlocks marks dialect _ _ others
    cases rest <;> rfl

/-- Blocks that are accepted have their drafts, and the drafts are counted. -/
theorem Accepted.ofBlocks (h : Accepted marks dialect counters ordinal blocks drafts) :
    ofBlocks marks dialect counters ordinal blocks = (.ok drafts, counters.behind drafts) := by
  have happend := h.ofBlocks_append []
  rw [List.append_nil] at happend
  simpa [Draft.ofBlocks, Except.map] using happend

/-- A block that is refused behind blocks that are accepted is reported, whatever stands behind
it. -/
theorem Accepted.ofBlocks_refused (h : Accepted marks dialect counters ordinal blocks drafts)
    (hrefused : Refuses marks dialect (counters.behind drafts) (ordinal + blocks.length) block
      problem) (others : List Block) :
    Draft.ofBlocks marks dialect counters ordinal (blocks ++ block :: others) =
      (.error (problem.atLines [block.line]),
        (Definition.ofBlock marks dialect (counters.behind drafts) block).2) := by
  rw [h.ofBlocks_append, ofBlocks_cons_eq, ofBlock_error_iff.mpr ⟨problem, hrefused, rfl⟩]
  rfl

/-- Of any blocks, all are accepted, or one is the first that is refused. -/
theorem accepted_or_refused (marks : Marks) (dialect : Dialect) (counters : Counters)
    (ordinal : Nat) (blocks : List Block) :
    (∃ drafts, Accepted marks dialect counters ordinal blocks drafts) ∨
      ∃ before block behind drafts problem, blocks = before ++ block :: behind ∧
        Accepted marks dialect counters ordinal before drafts ∧
        Refuses marks dialect (counters.behind drafts) (ordinal + before.length) block problem := by
  induction blocks generalizing counters ordinal with
  | nil => exact .inl ⟨[], .nil⟩
  | cons block blocks ih =>
    cases hdraft : ofBlock marks dialect counters ordinal block with
    | error diagnostic =>
      obtain ⟨problem, hrefused, -⟩ := ofBlock_error_iff.mp hdraft
      exact .inr ⟨[], block, blocks, [], problem, rfl, .nil, hrefused⟩
    | ok draft =>
      rcases ih (counters.behind [draft]) (ordinal + 1) with ⟨drafts, hall⟩ |
        ⟨before, refused, behind, drafts, problem, rfl, hbefore, hrefused⟩
      · exact .inl ⟨draft :: drafts, .cons hdraft hall⟩
      · refine .inr ⟨block :: before, refused, behind, draft :: drafts, problem, rfl,
          .cons hdraft hbefore, ?_⟩
        -- The refused block has the counters and the ordinal behind the first block and `before`.
        rw [Counters.behind_cons, List.length_cons, ← Nat.add_assoc, Nat.add_right_comm]
        exact hrefused

end Draft

namespace Document

/-- A text that can be scanned leaves the counters that its blocks leave, whether members can be
deduced from them or not. -/
theorem counters_of_scan {settings : Settings} {text : String} {marks : Marks}
    {annotated : Annotated} (hmarks : settings.marks = .ok marks)
    (hscan : Annotated.scan marks text = .ok annotated) (counters : Counters) :
    (read settings counters text).2 =
      (Draft.ofBlocks marks settings.dialect counters 0 annotated.blocks).2 := by
  simp only [read, hmarks, hscan]
  obtain ⟨result, after⟩ := Draft.ofBlocks marks settings.dialect counters 0 annotated.blocks
  cases result with
  | error diagnostic => rfl
  | ok drafts => cases hdeduced : Member.deduce settings drafts <;> simp only [hdeduced]

/-- Settings and texts that cannot be used leave the counters as they are. Of the definitions of a
text, the first one that is refused is reported, at its line and with its problem, whatever stands
behind it; the definitions before it are counted, and it is counted itself exactly when its fields
are in order and its flags can be told apart. Where no definition is refused all of them are
counted, also when the text is refused after that. One of the two is always the case. -/
theorem read_firstRefusal (settings : Settings) (counters : Counters) (text : String) :
    (∀ problem, settings.marks = .error problem →
      read settings counters text = (.error (Problem.unusableSettings problem).diagnostic, counters)) ∧
    ∀ marks, settings.marks = .ok marks →
      (∀ diagnostic, Annotated.scan marks text = .error diagnostic →
        read settings counters text = (.error diagnostic, counters)) ∧
      ∀ annotated, Annotated.scan marks text = .ok annotated →
        (∀ before block behind drafts problem, annotated.blocks = before ++ block :: behind →
          Draft.Accepted marks settings.dialect counters 0 before drafts →
          Draft.Refuses marks settings.dialect (counters.behind drafts) before.length block problem →
            read settings counters text = (.error (problem.atLines [block.line]),
              match Definition.shapeOfBlock marks settings.dialect block with
              | .error _ => counters.behind drafts
              | .ok shape => shape.count (counters.behind drafts))) ∧
        (∀ drafts, Draft.Accepted marks settings.dialect counters 0 annotated.blocks drafts →
          (read settings counters text).2 = counters.behind drafts) ∧
        ((∃ drafts, Draft.Accepted marks settings.dialect counters 0 annotated.blocks drafts) ∨
          ∃ before block behind drafts problem, annotated.blocks = before ++ block :: behind ∧
            Draft.Accepted marks settings.dialect counters 0 before drafts ∧
            Draft.Refuses marks settings.dialect (counters.behind drafts) before.length block
              problem) := by
  constructor
  · intro problem hmarks
    simp only [read, hmarks]
  intro marks hmarks
  refine ⟨fun diagnostic hscan => by simp only [read, hmarks, hscan], fun annotated hscan => ?_⟩
  refine ⟨?_, ?_, by simpa using
    Draft.accepted_or_refused marks settings.dialect counters 0 annotated.blocks⟩
  · intro before block behind drafts problem hsplit hbefore hrefused
    have hblocks := hbefore.ofBlocks_refused (by rwa [Nat.zero_add]) behind
    rw [← hsplit, Definition.ofBlock_counters] at hblocks
    simp only [read, hmarks, hscan, hblocks]
  · intro drafts hall
    rw [counters_of_scan hmarks hscan, hall.ofBlocks]

/-- An index that is out of range, an option, an option that may not declare an index, and a
definition with an unknown property. -/
def crowdedFaults : String :=
  "$\x7bA | Index: 7\x7d$\n$\x7b-v\x7d$\n$\x7b-x | Index: 0\x7d$\n$\x7bB | Shape: 1\x7d$"

/-- The third definition ends the reading, though the first one is at fault in the document and the
fourth one for itself; it has taken a number. -/
theorem read_firstRefusal_third :
    ∃ marks annotated before block behind drafts,
      Settings.standard.marks = .ok marks ∧ Annotated.scan marks crowdedFaults = .ok annotated ∧
      annotated.blocks = before ++ block :: behind ∧
      Draft.Accepted marks .classic ⟨4, 5⟩ 0 before drafts ∧
      Draft.Refuses marks .classic (Counters.behind ⟨4, 5⟩ drafts) before.length block
        .indexOfOption ∧
      read .standard ⟨4, 5⟩ crowdedFaults =
        (.error (Problem.indexOfOption.atLines [3]), ⟨5, 7⟩) := by
  let marks : Marks :=
    ⟨⟨"$\x7b".toList, by decide⟩, ⟨"\x7d$".toList, by decide⟩, ⟨"|".toList, by decide⟩⟩
  have hmarks : Settings.standard.marks = .ok marks := by decide +kernel
  have hscan : (Annotated.scan marks crowdedFaults).toOption.map (·.blocks) =
      some [⟨1, "A | Index: 7".toList⟩, ⟨2, "-v".toList⟩, ⟨3, "-x | Index: 0".toList⟩,
        ⟨4, "B | Shape: 1".toList⟩] := by decide +kernel
  have hfirst : (Draft.ofBlock marks .classic ⟨4, 5⟩ 0 ⟨1, "A | Index: 7".toList⟩).toOption.map
      (·.argument.isOption) = some false := by decide +kernel
  have hsecond : (Draft.ofBlock marks .classic ⟨5, 5⟩ 1 ⟨2, "-v".toList⟩).toOption.map
      (·.argument.isOption) = some true := by decide +kernel
  have hthird : Draft.Refuses marks .classic ⟨5, 6⟩ 2 ⟨3, "-x | Index: 0".toList⟩ .indexOfOption := by
    unfold Draft.Refuses
    decide +kernel
  obtain ⟨annotated, hscan, hblocks⟩ := exists_ok_of_toOption hscan
  obtain ⟨first, hfirst, hpositional⟩ := exists_ok_of_toOption hfirst
  obtain ⟨second, hsecond, hoption⟩ := exists_ok_of_toOption hsecond
  have hone : Counters.behind ⟨4, 5⟩ [first] = ⟨5, 5⟩ := by simp [Counters.behind, hpositional]
  have htwo : Counters.behind ⟨4, 5⟩ [first, second] = ⟨5, 6⟩ := by
    simp [Counters.behind, hpositional, hoption]
  have hbefore : Draft.Accepted marks .classic ⟨4, 5⟩ 0
      [⟨1, "A | Index: 7".toList⟩, ⟨2, "-v".toList⟩] [first, second] :=
    .cons hfirst (.cons (hone ▸ hsecond) .nil)
  have hrefused := htwo ▸ hthird
  refine ⟨marks, annotated, _, _, _, _, hmarks, hscan, hblocks, hbefore, hrefused, ?_⟩
  have hread := (((read_firstRefusal .standard ⟨4, 5⟩ crowdedFaults).2 marks hmarks).2 annotated
    hscan).1 _ _ _ _ _ hblocks hbefore hrefused
  rw [hread, htwo]
  decide +kernel

end Document

end AnnotatedHelp
