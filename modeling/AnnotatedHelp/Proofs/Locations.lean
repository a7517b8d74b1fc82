import Mathlib
import AnnotatedHelp.Proofs.FirstRefusal
import AnnotatedHelp.Proofs.MemberDeduction
import AnnotatedHelp.Proofs.ScanningSteps

/-!
# Where a text is at fault

Problems are found without their place, and get it from whoever knows the definitions they concern:
the scanner, the reader of one block, the search for indices, the groups and their members. Every
diagnostic of a text therefore names the lines of those definitions, in ascending order. Only that a
help member is missing concerns no definition, and names no line.
-/

namespace AnnotatedHelp

open Outcome Text

namespace Diagnostic

variable {line other : Nat} {lines : List Nat}

/-- Inserting a line adds this line and no other. -/
theorem mem_insertLine : other ∈ insertLine line lines ↔ other = line ∨ other ∈ lines := by
  induction lines with
  | nil => simp [insertLine]
  | cons first rest ih =>
    rw [insertLine]
    split
    · simp
    · split
      · next heq => simp [heq]
      · rw [List.mem_cons, ih, List.mem_cons]
        tauto

/-- A line is inserted where it keeps the order. -/
theorem insertLine_ascending (h : lines.Pairwise (· < ·)) :
    (insertLine line lines).Pairwise (· < ·) := by
  induction lines with
  | nil => simp [insertLine]
  | cons first rest ih =>
    obtain ⟨hfirst, hrest⟩ := List.pairwise_cons.mp h
    rw [insertLine]
    split
    · next hlt =>
      refine List.pairwise_cons.mpr ⟨?_, h⟩
      exact List.forall_mem_cons.mpr ⟨hlt, fun later hm => hlt.trans (hfirst later hm)⟩
    · split
      · exact h
      · next hge hne =>
        refine List.pairwise_cons.mpr ⟨fun later hm => ?_, ih hrest⟩
        rcases mem_insertLine.mp hm with rfl | hm
        · omega
        · exact hfirst later hm

/-- The lines of a diagnostic ascend once lines have been added. -/
theorem withLines_ascending (lines : List Nat) (diagnostic : Diagnostic) :
    (diagnostic.withLines lines).lines.Pairwise (· < ·) := by
  change ((diagnostic.lines ++ lines).foldr insertLine []).Pairwise (· < ·)
  induction diagnostic.lines ++ lines with
  | nil => exact .nil
  | cons line lines ih => exact insertLine_ascending ih

/-- Adding lines to a diagnostic keeps those it has. -/
theorem mem_withLines {diagnostic : Diagnostic} :
    line ∈ (diagnostic.withLines lines).lines ↔ line ∈ diagnostic.lines ∨ line ∈ lines := by
  rw [← List.mem_append]
  change line ∈ (diagnostic.lines ++ lines).foldr insertLine [] ↔ _
  induction diagnostic.lines ++ lines with
  | nil => simp
  | cons first rest ih => rw [List.foldr_cons, mem_insertLine, ih, List.mem_cons]

end Diagnostic

/-- A problem that is placed at lines has these lines. -/
theorem Problem.mem_atLines {problem : Problem} {line : Nat} {lines : List Nat} :
    line ∈ (problem.atLines lines).lines ↔ line ∈ lines := by
  rw [atLines, Diagnostic.mem_withLines]
  exact or_iff_right List.not_mem_nil

/-- The lines of the drafts of one member. -/
def Draft.memberLines (name : String) (drafts : List Draft) : List Nat :=
  (drafts.filter (·.argument.memberName == name)).map (·.argument.lineNumber)

namespace Group

/-- Why a draft cannot join the group of its member. -/
inductive Rejects (group : Group) (draft : Draft) : Problem → Prop
  /-- One is an option and the other a positional argument. -/
  | mixed {argument : Argument} : argument ∈ group.arguments →
      argument.isOption ≠ draft.argument.isOption → Rejects group draft (.mixedMember group.name)
  /-- They declare different values of a property. -/
  | differing {problem : Problem} :
      mergeProperties group.name group.properties draft.member = .error problem →
      Rejects group draft problem

/-- A group that has gathered drafts has the lines of the drafts of its member. -/
theorem lineNumbers_eq {drafts : List Draft} {groups : List Group} {group : Group}
    (h : Gathered drafts groups) (hm : group ∈ groups) :
    group.lineNumbers = Draft.memberLines group.name drafts := by
  have howned : group.arguments = (drafts.map (·.argument)).filter (·.memberName == group.name) :=
    h.partition.owned _ (List.mem_map_of_mem hm)
  rw [lineNumbers, howned, List.filter_map, List.map_map]
  rfl

/-- A draft that cannot join a group is reported with the lines of the group and its own. -/
theorem add_error {group : Group} {draft : Draft} {diagnostic : Diagnostic}
    (h : group.add draft = .error diagnostic) :
    ∃ problem, group.Rejects draft problem ∧
      diagnostic = problem.atLines (group.lineNumbers ++ [draft.argument.lineNumber]) := by
  unfold add at h
  simp only [List.map_append, List.map_singleton] at h
  split at h
  · next hmixed =>
    cases h
    cases hfirst : group.arguments.head? with
    | none => simp [hfirst] at hmixed
    | some argument =>
      refine ⟨_, .mixed (List.mem_of_mem_head? hfirst) ?_, rfl⟩
      simpa [hfirst] using hmixed
  · split at h
    · next problem hmerge =>
      cases h
      exact ⟨problem, .differing hmerge, rfl⟩
    · cases h

/-- A draft that cannot be grouped cannot join the group of its member. -/
theorem insert_error {draft : Draft} {groups : List Group} {diagnostic : Diagnostic}
    (h : insert draft groups = .error diagnostic) :
    ∃ group ∈ groups, group.name = draft.argument.memberName ∧
      group.add draft = .error diagnostic := by
  induction groups with
  | nil => cases h
  | cons group groups ih =>
    rw [insert] at h
    split at h
    · next hname =>
      rcases bind_error_iff.mp h with hadd | ⟨_, -, hok⟩
      · exact ⟨group, List.mem_cons_self, hname, hadd⟩
      · cases hok
    · rcases bind_error_iff.mp h with hrest | ⟨_, -, hok⟩
      · obtain ⟨other, hm, hother⟩ := ih hrest
        exact ⟨other, List.mem_cons_of_mem group hm, hother⟩
      · cases hok

/-- Drafts that cannot be grouped behind others begin with some that can, followed by one that
cannot. -/
theorem foldlM_insert_error {earlier drafts : List Draft} {groups : List Group}
    {diagnostic : Diagnostic} (hg : Gathered earlier groups)
    (h : drafts.foldlM (fun groups draft => insert draft groups) groups = .error diagnostic) :
    ∃ before draft after reached, drafts = before ++ draft :: after ∧
      Gathered (earlier ++ before) reached ∧ insert draft reached = .error diagnostic := by
  induction drafts generalizing earlier groups with
  | nil => cases h
  | cons draft drafts ih =>
    rw [List.foldlM_cons] at h
    rcases bind_error_iff.mp h with hfirst | ⟨next, hnext, hrest⟩
    · exact ⟨[], draft, drafts, groups, rfl, by simpa using hg, hfirst⟩
    · obtain ⟨before, other, after, reached, rfl, hreached, hother⟩ :=
        ih (insert_gathered hg hnext) hrest
      exact ⟨draft :: before, other, after, reached, rfl, by simpa using hreached, hother⟩

/-- Of drafts that cannot be grouped, one cannot join the group of those of its member before it, and
the report names the lines of all of these. -/
theorem ofDrafts_error {drafts : List Draft} {diagnostic : Diagnostic}
    (h : ofDrafts drafts = .error diagnostic) :
    ∃ before draft after groups group problem, drafts = before ++ draft :: after ∧
      Gathered before groups ∧ group ∈ groups ∧ group.name = draft.argument.memberName ∧
      group.Rejects draft problem ∧
      diagnostic = problem.atLines (Draft.memberLines group.name (before ++ [draft])) := by
  obtain ⟨before, draft, after, groups, rfl, hg, hinsert⟩ := foldlM_insert_error gathered_nil h
  rw [List.nil_append] at hg
  obtain ⟨group, hm, hname, hadd⟩ := insert_error hinsert
  obtain ⟨problem, hrejects, rfl⟩ := add_error hadd
  have hlines : group.lineNumbers ++ [draft.argument.lineNumber] =
      Draft.memberLines group.name (before ++ [draft]) := by
    rw [lineNumbers_eq hg hm]
    simp [Draft.memberLines, hname]
  exact ⟨before, draft, after, groups, group, problem, rfl, hg, hm, hname, hrejects, by rw [hlines]⟩

end Group

namespace Member

variable {settings : Settings} {drafts : List Draft} {diagnostic : Diagnostic}

/-- Why members cannot be deduced from drafts. The lines are those of the drafts of one member. -/
inductive Fault (rule : DefaultRule) (drafts : List Draft) : Diagnostic → Prop
  /-- A draft cannot join the group of its member; the drafts behind it do not matter. -/
  | rejected {before after : List Draft} {draft : Draft} {groups : List Group} {group : Group}
      {problem : Problem} :
      drafts = before ++ draft :: after → Gathered before groups → group ∈ groups →
      group.name = draft.argument.memberName → group.Rejects draft problem →
      Fault rule drafts (problem.atLines (Draft.memberLines group.name (before ++ [draft])))
  /-- A group has no member. -/
  | undeduced {groups : List Group} {group : Group} {problem : Problem} :
      Gathered drafts groups → group ∈ groups → group.member rule = .error problem →
      Fault rule drafts (problem.atLines (Draft.memberLines group.name drafts))

/-- Drafts that cannot be grouped are refused because of the drafts of one member. -/
theorem fault_of_ofDrafts_error (rule : DefaultRule) (h : Group.ofDrafts drafts = .error diagnostic) :
    Fault rule drafts diagnostic := by
  obtain ⟨before, draft, after, groups, group, problem, rfl, hg, hm, hname, hrejects, rfl⟩ :=
    Group.ofDrafts_error h
  exact .rejected rfl hg hm hname hrejects

/-- Drafts whose members cannot be deduced are refused because of the drafts of one member, or
because a help member is required and missing. -/
theorem fault_of_error (h : ofDrafts settings drafts = .error diagnostic) :
    Fault settings.defaultRule drafts diagnostic ∨
      settings.requireHelp = true ∧ diagnostic = Problem.noHelp.diagnostic := by
  rcases bind_error_iff.mp h with hgroups | ⟨groups, hgroups, h⟩
  · exact .inl (fault_of_ofDrafts_error _ hgroups)
  rcases bind_error_iff.mp h with hmembers | ⟨members, -, h⟩
  · obtain ⟨group, hm, hfault⟩ := exists_of_mapM_error hmembers
    obtain ⟨problem, hmember, rfl⟩ := mapError_error_iff.mp hfault
    have hg := Group.ofDrafts_gathered hgroups
    rw [Group.lineNumbers_eq hg hm]
    exact .inl (.undeduced hg hm hmember)
  rcases bind_error_iff.mp h with hhelp | ⟨_, -, hok⟩
  · rw [checkHelp] at hhelp
    split at hhelp
    · next hmissing =>
      cases hhelp
      exact .inr ⟨(Bool.and_eq_true_iff.mp hmissing).1, rfl⟩
    · cases hhelp
  · cases hok

/-- A fault of members has lines, and they are lines of drafts. -/
theorem Fault.lines {rule : DefaultRule} (h : Fault rule drafts diagnostic) :
    diagnostic.lines ≠ [] ∧ diagnostic.lines.Pairwise (· < ·) ∧
      ∀ line ∈ diagnostic.lines, line ∈ drafts.map (·.argument.lineNumber) := by
  have hmember : ∀ name drafts, ∀ line ∈ Draft.memberLines name drafts,
      line ∈ drafts.map (·.argument.lineNumber) := by
    intro name drafts line hm
    exact (List.filter_sublist.map _).mem hm
  cases h with
  | @rejected before after draft groups group problem hsplit hg hm hname hrejects =>
    have hown : draft.argument.lineNumber ∈ Draft.memberLines group.name (before ++ [draft]) := by
      simp [Draft.memberLines, hname]
    refine ⟨List.ne_nil_of_mem (Problem.mem_atLines.mpr hown), Diagnostic.withLines_ascending _ _,
      fun line hline => ?_⟩
    have hline := hmember _ _ line (Problem.mem_atLines.mp hline)
    rw [hsplit, List.append_cons, List.map_append]
    exact List.mem_append_left _ hline
  | @undeduced groups group problem hg hm hfault =>
    have hinhabited : group.arguments ≠ [] := hg.partition.inhabited _ (List.mem_map_of_mem hm)
    obtain ⟨argument, hfirst⟩ := List.exists_mem_of_ne_nil _ hinhabited
    have hown : argument.lineNumber ∈ Draft.memberLines group.name drafts := by
      rw [← Group.lineNumbers_eq hg hm]
      exact List.mem_map_of_mem hfirst
    exact ⟨List.ne_nil_of_mem (Problem.mem_atLines.mpr hown), Diagnostic.withLines_ascending _ _,
      fun line hline => hmember _ _ line (Problem.mem_atLines.mp hline)⟩

end Member

/-- A fault of indices has lines, and they are lines of drafts. -/
theorem Draft.FirstOffence.lines {total : Nat} {drafts : List Draft} {diagnostic : Diagnostic}
    (h : FirstOffence total drafts diagnostic) :
    diagnostic.lines ≠ [] ∧ diagnostic.lines.Pairwise (· < ·) ∧
      ∀ line ∈ diagnostic.lines, line ∈ drafts.map (·.argument.lineNumber) := by
  obtain ⟨before, draft, after, rfl, -, hoffence⟩ := h
  have hown : draft.argument.lineNumber ∈
      (before ++ draft :: after).map (·.argument.lineNumber) := by simp
  cases hoffence with
  | unreadable hp hd hn =>
    refine ⟨List.cons_ne_nil _ _, Diagnostic.withLines_ascending _ _, fun line hline => ?_⟩
    rwa [List.mem_singleton.mp (Problem.mem_atLines.mp hline)]
  | outOfRange hd hr =>
    refine ⟨List.cons_ne_nil _ _, Diagnostic.withLines_ascending _ _, fun line hline => ?_⟩
    rwa [List.mem_singleton.mp (Problem.mem_atLines.mp hline)]
  | @repeated other index hm ho hd =>
    refine ⟨List.ne_nil_of_mem (Problem.mem_atLines.mpr List.mem_cons_self),
      Diagnostic.withLines_ascending _ _, fun line hline => ?_⟩
    rcases List.mem_pair.mp (Problem.mem_atLines.mp hline) with rfl | rfl
    · exact List.mem_map_of_mem (f := (·.argument.lineNumber)) (List.mem_append_left _ hm)
    · exact hown

namespace Document

variable {settings : Settings} {marks : Marks} {text : String} {diagnostic : Diagnostic}

/-- Why a text is refused, with the lines of the definitions that are at fault. -/
inductive Fault (settings : Settings) (marks : Marks) (text : String) : Diagnostic → Prop
  /-- Behind the segments read so far, an opening token is not closed. -/
  | unclosed {segments : List Annotated.Segment} {rest literal opened : List Char} :
      Annotated.Reaches marks [] text.toList segments rest →
      FirstAt marks.opening.chars rest literal opened → ¬Annotated.NextCloses marks rest →
      Fault settings marks text ((Problem.unclosedDefinition marks.closing.toString).atLines
        [Annotated.lineBehind 1 segments + Annotated.newlines literal])
  /-- Behind the definitions accepted so far, a definition is refused. -/
  | refused {annotated : Annotated} {before behind : List Block} {block : Block}
      {drafts : List Draft} {problem : Problem} :
      Annotated.scan marks text = .ok annotated → annotated.blocks = before ++ block :: behind →
      Draft.Accepted marks settings.dialect .zero 0 before drafts →
      Draft.Refuses marks settings.dialect (Counters.behind .zero drafts) before.length block
        problem →
      Fault settings marks text (problem.atLines [block.line])
  /-- All definitions are accepted, and one declares an index that it cannot have. -/
  | misplaced {annotated : Annotated} {drafts : List Draft} {diagnostic : Diagnostic} :
      Annotated.scan marks text = .ok annotated →
      Draft.Accepted marks settings.dialect .zero 0 annotated.blocks drafts →
      Draft.FirstOffence (Draft.positionalCount (Draft.uniqueNames drafts))
        (Draft.uniqueNames drafts) diagnostic →
      Fault settings marks text diagnostic
  /-- All definitions have their indices, and those of one member cannot be joined. -/
  | undeduced {annotated : Annotated} {drafts placed : List Draft} {diagnostic : Diagnostic} :
      Annotated.scan marks text = .ok annotated →
      Draft.Accepted marks settings.dialect .zero 0 annotated.blocks drafts →
      Draft.resolveIndices (Draft.uniqueNames drafts) = .ok placed →
      Member.Fault settings.defaultRule placed diagnostic →
      Fault settings marks text diagnostic

/-- A fault of a text has lines, and they are lines of its blocks where it can be cut at them. -/
theorem Fault.lines (h : Fault settings marks text diagnostic) :
    diagnostic.lines ≠ [] ∧ diagnostic.lines.Pairwise (· < ·) ∧
      ∀ annotated, Annotated.scan marks text = .ok annotated →
        ∀ line ∈ diagnostic.lines, line ∈ annotated.blocks.map (·.line) := by
  -- The drafts of blocks have the lines of the blocks, before and after they are placed.
  have hread : ∀ {annotated drafts}, Draft.Accepted marks settings.dialect .zero 0
      (annotated : Annotated).blocks drafts →
      drafts.map (·.argument.lineNumber) = annotated.blocks.map (·.line) ∧
        (Draft.uniqueNames drafts).map (·.argument.lineNumber) = annotated.blocks.map (·.line) :=
    fun hall => ⟨(Draft.ofBlocks_ok hall.ofBlocks).lines,
      (Draft.ofBlocks_ok hall.ofBlocks).uniqueNames.lines⟩
  cases h with
  | unclosed hreach _ hopen =>
    exact ⟨List.cons_ne_nil _ _, Diagnostic.withLines_ascending _ _,
      fun annotated hscan => absurd (Annotated.nextCloses_of_scan hscan hreach) hopen⟩
  | @refused annotated before behind block drafts problem hscan hsplit _ _ =>
    refine ⟨List.cons_ne_nil _ _, Diagnostic.withLines_ascending _ _, fun other hother line hline => ?_⟩
    obtain rfl := Except.ok.inj (hscan.symm.trans hother)
    rw [List.mem_singleton.mp (Problem.mem_atLines.mp hline), hsplit]
    simp
  | misplaced hscan hall hoffence =>
    obtain ⟨hne, hascending, hlines⟩ := hoffence.lines
    refine ⟨hne, hascending, fun other hother line hline => ?_⟩
    obtain rfl := Except.ok.inj (hscan.symm.trans hother)
    exact (hread hall).2 ▸ hlines line hline
  | undeduced hscan hall hplaced hfault =>
    obtain ⟨hne, hascending, hlines⟩ := hfault.lines
    refine ⟨hne, hascending, fun other hother line hline => ?_⟩
    obtain rfl := Except.ok.inj (hscan.symm.trans hother)
    have hkept := Draft.map_settled (·.argument.lineNumber) (fun _ _ => rfl) (fun _ _ => rfl) hplaced
    exact (hkept.trans (hread hall).1) ▸ hlines line hline

/-- A text whose blocks are refused, or whose members cannot be deduced, is at fault, unless a help
member is required and missing. -/
theorem fault_of_scan {annotated : Annotated} (hmarks : settings.marks = .ok marks)
    (hscan : Annotated.scan marks text = .ok annotated)
    (h : parse settings text = .error diagnostic) :
    Fault settings marks text diagnostic ∨
      settings.requireHelp = true ∧ diagnostic = Problem.noHelp.diagnostic := by
  rw [parse, read_of_scan hmarks hscan, map_error_iff] at h
  rcases Draft.accepted_or_refused marks settings.dialect .zero 0 annotated.blocks with
    ⟨drafts, hall⟩ | ⟨before, block, behind, drafts, problem, hsplit, hbefore, hrefused⟩
  · rw [hall.ofBlocks] at h
    change Member.deduce settings drafts = .error diagnostic at h
    rcases bind_error_iff.mp h with hplaced | ⟨placed, hplaced, hmembers⟩
    · have horder := (Draft.ofBlocks_ok hall.ofBlocks).uniqueNames.inDocumentOrder
      exact .inl (.misplaced hscan hall (Draft.resolveIndices_error horder hplaced))
    · exact (Member.fault_of_error hmembers).imp_left (.undeduced hscan hall hplaced)
  · rw [hsplit, hbefore.ofBlocks_refused hrefused] at h
    cases h
    rw [Nat.zero_add] at hrefused
    exact .inl (.refused hscan hsplit hbefore hrefused)

/-- Under settings that can be used, a text that is refused is at fault somewhere: its diagnostic
has the lines of the definitions at fault, in ascending order, and they are lines of blocks. Only
where a required help member is missing there is no line. -/
theorem parse_located {settings : Settings} {text : String} {diagnostic : Diagnostic}
    (hvalid : settings.validate = .ok ()) (h : parse settings text = .error diagnostic) :
    (settings.requireHelp = true ∧ diagnostic = Problem.noHelp.diagnostic ∧
      diagnostic.category = .missingRequiredProperty ∧ diagnostic.lines = []) ∨
    diagnostic.lines ≠ [] ∧ diagnostic.lines.Pairwise (· < ·) ∧
      ∃ marks, settings.marks = .ok marks ∧ Fault settings marks text diagnostic ∧
        ∀ annotated, Annotated.scan marks text = .ok annotated →
          ∀ line ∈ diagnostic.lines, line ∈ annotated.blocks.map (·.line) := by
  cases hmarks : settings.marks with
  | error problem =>
    rw [Settings.validate, hmarks] at hvalid
    cases hvalid
  | ok marks =>
    have hfault : Fault settings marks text diagnostic ∨
        settings.requireHelp = true ∧ diagnostic = Problem.noHelp.diagnostic := by
      cases hscan : Annotated.scan marks text with
      | ok annotated => exact fault_of_scan hmarks hscan h
      | error refused =>
        simp only [parse, read, hmarks, hscan] at h
        obtain rfl := Except.error.inj h
        obtain ⟨segments, rest, literal, opened, hreach, hfirst, hopen, rfl⟩ :=
          Annotated.scan_unclosed hscan
        exact .inl (.unclosed hreach hfirst hopen)
    rcases hfault with hfault | ⟨hrequired, rfl⟩
    · obtain ⟨hne, hascending, hrecorded⟩ := hfault.lines
      exact .inr ⟨hne, hascending, marks, rfl, hfault, hrecorded⟩
    · exact .inl ⟨hrequired, rfl, rfl, rfl⟩

/-- Three definitions of one member, of which the last one is no option, and one of another. -/
def mixedText : String :=
  "$\x7b-a | Member: m\x7d$\n$\x7bB\x7d$\n$\x7b-c | Member: m\x7d$ $\x7bD | Member: m\x7d$"

/-- The refusal lists the lines of the member's three definitions once each, and not that of the
definition between them. -/
theorem parse_located_mixed :
    Settings.standard.validate = .ok () ∧
      ∃ diagnostic marks, parse .standard mixedText = .error diagnostic ∧
        diagnostic.category = .conflictingProperty ∧ diagnostic.lines = [1, 3] ∧
        Fault .standard marks mixedText diagnostic := by
  have hvalid : Settings.standard.validate = .ok () := by decide +kernel
  have hparse : parse .standard mixedText = .error ((Problem.mixedMember "m").atLines [1, 3]) := by
    decide +kernel
  rcases parse_located hvalid hparse with ⟨hrequired, -⟩ | ⟨-, -, marks, -, hfault, -⟩
  · cases hrequired
  · exact ⟨hvalid, _, marks, hparse, rfl, rfl, hfault⟩

end Document

end AnnotatedHelp
