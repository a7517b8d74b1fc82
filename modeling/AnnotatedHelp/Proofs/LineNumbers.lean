import Mathlib
import AnnotatedHelp.Session
import AnnotatedHelp.Proofs.ScanningSteps

/-!
# Line numbers of definitions

Scanning counts lines along the way: the newlines of the text before a block, of its body, and of
the newline that it takes. Newlines inside tokens are not counted. So every block puts the lines of
all blocks behind it back by the newlines of its two tokens, and the recorded lines are true exactly
where no token contains a newline or there is no block behind another one.
-/

namespace AnnotatedHelp.Annotated

open Text

variable {marks : Marks} {before : List Char} {line passed : Nat} {segment : Segment}
  {segments : List Segment}

/-- The newlines of the two tokens around a body. -/
def tokenBreaks (marks : Marks) : Nat :=
  newlines marks.opening.chars + newlines marks.closing.chars

/-- The lines, from one, of the opening tokens of segments that stand behind the given text. -/
def openingLines (marks : Marks) (before : List Char) : List Segment → List Nat
  | [] => []
  | segment :: segments =>
    (1 + newlines (before ++ segment.literal)) ::
      openingLines marks (before ++ segment.source marks) segments

/-- The newlines of a text are those of its parts. -/
@[simp]
theorem newlines_append (text more : List Char) :
    newlines (text ++ more) = newlines text + newlines more :=
  List.count_append

/-- The newlines of a segment are those that are counted and those of its tokens. -/
theorem newlines_source (marks : Marks) (segment : Segment) :
    newlines (segment.source marks) = segment.lineBreaks + tokenBreaks marks := by
  simp only [Segment.source, Segment.lineBreaks, tokenBreaks, newlines_append]
  omega

/-- Behind segments the counted line is late by the newlines of all their tokens. -/
theorem lineBehind_add (marks : Marks) (line : Nat) (segments : List Segment) :
    lineBehind line segments + segments.length * tokenBreaks marks =
      line + newlines (segments.flatMap (·.source marks)) := by
  induction segments generalizing line with
  | nil => simp [lineBehind, newlines]
  | cons segment segments ih =>
    have hrest := ih (line + segment.lineBreaks)
    rw [lineBehind_cons, List.flatMap_cons, newlines_append, newlines_source, List.length_cons,
      Nat.succ_mul]
    omega

/-- Where the counted line is late by the tokens of the blocks passed, the opening tokens stand on
the recorded lines and the newlines of the tokens of all blocks before. -/
theorem openingLines_eq (h : 1 + newlines before = line + passed * tokenBreaks marks) :
    openingLines marks before segments =
      ((blocksFrom line segments).zipIdx passed).map
        fun found => found.1.line + found.2 * tokenBreaks marks := by
  induction segments generalizing before line passed with
  | nil => rfl
  | cons segment segments ih =>
    have hnext : 1 + newlines (before ++ segment.source marks) =
        line + segment.lineBreaks + (passed + 1) * tokenBreaks marks := by
      rw [newlines_append, newlines_source, Nat.succ_mul]
      omega
    have hfirst : 1 + newlines (before ++ segment.literal) =
        line + newlines segment.literal + passed * tokenBreaks marks := by
      rw [newlines_append]
      omega
    rw [openingLines, hfirst, ih hnext, blocksFrom, List.zipIdx_cons, List.map_cons]

/-- Without newlines in the tokens, the opening tokens stand on the recorded lines. -/
theorem openingLines_of_tokenBreaks_eq_zero (h : 1 + newlines before = line)
    (hzero : tokenBreaks marks = 0) :
    (blocksFrom line segments).map (·.line) = openingLines marks before segments := by
  have hstart : 1 + newlines before = line + 0 * tokenBreaks marks := by omega
  rw [openingLines_eq hstart, hzero]
  simp only [Nat.mul_zero, Nat.add_zero]
  conv_lhs => rw [← List.zipIdx_map_fst 0 (blocksFrom line segments)]
  rw [List.map_map]
  rfl

/-- The recorded lines are true exactly where the tokens have no newline or there is no block behind
another one. -/
theorem openingLines_iff (marks : Marks) (segments : List Segment) :
    (blocksFrom 1 segments).map (·.line) = openingLines marks [] segments ↔
      tokenBreaks marks = 0 ∨ segments.length ≤ 1 := by
  constructor
  · intro h
    match segments with
    | [] => exact .inr (Nat.zero_le 1)
    | [segment] => exact .inr (Nat.le_refl 1)
    | first :: second :: segments =>
      -- The line of the second opening token decides: one pair of tokens stands before it.
      have hsecond : 1 + first.lineBreaks + newlines second.literal =
          1 + newlines (first.source marks ++ second.literal) :=
        (List.cons.inj (List.cons.inj h).2).1
      rw [newlines_append, newlines_source] at hsecond
      exact .inl (by omega)
  · rintro (hzero | hshort)
    · exact openingLines_of_tokenBreaks_eq_zero rfl hzero
    · match segments with
      | [] => rfl
      | [segment] => rfl
      | _ :: _ :: _ => simp at hshort

/-- Scanning records true lines exactly where no token contains a newline or nothing stands behind
the first block: every block is recorded with the line of its opening token less the newlines of the
tokens of all blocks before it, and so is an opening token that is not closed. -/
theorem scan_lineNumbers (marks : Marks) (text : String) :
    (∀ annotated, scan marks text = .ok annotated →
      ∃ segments last, Reaches marks [] text.toList segments last ∧
        ¬marks.opening.chars <:+: last ∧
        annotated.blocks.map (·.body) = segments.map (·.body) ∧
        openingLines marks [] segments =
          annotated.blocks.zipIdx.map (fun found => found.1.line + found.2 * tokenBreaks marks) ∧
        (annotated.blocks.map (·.line) = openingLines marks [] segments ↔
          tokenBreaks marks = 0 ∨ annotated.blocks.length ≤ 1)) ∧
    ∀ diagnostic, scan marks text = .error diagnostic →
      ∃ segments rest literal opened line, Reaches marks [] text.toList segments rest ∧
        FirstAt marks.opening.chars rest literal opened ∧ ¬NextCloses marks rest ∧
        diagnostic.lines = [line] ∧
        line + segments.length * tokenBreaks marks =
          1 + newlines (segments.flatMap (·.source marks) ++ literal) ∧
        (line = 1 + newlines (segments.flatMap (·.source marks) ++ literal) ↔
          tokenBreaks marks = 0 ∨ segments = []) := by
  refine ⟨?_, ?_⟩
  · intro annotated h
    obtain ⟨segments, last, hreach, hlast, -, -, hbodies⟩ := (scan_grammar marks text).2.1 _ h
    have hscan := scan_of_reaches hreach hlast
    obtain rfl := Except.ok.inj (h.symm.trans hscan)
    have hlength : (blocksFrom 1 segments).length = segments.length := by
      simpa using congrArg List.length hbodies
    refine ⟨segments, last, hreach, hlast, hbodies, openingLines_eq (by simp [newlines]), ?_⟩
    rw [hlength]
    exact openingLines_iff marks segments
  · intro diagnostic h
    obtain ⟨segments, rest, literal, opened, hreach, hfirst, hopen, rfl⟩ := scan_unclosed h
    have hlate := lineBehind_add marks 1 segments
    have hline : lineBehind 1 segments + newlines literal + segments.length * tokenBreaks marks =
        1 + newlines (segments.flatMap (·.source marks) ++ literal) := by
      rw [newlines_append]
      omega
    refine ⟨segments, rest, literal, opened, _, hreach, hfirst, hopen, rfl, hline, ?_⟩
    rw [← hline, Nat.left_eq_add, Nat.mul_eq_zero, List.length_eq_zero_iff, or_comm]

/-- A block with two lines, an empty line, a block that takes its newline, and one behind it. -/
def spreadText : String :=
  "<<-a|\nCount: 1>>\n\n<<|x>>\n<<-b>>"

/-- The blocks have the lines of their opening tokens. -/
theorem scan_lineNumbers_spread :
    ∃ annotated segments last, scan doubleMarks spreadText = .ok annotated ∧
      Reaches doubleMarks [] spreadText.toList segments last ∧
      annotated.blocks.map (·.line) = [1, 4, 5] ∧
      openingLines doubleMarks [] segments = [1, 4, 5] := by
  have hscan : scan doubleMarks spreadText = .ok ⟨"-a\n\n-b".toList,
      [⟨1, "-a|\nCount: 1".toList⟩, ⟨4, "|x".toList⟩, ⟨5, "-b".toList⟩], [0, 2]⟩ := by
    decide +kernel
  obtain ⟨segments, last, hreach, -, -, -, hlines⟩ :=
    (scan_lineNumbers doubleMarks spreadText).1 _ hscan
  have htokens : tokenBreaks doubleMarks = 0 := by decide +kernel
  exact ⟨_, segments, last, hscan, hreach, rfl, (hlines.mpr (.inl htokens)).symm⟩

/-- Settings that can be used, with a newline in the opening token. -/
def brokenSettings : Settings :=
  { Settings.standard with delimiters := ⟨"<\n", ">", "|"⟩ }

/-- The second block opens on the second line, but is recorded and reported with the first one. -/
theorem scan_lineNumbers_broken :
    brokenSettings.validate = .ok () ∧ ∃ marks, brokenSettings.marks = .ok marks ∧
      scan marks "<\n-a> <\n-b>" =
        .ok ⟨"-a -b".toList, [⟨1, "-a".toList⟩, ⟨1, "-b".toList⟩], [0]⟩ ∧
      Document.parse brokenSettings "<\n-a> <\n-b" =
        .error ((Problem.unclosedDefinition ">").atLines [1]) ∧
      "<\n-a> <\n-b>".toList = "<\n-a> ".toList ++ marks.opening.chars ++ "-b>".toList ∧
      1 + newlines "<\n-a> ".toList = 2 := by
  have hvalid : brokenSettings.validate = .ok () := by decide +kernel
  have hmarks : brokenSettings.marks = .ok ⟨⟨"<\n".toList, by decide⟩, ⟨">".toList, by decide⟩,
      ⟨"|".toList, by decide⟩⟩ := by
    decide +kernel
  refine ⟨hvalid, _, hmarks, ?_, ?_, rfl, rfl⟩ <;> decide +kernel

end AnnotatedHelp.Annotated
