import Mathlib
import AnnotatedHelp.Session
import AnnotatedHelp.Text.Character
import AnnotatedHelp.Proofs.Fields
import AnnotatedHelp.Proofs.LineNumbers

/-!
# Lines that begin with a visible definition

A block that shows something behind nothing but blanks is listed with the line of the output on
which it stands. What it shows may be blank itself, or begin with a newline. Then the line that is
listed shows nothing, or is listed again for the next block on it. The listed lines ascend strictly
and none of them is blank exactly where every listed block is followed by something that shows,
before the next newline and the next listed block.
-/

namespace AnnotatedHelp.Annotated

open Text

variable {marks : Marks} {text more output last : List Char} {segment : Segment}
  {segments : List Segment}

/-- What stands before the first newline. -/
def firstLine (text : List Char) : List Char :=
  text.takeWhile (· != '\n')

/-- What stands behind the last newline. -/
def lastLine (text : List Char) : List Char :=
  (text.reverse.takeWhile (· != '\n')).reverse

/-- A text is taken whole, up to the first newline, exactly where it has none. -/
theorem takeWhile_eq_self_iff_newlines :
    text.takeWhile (· != '\n') = text ↔ newlines text = 0 := by
  rw [List.takeWhile_eq_self_iff, newlines, List.count_eq_zero]
  constructor
  · intro h hmem
    simpa using h _ hmem
  · intro h c hc
    have hne : c ≠ '\n' := fun he => h (he ▸ hc)
    simpa using hne

/-- A text without newlines belongs to the first line of what begins with it. -/
theorem firstLine_append_of_eq_zero (h : newlines text = 0) (more : List Char) :
    firstLine (text ++ more) = text ++ firstLine more := by
  rw [firstLine, List.takeWhile_append, takeWhile_eq_self_iff_newlines.mpr h, if_pos rfl]
  rfl

/-- The first line of a text with newlines is that of what begins with it. -/
theorem firstLine_append_of_pos (h : 0 < newlines text) (more : List Char) :
    firstLine (text ++ more) = firstLine text := by
  have hpart : (text.takeWhile (· != '\n')).length ≠ text.length := by
    intro hlength
    have hwhole := (List.takeWhile_prefix (· != '\n')).eq_of_length hlength
    rw [takeWhile_eq_self_iff_newlines.mp hwhole] at h
    exact Nat.lt_irrefl 0 h
  rw [firstLine, List.takeWhile_append, if_neg hpart]
  rfl

/-- A text without newlines belongs to the last line of what ends with it. -/
theorem lastLine_append_of_eq_zero (h : newlines more = 0) (text : List Char) :
    lastLine (text ++ more) = lastLine text ++ more := by
  have hreverse : newlines more.reverse = 0 := by
    rw [newlines, List.count_reverse]
    exact h
  have hfirst := firstLine_append_of_eq_zero hreverse text.reverse
  unfold lastLine
  rw [List.reverse_append]
  unfold firstLine at hfirst
  rw [hfirst, List.reverse_append, List.reverse_reverse]

/-- A text is the lines before the last one and the last line, which has no newline. -/
theorem exists_append_lastLine (text : List Char) :
    newlines (lastLine text) = 0 ∧
      (text = lastLine text ∨ ∃ front, text = front ++ '\n' :: lastLine text) := by
  have hnone : newlines (lastLine text) = 0 := by
    rw [newlines, lastLine, List.count_reverse, List.count_eq_zero]
    intro hmem
    simpa using List.mem_takeWhile_imp hmem
  refine ⟨hnone, ?_⟩
  have hsplit : text.reverse = text.reverse.takeWhile (· != '\n') ++
      text.reverse.dropWhile (· != '\n') := List.takeWhile_append_dropWhile.symm
  have htext : text = (text.reverse.dropWhile (· != '\n')).reverse ++ lastLine text := by
    have hreverse := congrArg List.reverse hsplit
    rwa [List.reverse_reverse, List.reverse_append] at hreverse
  cases hdrop : text.reverse.dropWhile (· != '\n') with
  | nil =>
    rw [hdrop] at htext
    exact .inl htext
  | cons c behind =>
    have hc := List.head?_dropWhile_not (· != '\n') text.reverse
    rw [hdrop] at hc
    have hnewline : c = '\n' := by simpa using hc
    refine .inr ⟨behind.reverse, ?_⟩
    rw [hdrop, List.reverse_cons, hnewline, List.append_assoc] at htext
    exact htext

/-- The first of all lines is the first line. -/
theorem head?_splitAll (text : List Char) : (splitAll '\n' text).head? = some (firstLine text) := by
  unfold splitAll firstLine
  induction text with
  | nil => rw [List.splitOn_nil, List.head?_cons, List.takeWhile_nil]
  | cons c text ih =>
    rw [List.splitOn_cons_eq_if_modifyHead]
    by_cases hnewline : (c == '\n') = true
    · rw [if_pos hnewline, List.takeWhile_cons_of_neg (by simpa using hnewline)]
      rfl
    · rw [if_neg hnewline, List.takeWhile_cons_of_pos (by simpa using hnewline),
        List.head?_modifyHead, ih]
      rfl

/-- The line that begins in a text and ends behind it. -/
theorem getElem?_splitAll (text more : List Char) :
    (splitAll '\n' (text ++ more))[newlines text]? = some (lastLine text ++ firstLine more) := by
  obtain ⟨hnone, hsingle | ⟨front, hsplit⟩⟩ := exists_append_lastLine text
  · have hzero : newlines text = 0 := by
      rw [hsingle]
      exact hnone
    rw [hzero, ← List.head?_eq_getElem?, head?_splitAll, firstLine_append_of_eq_zero hzero,
      ← hsingle]
  · have hlines : splitAll '\n' (text ++ more) =
        splitAll '\n' front ++ splitAll '\n' (lastLine text ++ more) := by
      conv_lhs => rw [hsplit]
      rw [List.append_assoc, List.cons_append]
      exact List.splitOn_append_cons_self front (lastLine text ++ more)
    have hcount : newlines text = (splitAll '\n' front).length := by
      rw [length_splitAll]
      conv_lhs => rw [hsplit]
      rw [newlines_append, newlines, newlines, List.count_cons_self, ← newlines, ← newlines, hnone]
    rw [hlines, hcount, List.getElem?_append_right (Nat.le_refl _), Nat.sub_self,
      ← List.head?_eq_getElem?, head?_splitAll, firstLine_append_of_eq_zero hnone]

/-- Whether a block is listed behind the given output: it shows something, and only blanks stand
before it on its line. -/
def Segment.isListed (marks : Marks) (output : List Char) (segment : Segment) : Bool :=
  !(visible marks segment.body).isEmpty && isBlankLine (lastLine (output ++ segment.literal))

/-- What is shown behind the given output up to the next listed block, or to the end. -/
def shownToListed (marks : Marks) (output last : List Char) : List Segment → List Char
  | [] => last
  | segment :: segments =>
    segment.literal ++
      if segment.isListed marks output then []
      else visible marks segment.body ++
        shownToListed marks (output ++ segment.shown marks) last segments

/-- From every listed block on, something shows before the next newline and the next listed
block. -/
def ShowsWhereListed (marks : Marks) (output last : List Char) : List Segment → Prop
  | [] => True
  | segment :: segments =>
    (segment.isListed marks output = true →
      isBlankLine (firstLine (visible marks segment.body ++
        shownToListed marks (output ++ segment.shown marks) last segments)) = false) ∧
      ShowsWhereListed marks (output ++ segment.shown marks) last segments

/-- The numbers ascend strictly, and each is that of a line of the text that is not blank. -/
structure ListsShownLines (text : List Char) (numbers : List Nat) : Prop where
  /-- No number is listed twice, and none before a smaller one. -/
  ascending : numbers.Pairwise (· < ·)
  /-- The text has the lines, and they show something. -/
  shown : ∀ number ∈ numbers, ∃ line, (splitAll '\n' text)[number]? = some line ∧
    isBlankLine line = false

/-- A listed block is listed with the newlines shown before it. -/
theorem Segment.listed_eq (marks : Marks) (output : List Char) (segment : Segment) :
    segment.listed marks output.reverse =
      if segment.isListed marks output then [newlines (output ++ segment.literal)] else [] := by
  have hreverse : segment.literal.reverse ++ output.reverse =
      (output ++ segment.literal).reverse := List.reverse_append.symm
  have hline : atLineStart (output ++ segment.literal).reverse =
      isBlankLine (lastLine (output ++ segment.literal)) := by
    rw [atLineStart, isBlankLine, lastLine, List.all_reverse]
  have hcount : newlines (output ++ segment.literal).reverse =
      newlines (output ++ segment.literal) := List.count_reverse
  rw [Segment.listed, hreverse, hline, hcount]
  rfl

/-- The lines of segments are those of the first one and those of the others. -/
theorem listedFrom_cons (marks : Marks) (output : List Char) (segment : Segment)
    (segments : List Segment) :
    listedFrom marks output.reverse (segment :: segments) =
      (if segment.isListed marks output then [newlines (output ++ segment.literal)] else []) ++
        listedFrom marks (output ++ segment.shown marks).reverse segments := by
  rw [listedFrom, Segment.listed_eq, List.reverse_append]

/-- A listed line is one of those that the segments are shown on. -/
theorem newlines_le_of_mem_listedFrom {number : Nat}
    (h : number ∈ listedFrom marks output.reverse segments) :
    newlines output ≤ number ∧ number ≤ newlines (output ++ segments.flatMap (·.shown marks)) := by
  induction segments generalizing output with
  | nil => cases h
  | cons segment segments ih =>
    rw [List.flatMap_cons, ← List.append_assoc]
    have hshown : newlines (output ++ segment.shown marks) =
        newlines (output ++ segment.literal) + newlines (visible marks segment.body) := by
      simp only [Segment.shown, newlines_append, Nat.add_assoc]
    have hliteral := newlines_append output segment.literal
    rw [listedFrom_cons] at h
    rcases List.mem_append.mp h with hfirst | hrest
    · split_ifs at hfirst
      · rw [List.mem_singleton.mp hfirst]
        have happend := newlines_append (output ++ segment.shown marks)
          (segments.flatMap (·.shown marks))
        omega
      · cases hfirst
    · obtain ⟨hlow, hhigh⟩ := ih hrest
      exact ⟨by omega, hhigh⟩

/-- The listed lines ascend. -/
theorem listedFrom_ascending (marks : Marks) (output : List Char) (segments : List Segment) :
    (listedFrom marks output.reverse segments).Pairwise (· ≤ ·) := by
  induction segments generalizing output with
  | nil => exact .nil
  | cons segment segments ih =>
    rw [listedFrom_cons]
    split_ifs
    · refine List.pairwise_cons.mpr ⟨fun number hnumber => ?_, ih _⟩
      have hlow := (newlines_le_of_mem_listedFrom hnumber).1
      simp only [Segment.shown, newlines_append] at hlow ⊢
      omega
    · exact ih _

/-- Up to the next listed block, or to the end: either nothing is listed, or first of all the line
that is reached, on which only blanks stand so far. -/
theorem listedFrom_cases (marks : Marks) (output last : List Char) (segments : List Segment) :
    (listedFrom marks output.reverse segments = [] ∧
      segments.flatMap (·.shown marks) ++ last = shownToListed marks output last segments) ∨
    ∃ numbers behind, listedFrom marks output.reverse segments =
        newlines (output ++ shownToListed marks output last segments) :: numbers ∧
      isBlankLine (lastLine (output ++ shownToListed marks output last segments)) = true ∧
      segments.flatMap (·.shown marks) ++ last =
        shownToListed marks output last segments ++ behind := by
  induction segments generalizing output with
  | nil => exact .inl ⟨rfl, rfl⟩
  | cons segment segments ih =>
    rw [listedFrom_cons, shownToListed]
    by_cases hlisted : segment.isListed marks output = true
    · rw [if_pos hlisted, if_pos hlisted, List.append_nil]
      refine .inr ⟨_, visible marks segment.body ++ (segments.flatMap (·.shown marks) ++ last), rfl,
        (Bool.and_eq_true_iff.mp hlisted).2, ?_⟩
      simp only [List.flatMap_cons, Segment.shown, List.append_assoc]
    · rw [if_neg hlisted, if_neg hlisted, List.nil_append]
      have hassoc : ∀ rest, output ++ (segment.literal ++ (visible marks segment.body ++ rest)) =
          output ++ segment.shown marks ++ rest := by
        intro rest
        simp only [Segment.shown, List.append_assoc]
      have hflat : (segment :: segments).flatMap (·.shown marks) ++ last = segment.literal ++
          (visible marks segment.body ++ (segments.flatMap (·.shown marks) ++ last)) := by
        simp only [List.flatMap_cons, Segment.shown, List.append_assoc]
      rw [hassoc, hflat]
      rcases ih (output ++ segment.shown marks) with
        ⟨hnone, hrest⟩ | ⟨numbers, behind, hlist, hblank, hrest⟩
      · exact .inl ⟨hnone, by rw [hrest]⟩
      · exact .inr ⟨numbers, behind, hlist, hblank, by rw [hrest]; simp only [List.append_assoc]⟩

/-- Numbers list lines that show something exactly when the first of them does, comes before the
others, and these list such lines. -/
theorem listsShownLines_cons_iff {number : Nat} {numbers : List Nat} :
    ListsShownLines text (number :: numbers) ↔
      ((∀ other ∈ numbers, number < other) ∧ ∃ line, (splitAll '\n' text)[number]? = some line ∧
        isBlankLine line = false) ∧ ListsShownLines text numbers := by
  constructor
  · rintro ⟨hascending, hshown⟩
    obtain ⟨hfirst, hrest⟩ := List.pairwise_cons.mp hascending
    obtain ⟨hline, hlines⟩ := List.forall_mem_cons.mp hshown
    exact ⟨⟨hfirst, hline⟩, hrest, hlines⟩
  · rintro ⟨⟨hfirst, hline⟩, hrest, hlines⟩
    exact ⟨List.pairwise_cons.mpr ⟨hfirst, hrest⟩, List.forall_mem_cons.mpr ⟨hline, hlines⟩⟩

/-- A block at the start of a line is listed before the others, with a line that shows something,
exactly where something shows before the next newline and the next listed block. -/
theorem showsOnce_iff (marks : Marks) (last : List Char) (segments : List Segment)
    (hblank : isBlankLine (lastLine output) = true) (shows : List Char) :
    ((∀ other ∈ listedFrom marks (output ++ shows).reverse segments, newlines output < other) ∧
      ∃ line, (splitAll '\n'
          (output ++ (shows ++ (segments.flatMap (·.shown marks) ++ last))))[newlines output]? =
        some line ∧ isBlankLine line = false) ↔
    isBlankLine (firstLine (shows ++ shownToListed marks (output ++ shows) last segments)) =
      false := by
  have hline : ∀ rest, (∃ line, (splitAll '\n' (output ++ rest))[newlines output]? = some line ∧
      isBlankLine line = false) ↔ isBlankLine (firstLine rest) = false := by
    intro rest
    rw [getElem?_splitAll]
    simp [isBlankLine_append, hblank]
  rw [hline]
  set reached := shownToListed marks (output ++ shows) last segments with hreached
  rcases listedFrom_cases marks (output ++ shows) last segments with
    ⟨hnone, hrest⟩ | ⟨numbers, behind, hlist, hstart, hrest⟩
  · rw [hnone, hrest]
    exact ⟨And.right, fun h => ⟨nofun, h⟩⟩
  · rw [← hreached] at hlist hstart hrest
    rw [hlist, hrest, ← List.append_assoc shows]
    have hcount : newlines (output ++ shows ++ reached) =
        newlines output + newlines (shows ++ reached) := by
      rw [List.append_assoc, newlines_append]
    rcases Nat.eq_zero_or_pos (newlines (shows ++ reached)) with hzero | hpos
    · -- The next listed block stands on the same line, behind nothing but blanks.
      have hnext : isBlankLine (firstLine (shows ++ reached)) = true := by
        have hwhole : firstLine (shows ++ reached) = shows ++ reached :=
          takeWhile_eq_self_iff_newlines.mpr hzero
        rw [List.append_assoc, lastLine_append_of_eq_zero hzero, isBlankLine_append,
          Bool.and_eq_true] at hstart
        rw [hwhole]
        exact hstart.2
      constructor
      · rintro ⟨hbefore, -⟩
        have hlt := hbefore _ List.mem_cons_self
        omega
      · intro hshows
        rw [hnext] at hshows
        cases hshows
    · rw [firstLine_append_of_pos hpos]
      refine ⟨And.right, fun h => ⟨fun other hother => ?_, h⟩⟩
      have hlow : newlines (output ++ shows ++ reached) ≤ other := by
        have hascending := listedFrom_ascending marks (output ++ shows) segments
        rw [hlist] at hascending
        rcases List.mem_cons.mp hother with rfl | hlater
        · exact Nat.le_refl _
        · exact (List.pairwise_cons.mp hascending).1 other hlater
      omega

/-- The lines listed for segments ascend strictly and show something exactly where something shows
behind every listed block. -/
theorem listsShownLines_iff (marks : Marks) (output last : List Char) (segments : List Segment) :
    ListsShownLines (output ++ (segments.flatMap (·.shown marks) ++ last))
      (listedFrom marks output.reverse segments) ↔ ShowsWhereListed marks output last segments := by
  induction segments generalizing output with
  | nil => exact ⟨fun _ => trivial, fun _ => ⟨.nil, nofun⟩⟩
  | cons segment segments ih =>
    have htext : output ++ ((segment :: segments).flatMap (·.shown marks) ++ last) =
        output ++ segment.shown marks ++ (segments.flatMap (·.shown marks) ++ last) := by
      simp only [List.flatMap_cons, List.append_assoc]
    rw [listedFrom_cons, ShowsWhereListed, ← ih (output ++ segment.shown marks), htext]
    by_cases hlisted : segment.isListed marks output = true
    · have hblank := (Bool.and_eq_true_iff.mp hlisted).2
      have honce := showsOnce_iff marks last segments hblank (visible marks segment.body)
      have hshown : output ++ segment.literal ++ visible marks segment.body =
          output ++ segment.shown marks := List.append_assoc _ _ _
      rw [← List.append_assoc (output ++ segment.literal), hshown] at honce
      rw [if_pos hlisted, List.singleton_append, listsShownLines_cons_iff, honce]
      simp [hlisted]
    · rw [if_neg hlisted, List.nil_append]
      simp [hlisted]

/-- The lines that scanning lists ascend, and all of them are lines of the output. They ascend
strictly and none of them is blank exactly where, from every listed block on, something shows before
the next newline and the next listed block. -/
theorem scan_visibleLines {text : String} {annotated : Annotated}
    (h : scan marks text = .ok annotated) :
    annotated.visibleLines.Pairwise (· ≤ ·) ∧
      (∀ number ∈ annotated.visibleLines, number < (splitAll '\n' annotated.text).length) ∧
      ∃ segments last, Reaches marks [] text.toList segments last ∧
        ¬marks.opening.chars <:+: last ∧
        annotated.text = segments.flatMap (·.shown marks) ++ last ∧
        (ListsShownLines annotated.text annotated.visibleLines ↔
          ShowsWhereListed marks [] last segments) := by
  obtain ⟨segments, last, hreach, hlast, -, htext, -⟩ := (scan_grammar marks text).2.1 _ h
  obtain rfl := Except.ok.inj (h.symm.trans (scan_of_reaches hreach hlast))
  refine ⟨listedFrom_ascending marks [] segments, ?_, segments, last, hreach, hlast, rfl,
    listsShownLines_iff marks [] last segments⟩
  intro number hnumber
  have hmem : number ∈ listedFrom marks ([] : List Char).reverse segments := hnumber
  have hhigh := (newlines_le_of_mem_listedFrom hmem).2
  rw [List.nil_append] at hhigh
  rw [length_splitAll, ← newlines, newlines_append]
  exact Nat.lt_succ_of_le (hhigh.trans (Nat.le_add_right _ _))

/-- A hidden block that takes its newline, an indented block with another one behind it, a block
behind text, and one at the start of the last line. -/
def indentedText : String :=
  "<<|x>>\n  <<-a>> <<-b>>\nuse <<-c>>\n<<-d>>"

/-- Lines that begin with a shown block are listed, indented or not; the line that begins with text is
not. -/
theorem scan_visibleLines_indented :
    ∃ annotated segments last, scan doubleMarks indentedText = .ok annotated ∧
      annotated.text = "  -a -b\nuse -c\n-d".toList ∧ annotated.visibleLines = [0, 2] ∧
      Reaches doubleMarks [] indentedText.toList segments last ∧
      ShowsWhereListed doubleMarks [] last segments := by
  have hscan : scan doubleMarks indentedText = .ok ⟨"  -a -b\nuse -c\n-d".toList,
      [⟨1, "|x".toList⟩, ⟨2, "-a".toList⟩, ⟨2, "-b".toList⟩, ⟨3, "-c".toList⟩, ⟨4, "-d".toList⟩],
      [0, 2]⟩ := by
    decide +kernel
  have hlists : ListsShownLines "  -a -b\nuse -c\n-d".toList [0, 2] :=
    ⟨by decide, List.forall_mem_cons.mpr ⟨⟨"  -a -b".toList, by decide +kernel, by decide +kernel⟩,
      List.forall_mem_singleton.mpr ⟨"-d".toList, by decide +kernel, by decide +kernel⟩⟩⟩
  obtain ⟨-, -, segments, last, hreach, -, -, hshows⟩ := scan_visibleLines hscan
  exact ⟨_, segments, last, hscan, rfl, rfl, hreach, hshows.mp hlists⟩

/-- A block that shows a space lists its line though nothing shows there, and the next block on the
line lists it once more. -/
theorem scan_visibleLines_blank :
    Settings.standard.validate = .ok () ∧ ∃ marks, Settings.standard.marks = .ok marks ∧
      scan marks "$\x7b | Text: -a\x7d$" = .ok ⟨" ".toList, [⟨1, " | Text: -a".toList⟩], [0]⟩ ∧
      ¬ListsShownLines " ".toList [0] ∧
      scan marks "$\x7b | Text: -a\x7d$$\x7b-b\x7d$" =
        .ok ⟨" -b".toList, [⟨1, " | Text: -a".toList⟩, ⟨1, "-b".toList⟩], [0, 0]⟩ ∧
      ¬ListsShownLines " -b".toList [0, 0] := by
  have hvalid : Settings.standard.validate = .ok () := by decide +kernel
  have hmarks : Settings.standard.marks = .ok ⟨⟨"$\x7b".toList, by decide⟩,
      ⟨"\x7d$".toList, by decide⟩, ⟨"|".toList, by decide⟩⟩ := by
    decide +kernel
  have hblank : ¬ListsShownLines " ".toList [0] := by
    rintro ⟨-, hshown⟩
    obtain ⟨line, hline, hshows⟩ := hshown 0 List.mem_cons_self
    obtain rfl := Option.some.inj (hline.symm.trans (show _ = some " ".toList by decide +kernel))
    exact absurd hshows (by decide)
  refine ⟨hvalid, _, hmarks, by decide +kernel, hblank, by decide +kernel, ?_⟩
  rintro ⟨hascending, -⟩
  exact absurd hascending (by decide)

end AnnotatedHelp.Annotated
