import Mathlib
import AnnotatedHelp.Proofs.Outcome
import AnnotatedHelp.Proofs.LineNumbers

/-!
# Hidden definitions on lines of their own

A block that shows nothing leaves no trace if it stands alone on its line. It is read with the
newline behind it, because the output of complete lines ends with a newline, however many newlines
the blocks before have taken. Behind it the output is what it was, so that scanning goes on as without
the block, and only the lines are counted further.
-/

namespace AnnotatedHelp.Annotated

open Text Outcome

variable {marks : Marks} {output text rest last : List Char} {segment : Segment}
  {segments : List Segment}

/-- A text of complete lines: it is empty, or ends with a newline. -/
def EndsLine (text : List Char) : Prop :=
  text = [] ∨ ∃ line, text = line ++ ['\n']

/-- What stands at the end of complete lines ends with a newline too. -/
theorem EndsLine.of_append {front : List Char} (h : EndsLine (front ++ text)) : EndsLine text := by
  rcases List.eq_nil_or_concat text with rfl | ⟨line, c, rfl⟩
  · exact .inl rfl
  · rcases h with h | ⟨lines, h⟩
    · simp at h
    · rw [List.concat_eq_append, ← List.append_assoc] at h
      have hc := (List.append_inj' h rfl).2
      exact .inr ⟨line, by rw [List.concat_eq_append, hc]⟩

/-- A text that ends with complete lines ends with a newline, if these are not empty. -/
theorem EndsLine.append (h : EndsLine text) (hne : text ≠ []) (front : List Char) :
    EndsLine (front ++ text) := by
  obtain ⟨line, rfl⟩ := h.resolve_left hne
  exact .inr ⟨front ++ line, (List.append_assoc _ _ _).symm⟩

/-- Complete lines end with no character of a token without newlines. -/
theorem EndsLine.not_mem {token : List Char} (h : EndsLine text) (hnew : '\n' ∉ token) :
    ∀ c ∈ text.getLast?, c ∉ token := by
  rintro c hc
  rcases h with rfl | ⟨line, rfl⟩
  · cases hc
  · rw [List.getLast?_concat] at hc
    cases hc
    exact hnew

/-- In complete lines something stands behind a token without newlines. -/
theorem EndsLine.ne_nil_behind {token : Token} {front after : List Char}
    (h : EndsLine (front ++ token.chars ++ after)) (hnew : '\n' ∉ token.chars) : after ≠ [] := by
  rintro rfl
  rw [List.append_nil] at h
  obtain ⟨line, hline⟩ := h.of_append.resolve_left token.nonempty
  refine hnew ?_
  rw [hline]
  exact List.mem_append_right line List.mem_cons_self

/-- Behind a block of complete lines there is at least its newline. -/
theorem Step.ne_nil_behind (h : Step marks output text segment rest) (hends : EndsLine text)
    (hclosing : '\n' ∉ marks.closing.chars) : segment.taken ++ rest ≠ [] := by
  have htext : text = segment.literal ++ marks.opening.chars ++ segment.body ++
      marks.closing.chars ++ (segment.taken ++ rest) := by
    rw [h.opens.eq]
    simp only [List.append_assoc]
  rw [htext] at hends
  exact hends.ne_nil_behind hclosing

/-- Further text behind complete lines does not change how their first segment is read. -/
theorem Step.append (h : Step marks output text segment rest) (hends : EndsLine text)
    (hclosing : '\n' ∉ marks.closing.chars) (more : List Char) :
    Step marks output (text ++ more) segment (rest ++ more) := by
  have hswallows : Swallows marks (output ++ segment.literal) segment.body
      (segment.taken ++ (rest ++ more)) ↔
        Swallows marks (output ++ segment.literal) segment.body (segment.taken ++ rest) := by
    obtain ⟨c, after, hafter⟩ := List.exists_cons_of_ne_nil (h.ne_nil_behind hends hclosing)
    rw [← List.append_assoc, hafter]
    simp [Swallows]
  refine ⟨?_, ?_, h.flat, ?_⟩
  · simpa only [List.append_assoc] using h.opens.append more
  · simpa only [List.append_assoc] using h.closes.append more
  · rw [hswallows]
    exact h.takes

/-- Segments of complete lines leave complete lines. -/
theorem Step.endsLine_rest (h : Step marks output text segment rest) (hends : EndsLine text) :
    EndsLine rest := by
  rw [h.opens.eq, ← List.append_assoc] at hends
  exact hends.of_append

/-- Further text behind complete lines does not change how they are read. -/
theorem Reaches.append (h : Reaches marks output text segments rest) (hends : EndsLine text)
    (hclosing : '\n' ∉ marks.closing.chars) (more : List Char) :
    Reaches marks output (text ++ more) segments (rest ++ more) := by
  induction h with
  | start => exact .start
  | step hs _ ih => exact .step (hs.append hends hclosing more) (ih (hs.endsLine_rest hends))

/-- What is shown of complete lines ends with a newline, or nothing is shown: where the newline
behind the last block is taken, the output stood at the start of a line before the block. -/
theorem Reaches.endsLine (h : Reaches marks output text segments rest) (hends : EndsLine text)
    (hclosing : '\n' ∉ marks.closing.chars) (hout : EndsLine (output ++ text)) :
    EndsLine (output ++ segments.flatMap (·.shown marks) ++ rest) := by
  induction h with
  | start => simpa using hout
  | @step output text middle rest segment segments hs _ ih =>
    have hmiddle := hs.endsLine_rest hends
    rw [List.flatMap_cons, ← List.append_assoc output]
    refine ih hmiddle ?_
    -- Behind the last block nothing is left, and then it has taken the newline behind it.
    rcases eq_or_ne middle [] with rfl | hne
    · rcases hs.takes with ⟨-, hvisible, hline, -⟩ | ⟨htaken, -⟩
      · rw [List.append_nil, Segment.shown, hvisible, List.append_nil]
        exact hline
      · exact absurd (by rw [htaken, List.append_nil]) (hs.ne_nil_behind hends hclosing)
    · exact hmiddle.append hne _

/-- A segment behind text without opening token is read from there with the text in its literal. -/
theorem Step.behind (h : Step marks (output ++ last) text segment rest)
    (hnone : ¬marks.opening.chars <:+: last)
    (hlast : ∀ c ∈ last.getLast?, c ∉ marks.opening.chars) :
    Step marks output (last ++ text) ⟨last ++ segment.literal, segment.body, segment.taken⟩
      rest := by
  refine ⟨h.opens.behind hnone hlast, h.closes, h.flat, ?_⟩
  rw [← List.append_assoc]
  exact h.takes

/-- An opening token that is not closed is not closed behind text without opening token. -/
theorem not_nextCloses_behind (h : ¬NextCloses marks text) (hnone : ¬marks.opening.chars <:+: last)
    (hlast : ∀ c ∈ last.getLast?, c ∉ marks.opening.chars) : ¬NextCloses marks (last ++ text) :=
  fun hcloses => h fun _ _ hfirst => hcloses _ _ (hfirst.behind hnone hlast)

/-- Text without opening token is shown and counted before what follows it. -/
theorem scanFrom_behind (hnone : ¬marks.opening.chars <:+: last)
    (hlast : ∀ c ∈ last.getLast?, c ∉ marks.opening.chars) (shown : List Char) (line : Nat)
    (text : List Char) :
    scanFrom marks shown line (last ++ text) =
      (scanFrom marks (last.reverse ++ shown) (line + newlines last) text).map
        fun behind => ⟨last ++ behind.text, behind.blocks, behind.visibleLines⟩ := by
  cases hnext : next marks text with
  | plain =>
    have htext := not_found_of_next_eq_plain hnext
    have hwhole : ¬marks.opening.chars <:+: last ++ text := by
      rintro ⟨b, a, hfound⟩
      obtain ⟨front, -, hmore⟩ := behind_of_eq hnone hlast hfound.symm
      exact htext ⟨front, a, hmore.symm⟩
    rw [scanFrom_of_not_found htext, scanFrom_of_not_found hwhole]
    rfl
  | unclosed before =>
    have hopen := not_nextCloses_of_next_eq_unclosed hnext
    obtain ⟨literal, opened, hfirst, herror⟩ :=
      scanFrom_of_not_nextCloses hopen (last.reverse ++ shown) (line + newlines last)
    obtain ⟨literal', opened', hfirst', herror'⟩ :=
      scanFrom_of_not_nextCloses (not_nextCloses_behind hopen hnone hlast) shown line
    obtain ⟨rfl, -⟩ := hfirst'.unique (hfirst.behind hnone hlast)
    rw [herror, herror', newlines_append, Nat.add_assoc]
    rfl
  | block before body after =>
    have hread := step_of_next_eq_block (last.reverse ++ shown) _ hnext rfl
    have hstep := hread
    rw [List.reverse_append, List.reverse_reverse] at hstep
    rw [scanFrom_of_step hread, scanFrom_of_step (hstep.behind hnone hlast)]
    simp only [Segment.shown, Segment.lineBreaks, Segment.listed, newlines_append,
      List.reverse_append, List.append_assoc, Nat.add_assoc]
    cases scanFrom marks _ _ (after.drop _) <;> rfl

/-- A block a number of lines further down. -/
def moved (lines : Nat) (block : Block) : Block :=
  ⟨block.line + lines, block.body⟩

/-- Blocks that are counted from further down are further down. -/
theorem blocksFrom_moved (line lines : Nat) (segments : List Segment) :
    blocksFrom (line + lines) segments = (blocksFrom line segments).map (moved lines) := by
  induction segments generalizing line with
  | nil => rfl
  | cons segment segments ih =>
    rw [blocksFrom, Nat.add_right_comm line lines, Nat.add_right_comm line lines, ih]
    rfl

/-- A text that is scanned is scanned from a later line with its blocks further down. -/
theorem scanFrom_moved {shown : List Char} {line : Nat} {annotated : Annotated}
    (h : scanFrom marks shown line text = .ok annotated) (lines : Nat) :
    scanFrom marks shown (line + lines) text =
      .ok ⟨annotated.text, annotated.blocks.map (moved lines), annotated.visibleLines⟩ := by
  have hscanned := scanFrom_scanned marks shown line text
  rw [h] at hscanned
  obtain ⟨segments, last, hreach, hlast, -, -⟩ := hscanned
  obtain rfl := Except.ok.inj (h.symm.trans (scanFrom_of_reaches_last hreach hlast line))
  rw [scanFrom_of_reaches_last hreach hlast, blocksFrom_moved]

/-- Whether a text is scanned does not depend on the line on which it begins. -/
theorem scanFrom_ok_iff_moved (shown : List Char) (line lines : Nat) (text : List Char) :
    (∃ annotated, scanFrom marks shown (line + lines) text = .ok annotated) ↔
      ∃ annotated, scanFrom marks shown line text = .ok annotated := by
  refine ⟨fun ⟨annotated, h⟩ => ?_, fun ⟨_, h⟩ => ⟨_, scanFrom_moved h lines⟩⟩
  have hscanned := scanFrom_scanned marks shown (line + lines) text
  rw [h] at hscanned
  obtain ⟨segments, last, hreach, hlast, -, -⟩ := hscanned
  exact ⟨_, scanFrom_of_reaches_last hreach hlast line⟩

/-- A block with the given body, as it is written. -/
def writtenBlock (marks : Marks) (body : String) : String :=
  marks.opening.toString ++ body ++ marks.closing.toString

/-- A block with the given body shows nothing: its first closing token is the one behind the body,
and the body has no opening token and no visible text. -/
structure Hides (marks : Marks) (body : List Char) : Prop where
  /-- The body ends at the first closing token. -/
  closes : FirstAt marks.closing.chars (body ++ marks.closing.chars) body []
  /-- The body contains no opening token. -/
  flat : ¬marks.opening.chars <:+: body
  /-- The body has no visible text. -/
  shows : visible marks body = []

/-- The written block is its tokens and its body. -/
theorem toList_writtenBlock (marks : Marks) (body : String) :
    (writtenBlock marks body).toList =
      marks.opening.chars ++ body.toList ++ marks.closing.chars := by
  simp [writtenBlock, Token.toString]

/-- What is shown of complete lines ends with a newline, or nothing is shown. -/
theorem endsLine_of_scan {before : String} {preceding : Annotated}
    (hclosing : '\n' ∉ marks.closing.chars) (hends : EndsLine before.toList)
    (h : scan marks before = .ok preceding) : EndsLine preceding.text := by
  obtain ⟨segments, last, hreach, -, -, htext, -⟩ := (scan_grammar marks before).2.1 _ h
  rw [htext]
  exact hreach.endsLine hends hclosing hends

/-- Complete lines are scanned before what follows them. -/
theorem scan_append {before : String} {preceding : Annotated}
    (hopening : '\n' ∉ marks.opening.chars) (hclosing : '\n' ∉ marks.closing.chars)
    (hends : EndsLine before.toList) (h : scan marks before = .ok preceding) (after : String) :
    scan marks (before ++ after) =
      (scanFrom marks preceding.text.reverse (1 + newlines before.toList) after.toList).map
        fun rest => ⟨preceding.text ++ rest.text, preceding.blocks ++ rest.blocks,
          preceding.visibleLines ++ rest.visibleLines⟩ := by
  obtain ⟨segments, last, hreach, hlast, htext, -⟩ := (scan_grammar marks before).2.1 _ h
  obtain rfl := Except.ok.inj (h.symm.trans (scan_of_reaches hreach hlast))
  have hline : lineBehind 1 segments + newlines last = 1 + newlines before.toList := by
    have hbehind := lineBehind_add marks 1 segments
    have htokens : tokenBreaks marks = 0 := by
      rw [tokenBreaks, newlines, newlines, List.count_eq_zero.mpr hopening,
        List.count_eq_zero.mpr hclosing]
    rw [htokens, Nat.mul_zero, Nat.add_zero] at hbehind
    rw [htext, newlines_append, hbehind, Nat.add_assoc]
  have hlines : EndsLine last := by
    rw [htext] at hends
    exact hends.of_append
  rw [scan, String.toList_append, scanFrom_of_reaches (hreach.append hends hclosing _) rfl,
    scanFrom_behind hlast (hlines.not_mem hopening), hline]
  simp only [List.append_nil, List.reverse_append]
  cases scanFrom marks _ _ after.toList <;> simp [Except.map]

/-- A block that is scanned alone, and shows nothing then, shows nothing. -/
theorem hides_of_scan {body : String} {alone : Annotated} (hclosing : '\n' ∉ marks.closing.chars)
    (h : scan marks (writtenBlock marks body) = .ok alone) (hone : alone.blocks.length = 1)
    (hnothing : alone.text = []) : Hides marks body.toList := by
  obtain ⟨segments, last, hreach, -, -, htext, hbodies⟩ := (scan_grammar marks _).2.1 _ h
  have hlength : segments.length = 1 := by
    rw [← hone]
    simpa using (congrArg List.length hbodies).symm
  obtain ⟨⟨literal, read, taken⟩, rfl⟩ := List.length_eq_one_iff.mp hlength
  obtain ⟨rfl, hvisible, rfl⟩ : literal = [] ∧ visible marks read = [] ∧ last = [] := by
    simpa [hnothing, Segment.shown] using htext
  cases hreach with
  | step hs hrest =>
    cases hrest
    have hwritten : body.toList ++ marks.closing.chars = read ++ marks.closing.chars ++ taken := by
      have hopens := hs.opens.eq
      rw [toList_writtenBlock] at hopens
      simpa using hopens
    have htaken : taken = [] := by
      rcases hs.takes with ⟨htaken, -⟩ | ⟨htaken, -⟩
      · have hends : EndsLine (body.toList ++ marks.closing.chars ++ []) := by
          rw [List.append_nil, hwritten]
          exact .inr ⟨_, congrArg _ htaken⟩
        exact absurd rfl (hends.ne_nil_behind hclosing)
      · exact htaken
    subst htaken
    rw [List.append_nil] at hwritten
    obtain rfl := List.append_cancel_right hwritten
    exact ⟨by simpa using hs.closes, hs.flat, hvisible⟩

/-- Behind complete lines, a block that shows nothing is read with the newline behind it. -/
theorem Hides.step {body : List Char} (h : Hides marks body) (hends : EndsLine output)
    (after : List Char) :
    Step marks output (marks.opening.chars ++ body ++ marks.closing.chars ++ '\n' :: after)
      ⟨[], body, ['\n']⟩ after := by
  have hline : EndsLine (output ++ []) := by rwa [List.append_nil]
  refine ⟨?_, ?_, h.flat, .inl ⟨rfl, h.shows, hline, after, rfl⟩⟩
  · simpa using firstAt_start marks.opening.chars (body ++ marks.closing.chars ++ '\n' :: after)
  · simpa using h.closes.append ('\n' :: after)

/-- Behind complete lines, a block that shows nothing is scanned as a block and nothing more. -/
theorem scan_append_hidden {before body : String} {preceding : Annotated}
    (hopening : '\n' ∉ marks.opening.chars) (hclosing : '\n' ∉ marks.closing.chars)
    (hends : EndsLine before.toList) (h : scan marks before = .ok preceding)
    (hbody : Hides marks body.toList) (after : String) :
    scan marks (before ++ writtenBlock marks body ++ "\n" ++ after) =
      (scanFrom marks preceding.text.reverse
        (1 + newlines before.toList + (1 + newlines (writtenBlock marks body).toList))
        after.toList).map
          fun rest => ⟨preceding.text ++ rest.text,
            preceding.blocks ++ ⟨1 + newlines before.toList, body.toList⟩ :: rest.blocks,
            preceding.visibleLines ++ rest.visibleLines⟩ := by
  have hstep := hbody.step (endsLine_of_scan hclosing hends h) after.toList
  rw [← List.reverse_reverse preceding.text] at hstep
  have hwritten : (writtenBlock marks body ++ ("\n" ++ after)).toList =
      marks.opening.chars ++ body.toList ++ marks.closing.chars ++ '\n' :: after.toList := by
    rw [String.toList_append, String.toList_append, toList_writtenBlock]
    rfl
  have hbreaks : Segment.lineBreaks ⟨[], body.toList, ['\n']⟩ =
      1 + newlines (writtenBlock marks body).toList := by
    rw [toList_writtenBlock, newlines_append, newlines_append]
    simp [Segment.lineBreaks, newlines, List.count_eq_zero.mpr hopening,
      List.count_eq_zero.mpr hclosing, Nat.add_comm]
  rw [String.append_assoc, String.append_assoc,
    scan_append hopening hclosing hends h, hwritten, scanFrom_of_step hstep, hbreaks]
  simp only [Segment.shown, Segment.listed, hbody.shows, List.append_nil, List.reverse_nil,
    List.nil_append]
  cases scanFrom marks _ _ after.toList <;> rfl

/-- A block that shows nothing, on a line of its own behind complete lines, leaves no trace in what
is shown. The text with it is scanned exactly if the text without it is. Then the same is shown, the
same lines are listed, and the blocks are the same but for the block itself and for the lines of
those behind it. -/
theorem scan_hiddenLine {before body : String} {preceding alone : Annotated}
    (hopening : '\n' ∉ marks.opening.chars) (hclosing : '\n' ∉ marks.closing.chars)
    (hends : EndsLine before.toList) (hbefore : scan marks before = .ok preceding)
    (halone : scan marks (writtenBlock marks body) = .ok alone) (hone : alone.blocks.length = 1)
    (hnothing : alone.text = []) (after : String) :
    ((∃ hidden, scan marks (before ++ writtenBlock marks body ++ "\n" ++ after) = .ok hidden) ↔
      ∃ plain, scan marks (before ++ after) = .ok plain) ∧
    ∀ hidden plain,
      scan marks (before ++ writtenBlock marks body ++ "\n" ++ after) = .ok hidden →
      scan marks (before ++ after) = .ok plain →
      hidden.text = plain.text ∧ hidden.visibleLines = plain.visibleLines ∧
        ∃ later, plain.blocks = preceding.blocks ++ later ∧
          hidden.blocks = preceding.blocks ++ ⟨1 + newlines before.toList, body.toList⟩ ::
            later.map (moved (1 + newlines (writtenBlock marks body).toList)) := by
  have hbody := hides_of_scan hclosing halone hone hnothing
  rw [scan_append_hidden hopening hclosing hends hbefore hbody,
    scan_append hopening hclosing hends hbefore]
  constructor
  · simpa [map_ok_iff] using scanFrom_ok_iff_moved preceding.text.reverse _ _ after.toList
  · intro hidden plain hhidden hplain
    obtain ⟨rest, hrest, rfl⟩ := map_ok_iff.mp hplain
    obtain ⟨further, hfurther, rfl⟩ := map_ok_iff.mp hhidden
    obtain rfl := Except.ok.inj (hfurther.symm.trans (scanFrom_moved hrest _))
    exact ⟨rfl, rfl, rest.blocks, rfl, rfl⟩

/-- Lines with a hidden block that takes its newline, an empty line, and one that is shown. -/
def completeLines : String :=
  "<<|x>>\n\nuse <<-a>>\n"

/-- A hidden block on a line of its own leaves the shown text and moves only the blocks behind it. -/
theorem scan_hiddenLine_between :
    ∃ hidden plain,
      scan doubleMarks
        (completeLines ++ writtenBlock doubleMarks "|y\nCount: 2" ++ "\n" ++ "<<-b>>") = .ok hidden ∧
      scan doubleMarks (completeLines ++ "<<-b>>") = .ok plain ∧
      hidden.text = "\nuse -a\n-b".toList ∧ hidden.text = plain.text ∧
      hidden.visibleLines = [2] ∧ hidden.visibleLines = plain.visibleLines ∧
      plain.blocks.map (·.line) = [1, 3, 4] ∧ hidden.blocks.map (·.line) = [1, 3, 4, 6] := by
  have hbefore : scan doubleMarks completeLines =
      .ok ⟨"\nuse -a\n".toList, [⟨1, "|x".toList⟩, ⟨3, "-a".toList⟩], []⟩ := by
    decide +kernel
  have halone : scan doubleMarks (writtenBlock doubleMarks "|y\nCount: 2") =
      .ok ⟨[], [⟨1, "|y\nCount: 2".toList⟩], []⟩ := by
    decide +kernel
  have hplain : scan doubleMarks (completeLines ++ "<<-b>>") = .ok ⟨"\nuse -a\n-b".toList,
      [⟨1, "|x".toList⟩, ⟨3, "-a".toList⟩, ⟨4, "-b".toList⟩], [2]⟩ := by
    decide +kernel
  have hends : EndsLine completeLines.toList := .inr ⟨"<<|x>>\n\nuse <<-a>>".toList, by decide⟩
  obtain ⟨hsame, htrace⟩ :=
    scan_hiddenLine (by decide) (by decide) hends hbefore halone rfl rfl "<<-b>>"
  obtain ⟨hidden, hhidden⟩ := hsame.mpr ⟨_, hplain⟩
  obtain ⟨htext, hlines, later, hlater, hblocks⟩ := htrace hidden _ hhidden hplain
  obtain rfl : later = [⟨4, "-b".toList⟩] := by simpa using hlater.symm
  exact ⟨hidden, _, hhidden, hplain, htext, htext, hlines, hlines, rfl,
    by rw [hblocks]; decide +kernel⟩

end AnnotatedHelp.Annotated
