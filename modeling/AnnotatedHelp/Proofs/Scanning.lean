import Mathlib
import AnnotatedHelp.Definition.Block
import AnnotatedHelp.Proofs.Occurrence

/-!
# The grammar of blocks

Reading a text from left to right takes one segment after another: the text before the next opening
token, the body up to the next closing token, and perhaps the newline behind it. What was shown so
far takes part, because a newline is taken only where the output stands at the start of a line.
Scanning succeeds exactly when reading never comes to an opening token that is not closed, and the
segments make up both the text and what is shown of it.
-/

namespace AnnotatedHelp.Annotated

open Text

/-- A block as it stands in a text. -/
structure Segment where
  /-- The text between the block before, or the start, and the opening token. -/
  literal : List Char
  /-- The text between the tokens. -/
  body : List Char
  /-- The newline that the block takes with it, or nothing. -/
  taken : List Char

namespace Segment

/-- The segment as it is written. -/
def source (marks : Marks) (segment : Segment) : List Char :=
  segment.literal ++ marks.opening.chars ++ segment.body ++ marks.closing.chars ++ segment.taken

/-- The segment as it is shown. -/
def shown (marks : Marks) (segment : Segment) : List Char :=
  segment.literal ++ visible marks segment.body

end Segment

/-- Whether a block takes the newline behind it: it shows nothing, the output stands at the start of
a line, and a newline follows. -/
def Swallows (marks : Marks) (output body after : List Char) : Prop :=
  visible marks body = [] ∧ (output = [] ∨ ∃ line, output = line ++ ['\n']) ∧
    ∃ rest, after = '\n' :: rest

/-- One segment is read from a text, of which `rest` is left; `output` was shown before. -/
structure Step (marks : Marks) (output text : List Char) (segment : Segment) (rest : List Char) :
    Prop where
  /-- The opening token is the first one of the text. -/
  opens : FirstAt marks.opening.chars text segment.literal
    (segment.body ++ marks.closing.chars ++ segment.taken ++ rest)
  /-- The closing token is the first one behind the opening token. -/
  closes : FirstAt marks.closing.chars
    (segment.body ++ marks.closing.chars ++ segment.taken ++ rest) segment.body
    (segment.taken ++ rest)
  /-- The body contains no opening token. -/
  flat : ¬marks.opening.chars <:+: segment.body
  /-- A newline is taken exactly where it is swallowed. -/
  takes : segment.taken = ['\n'] ∧
      Swallows marks (output ++ segment.literal) segment.body (segment.taken ++ rest) ∨
    segment.taken = [] ∧
      ¬Swallows marks (output ++ segment.literal) segment.body (segment.taken ++ rest)

/-- Segments are read from a text one after another, and `rest` is left. -/
inductive Reaches (marks : Marks) : (output text : List Char) → List Segment → List Char → Prop
  /-- Nothing is read. -/
  | start {output text : List Char} : Reaches marks output text [] text
  /-- A segment is read, and others behind it. -/
  | step {output text middle rest : List Char} {segment : Segment} {segments : List Segment} :
      Step marks output text segment middle →
      Reaches marks (output ++ segment.shown marks) middle segments rest →
      Reaches marks output text (segment :: segments) rest

/-- The next opening token of a text, if there is one, is followed by a closing token, and no
opening token stands before the first closing token. -/
def NextCloses (marks : Marks) (text : List Char) : Prop :=
  ∀ literal opened, FirstAt marks.opening.chars text literal opened →
    ∃ body after, FirstAt marks.closing.chars opened body after ∧ ¬marks.opening.chars <:+: body

section Reading

variable {marks : Marks} {output text rest : List Char} {segment : Segment}
  {segments : List Segment}

/-- A text is its segments and what is left behind them. -/
theorem Reaches.text_eq (h : Reaches marks output text segments rest) :
    text = segments.flatMap (·.source marks) ++ rest := by
  induction h with
  | start => rfl
  | step hs _ ih =>
    rw [hs.opens.eq, ih]
    simp [Segment.source]

/-- One segment can be read in one way only. -/
theorem Step.unique {other : Segment} {rest' : List Char}
    (h : Step marks output text segment rest) (h' : Step marks output text other rest') :
    segment = other ∧ rest = rest' := by
  obtain ⟨literal, body, taken⟩ := segment
  obtain ⟨literal', body', taken'⟩ := other
  obtain ⟨rfl, hopened⟩ := h.opens.unique h'.opens
  have hcloses := h'.closes
  rw [← hopened] at hcloses
  obtain ⟨rfl, hafter⟩ := h.closes.unique hcloses
  have htakes := h'.takes
  dsimp only at hafter htakes
  rw [← hafter] at htakes
  have hsame : taken = taken' := by
    rcases h.takes with ⟨ht, hs⟩ | ⟨ht, hs⟩ <;> rcases htakes with ⟨ht', hs'⟩ | ⟨ht', hs'⟩
    · exact ht.trans ht'.symm
    · exact absurd hs hs'
    · exact absurd hs' hs
    · exact ht.trans ht'.symm
  subst hsame
  exact ⟨rfl, List.append_cancel_left hafter⟩

/-- Where a segment is read, the next opening token is closed. -/
theorem Step.nextCloses (h : Step marks output text segment rest) : NextCloses marks text := by
  intro literal opened ho
  obtain ⟨_, rfl⟩ := ho.unique h.opens
  exact ⟨segment.body, _, h.closes, h.flat⟩

/-- Reading that has come to a text without opening token never comes to one that is not closed. -/
theorem Reaches.nextCloses {last : List Char} (h : Reaches marks output text segments last)
    (hl : ¬marks.opening.chars <:+: last) {others : List Segment}
    (ho : Reaches marks output text others rest) : NextCloses marks rest := by
  induction ho generalizing segments with
  | start =>
    cases h with
    | start =>
      intro literal opened hfirst
      exact absurd hfirst.found hl
    | step hs _ => exact hs.nextCloses
  | step hs' hr' ih =>
    cases h with
    | start => exact absurd hs'.opens.found hl
    | step hs hr =>
      obtain ⟨rfl, rfl⟩ := hs.unique hs'
      exact ih hr

end Reading

section Scanning

variable {marks : Marks} {output text : List Char}

/-- A text is shown as it is where no opening token occurs. -/
theorem not_found_of_next_eq_plain (h : next marks text = .plain) :
    ¬marks.opening.chars <:+: text := by
  unfold next at h
  split at h
  · next ho => exact not_found_of_cut_eq_none ho
  · split at h
    · cases h
    · split at h <;> cases h

/-- A text is refused where the next opening token is not closed. -/
theorem not_nextCloses_of_next_eq_unclosed {before : List Char}
    (h : next marks text = .unclosed before) : ¬NextCloses marks text := by
  intro hcloses
  unfold next at h
  split at h
  · cases h
  · next literal opened ho =>
    obtain ⟨body, after, hfirst, hflat⟩ := hcloses _ _ (firstAt_of_cut ho)
    split at h
    · next hc => exact not_found_of_cut_eq_none hc hfirst.found
    · next hc =>
      obtain ⟨rfl, rfl⟩ := (firstAt_of_cut hc).unique hfirst
      split at h
      · next hnested => exact hflat (occurs_iff_found.mp hnested)
      · cases h

/-- A block stands between the next opening token and the closing token behind it. -/
theorem firstAt_of_next_eq_block {before body after : List Char}
    (h : next marks text = .block before body after) :
    FirstAt marks.opening.chars text before (body ++ marks.closing.chars ++ after) ∧
      FirstAt marks.closing.chars (body ++ marks.closing.chars ++ after) body after ∧
      ¬marks.opening.chars <:+: body := by
  unfold next at h
  split at h
  · cases h
  · next literal opened ho =>
    split at h
    · cases h
    · next hc =>
      split at h
      · cases h
      · next hnested =>
        cases h
        have hclose := firstAt_of_cut hc
        have hopen := firstAt_of_cut ho
        obtain rfl := hclose.eq
        exact ⟨hopen, hclose, fun hfound => hnested (occurs_iff_found.mpr hfound)⟩

/-- The test for a swallowed newline looks at the end of the output and at what follows. -/
theorem takesNewline_iff {shown body after : List Char} :
    takesNewline shown (visible marks body) after = true ↔
      Swallows marks shown.reverse body after := by
  have hline : atEmptyLine shown = true ↔
      (shown.reverse = [] ∨ ∃ line, shown.reverse = line ++ ['\n']) := by
    cases shown with
    | nil => simp [atEmptyLine]
    | cons c shown =>
      constructor
      · intro h
        have hc : c = '\n' := by simpa [atEmptyLine] using h
        exact .inr ⟨shown.reverse, by simp [hc]⟩
      · rintro (h | ⟨line, h⟩)
        · simp at h
        · rw [List.reverse_cons] at h
          have hc := (List.append_inj' h rfl).2
          simpa [atEmptyLine] using hc
  have hafter : (after.head? == some '\n') = true ↔ ∃ rest, after = '\n' :: rest := by
    cases after with
    | nil => simp
    | cons c after => simp
  rw [takesNewline, Bool.and_eq_true, Bool.and_eq_true, hline, hafter, List.isEmpty_iff, and_assoc]
  rfl

/-- The text before a block is shown before the test is made. -/
theorem takesNewline_behind_iff {shown literal body after : List Char} :
    takesNewline (literal.reverse ++ shown) (visible marks body) after = true ↔
      Swallows marks (shown.reverse ++ literal) body after := by
  rw [takesNewline_iff, List.reverse_append, List.reverse_reverse]

/-- A block with its newline, if it takes one, is one step of reading. -/
theorem step_of_next_eq_block (shown : List Char) (taken : Nat) {before body after : List Char}
    (h : next marks text = .block before body after)
    (ht : taken = if takesNewline (before.reverse ++ shown) (visible marks body) after then 1
      else 0) :
    Step marks shown.reverse text ⟨before, body, after.take taken⟩ (after.drop taken) := by
  obtain ⟨hopen, hclose, hflat⟩ := firstAt_of_next_eq_block h
  refine ⟨?_, ?_, hflat, ?_⟩
  · simpa using hopen
  · simpa using hclose
  · dsimp only
    rw [List.take_append_drop]
    by_cases hs : takesNewline (before.reverse ++ shown) (visible marks body) after = true
    · left
      obtain ⟨_, _, rest, rfl⟩ := takesNewline_behind_iff.mp hs
      rw [if_pos hs] at ht
      exact ⟨by rw [ht]; rfl, takesNewline_behind_iff.mp hs⟩
    · right
      rw [if_neg hs] at ht
      exact ⟨by rw [ht]; rfl, fun hsw => hs (takesNewline_behind_iff.mpr hsw)⟩

/-- What scanning a text comes to: segments that make up the text and what is shown of it, or a
place where the next opening token is not closed. -/
def Scanned (marks : Marks) (output text : List Char) : Except Diagnostic Annotated → Prop
  | .ok annotated => ∃ segments last, Reaches marks output text segments last ∧
      ¬marks.opening.chars <:+: last ∧
      annotated.text = segments.flatMap (·.shown marks) ++ last ∧
      annotated.blocks.map (·.body) = segments.map (·.body)
  | .error diagnostic => diagnostic.category = .malformedDefinition ∧
      ∃ segments rest, Reaches marks output text segments rest ∧ ¬NextCloses marks rest

/-- What is read behind a segment and what is shown behind it follow the segment itself. -/
theorem Scanned.step {middle : List Char} {segment : Segment} {rest : Annotated}
    (hs : Step marks output text segment middle)
    (h : Scanned marks (output ++ segment.shown marks) middle (.ok rest)) (line : Nat)
    (lines : List Nat) :
    Scanned marks output text (.ok ⟨segment.shown marks ++ rest.text,
      ⟨line, segment.body⟩ :: rest.blocks, lines⟩) := by
  obtain ⟨segments, last, hreach, hlast, htext, hblocks⟩ := h
  refine ⟨segment :: segments, last, .step hs hreach, hlast, ?_, ?_⟩
  · simp [htext]
  · simp [hblocks]

/-- A failure behind a segment is a failure of the text. -/
theorem Scanned.step_error {middle : List Char} {segment : Segment} {diagnostic : Diagnostic}
    (hs : Step marks output text segment middle)
    (h : Scanned marks (output ++ segment.shown marks) middle (.error diagnostic)) :
    Scanned marks output text (.error diagnostic) := by
  obtain ⟨hcategory, segments, rest, hreach, hopen⟩ := h
  exact ⟨hcategory, segment :: segments, rest, .step hs hreach, hopen⟩

/-- Scanning comes to segments, or to an opening token that is not closed. -/
theorem scanFrom_scanned (marks : Marks) (shown : List Char) (line : Nat) (text : List Char) :
    Scanned marks shown.reverse text (scanFrom marks shown line text) := by
  fun_induction scanFrom marks shown line text with
  | case1 shown line text h =>
    exact ⟨[], text, .start, not_found_of_next_eq_plain h, rfl, rfl⟩
  | case2 shown line text before h =>
    exact ⟨rfl, [], text, .start, not_nextCloses_of_next_eq_unclosed h⟩
  | case3 shown line text before body after h _ output line' shows taken _ diagnostic hr ih =>
    rw [hr] at ih
    have hstep := step_of_next_eq_block shown taken h (by simp [taken, output, shows])
    refine .step_error hstep ?_
    simpa [output, shows, Segment.shown] using ih
  | case4 shown line text before body after h _ output line' shows listed taken _ rest hr ih =>
    rw [hr] at ih
    have hstep := step_of_next_eq_block shown taken h (by simp [taken, output, shows])
    refine .step hstep ?_ line' (listed ++ rest.visibleLines)
    simpa [output, shows, Segment.shown] using ih

/-- Scanning accepts exactly the texts in which every block that reading comes to is closed. The
segments read then make up the text, their bodies are the definitions, and what they show is the
shown text. Every failure is that of a malformed definition. -/
theorem scan_grammar (marks : Marks) (text : String) :
    ((∃ annotated, scan marks text = .ok annotated) ↔
      ∀ segments rest, Reaches marks [] text.toList segments rest → NextCloses marks rest) ∧
    (∀ annotated, scan marks text = .ok annotated →
      ∃ segments last, Reaches marks [] text.toList segments last ∧
        ¬marks.opening.chars <:+: last ∧
        text.toList = segments.flatMap (·.source marks) ++ last ∧
        annotated.text = segments.flatMap (·.shown marks) ++ last ∧
        annotated.blocks.map (·.body) = segments.map (·.body)) ∧
    ∀ diagnostic, scan marks text = .error diagnostic →
      diagnostic.category = .malformedDefinition := by
  have hscanned := scanFrom_scanned marks [] 1 text.toList
  change Scanned marks [] text.toList (scan marks text) at hscanned
  cases h : scan marks text with
  | ok annotated =>
    rw [h] at hscanned
    obtain ⟨segments, last, hreach, hlast, htext, hblocks⟩ := hscanned
    refine ⟨⟨fun _ others rest ho => hreach.nextCloses hlast ho, fun _ => ⟨_, rfl⟩⟩, ?_, by simp⟩
    intro other he
    cases he
    exact ⟨segments, last, hreach, hlast, hreach.text_eq, htext, hblocks⟩
  | error diagnostic =>
    rw [h] at hscanned
    obtain ⟨hcategory, segments, rest, hreach, hopen⟩ := hscanned
    refine ⟨⟨by simp, fun hall => absurd (hall segments rest hreach) hopen⟩, by simp, ?_⟩
    intro other he
    cases he
    exact hcategory

end Scanning

/-- Tokens of two characters. -/
def doubleMarks : Marks :=
  ⟨⟨"<<".toList, by decide⟩, ⟨">>".toList, by decide⟩, ⟨"|".toList, by decide⟩⟩

/-- Hidden blocks behind text keep their newline, one at the start of a line takes it, and the first
of three closing characters belongs to a closing token. -/
def crowdedText : String :=
  "a<<|x>><<|y>>\n<<|b>>\nA <<b|z>>>"

/-- The text is cut into four segments and what is left behind them, as the grammar says. -/
theorem scan_grammar_crowded :
    ∃ annotated, scan doubleMarks crowdedText = .ok annotated ∧
      annotated.text = "a\nA b>".toList ∧
      ∃ segments last, Reaches doubleMarks [] crowdedText.toList segments last ∧
        "a\nA b>".toList = segments.flatMap (·.shown doubleMarks) ++ last ∧
        ["|x".toList, "|y".toList, "|b".toList, "b|z".toList] = segments.map (·.body) := by
  have hscan : scan doubleMarks crowdedText = .ok ⟨"a\nA b>".toList, [⟨1, "|x".toList⟩,
      ⟨1, "|y".toList⟩, ⟨2, "|b".toList⟩, ⟨3, "b|z".toList⟩], []⟩ := by
    decide +kernel
  obtain ⟨segments, last, hreach, _, _, htext, hblocks⟩ :=
    (scan_grammar doubleMarks crowdedText).2.1 _ hscan
  exact ⟨_, hscan, rfl, segments, last, hreach, htext, hblocks⟩

end AnnotatedHelp.Annotated
