import Mathlib
import AnnotatedHelp.Proofs.Scanning

/-!
# Scanning segment by segment

Scanning a text is scanning what stands behind its first segment, with the segment put before the
result; so what scanning comes to behind any number of segments, it comes to at the start. The lines
of blocks are counted along the way, in the text outside the tokens only.
-/

namespace AnnotatedHelp.Annotated

open Text

variable {marks : Marks} {output shown text rest : List Char} {line : Nat} {segment : Segment}
  {segments : List Segment}

/-- The newlines of a segment outside its tokens. -/
def Segment.lineBreaks (segment : Segment) : Nat :=
  newlines segment.literal + newlines segment.body + newlines segment.taken

/-- The line of `text` that a segment is listed with, if it shows a definition at the start of a
line; `shown` was shown before, in reverse. -/
def Segment.listed (marks : Marks) (shown : List Char) (segment : Segment) : List Nat :=
  let shown := segment.literal.reverse ++ shown
  if !(visible marks segment.body).isEmpty && atLineStart shown then [newlines shown] else []

/-- The line that is counted behind segments, of which the first begins on the given line. -/
def lineBehind (line : Nat) (segments : List Segment) : Nat :=
  line + (segments.map (·.lineBreaks)).sum

/-- The blocks of segments, of which the first begins on the given line. -/
def blocksFrom (line : Nat) : List Segment → List Block
  | [] => []
  | segment :: segments =>
    ⟨line + newlines segment.literal, segment.body⟩ ::
      blocksFrom (line + segment.lineBreaks) segments

/-- The lines that segments are listed with, of which the first stands behind what is shown. -/
def listedFrom (marks : Marks) (shown : List Char) : List Segment → List Nat
  | [] => []
  | segment :: segments =>
    segment.listed marks shown ++ listedFrom marks ((segment.shown marks).reverse ++ shown) segments

/-- A segment is counted before those behind it. -/
theorem lineBehind_cons (line : Nat) (segment : Segment) (segments : List Segment) :
    lineBehind line (segment :: segments) = lineBehind (line + segment.lineBreaks) segments := by
  simp only [lineBehind, List.map_cons, List.sum_cons, Nat.add_assoc]

/-- Where a segment is read, its block is the first one. -/
theorem next_of_step (h : Step marks output text segment rest) :
    next marks text = .block segment.literal segment.body (segment.taken ++ rest) := by
  cases hnext : next marks text with
  | plain => exact absurd h.opens.found (not_found_of_next_eq_plain hnext)
  | unclosed before => exact absurd h.nextCloses (not_nextCloses_of_next_eq_unclosed hnext)
  | block before body after =>
    obtain ⟨hopen, hclose, -⟩ := firstAt_of_next_eq_block hnext
    obtain ⟨rfl, hopened⟩ := hopen.unique h.opens
    rw [hopened] at hclose
    obtain ⟨rfl, rfl⟩ := hclose.unique h.closes
    rfl

/-- The scanner drops what a segment takes. -/
theorem taken_of_step (h : Step marks shown.reverse text segment rest) :
    (if takesNewline (segment.literal.reverse ++ shown) (visible marks segment.body)
        (segment.taken ++ rest) then 1 else 0) = newlines segment.taken ∧
      (segment.taken ++ rest).drop (newlines segment.taken) = rest := by
  rcases h.takes with ⟨htaken, hs⟩ | ⟨htaken, hs⟩
  · rw [if_pos (takesNewline_behind_iff.mpr hs), htaken]
    exact ⟨rfl, rfl⟩
  · rw [if_neg (mt takesNewline_behind_iff.mp hs), htaken]
    exact ⟨rfl, rfl⟩

/-- Scanning a text is scanning what stands behind its first segment. -/
theorem scanFrom_of_step (h : Step marks shown.reverse text segment rest) (line : Nat) :
    scanFrom marks shown line text =
      (scanFrom marks ((segment.shown marks).reverse ++ shown) (line + segment.lineBreaks) rest).map
        fun behind => ⟨segment.shown marks ++ behind.text,
          ⟨line + newlines segment.literal, segment.body⟩ :: behind.blocks,
          segment.listed marks shown ++ behind.visibleLines⟩ := by
  obtain ⟨htaken, hrest⟩ := taken_of_step h
  have hshown : (visible marks segment.body).reverse ++ (segment.literal.reverse ++ shown) =
      (segment.shown marks).reverse ++ shown := by
    rw [Segment.shown, List.reverse_append, List.append_assoc]
  have hline : line + newlines segment.literal + newlines segment.body + newlines segment.taken =
      line + segment.lineBreaks := by
    rw [Segment.lineBreaks]
    omega
  rw [scanFrom]
  split
  · next hnext => simp [next_of_step h] at hnext
  · next before hnext => simp [next_of_step h] at hnext
  · next before body after hnext =>
    obtain ⟨rfl, rfl, rfl⟩ := Next.block.inj ((next_of_step h).symm.trans hnext)
    dsimp only
    rw [htaken, hrest, hshown, hline]
    cases scanFrom marks ((segment.shown marks).reverse ++ shown) (line + segment.lineBreaks) rest <;>
      rfl

/-- Scanning a text is scanning what stands behind any segments read from it. -/
theorem scanFrom_of_reaches (h : Reaches marks output text segments rest)
    (ho : output = shown.reverse) (line : Nat) :
    scanFrom marks shown line text =
      (scanFrom marks ((segments.flatMap (·.shown marks)).reverse ++ shown) (lineBehind line segments)
        rest).map fun behind => ⟨segments.flatMap (·.shown marks) ++ behind.text,
          blocksFrom line segments ++ behind.blocks,
          listedFrom marks shown segments ++ behind.visibleLines⟩ := by
  -- What has been shown and the line grow with every segment, so both are general.
  induction h generalizing shown line with
  | start =>
    simp only [List.flatMap_nil, List.reverse_nil, List.nil_append, lineBehind, List.map_nil,
      List.sum_nil, Nat.add_zero, blocksFrom, listedFrom]
    cases scanFrom marks shown line _ <;> rfl
  | @step output text middle rest segment segments hs _ ih =>
    subst ho
    have hshown : (segments.flatMap (·.shown marks)).reverse ++ ((segment.shown marks).reverse ++ shown) =
        ((segment :: segments).flatMap (·.shown marks)).reverse ++ shown := by simp
    rw [scanFrom_of_step hs, ih (by simp), lineBehind_cons, hshown]
    cases scanFrom marks _ (lineBehind (line + segment.lineBreaks) segments) rest <;>
      simp [Except.map, blocksFrom, listedFrom]

/-- An opening token that is not closed is the next one of the text. -/
theorem firstAt_of_next_eq_unclosed {before : List Char} (h : next marks text = .unclosed before) :
    ∃ opened, FirstAt marks.opening.chars text before opened := by
  unfold next at h
  split at h
  · cases h
  · next literal opened hopen =>
    refine ⟨opened, ?_⟩
    split at h
    · cases h
      exact firstAt_of_cut hopen
    · split at h <;> cases h
      exact firstAt_of_cut hopen

/-- A text whose next opening token is not closed is refused at the line of that token. -/
theorem scanFrom_of_not_nextCloses (h : ¬NextCloses marks text) (shown : List Char) (line : Nat) :
    ∃ literal opened, FirstAt marks.opening.chars text literal opened ∧
      scanFrom marks shown line text =
        .error ((Problem.unclosedDefinition marks.closing.toString).atLines
          [line + newlines literal]) := by
  cases hnext : next marks text with
  | plain =>
    refine absurd (fun literal opened hfirst => ?_) h
    exact absurd hfirst.found (not_found_of_next_eq_plain hnext)
  | block before body after =>
    obtain ⟨hopen, hclose, hflat⟩ := firstAt_of_next_eq_block hnext
    refine absurd (fun literal opened hfirst => ?_) h
    obtain ⟨rfl, rfl⟩ := hopen.unique hfirst
    exact ⟨body, after, hclose, hflat⟩
  | unclosed before =>
    obtain ⟨opened, hfirst⟩ := firstAt_of_next_eq_unclosed hnext
    refine ⟨before, opened, hfirst, ?_⟩
    rw [scanFrom]
    split <;> simp_all

/-- A scan that fails has come, behind the segments it has read, to an opening token that is not
closed, and reports the line of that token. -/
theorem scan_unclosed {text : String} {diagnostic : Diagnostic}
    (h : scan marks text = .error diagnostic) :
    ∃ segments rest literal opened, Reaches marks [] text.toList segments rest ∧
      FirstAt marks.opening.chars rest literal opened ∧ ¬NextCloses marks rest ∧
      diagnostic = (Problem.unclosedDefinition marks.closing.toString).atLines
        [lineBehind 1 segments + newlines literal] := by
  have hscanned := scanFrom_scanned marks [] 1 text.toList
  rw [← scan, h] at hscanned
  obtain ⟨-, segments, rest, hreach, hopen⟩ := hscanned
  obtain ⟨literal, opened, hfirst, herror⟩ := scanFrom_of_not_nextCloses hopen
    ((segments.flatMap (·.shown marks)).reverse ++ []) (lineBehind 1 segments)
  refine ⟨segments, rest, literal, opened, hreach, hfirst, hopen, ?_⟩
  rw [scan, scanFrom_of_reaches hreach rfl, herror] at h
  exact (Except.error.inj h).symm

/-- A text without opening token is shown as it is. -/
theorem scanFrom_of_not_found (h : ¬marks.opening.chars <:+: text) (shown : List Char) (line : Nat) :
    scanFrom marks shown line text = .ok ⟨text, [], []⟩ := by
  have hplain : next marks text = .plain := by
    unfold next
    cases hcut : cut marks.opening.chars text with
    | none => rfl
    | some parts => exact absurd (firstAt_of_cut hcut).found h
  rw [scanFrom]
  split <;> simp_all

/-- A text that is read to the end is scanned as its segments, with the lines counted for them. -/
theorem scanFrom_of_reaches_last {last : List Char}
    (h : Reaches marks shown.reverse text segments last) (hlast : ¬marks.opening.chars <:+: last)
    (line : Nat) :
    scanFrom marks shown line text = .ok ⟨segments.flatMap (·.shown marks) ++ last,
      blocksFrom line segments, listedFrom marks shown segments⟩ := by
  rw [scanFrom_of_reaches h rfl, scanFrom_of_not_found hlast]
  simp [Except.map]

/-- A text that is read to the end from the start is scanned as its segments. -/
theorem scan_of_reaches {text : String} {last : List Char}
    (h : Reaches marks [] text.toList segments last) (hlast : ¬marks.opening.chars <:+: last) :
    scan marks text = .ok ⟨segments.flatMap (·.shown marks) ++ last, blocksFrom 1 segments,
      listedFrom marks [] segments⟩ :=
  scanFrom_of_reaches_last h hlast 1

/-- In a text that can be scanned, every opening token that reading comes to is closed. -/
theorem nextCloses_of_scan {text : String} {annotated : Annotated}
    (h : scan marks text = .ok annotated) (hr : Reaches marks [] text.toList segments rest) :
    NextCloses marks rest := by
  have hscanned := scanFrom_scanned marks [] 1 text.toList
  rw [← scan, h] at hscanned
  obtain ⟨_, _, hreach, hlast, -⟩ := hscanned
  exact hreach.nextCloses hlast hr

end AnnotatedHelp.Annotated
