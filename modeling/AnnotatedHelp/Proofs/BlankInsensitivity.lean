import Mathlib
import AnnotatedHelp.Proofs.BranchSelection

/-!
# Blanks do not matter to rendering

Rendering looks at the current line only to see whether it is blank, to tell a resolver where it
stands, and to remember a column. A resolver that does not look at the place gives the same answers
whatever blanks stand on the line, and a remembered column is made of blanks itself. So runs from
states that differ in blanks lead to states that differ in blanks.
-/

namespace AnnotatedHelp.Text

/-- The characters of a line that are not blank. -/
def visible (line : List Char) : List Char :=
  line.filter fun c => !isBlank c

/-- A line shows what its parts show. -/
@[simp]
theorem visible_append (line more : List Char) : visible (line ++ more) = visible line ++ visible more :=
  List.filter_append line more

/-- A line is blank exactly when it shows nothing. -/
theorem isBlankLine_iff {line : List Char} : isBlankLine line = true ↔ visible line = [] := by
  simp [isBlankLine, visible, List.filter_eq_nil_iff]

/-- Leading blanks do not show. -/
theorem visible_dropWhile (line : List Char) : visible (line.dropWhile isBlank) = visible line := by
  induction line with
  | nil => rfl
  | cons c line ih =>
    by_cases hblank : isBlank c = true
    · rw [List.dropWhile_cons_of_pos hblank, ih]
      simp [visible, hblank]
    · rw [List.dropWhile_cons_of_neg hblank]

/-- Trailing blanks do not show. -/
@[simp]
theorem visible_trimEnd (line : List Char) : visible (trimEnd line) = visible line := by
  have hreverse : ∀ text : List Char, visible text.reverse = (visible text).reverse :=
    fun text => List.filter_reverse
  rw [trimEnd, hreverse, visible_dropWhile, hreverse, List.reverse_reverse]

/-- A part of a line that shows nothing shows nothing. -/
theorem visible_drop {line : List Char} (h : visible line = []) (count : Nat) :
    visible (line.drop count) = [] := by
  have hpart : (visible (line.drop count)).Sublist (visible line) :=
    (List.drop_sublist count line).filter _
  rw [h] at hpart
  exact List.sublist_nil.mp hpart

end AnnotatedHelp.Text

namespace AnnotatedHelp.Template

open Text

/-- What leads to a column is blank. -/
theorem visible_alignment (line : List Char) : visible (Context.ofLine line).alignment = [] := by
  have hindentation : ∀ c, Context.isIndentation c = true → isBlank c = true := by
    intro c hc
    rcases Bool.or_eq_true_iff.mp hc with hspace | htab
    · rw [eq_of_beq hspace]
      rfl
    · rw [eq_of_beq htab]
      rfl
  unfold Context.alignment Context.ofLine
  rw [visible_append, List.append_eq_nil_iff, ← isBlankLine_iff, ← isBlankLine_iff]
  refine ⟨?_, ?_⟩
  · rw [String.toList_ofList]
    exact List.all_eq_true.mpr fun c hc => hindentation c (List.mem_takeWhile_imp hc)
  · exact List.all_eq_true.mpr fun c hc => by rw [List.eq_of_mem_replicate hc]; rfl

namespace State

/-- Two states differ in blanks only: on the finished lines and the current one, and in how far the
remembered columns lie, which are blank. Where the questions were asked may differ as well. -/
structure Alike (state other : State) : Prop where
  /-- The finished lines show the same. -/
  finished : state.finished.map (visible ·.toList) = other.finished.map (visible ·.toList)
  /-- The current lines show the same. -/
  current : visible state.current = visible other.current
  /-- The same branches are taken. -/
  scopes : state.scopes = other.scopes
  /-- As many columns are remembered. -/
  alignments : state.alignments.length = other.alignments.length
  /-- What leads to the columns is blank. -/
  blank : ∀ column ∈ state.alignments ++ other.alignments, visible column = []
  /-- A newline is dropped in both or in neither. -/
  dropNewline : state.dropNewline = other.dropNewline

/-- The state before the first token is like itself. -/
theorem alike_start : Alike start start :=
  ⟨rfl, rfl, rfl, rfl, nofun, rfl⟩

variable {resolver : Resolver} {answers : Answers} {state other after : State}

namespace Alike

/-- Like states agree on whether the line is blank. -/
theorem isBlankLine (h : Alike state other) : state.isBlankLine = other.isBlankLine := by
  rw [Bool.eq_iff_iff]
  unfold State.isBlankLine
  rw [isBlankLine_iff, isBlankLine_iff, h.current]

/-- Like states stand in like branches. -/
theorem scope (h : Alike state other) : state.scope = other.scope :=
  congrArg (·.headD .active) h.scopes

/-- Finishing the lines of like states. -/
theorem finishLine (h : Alike state other) : Alike state.finishLine other.finishLine := by
  refine ⟨?_, rfl, h.scopes, h.alignments, h.blank, h.dropNewline⟩
  simp only [State.finishLine, List.map_cons, String.toList_ofList, visible_trimEnd]
  rw [h.finished, h.current]

/-- Appending what shows the same. -/
theorem append (h : Alike state other) {text text' : List Char} (htext : visible text = visible text') :
    Alike (state.append text) (other.append text') := by
  refine ⟨h.finished, ?_, h.scopes, h.alignments, h.blank, h.dropNewline⟩
  simp only [State.append, visible_append]
  rw [h.current, htext]

/-- Beginning further lines that show the same. -/
theorem foldl_nextLine (h : Alike state other) {texts texts' : List (List Char)}
    (htexts : texts.map visible = texts'.map visible) :
    Alike (texts.foldl nextLine state) (texts'.foldl nextLine other) := by
  induction texts generalizing state other texts' with
  | nil =>
    obtain rfl := List.map_eq_nil_iff.mp htexts.symm
    exact h
  | cons text texts ih =>
    obtain ⟨text', rest, rfl, htext, hrest⟩ := List.map_eq_cons_iff.mp htexts.symm
    exact ih (h.finishLine.append htext.symm) hrest.symm

/-- Appending a text. -/
theorem addText (h : Alike state other) (text : List Char) :
    Alike (state.addText text) (other.addText text) := by
  unfold State.addText
  split
  · exact h
  · exact (h.append rfl).foldl_nextLine rfl

/-- Appending a value; further lines of it may begin at different columns. -/
theorem addValue (h : Alike state other) (value : Value) :
    Alike (state.addValue value) (other.addValue value) := by
  cases value with
  | lines lines =>
    cases lines with
    | nil => exact h
    | cons first rest =>
      refine (h.append rfl).foldl_nextLine ?_
      simp [context, visible_alignment, Function.comp_def]
  | _ => exact h.addText _

/-- Noting a blank line. -/
theorem noteBlankLine (h : Alike state other) : Alike state.noteBlankLine other.noteBlankLine :=
  ⟨h.finished, h.current, h.scopes, h.alignments, h.blank, h.isBlankLine⟩

/-- Standing in the same blocks. -/
theorem withScopes (h : Alike state other) (scopes : List Scope) :
    Alike { state with scopes := scopes } { other with scopes := scopes } :=
  ⟨h.finished, h.current, rfl, h.alignments, h.blank, h.dropNewline⟩

/-- Going through the next token. -/
theorem settled (h : Alike state other) : Alike state.settled other.settled :=
  ⟨h.finished, h.current, h.scopes, h.alignments, h.blank, rfl⟩

/-- Ending a line. -/
theorem newline (h : Alike state other) : Alike state.newline other.newline := by
  unfold State.newline
  rw [h.scope]
  split
  · exact h.finishLine
  · exact h

/-- A key has the same value wherever the output stands. -/
theorem evaluate (hanswers : ∀ key args context, resolver key args context = answers key args)
    (h : Alike state other) {line : Nat} {directive : List Char} {value : Value}
    (hvalue : state.evaluate resolver line directive = .ok (value, after)) :
    ∃ asked, other.evaluate resolver line directive = .ok (value, asked) ∧ Alike after asked := by
  unfold State.evaluate at hvalue ⊢
  cases hkey : readKey directive with
  | error cause =>
    rw [hkey] at hvalue
    cases hvalue
  | ok found =>
    obtain ⟨key, args⟩ := found
    simp only [hkey, Call.answer, hanswers] at hvalue ⊢
    cases hanswer : answers key args with
    | error error =>
      rw [hanswer] at hvalue
      cases hvalue
    | ok answer =>
      rw [hanswer] at hvalue
      cases hvalue
      exact ⟨_, rfl, h.finished, h.current, h.scopes, h.alignments, h.blank, h.dropNewline⟩

/-- Like states remember a column in both or in neither, and it is blank. -/
theorem exists_alignment (h : Alike state other) {column : List Char} {columns : List (List Char)}
    (hcolumns : state.alignments = column :: columns) :
    ∃ column' columns', other.alignments = column' :: columns' ∧ visible column = [] ∧
      visible column' = [] ∧
        Alike { state with alignments := columns } { other with alignments := columns' } := by
  have hlength := h.alignments
  have hblank := h.blank
  rw [hcolumns] at hlength hblank
  cases hothers : other.alignments with
  | nil =>
    rw [hothers] at hlength
    cases hlength
  | cons column' columns' =>
    rw [hothers] at hlength hblank
    simp only [List.cons_append, List.forall_mem_cons, List.forall_mem_append] at hblank
    obtain ⟨hcolumn, hbelow, hcolumn', hbelow'⟩ := hblank
    exact ⟨column', columns', rfl, hcolumn, hcolumn', h.finished, h.current, h.scopes,
      Nat.succ.inj hlength, List.forall_mem_append.mpr ⟨hbelow, hbelow'⟩, h.dropNewline⟩

/-- Remembering the columns where the lines end. -/
theorem pushAlignment (h : Alike state other) :
    Alike { state with alignments := state.context.alignment :: state.alignments }
      { other with alignments := other.context.alignment :: other.alignments } := by
  refine ⟨h.finished, h.current, h.scopes, congrArg Nat.succ h.alignments, ?_, h.dropNewline⟩
  obtain ⟨hblank, hblank'⟩ := List.forall_mem_append.mp h.blank
  exact List.forall_mem_append.mpr ⟨List.forall_mem_cons.mpr ⟨visible_alignment _, hblank⟩,
    List.forall_mem_cons.mpr ⟨visible_alignment _, hblank'⟩⟩

/-- Going to the columns remembered last. -/
theorem goToMark (h : Alike state other) {line : Nat} (hmark : state.goToMark line = .ok after) :
    ∃ last, other.goToMark line = .ok last ∧ Alike after last := by
  cases hcolumns : state.alignments with
  | nil =>
    rw [goToMark_of_nil hcolumns] at hmark
    cases hmark
  | cons column columns =>
    obtain ⟨column', columns', hcolumns', hcolumn, hcolumn', -⟩ := h.exists_alignment hcolumns
    rw [goToMark_of_cons hcolumns] at hmark
    cases hmark
    refine ⟨_, goToMark_of_cons hcolumns' line, h.append ?_⟩
    rw [visible_drop hcolumn, visible_drop hcolumn']

/-- Forgetting the columns remembered last. -/
theorem popAlignment (h : Alike state other) {line : Nat}
    (hpop : state.popAlignment line = .ok after) :
    ∃ last, other.popAlignment line = .ok last ∧ Alike after last := by
  cases hcolumns : state.alignments with
  | nil =>
    rw [popAlignment_of_nil hcolumns] at hpop
    cases hpop
  | cons column columns =>
    obtain ⟨column', columns', hcolumns', -, -, hbelow⟩ := h.exists_alignment hcolumns
    rw [popAlignment_of_cons hcolumns] at hpop
    cases hpop
    exact ⟨_, popAlignment_of_cons hcolumns' line, hbelow⟩

/-- Asking for a key, and going on with its value in a way that keeps states alike. -/
theorem evaluate_bind (hanswers : ∀ key args context, resolver key args context = answers key args)
    (h : Alike state other) {line : Nat} {directive : List Char} {next : Value × State → State}
    (hnext : ∀ {value : Value} {asked asked' : State}, Alike asked asked' →
      Alike (next (value, asked)) (next (value, asked')))
    (hafter : ((state.evaluate resolver line directive).bind fun found => .ok (next found)) =
      .ok after) :
    ∃ last, ((other.evaluate resolver line directive).bind fun found => .ok (next found)) =
      .ok last ∧ Alike after last := by
  obtain ⟨⟨value, asked⟩, hasked, hafter⟩ := Outcome.bind_ok_iff.mp hafter
  cases hafter
  obtain ⟨asked', hasked', halike⟩ := h.evaluate hanswers hasked
  exact ⟨_, Outcome.bind_ok_iff.mpr ⟨_, hasked', rfl⟩, hnext halike⟩

/-- Acting on a token. -/
theorem act (hanswers : ∀ key args context, resolver key args context = answers key args)
    (h : Alike state other) {line : Nat} {token : Token}
    (hact : state.act resolver line token = .ok after) :
    ∃ last, other.act resolver line token = .ok last ∧ Alike after last := by
  cases token with
  | text text =>
    cases hact
    exact ⟨_, rfl, h.addText text⟩
  | expand key => exact h.evaluate_bind hanswers (fun halike => halike.addValue _) hact
  | push =>
    cases hact
    exact ⟨_, rfl, h.pushAlignment⟩
  | mark => exact h.goToMark hact
  | pop => exact h.popAlignment hact
  | _ =>
    cases hact
    exact ⟨_, rfl, h⟩

/-- Bringing an effect on the open blocks about. -/
theorem undergo (hanswers : ∀ key args context, resolver key args context = answers key args)
    (h : Alike state other) {line : Nat} {effect : Effect}
    (heffect : state.undergo resolver line effect = .ok after) :
    ∃ last, other.undergo resolver line effect = .ok last ∧ Alike after last := by
  cases effect with
  | refuse keyword => cases heffect
  | change scopes =>
    cases heffect
    exact ⟨_, rfl, (h.withScopes scopes).noteBlankLine⟩
  | ask key outer =>
    exact h.evaluate_bind hanswers (fun halike => (halike.withScopes _).noteBlankLine) heffect
  | pass =>
    cases heffect
    exact ⟨_, rfl, h⟩

/-- A step from a state leads to the like of where it leads to from a like state. -/
theorem step (hanswers : ∀ key args context, resolver key args context = answers key args)
    (h : Alike state other) {placed : Placed} (hstep : state.step resolver placed = .ok after) :
    ∃ last, other.step resolver placed = .ok last ∧ Alike after last := by
  rcases placed.token.content_or_newline_or_conditional with hcontent | hnewline | hconditional
  · rw [step_of_isContent hcontent] at hstep ⊢
    rw [h.scope] at hstep
    by_cases hactive : other.scope = .active
    · rw [if_pos hactive] at hstep ⊢
      exact h.settled.act hanswers hstep
    · rw [if_neg hactive] at hstep ⊢
      cases hstep
      exact ⟨_, rfl, h.settled⟩
  · rw [step_of_newline hnewline] at hstep ⊢
    cases hstep
    refine ⟨_, rfl, ?_⟩
    rw [h.dropNewline]
    by_cases hdrop : other.dropNewline = true
    · rw [if_pos hdrop, if_pos hdrop]
      exact ⟨h.finished, rfl, h.scopes, h.alignments, h.blank, rfl⟩
    · rw [if_neg hdrop, if_neg hdrop]
      exact h.settled.newline
  · rw [step_of_isConditional hconditional] at hstep ⊢
    rw [h.scopes] at hstep
    exact h.settled.undergo hanswers hstep

/-- A run from a state leads to the like of where it leads to from a like state. -/
theorem run (hanswers : ∀ key args context, resolver key args context = answers key args)
    (h : Alike state other) {tokens : List Placed} (hrun : state.run resolver tokens = .ok after) :
    ∃ last, other.run resolver tokens = .ok last ∧ Alike after last := by
  induction tokens generalizing state other with
  | nil =>
    cases hrun
    exact ⟨other, rfl, h⟩
  | cons placed tokens ih =>
    rw [run_cons] at hrun ⊢
    obtain ⟨middle, hstep, hrest⟩ := Outcome.bind_ok_iff.mp hrun
    obtain ⟨middle', hstep', halike⟩ := h.step hanswers hstep
    obtain ⟨last, hlast, hlike⟩ := ih halike hrest
    exact ⟨last, Outcome.bind_ok_iff.mpr ⟨middle', hstep', hlast⟩, hlike⟩

end Alike

end State

end AnnotatedHelp.Template
