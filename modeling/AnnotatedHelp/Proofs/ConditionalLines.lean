import Mathlib
import AnnotatedHelp.Text.Character
import AnnotatedHelp.Proofs.BlankInsensitivity
import AnnotatedHelp.Proofs.TemplateJoining
import AnnotatedHelp.Proofs.UntakenContent
import AnnotatedHelp.Proofs.RunOutcomes

/-!
# Conditional directives on lines of their own

A conditional directive alone on its line takes the newline right behind it with it. Blanks before
it do not matter. Blanks behind it stand between the directive and the newline, which is kept then:
if the branch behind the directive is taken, an empty line is left, and else the blanks of the line.
Whether the template renders, and why not, does not depend on blanks at all.
-/

namespace AnnotatedHelp.Template

open Text

/-- A template has a line on which blanks stand around a conditional directive; another one is the
same without the blanks. -/
structure Strips (template stripped : String) (above below : List (List Char))
    (before written after : List Char) (directive : Token) : Prop where
  /-- The lines of the template. -/
  lines : splitAll '\n' template.toList = above ++ (before ++ written ++ after) :: below
  /-- The lines of the other template. -/
  others : splitAll '\n' stripped.toList = above ++ written :: below
  /-- The directive and nothing else is written. -/
  reads : lineTokens written = .ok [directive]
  /-- The directive is conditional. -/
  conditional : directive.isConditional = true
  /-- Blanks stand before the directive. -/
  before : isBlankLine before = true
  /-- Blanks stand behind the directive. -/
  after : isBlankLine after = true

/-- The tokens of a line with a directive between texts. -/
def directiveLine (line : Nat) (before : List Char) (directive : Token) (after : List Char) :
    List Placed :=
  (textToken before ++ [directive] ++ textToken after ++ [Token.newline]).map (Placed.mk line)

/-- Nothing is left of a blank line without its trailing blanks. -/
theorem trimEnd_of_isBlankLine {line : List Char} (h : isBlankLine line = true) :
    trimEnd line = [] := by
  have hreverse : ∀ c ∈ line.reverse, isBlank c = true :=
    fun c hc => List.all_eq_true.mp h c (List.mem_reverse.mp hc)
  rw [trimEnd, List.dropWhile_eq_nil_iff.mpr hreverse, List.reverse_nil]

/-- A blank text is read as text. -/
theorem Reads.of_isBlankLine {text : List Char} (h : isBlankLine text = true) :
    Reads text (textToken text) := by
  refine .plain ?_
  cases hcut : cut directiveStart.chars text with
  | none => rfl
  | some parts =>
    have hbracket : '[' ∈ text := (firstAt_of_cut hcut).found.subset (by decide)
    exact absurd (List.all_eq_true.mp h '[' hbracket) (by decide)

/-- A blank text has no opening bracket at its end. -/
theorem getLast?_ne_of_isBlankLine {text : List Char} (h : isBlankLine text = true) :
    text.getLast? ≠ some '[' := by
  intro hlast
  exact absurd (List.all_eq_true.mp h '[' (List.mem_of_getLast? hlast)) (by decide)

/-- The tokens of a directive between blanks are the blanks and the directive. -/
theorem lineTokens_between {before written after : List Char} {directive : Token}
    (hreads : lineTokens written = .ok [directive]) (hconditional : directive.isConditional = true)
    (hbefore : isBlankLine before = true) (hafter : isBlankLine after = true) :
    lineTokens (before ++ written ++ after) =
      .ok (textToken before ++ [directive] ++ textToken after) := by
  have hwritten := lineTokens_ok_iff.mp hreads
  have hdirective := (Token.ne_of_isConditional hconditional).1
  have hfront : Reads (before ++ written) (textToken before ++ [directive]) :=
    (Reads.of_isBlankLine hbefore).append hwritten
      (.inr ⟨getLast?_ne_of_isBlankLine hbefore, hwritten.begins hdirective⟩)
  refine lineTokens_ok_iff.mpr (hfront.append (.of_isBlankLine hafter) (.inl ?_))
  intro shown hshown
  rw [List.getLast?_concat] at hshown
  exact hdirective shown (Option.some.inj hshown)

/-- Lines that differ in one line are refused with the same problem, or their tokens differ in those
of that line. -/
theorem tokensFrom_exchange (above below : List (List Char)) {text other : List Char}
    {tokens others : List Token} (h : lineTokens text = .ok tokens)
    (hother : lineTokens other = .ok others) (line : Nat) :
    (∃ problem, tokensFrom line (above ++ text :: below) = .error problem ∧
      tokensFrom line (above ++ other :: below) = .error problem) ∨
    ∃ placed behind, tokensFrom line above = .ok placed ∧
      tokensFrom line (above ++ text :: below) = .ok (placed ++
        ((tokens ++ [Token.newline]).map (Placed.mk (line + above.length)) ++ behind)) ∧
      tokensFrom line (above ++ other :: below) = .ok (placed ++
        ((others ++ [Token.newline]).map (Placed.mk (line + above.length)) ++ behind)) := by
  induction above generalizing line with
  | nil =>
    simp only [List.nil_append, tokensFrom, h, hother]
    cases hbelow : tokensFrom (line + 1) below with
    | error problem => exact .inl ⟨problem, rfl, rfl⟩
    | ok behind => exact .inr ⟨[], behind, rfl, rfl, rfl⟩
  | cons first above ih =>
    have hline : line + 1 + above.length = line + (first :: above).length := by
      rw [List.length_cons]
      omega
    simp only [List.cons_append, tokensFrom]
    cases hfirst : lineTokens first with
    | error cause => exact .inl ⟨⟨line, cause⟩, rfl, rfl⟩
    | ok own =>
      rcases ih (line + 1) with
        ⟨problem, hproblem, hproblem'⟩ | ⟨placed, behind, habove, htext, hothers⟩
      · exact .inl ⟨problem, by rw [hproblem]; rfl, by rw [hproblem']; rfl⟩
      · rw [habove, htext, hothers, hline]
        refine .inr ⟨(own ++ [Token.newline]).map (Placed.mk line) ++ placed, behind, rfl, ?_, ?_⟩
        · simp [Except.mapError, bind, Except.bind]
        · simp [Except.mapError, bind, Except.bind]

/-- Two templates of which one strips a conditional line are refused with the same problem, or their
tokens differ in those of the line. -/
theorem Strips.tokens {template stripped : String} {above below : List (List Char)}
    {before written after : List Char} {directive : Token}
    (h : Strips template stripped above below before written after directive) :
    (∃ problem, tokens template = .error problem ∧ tokens stripped = .error problem) ∨
    ∃ placed behind, tokensFrom 1 above = .ok placed ∧
      tokens template =
        .ok (placed ++ (directiveLine (1 + above.length) before directive after ++ behind)) ∧
      tokens stripped =
        .ok (placed ++ (directiveLine (1 + above.length) [] directive [] ++ behind)) := by
  have hread := lineTokens_between h.reads h.conditional h.before h.after
  rw [Template.tokens, Template.tokens, h.lines, h.others]
  exact tokensFrom_exchange above below hread h.reads 1

/-- The texts around the directive contain no newline. -/
theorem Strips.not_mem {template stripped : String} {above below : List (List Char)}
    {before written after : List Char} {directive : Token}
    (h : Strips template stripped above below before written after directive) :
    '\n' ∉ before ∧ '\n' ∉ after := by
  have hline : before ++ written ++ after ∈ splitAll '\n' template.toList := by
    rw [h.lines]
    exact List.mem_append_right above List.mem_cons_self
  have hnewline := not_mem_of_mem_splitAll hline
  simp only [List.mem_append, not_or] at hnewline
  exact ⟨hnewline.1.1, hnewline.2⟩

namespace State

variable {resolver : Resolver} {answers : Answers} {state : State} {before after lead : List Char}

/-- The state behind the end of a line. -/
def ended (state : State) : State :=
  if state.dropNewline = true then { state.settled with current := [] } else state.settled.newline

/-- A newline that is dropped takes the line with it. -/
theorem ended_of_drop (h : state.dropNewline = true) :
    state.ended = { state.settled with current := [] } :=
  if_pos h

/-- A newline that is kept finishes the line in a branch that is taken. -/
theorem ended_of_taken (hdrop : state.dropNewline = false) (htaken : state.scope = .active) :
    state.ended = state.settled.finishLine := by
  have hsettled : state.settled.scope = .active := htaken
  rw [ended, hdrop, if_neg Bool.false_ne_true, newline, if_pos hsettled]

/-- A newline that is kept is without effect in a branch that is not taken. -/
theorem ended_of_untaken (hdrop : state.dropNewline = false) (htaken : state.scope ≠ .active) :
    state.ended = state.settled := by
  have hsettled : state.settled.scope ≠ .active := htaken
  rw [ended, hdrop, if_neg Bool.false_ne_true, newline, if_neg hsettled]

/-- At the start of a line no newline is to be dropped, and in a branch that is taken the line is
empty. -/
structure AtStart (state : State) : Prop where
  /-- No newline is to be dropped. -/
  dropNewline : state.dropNewline = false
  /-- In a branch that is taken nothing stands on the line. -/
  current : state.scope = .active → state.current = []

/-- Behind the end of a line another one starts. -/
theorem atStart_ended (state : State) : AtStart state.ended := by
  cases hdrop : state.dropNewline with
  | true =>
    rw [ended_of_drop hdrop]
    exact ⟨rfl, fun _ => rfl⟩
  | false =>
    by_cases htaken : state.scope = .active
    · rw [ended_of_taken hdrop htaken]
      exact ⟨rfl, fun _ => rfl⟩
    · rw [ended_of_untaken hdrop htaken]
      exact ⟨rfl, fun hactive => absurd hactive htaken⟩

/-- Behind whole lines another one starts. -/
theorem atStart_of_run {line : Nat} {texts : List (List Char)} {placed : List Placed}
    (h : tokensFrom line texts = .ok placed) (hrun : start.run resolver placed = .ok state) :
    AtStart state := by
  rcases eq_or_ne texts [] with rfl | hne
  · cases h
    cases hrun
    exact ⟨rfl, fun _ => rfl⟩
  · obtain ⟨before, last, rfl⟩ := tokensFrom_ends h hne
    rw [run_append_eq] at hrun
    obtain ⟨middle, -, hlast⟩ := Outcome.bind_ok_iff.mp hrun
    rw [run_singleton, step_newline] at hlast
    cases hlast
    exact atStart_ended middle

/-- A text on one line is shown in a branch that is taken, and keeps a newline behind it unless it
is empty. -/
theorem run_textToken {text : List Char} (h : '\n' ∉ text) (line : Nat) :
    state.run resolver ((textToken text).map (Placed.mk line)) = .ok { state with
      current := state.current ++ (if state.scope = .active then text else [])
      dropNewline := text.isEmpty && state.dropNewline } := by
  cases text with
  | nil => simp [textToken, run, pure, Except.pure]
  | cons c text =>
    have htext : state.settled.addText (c :: text) = state.settled.append (c :: text) := by
      rw [addText, splitAll, List.splitOn_eq_singleton h]
      rfl
    have hcontent : (Placed.mk line (.text (c :: text))).token.isContent = true := rfl
    change state.run resolver [⟨line, .text (c :: text)⟩] = _
    rw [run_singleton, step_of_isContent hcontent]
    split_ifs with hactive
    · rw [State.act, htext]
      rfl
    · simp [settled]

/-- The state behind a directive with blanks on both sides: what leads it stands on the line, what
follows it only in a branch that is taken. A newline is dropped only right behind the directive. -/
def spaced (state : State) (lead after : List Char) (calls : List Call) : State :=
  { state with
    current := state.current ++ lead ++ (if state.scope = .active then after else [])
    dropNewline := after.isEmpty && state.dropNewline
    calls := calls }

/-- A line with a conditional directive between blanks is gone through to its end. -/
theorem run_directiveLine {line : Nat} {directive : Token} {next : List Scope} {notes : Bool}
    (hchanges : Changes resolver ⟨line, directive⟩ state.scopes next notes)
    (hbefore : '\n' ∉ before) (hafter : '\n' ∉ after) (hblank : Text.isBlankLine before = true) :
    ∃ calls, state.run resolver (directiveLine line before directive after) =
      .ok (spaced { state with scopes := next, dropNewline := notes && state.isBlankLine }
        (if state.scope = .active then before else []) after calls).ended := by
  set lead := if state.scope = .active then before else [] with hlead
  have hleadBlank : Text.isBlankLine lead = true := by
    rw [hlead]
    split_ifs
    · exact hblank
    · rfl
  have hsame : Text.isBlankLine (state.current ++ lead) = state.isBlankLine := by
    rw [isBlankLine_append, hleadBlank, Bool.and_true]
    rfl
  obtain ⟨calls, hstep⟩ := hchanges { state with
    current := state.current ++ lead
    dropNewline := before.isEmpty && state.dropNewline } rfl
  refine ⟨calls, ?_⟩
  have hdirective := run_singleton.trans hstep
  simp only [isBlankLine, hsame] at hdirective
  simp only [directiveLine, List.map_append, List.append_assoc]
  rw [run_append (run_textToken hbefore line), ← hlead, List.map_singleton,
    run_append hdirective, run_append (run_textToken hafter line), List.map_singleton,
    run_singleton, step_newline]
  rfl

/-- Blanks lead to a directive: they stand only on a line that was empty, of which a newline is
dropped then. -/
structure Leads (lead : List Char) (state : State) : Prop where
  /-- They are blank. -/
  blank : Text.isBlankLine lead = true
  /-- Where there are any, a newline right behind the directive is dropped. -/
  empty : lead ≠ [] → state.dropNewline = true
  /-- A newline is dropped only where the line is blank. -/
  pending : Noted state
  /-- In a branch that is taken, a newline is dropped wherever the line is blank. -/
  noted : state.scope = .active → state.dropNewline = state.isBlankLine

/-- Blanks on both sides of a directive do not show. -/
theorem Leads.visible_spaced (h : Leads lead state) (hafter : Text.isBlankLine after = true)
    (calls : List Call) :
    visible (state.spaced lead after calls).current = visible state.current := by
  have hlead := isBlankLine_iff.mp h.blank
  have htrail : visible (if state.scope = .active then after else []) = [] := by
    split_ifs
    · exact isBlankLine_iff.mp hafter
    · rfl
  rw [spaced, visible_append, visible_append, hlead, htrail, List.append_nil, List.append_nil]

/-- Blanks that lead to a directive leave nothing if the newline follows right behind it. -/
theorem Leads.ended_spaced_nil (h : Leads lead state) (calls : List Call) :
    (state.spaced lead [] calls).ended.fresh = state.ended.fresh ∧
      (state.spaced lead [] calls).ended.finished = state.ended.finished := by
  cases hdrop : state.dropNewline with
  | true =>
    have hdrop' : (state.spaced lead [] calls).dropNewline = true := hdrop
    rw [ended_of_drop hdrop, ended_of_drop hdrop']
    exact ⟨rfl, rfl⟩
  | false =>
    have hlead : lead = [] := by
      by_contra hne
      exact absurd (h.empty hne) (by simp [hdrop])
    have hspaced : state.spaced lead [] calls = { state with calls := calls } := by
      simp [spaced, hlead]
    have hdrop' : ({ state with calls := calls } : State).dropNewline = false := hdrop
    rw [hspaced]
    by_cases htaken : state.scope = .active
    · have htaken' : ({ state with calls := calls } : State).scope = .active := htaken
      rw [ended_of_taken hdrop htaken, ended_of_taken hdrop' htaken']
      exact ⟨rfl, rfl⟩
    · have htaken' : ({ state with calls := calls } : State).scope ≠ .active := htaken
      rw [ended_of_untaken hdrop htaken, ended_of_untaken hdrop' htaken']
      exact ⟨rfl, rfl⟩

/-- Blanks behind a directive leave an empty line if the branch is taken and the line is blank. -/
theorem Leads.ended_spaced_taken (h : Leads lead state) (hafter : Text.isBlankLine after = true)
    (hne : after ≠ []) (htaken : state.scope = .active) (hblank : state.isBlankLine = true)
    (calls : List Call) :
    (state.spaced lead after calls).ended.fresh = state.ended.fresh ∧
      (state.spaced lead after calls).ended.finished = "" :: state.finished ∧
      state.ended.finished = state.finished := by
  have hdrop : state.dropNewline = true := (h.noted htaken).trans hblank
  have hkept : (state.spaced lead after calls).dropNewline = false := by
    simp [spaced, hne]
  have htaken' : (state.spaced lead after calls).scope = .active := htaken
  have hline : Text.isBlankLine (state.spaced lead after calls).current = true := by
    rw [isBlankLine_iff, h.visible_spaced hafter]
    exact isBlankLine_iff.mp hblank
  rw [ended_of_drop hdrop, ended_of_taken hkept htaken']
  exact ⟨rfl, congrArg (String.ofList · :: state.finished) (trimEnd_of_isBlankLine hline), rfl⟩

/-- Otherwise blanks leave blanks. -/
theorem Leads.alike_ended_spaced (h : Leads lead state) (hself : Alike state state)
    (hafter : Text.isBlankLine after = true) (hne : after ≠ [])
    (hkeeps : ¬(state.scope = .active ∧ state.isBlankLine = true)) (calls : List Call) :
    Alike (state.spaced lead after calls).ended state.ended := by
  have hkept : (state.spaced lead after calls).dropNewline = false := by
    simp [spaced, hne]
  have hshows := h.visible_spaced hafter calls
  have halike : Alike (state.spaced lead after calls).settled state.settled :=
    ⟨rfl, hshows, rfl, rfl, hself.blank, rfl⟩
  by_cases htaken : state.scope = .active
  · -- Something else stands on the line, so the newline is kept on both sides.
    have htaken' : (state.spaced lead after calls).scope = .active := htaken
    have hdrop : state.dropNewline = false := by
      rw [h.noted htaken]
      simpa [htaken] using hkeeps
    rw [ended_of_taken hkept htaken', ended_of_taken hdrop htaken]
    exact halike.finishLine
  · have htaken' : (state.spaced lead after calls).scope ≠ .active := htaken
    rw [ended_of_untaken hkept htaken']
    cases hdrop : state.dropNewline with
    | true =>
      rw [ended_of_drop hdrop]
      refine ⟨rfl, ?_, rfl, rfl, hself.blank, rfl⟩
      exact hshows.trans (isBlankLine_iff.mp (h.pending hdrop))
    | false =>
      rw [ended_of_untaken hdrop htaken]
      exact halike

/-- Blanks at the start of a line lead to a directive that notes whether the line is blank, or passes
over it where nothing is taken. -/
theorem AtStart.leads (h : AtStart state) (hblank : Text.isBlankLine before = true)
    {next : List Scope} {notes : Bool}
    (hnotes : notes = true ∨ next = state.scopes ∧ state.scopes.headD .active ≠ .active)
    (calls : List Call) :
    Leads (if state.scope = .active then before else [])
      { state with
        scopes := next
        dropNewline := notes && state.isBlankLine
        calls := calls } := by
  have htaken : state.scope = .active ∨ next.headD .active = .active → notes = true := by
    rintro (hactive | hactive) <;> rcases hnotes with hnotes | ⟨rfl, hpassed⟩
    · exact hnotes
    · exact absurd hactive hpassed
    · exact hnotes
    · exact absurd hactive hpassed
  refine ⟨?_, fun hlead => ?_, fun hdrop => (Bool.and_eq_true_iff.mp hdrop).2, fun hactive => ?_⟩
  · split_ifs
    · exact hblank
    · rfl
  · -- Blanks are written in a branch that is taken only, and the line is empty there.
    have hactive : state.scope = .active := by
      by_contra hother
      exact hlead (if_neg hother)
    have hline : state.isBlankLine = true := by
      rw [isBlankLine, h.current hactive]
      rfl
    exact Bool.and_eq_true_iff.mpr ⟨htaken (.inl hactive), hline⟩
  · exact congrArg (· && state.isBlankLine) (htaken (.inr hactive))

/-- From the start of a line, a run over a directive between blanks ends the line behind the state
that the directive alone leads to, with the blanks on both sides. -/
theorem AtStart.run_directiveLine
    (hanswers : ∀ key args context, resolver key args context = answers key args)
    (h : AtStart state) {line : Nat} {directive : Token}
    (hconditional : directive.isConditional = true) (hbefore : '\n' ∉ before)
    (hafter : '\n' ∉ after) (hblank : Text.isBlankLine before = true)
    {last : State} (hrun : state.run resolver (directiveLine line [] directive []) = .ok last) :
    ∃ middle lead calls, state.step resolver ⟨line, directive⟩ = .ok middle ∧ Leads lead middle ∧
      last = middle.ended ∧ state.run resolver (directiveLine line before directive after) =
        .ok (middle.spaced lead after calls).ended := by
  have hplain : directiveLine line [] directive [] = [⟨line, directive⟩, ⟨line, .newline⟩] := rfl
  have hplaced : (Placed.mk line directive).token.isConditional = true := hconditional
  rw [hplain, run_cons] at hrun
  rcases decides_of_isConditional hanswers hplaced state.scopes with
    ⟨next, notes, hnotes, hchanges⟩ | ⟨problem, hrefuses⟩
  · obtain ⟨calls, hstep⟩ := hchanges state rfl
    obtain ⟨asked, hspaced⟩ := State.run_directiveLine hchanges hbefore hafter hblank
    rw [hstep] at hrun
    have hended := Except.ok.inj hrun
    exact ⟨_, _, asked, hstep, h.leads hblank hnotes calls, hended.symm, hspaced⟩
  · obtain ⟨calls, hstep⟩ := hrefuses state rfl
    rw [hstep] at hrun
    cases hrun

end State

variable {resolver : Resolver} {answers : Answers} {template stripped : String}
  {above below : List (List Char)} {before written after : List Char} {directive : Token}

/-- Blanks around a text do not matter to what a run over it comes to. -/
theorem standingOf_run_directiveLine
    (hanswers : ∀ key args context, resolver key args context = answers key args)
    (hbefore : '\n' ∉ before) (hafter : '\n' ∉ after) (line : Nat) (behind : List Placed)
    (state : State) :
    standingOf (state.run resolver (directiveLine line before directive after ++ behind)) =
      standingOf (state.run resolver (directiveLine line [] directive [] ++ behind)) := by
  have hblank : ∀ {text : List Char}, '\n' ∉ text → ∀ (more : List Placed) (state : State),
      standingOf (state.run resolver ((textToken text).map (Placed.mk line) ++ more)) =
        standingOf (state.run resolver more) := by
    intro text htext more state
    rw [State.run_append (State.run_textToken htext line)]
    refine State.Level.run hanswers ?_ more
    exact ⟨rfl, rfl⟩
  simp only [directiveLine, List.map_append, List.append_assoc]
  rw [hblank hbefore]
  exact State.standingOf_run_append hanswers _ fun other => hblank hafter _ other

/-- Stripping a conditional line changes neither whether a template renders, nor why not. -/
theorem Strips.lines_map
    (hanswers : ∀ key args context, resolver key args context = answers key args)
    (h : Strips template stripped above below before written after directive) :
    (render resolver template).lines.map (fun _ => ()) =
      (render resolver stripped).lines.map (fun _ => ()) := by
  obtain ⟨hbefore, hafter⟩ := h.not_mem
  unfold render
  rcases h.tokens with ⟨problem, htokens, hothers⟩ | ⟨placed, behind, -, htokens, hothers⟩
  · rw [htokens, hothers]
  · rw [htokens, hothers]
    dsimp only
    have hlast : ∀ before after,
        lastLine (placed ++ (directiveLine (1 + above.length) before directive after ++ behind)) =
          lastLine (⟨1 + above.length, .newline⟩ :: behind) := by
      intro before after
      have hends : placed ++ (directiveLine (1 + above.length) before directive after ++ behind) =
          placed ++ (textToken before ++ [directive] ++ textToken after).map
            (Placed.mk (1 + above.length)) ++ ⟨1 + above.length, .newline⟩ :: behind := by
        simp [directiveLine]
      rw [hends, lastLine, lastLine, List.getLast?_append_of_ne_nil _ (List.cons_ne_nil _ _)]
    rw [renderTokens_standingOf, renderTokens_standingOf, hlast, hlast,
      State.standingOf_run_append hanswers placed
        (standingOf_run_directiveLine hanswers hbefore hafter _ behind)]

/-- Where both templates render, they do so through the same state behind the directive, and differ
in what the blanks on its line leave. -/
theorem Strips.exists_ended
    (hanswers : ∀ key args context, resolver key args context = answers key args)
    (h : Strips template stripped above below before written after directive)
    {lines others : List String} (hlines : (render resolver template).lines = .ok lines)
    (hothers : (render resolver stripped).lines = .ok others) :
    ∃ placed behind state lead calls last other, tokensFrom 1 above = .ok placed ∧
      State.start.run resolver (placed ++ [⟨1 + above.length, directive⟩]) = .ok state ∧
      State.Leads lead state ∧
      (state.spaced lead after calls).ended.run resolver behind = .ok last ∧
      state.ended.run resolver behind = .ok other ∧
      lines = last.finished.reverse ∧ others = other.finished.reverse := by
  obtain ⟨hbefore, hafter⟩ := h.not_mem
  obtain ⟨tokens, last, htokens, hlast, -, -, rfl⟩ := render_ok hlines
  obtain ⟨tokens', other, htokens', hother, -, -, rfl⟩ := render_ok hothers
  rcases h.tokens with ⟨problem, hproblem, -⟩ | ⟨placed, behind, habove, hspaced, hstripped⟩
  · cases hproblem.symm.trans htokens
  obtain rfl := Except.ok.inj (hspaced.symm.trans htokens)
  obtain rfl := Except.ok.inj (hstripped.symm.trans htokens')
  rw [State.run_append_eq] at hlast hother
  obtain ⟨start, hstart, hlast⟩ := Outcome.bind_ok_iff.mp hlast
  obtain ⟨start', hstart', hother⟩ := Outcome.bind_ok_iff.mp hother
  obtain rfl := Except.ok.inj (hstart.symm.trans hstart')
  rw [State.run_append_eq] at hother
  obtain ⟨ended, hended, hother⟩ := Outcome.bind_ok_iff.mp hother
  obtain ⟨state, lead, calls, hstep, hleads, rfl, hline⟩ :=
    (State.atStart_of_run habove hstart).run_directiveLine hanswers h.conditional hbefore hafter
      h.before hended
  rw [State.run_append hline] at hlast
  refine ⟨placed, behind, state, lead, calls, last, other, habove, ?_, hleads, hlast, hother, rfl,
    rfl⟩
  rw [State.run_append hstart, State.run_singleton]
  exact hstep

/-- Without blanks behind the directive, the stripped template renders to the same lines. -/
theorem Strips.lines_eq
    (hanswers : ∀ key args context, resolver key args context = answers key args)
    (h : Strips template stripped above below before written [] directive) :
    (render resolver template).lines = (render resolver stripped).lines := by
  have hmap := h.lines_map hanswers
  cases hlines : (render resolver template).lines with
  | error problem =>
    cases hothers : (render resolver stripped).lines with
    | error problem' =>
      rw [hlines, hothers] at hmap
      exact congrArg Except.error (Except.error.inj hmap)
    | ok others =>
      rw [hlines, hothers] at hmap
      cases hmap
  | ok lines =>
    cases hothers : (render resolver stripped).lines with
    | error problem =>
      rw [hlines, hothers] at hmap
      cases hmap
    | ok others =>
      obtain ⟨placed, behind, state, lead, calls, last, other, -, -, hleads, hlast, hother, rfl,
        rfl⟩ := h.exists_ended hanswers hlines hothers
      obtain ⟨hfresh, hfinished⟩ := hleads.ended_spaced_nil calls
      obtain ⟨more, hmore, hmore'⟩ := State.run_finished hanswers hfresh hlast hother
      rw [hmore, hmore', hfinished]

/-- For a resolver that does not look at the place of a key, blanks around a conditional directive
alone on its line never matter to whether a template renders and why not, and blanks before it do
not matter at all. Blanks behind it keep its newline: where the branch behind the directive is taken
and the line is blank so far, exactly one more empty line is rendered, behind the lines finished
there, and elsewhere the lines show the same. -/
theorem render_conditionalLine
    (hanswers : ∀ key args context, resolver key args context = answers key args)
    (h : Strips template stripped above below before written after directive) :
    (after = [] → (render resolver template).lines = (render resolver stripped).lines) ∧
    (render resolver template).lines.map (fun _ => ()) =
      (render resolver stripped).lines.map (fun _ => ()) ∧
    ∀ lines others, (render resolver template).lines = .ok lines →
      (render resolver stripped).lines = .ok others →
      ∃ placed state, tokensFrom 1 above = .ok placed ∧
        State.start.run resolver (placed ++ [⟨1 + above.length, directive⟩]) = .ok state ∧
        (after ≠ [] → state.scope = .active ∧ state.isBlankLine = true →
          ∃ more, others = state.finished.reverse ++ more ∧
            lines = state.finished.reverse ++ "" :: more) ∧
        (¬(state.scope = .active ∧ state.isBlankLine = true) →
          lines.map (visible ·.toList) = others.map (visible ·.toList)) := by
  refine ⟨?_, h.lines_map hanswers, ?_⟩
  · rintro rfl
    exact h.lines_eq hanswers
  intro lines others hlines hothers
  obtain ⟨placed, behind, state, lead, calls, last, other, habove, hrun, hleads, hlast, hother, rfl,
    rfl⟩ := h.exists_ended hanswers hlines hothers
  refine ⟨placed, state, habove, hrun, fun hne hempty => ?_, fun hkeeps => ?_⟩
  · obtain ⟨hfresh, hfinished, hfinished'⟩ :=
      hleads.ended_spaced_taken h.after hne hempty.1 hempty.2 calls
    obtain ⟨more, hmore, hmore'⟩ := State.run_finished hanswers hfresh hlast hother
    refine ⟨more.reverse, ?_, ?_⟩
    · rw [hmore', hfinished', List.reverse_append]
    · rw [hmore, hfinished, List.reverse_append, List.reverse_cons, List.append_assoc]
      rfl
  · rcases eq_or_ne after [] with rfl | hne
    · have hsame := h.lines_eq hanswers
      rw [hlines, hothers] at hsame
      rw [Except.ok.inj hsame]
    · have hself : State.Alike state state := by
        obtain ⟨same, hsame, hlike⟩ := State.alike_start.run hanswers hrun
        cases hrun.symm.trans hsame
        exact hlike
      have hended := hleads.alike_ended_spaced hself h.after hne hkeeps calls
      obtain ⟨last', hlast', hlike⟩ := hended.run hanswers hlast
      cases hlast'.symm.trans hother
      rw [List.map_reverse, List.map_reverse, hlike.finished]

/-- A condition behind a tab and before a carriage return, below a line of text. -/
def spacedText : String :=
  "use\n\t[[[IF yes]]]\r\nx\n[[[ENDIF]]]"

/-- The same without the tab and the carriage return. -/
def strippedText : String :=
  "use\n[[[IF yes]]]\nx\n[[[ENDIF]]]"

/-- Every condition holds. -/
def trueAnswers : Answers := fun _ _ => .ok (.bool true)

/-- Every condition holds at every place. -/
def trueResolver : Resolver := fun key args _ => trueAnswers key args

/-- The blank behind the directive leaves an empty line, the one in front of it does not. -/
theorem render_conditionalLine_spaced :
    (render trueResolver spacedText).lines = .ok ["use", "", "x"] ∧
      (render trueResolver strippedText).lines = .ok ["use", "x"] ∧
      ∃ more, ["use", "x"] = ["use"] ++ more ∧ ["use", "", "x"] = ["use"] ++ "" :: more := by
  have hanswers : ∀ key args context,
      trueResolver key args context = trueAnswers key args := fun _ _ _ => rfl
  have hstrips : Strips spacedText strippedText ["use".toList] ["x".toList, "[[[ENDIF]]]".toList]
      ['\t'] "[[[IF yes]]]".toList ['\r'] (.ifKey "yes".toList) :=
    ⟨by decide +kernel, by decide +kernel, by decide +kernel, rfl, by decide, by decide⟩
  have hspaced : (render trueResolver spacedText).lines = .ok ["use", "", "x"] := by
    decide +kernel
  have hstripped : (render trueResolver strippedText).lines = .ok ["use", "x"] := by
    decide +kernel
  obtain ⟨placed, state, habove, hrun, hempty, -⟩ :=
    (render_conditionalLine hanswers hstrips).2.2 _ _ hspaced hstripped
  have htokens : tokensFrom 1 ["use".toList] = .ok [⟨1, .text "use".toList⟩, ⟨1, .newline⟩] := by
    decide +kernel
  obtain rfl := Except.ok.inj (htokens.symm.trans habove)
  have hstate : State.start.run trueResolver
      ([⟨1, .text "use".toList⟩, ⟨1, .newline⟩] ++ [⟨2, .ifKey "yes".toList⟩]) =
        .ok ⟨["use"], [], [.active], [], true, [⟨"yes", [], "", 0⟩]⟩ := by
    decide +kernel
  obtain rfl := Except.ok.inj (hstate.symm.trans hrun)
  exact ⟨hspaced, hstripped, hempty (by decide) ⟨rfl, rfl⟩⟩

/-- A space behind a condition that is otherwise alone on its line leaves an empty line, which is
not there without the space. -/
theorem render_conditionalLine_trailing :
    Strips "[[[IF a]]] \nx\n[[[ENDIF]]]" "[[[IF a]]]\nx\n[[[ENDIF]]]" []
        ["x".toList, "[[[ENDIF]]]".toList] [] "[[[IF a]]]".toList [' '] (.ifKey ['a']) ∧
      (render trueResolver "[[[IF a]]] \nx\n[[[ENDIF]]]").lines = .ok ["", "x"] ∧
      (render trueResolver "[[[IF a]]]\nx\n[[[ENDIF]]]").lines = .ok ["x"] := by
  refine ⟨⟨?_, ?_, ?_, rfl, rfl, by decide⟩, ?_, ?_⟩ <;> decide +kernel

end AnnotatedHelp.Template
