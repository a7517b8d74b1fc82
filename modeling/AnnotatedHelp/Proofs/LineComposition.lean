import Mathlib
import AnnotatedHelp.Proofs.UntakenBranches

/-!
# Templates one under another

A rendering that succeeds ends with its last newline, and behind it nothing is pending: no block is
open, the current line is empty and no newline waits to be dropped. Columns may still be remembered,
but a template that renders alone never reaches for columns below its own. So a template under
another one renders as it does alone: its lines come behind those of the other one, and so do its
questions to the resolver.
-/

namespace AnnotatedHelp.Template

/-- The token some lines further down. -/
def Placed.moved (lines : Nat) (placed : Placed) : Placed :=
  { placed with line := placed.line + lines }

/-- The tokens of lines are those of the first line, a newline, and those of the others. -/
theorem tokensFrom_cons_ok_iff {line : Nat} {text : List Char} {texts : List (List Char)}
    {placed : List Placed} :
    tokensFrom line (text :: texts) = .ok placed ↔
      ∃ first rest, lineTokens text = .ok first ∧ tokensFrom (line + 1) texts = .ok rest ∧
        (first ++ [Token.newline]).map (Placed.mk line) ++ rest = placed := by
  simp only [tokensFrom, Outcome.bind_ok_iff, Outcome.mapError_ok_iff, Except.ok.injEq]
  constructor
  · rintro ⟨first, hfirst, rest, hrest, he⟩
    exact ⟨first, rest, hfirst, hrest, he⟩
  · rintro ⟨first, rest, hfirst, hrest, he⟩
    exact ⟨first, hfirst, rest, hrest, he⟩

/-- The tokens of lines and of further lines under them. -/
theorem tokensFrom_append {line : Nat} {texts more : List (List Char)} {placed others : List Placed}
    (h : tokensFrom line texts = .ok placed)
    (hmore : tokensFrom (line + texts.length) more = .ok others) :
    tokensFrom line (texts ++ more) = .ok (placed ++ others) := by
  induction texts generalizing line placed with
  | nil =>
    cases h
    exact hmore
  | cons text texts ih =>
    obtain ⟨first, rest, hfirst, hrest, rfl⟩ := tokensFrom_cons_ok_iff.mp h
    have hbelow : line + 1 + texts.length = line + (text :: texts).length := by
      rw [List.length_cons]
      omega
    have hjoined := ih hrest (hbelow ▸ hmore)
    exact tokensFrom_cons_ok_iff.mpr ⟨first, _, hfirst, hjoined, (List.append_assoc _ _ _).symm⟩

/-- Lines that stand further down have the same tokens further down. -/
theorem tokensFrom_moved {line : Nat} {texts : List (List Char)} {placed : List Placed}
    (h : tokensFrom line texts = .ok placed) (lines : Nat) :
    tokensFrom (line + lines) texts = .ok (placed.map (Placed.moved lines)) := by
  induction texts generalizing line placed with
  | nil =>
    cases h
    rfl
  | cons text texts ih =>
    obtain ⟨first, rest, hfirst, hrest, rfl⟩ := tokensFrom_cons_ok_iff.mp h
    have hnext : line + lines + 1 = line + 1 + lines := by omega
    refine tokensFrom_cons_ok_iff.mpr ⟨first, _, hfirst, hnext ▸ ih hrest, ?_⟩
    simp [Placed.moved, Function.comp_def]

/-- The tokens of one line or more end with a newline. -/
theorem tokensFrom_ends {line : Nat} {texts : List (List Char)} {placed : List Placed}
    (h : tokensFrom line texts = .ok placed) (hne : texts ≠ []) :
    ∃ before last, placed = before ++ [⟨last, .newline⟩] := by
  induction texts generalizing line placed with
  | nil => exact absurd rfl hne
  | cons text texts ih =>
    obtain ⟨first, rest, _, hrest, rfl⟩ := tokensFrom_cons_ok_iff.mp h
    cases texts with
    | nil =>
      cases hrest
      exact ⟨first.map (Placed.mk line), line, by simp⟩
    | cons next texts =>
      obtain ⟨before, last, rfl⟩ := ih hrest (List.cons_ne_nil _ _)
      exact ⟨(first ++ [Token.newline]).map (Placed.mk line) ++ before, last,
        (List.append_assoc _ _ _).symm⟩

/-- The tokens of a template end with a newline. -/
theorem tokens_ends {template : String} {placed : List Placed} (h : tokens template = .ok placed) :
    ∃ before last, placed = before ++ [⟨last, .newline⟩] :=
  tokensFrom_ends h (List.splitOn_ne_nil _ _)

/-- A template under another one has its own tokens, further down. -/
theorem tokens_append {template below : String} {placed others : List Placed}
    (h : tokens template = .ok placed) (hbelow : tokens below = .ok others) :
    ∃ lines, tokens (template ++ "\n" ++ below) = .ok (placed ++ others.map (Placed.moved lines)) := by
  refine ⟨(Text.splitAll '\n' template.toList).length, ?_⟩
  have hsplit : Text.splitAll '\n' (template ++ "\n" ++ below).toList =
      Text.splitAll '\n' template.toList ++ Text.splitAll '\n' below.toList := by
    rw [String.toList_append, String.toList_append, List.append_assoc]
    exact List.splitOn_append_cons_self _ _
  rw [tokens, hsplit]
  exact tokensFrom_append h (tokensFrom_moved hbelow _)

namespace State

/-- The state with the lines, the remembered columns and the questions of an earlier one below its
own. -/
def above (state earlier : State) : State :=
  { state with
    finished := state.finished ++ earlier.finished
    alignments := state.alignments ++ earlier.alignments
    calls := state.calls ++ earlier.calls }

variable {resolver : Resolver} {state after : State} (earlier : State)

/-- Beginning further lines does not touch what is below. -/
theorem foldl_nextLine_above (texts : List (List Char)) (state : State) :
    texts.foldl nextLine (state.above earlier) = (texts.foldl nextLine state).above earlier := by
  induction texts generalizing state with
  | nil => rfl
  | cons text texts ih => exact ih (state.nextLine text)

/-- Appending a text does not touch what is below. -/
theorem addText_above (state : State) (text : List Char) :
    (state.above earlier).addText text = (state.addText text).above earlier := by
  unfold addText
  split
  · rfl
  · next first rest _ => exact foldl_nextLine_above earlier rest (state.append first)

/-- Appending a value does not touch what is below. -/
theorem addValue_above (state : State) (value : Value) :
    (state.above earlier).addValue value = (state.addValue value).above earlier := by
  cases value with
  | lines lines =>
    cases lines with
    | nil => rfl
    | cons first rest => exact foldl_nextLine_above earlier _ (state.append first.toList)
  | _ => exact addText_above earlier state _

/-- A question that is answered is asked in the same words above an earlier state. -/
theorem evaluate_above {line : Nat} {directive : List Char} {value : Value}
    (h : state.evaluate resolver line directive = .ok (value, after)) (other : Nat) :
    (state.above earlier).evaluate resolver other directive = .ok (value, after.above earlier) := by
  unfold evaluate at h ⊢
  cases hkey : readKey directive with
  | error cause =>
    rw [hkey] at h
    cases h
  | ok found =>
    obtain ⟨key, args⟩ := found
    have hcontext : (state.above earlier).context = state.context := rfl
    simp only [hkey, hcontext] at h ⊢
    cases hanswer : Call.answer resolver ⟨key, args, state.context⟩ with
    | error error =>
      rw [hanswer] at h
      cases h
    | ok answer =>
      rw [hanswer] at h
      cases h
      rfl

/-- The columns that a state remembers are the first ones above an earlier state. -/
theorem alignments_above {column : List Char} {columns : List (List Char)}
    (h : state.alignments = column :: columns) :
    (state.above earlier).alignments = column :: (columns ++ earlier.alignments) := by
  rw [above, h, List.cons_append]

/-- A token that is acted on is acted on in the same way above an earlier state: no column below the
own ones is reached for. -/
theorem act_above {line : Nat} {token : Token} (h : state.act resolver line token = .ok after)
    (other : Nat) : (state.above earlier).act resolver other token = .ok (after.above earlier) := by
  cases token with
  | text text =>
    cases h
    exact congrArg Except.ok (addText_above earlier state text)
  | expand key =>
    rw [act] at h ⊢
    obtain ⟨⟨value, asked⟩, hasked, h⟩ := Outcome.bind_ok_iff.mp h
    cases h
    exact Outcome.bind_ok_iff.mpr ⟨_, evaluate_above earlier hasked other,
      congrArg Except.ok (addValue_above earlier asked value)⟩
  | mark =>
    replace h : state.goToMark line = .ok after := h
    change (state.above earlier).goToMark other = _
    cases halignments : state.alignments with
    | nil =>
      rw [goToMark_of_nil halignments] at h
      cases h
    | cons column columns =>
      rw [goToMark_of_cons halignments] at h
      cases h
      exact goToMark_of_cons (alignments_above earlier halignments) other
  | pop =>
    replace h : state.popAlignment line = .ok after := h
    change (state.above earlier).popAlignment other = _
    cases halignments : state.alignments with
    | nil =>
      rw [popAlignment_of_nil halignments] at h
      cases h
    | cons column columns =>
      rw [popAlignment_of_cons halignments] at h
      cases h
      exact popAlignment_of_cons (alignments_above earlier halignments) other
  | _ =>
    cases h
    rfl

/-- The end of a line does not touch what is below. -/
theorem newline_above (state : State) :
    (state.above earlier).newline = state.newline.above earlier := by
  have hscope : (state.above earlier).scope = state.scope := rfl
  unfold newline
  rw [hscope]
  split <;> rfl

/-- An effect on the open blocks is the same above an earlier state. -/
theorem undergo_above {line : Nat} {effect : Effect}
    (h : state.undergo resolver line effect = .ok after) (other : Nat) :
    (state.above earlier).undergo resolver other effect = .ok (after.above earlier) := by
  cases effect with
  | refuse keyword => cases h
  | ask key outer =>
    obtain ⟨⟨value, asked⟩, hasked, h⟩ := Outcome.bind_ok_iff.mp h
    cases h
    exact Outcome.bind_ok_iff.mpr ⟨_, evaluate_above earlier hasked other, rfl⟩
  | _ =>
    cases h
    rfl

/-- A step that succeeds succeeds above an earlier state and on any line. -/
theorem step_above {placed other : Placed} (hsame : other.token = placed.token)
    (h : state.step resolver placed = .ok after) :
    (state.above earlier).step resolver other = .ok (after.above earlier) := by
  have hscope : (state.above earlier).scope = state.scope := rfl
  have hscopes : (state.above earlier).scopes = state.scopes := rfl
  have hdrops : (state.above earlier).dropNewline = state.dropNewline := rfl
  have hsettled : (state.above earlier).settled = state.settled.above earlier := rfl
  rcases placed.token.content_or_newline_or_conditional with hcontent | hnewline | hconditional
  · rw [step_of_isContent hcontent] at h
    rw [← hsame] at hcontent
    rw [step_of_isContent hcontent, hscope, hsame]
    by_cases hactive : state.scope = .active
    · rw [if_pos hactive] at h ⊢
      exact act_above earlier h _
    · rw [if_neg hactive] at h ⊢
      cases h
      rfl
  · rw [step_of_newline hnewline] at h
    rw [step_of_newline (hsame.trans hnewline), hdrops, hsettled]
    cases h
    by_cases hdrop : state.dropNewline = true
    · rw [if_pos hdrop, if_pos hdrop]
      rfl
    · rw [if_neg hdrop, if_neg hdrop]
      exact congrArg Except.ok (newline_above earlier state.settled)
  · rw [step_of_isConditional hconditional] at h
    rw [← hsame] at hconditional
    rw [step_of_isConditional hconditional, hscopes, hsame, hsettled]
    exact undergo_above earlier h _

/-- A run that succeeds succeeds above an earlier state, on whatever lines its tokens stand. -/
theorem run_above_of_tokens {tokens others : List Placed}
    (hsame : others.map (·.token) = tokens.map (·.token))
    (h : state.run resolver tokens = .ok after) :
    (state.above earlier).run resolver others = .ok (after.above earlier) := by
  induction tokens generalizing state others with
  | nil =>
    obtain rfl := List.map_eq_nil_iff.mp hsame
    cases h
    rfl
  | cons placed tokens ih =>
    obtain ⟨other, rest, rfl, htoken, hrestSame⟩ := List.map_eq_cons_iff.mp hsame
    rw [run_cons] at h
    obtain ⟨middle, hstep, hrest⟩ := Outcome.bind_ok_iff.mp h
    rw [run_cons, step_above earlier htoken hstep]
    exact ih hrestSame hrest

/-- The lines on which tokens stand show in failures only. -/
theorem run_of_tokens {tokens others : List Placed}
    (hsame : others.map (·.token) = tokens.map (·.token))
    (h : state.run resolver tokens = .ok after) : state.run resolver others = .ok after := by
  have habove : ∀ state : State, state.above .start = state := by
    intro state
    simp [above, start]
  have hrun := run_above_of_tokens .start hsame h
  rwa [habove, habove] at hrun

/-- A run that succeeds succeeds above an earlier state and some lines further down. -/
theorem run_above {tokens : List Placed} (h : state.run resolver tokens = .ok after) (lines : Nat) :
    (state.above earlier).run resolver (tokens.map (Placed.moved lines)) =
      .ok (after.above earlier) := by
  refine run_above_of_tokens earlier ?_ h
  rw [List.map_map]
  rfl

/-- Behind a newline outside all blocks the line is empty and no newline is to be dropped: the state
is that before the first token, above itself. -/
theorem eq_start_above {before : List Placed} {last : Nat}
    (h : state.run resolver (before ++ [⟨last, .newline⟩]) = .ok after) (hclosed : after.scopes = []) :
    after = start.above after := by
  rw [run_append_eq] at h
  obtain ⟨middle, -, hlast⟩ := Outcome.bind_ok_iff.mp h
  rw [run_singleton, step_newline] at hlast
  cases hlast
  have hempty : ∀ state : State, state.scopes = [] → state.current = [] →
      state.dropNewline = false → state = start.above state := by
    rintro ⟨finished, current, scopes, alignments, dropNewline, calls⟩ hscopes hcurrent hdrop
    cases hscopes
    cases hcurrent
    cases hdrop
    rfl
  by_cases hdrop : middle.dropNewline = true
  · rw [if_pos hdrop] at hclosed ⊢
    exact hempty _ hclosed rfl rfl
  · rw [if_neg hdrop] at hclosed ⊢
    have hscopes : middle.scopes = [] := by
      unfold newline at hclosed
      split at hclosed <;> exact hclosed
    have hactive : middle.settled.scope = .active := congrArg (·.headD .active) hscopes
    have hfinished : middle.settled.newline = middle.settled.finishLine := if_pos hactive
    rw [hfinished]
    exact hempty _ hscopes rfl rfl

end State

/-- A rendering that succeeds comes from a run that leaves all blocks. -/
theorem render_ok {resolver : Resolver} {template : String} {lines : List String}
    (h : (render resolver template).lines = .ok lines) :
    ∃ placed after, tokens template = .ok placed ∧ State.start.run resolver placed = .ok after ∧
      after.scopes = [] ∧ render resolver template = ⟨after.calls.reverse, .ok lines⟩ ∧
        lines = after.finished.reverse := by
  unfold render at h ⊢
  cases htokens : tokens template with
  | error problem =>
    rw [htokens] at h
    cases h
  | ok placed =>
    rw [htokens] at h
    dsimp only at h ⊢
    unfold renderTokens at h ⊢
    cases hrun : State.start.run resolver placed with
    | error failure =>
      rw [hrun] at h
      cases h
    | ok after =>
      rw [hrun] at h
      dsimp only at h ⊢
      by_cases hclosed : after.scopes.isEmpty = true
      · rw [if_pos hclosed] at h ⊢
        cases h
        exact ⟨placed, after, rfl, hrun, List.isEmpty_iff.mp hclosed, rfl, rfl⟩
      · rw [if_neg hclosed] at h
        cases h

/-- Rendering is compositional over lines. Where two templates render, the one under the other
renders to the lines of the first and then those of the second, and the resolver is asked what it is
asked for the first and then what it is asked for the second, at the same places; whatever columns
the first one leaves remembered, and however its last line ends. -/
theorem render_append {resolver : Resolver} {template below : String} {lines others : List String}
    (h : (render resolver template).lines = .ok lines)
    (hbelow : (render resolver below).lines = .ok others) :
    render resolver (template ++ "\n" ++ below) =
      ⟨(render resolver template).calls ++ (render resolver below).calls, .ok (lines ++ others)⟩ := by
  obtain ⟨placed, after, htokens, hrun, hclosed, hrender, rfl⟩ := render_ok h
  obtain ⟨others, last, hothers, hrunBelow, hclosedBelow, hrenderBelow, rfl⟩ := render_ok hbelow
  obtain ⟨count, hjoined⟩ := tokens_append htokens hothers
  obtain ⟨before, line, rfl⟩ := tokens_ends htokens
  -- The second template is gone through above what the first one leaves.
  have hstart := State.eq_start_above hrun hclosed
  have hsecond : after.run resolver (others.map (Placed.moved count)) = .ok (last.above after) := by
    have habove := State.run_above after hrunBelow count
    rwa [← hstart] at habove
  have hboth := (State.run_append hrun (others.map (Placed.moved count))).trans hsecond
  have hempty : (last.above after).scopes.isEmpty = true := List.isEmpty_iff.mpr hclosedBelow
  rw [hrender, hrenderBelow, render, hjoined]
  dsimp only
  rw [renderTokens, hboth]
  dsimp only
  rw [if_pos hempty, State.above, List.reverse_append, List.reverse_append]

/-- A condition on a blank line, whose newline is dropped, behind a column that stays remembered. -/
def openingText : String :=
  "f([[[>]]][[[x]]],\n  [[[IF yes]]][[[ENDIF]]]"

/-- A template with a column of its own, asking for the place of its key. -/
def closingText : String :=
  " [[[>]]]a\n[[[|]]][[[x]]][[[<]]])  "

/-- One condition holds, and one key tells its column. -/
def columnResolver : Resolver
  | "yes", _, _ => .ok (.bool true)
  | "x", _, context => .ok (.int context.column)
  | key, _, _ => .error (.unknownKey key)

/-- The remembered column of the first template is not reached, and its dropped newline does not
swallow the first line of the second one. -/
theorem render_append_pending :
    (render columnResolver openingText).lines = .ok ["f(2,"] ∧
      (render columnResolver closingText).lines = .ok [" a", " 1)"] ∧
      (render columnResolver (openingText ++ "\n" ++ closingText)).lines =
        .ok ["f(2,", " a", " 1)"] ∧
      (render columnResolver (openingText ++ "\n" ++ closingText)).calls =
        [⟨"x", [], "", 2⟩, ⟨"yes", [], "  ", 2⟩, ⟨"x", [], " ", 1⟩] := by
  have hopening : (render columnResolver openingText).lines = .ok ["f(2,"] := by decide +kernel
  have hclosing : (render columnResolver closingText).lines = .ok [" a", " 1)"] := by decide +kernel
  have hboth := render_append hopening hclosing
  refine ⟨hopening, hclosing, ?_, ?_⟩
  · rw [hboth]
    rfl
  · rw [hboth]
    decide +kernel

end AnnotatedHelp.Template
