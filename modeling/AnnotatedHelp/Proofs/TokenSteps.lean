import Mathlib
import AnnotatedHelp.Template.Rendering
import AnnotatedHelp.Proofs.Forest
import AnnotatedHelp.Proofs.Outcome

/-!
# One token after another

A token of a template is content, a newline or a conditional directive, and each sort is gone through
in its own way. Content is acted on in a branch that is taken. A newline ends the line, or is dropped
with it. A conditional directive has an effect on the open blocks, which these alone decide; besides
it asks at most one question and notes whether the line is blank.
-/

namespace AnnotatedHelp.Template

/-- Text, expansions and alignment directives. -/
def Token.isContent : Token → Bool
  | .text _ | .expand _ | .push | .mark | .pop => true
  | _ => false

/-- Every token is content, a newline or a conditional directive. -/
theorem Token.content_or_newline_or_conditional (token : Token) :
    token.isContent = true ∨ token = .newline ∨ token.isConditional = true := by
  cases token <;> simp [isContent, isConditional]

/-- Conditional directives are no content. -/
theorem Token.isContent_of_isConditional {token : Token} (h : token.isConditional = true) :
    token.isContent = false := by
  cases token <;> first | rfl | cases h

/-- What a conditional directive does to the blocks that are open. -/
inductive Effect where
  /-- There is no block to which the directive could belong. -/
  | refuse (keyword : Keyword)
  /-- The blocks stand as given. -/
  | change (scopes : List Scope)
  /-- A condition is asked for, and its branch stands in the given blocks as the value tells. -/
  | ask (key : List Char) (outer : List Scope)
  /-- No branch of the block is open any more, and nothing changes. -/
  | pass

/-- What a conditional directive does to the blocks that are open. -/
def Token.effect (scopes : List Scope) : Token → Effect
  | .ifKey key =>
    if scopes.headD .active = .active then .ask key scopes else .change (.done :: scopes)
  | .endif =>
    match scopes with
    | [] => .refuse .endifWord
    | _ :: outer => .change outer
  | .elifKey key =>
    match scopes with
    | [] => .refuse .elifWord
    | .active :: outer => .change (.done :: outer)
    | .waiting :: outer => .ask key outer
    | .done :: _ => .pass
  | .elseBranch =>
    match scopes with
    | [] => .refuse .elseWord
    | .active :: outer => .change (.done :: outer)
    | .waiting :: outer => .change (.active :: outer)
    | .done :: _ => .pass
  | _ => .pass

namespace State

/-- The text, expansions and alignment directives among tokens that are met in a branch that is
taken, up to the first error. By `step_of_isContent` they are those that have an effect. -/
def acted (resolver : Resolver) (state : State) : List Placed → List Placed
  | [] => []
  | placed :: tokens =>
    (if placed.token.isContent = true ∧ state.scope = .active then [placed] else []) ++
      match state.step resolver placed with
      | .ok after => after.acted resolver tokens
      | .error _ => []

/-- The state in which a token is gone through: a newline behind it is not dropped. -/
def settled (state : State) : State :=
  { state with dropNewline := false }

/-- The state without the text written so far. -/
def unwritten (state : State) : State :=
  { state with finished := [], current := [] }

/-- A newline is to be dropped only while the line is blank. -/
def Noted (state : State) : Prop :=
  state.dropNewline = true → state.isBlankLine = true

variable {resolver : Resolver} {state after : State} {placed : Placed}

/-- Going through one token is a step. -/
theorem run_singleton : state.run resolver [placed] = state.step resolver placed := by
  unfold run
  rw [List.foldlM_cons]
  cases state.step resolver placed <;> rfl

/-- Tokens behind others are gone through behind them. -/
theorem run_append_eq (tokens more : List Placed) :
    state.run resolver (tokens ++ more) = state.run resolver tokens >>= (·.run resolver more) :=
  List.foldlM_append

/-- Tokens behind others start from the state that those lead to. -/
theorem run_append {tokens : List Placed} (h : state.run resolver tokens = .ok after)
    (more : List Placed) : state.run resolver (tokens ++ more) = after.run resolver more := by
  rw [run_append_eq, h]
  rfl

/-- Nothing behind an error is gone through. -/
theorem run_append_of_error {tokens : List Placed} {failure : Failure}
    (h : state.run resolver tokens = .error failure) (more : List Placed) :
    state.run resolver (tokens ++ more) = .error failure := by
  rw [run_append_eq, h]
  rfl

/-- Going through tokens begins with the first one. -/
theorem run_cons (tokens : List Placed) :
    state.run resolver (placed :: tokens) =
      (state.step resolver placed).bind fun after => after.run resolver tokens := by
  unfold run
  rw [List.foldlM_cons]
  rfl

/-- A single token is acted on if it is content in a branch that is taken. -/
theorem acted_singleton :
    state.acted resolver [placed] =
      if placed.token.isContent = true ∧ state.scope = .active then [placed] else [] := by
  rw [acted]
  cases state.step resolver placed <;> exact List.append_nil _

/-- Content in a branch that is taken is acted on. -/
theorem acted_of_isContent (h : placed.token.isContent = true) (hscope : state.scope = .active) :
    state.acted resolver [placed] = [placed] := by
  rw [acted_singleton, if_pos ⟨h, hscope⟩]

/-- Newlines and conditional directives are not acted on. -/
theorem acted_of_not_isContent (h : placed.token.isContent = false) :
    state.acted resolver [placed] = [] := by
  rw [acted_singleton, h, if_neg fun hboth => nomatch hboth.1]

/-- What is acted on among tokens and others behind them. -/
theorem acted_append {tokens : List Placed} (h : state.run resolver tokens = .ok after)
    (more : List Placed) :
    state.acted resolver (tokens ++ more) =
      state.acted resolver tokens ++ after.acted resolver more := by
  induction tokens generalizing state with
  | nil =>
    cases h
    rfl
  | cons placed tokens ih =>
    rw [run_cons] at h
    cases hstep : state.step resolver placed with
    | error failure =>
      rw [hstep] at h
      cases h
    | ok middle =>
      rw [hstep] at h
      simp only [List.cons_append, acted, hstep, List.append_assoc]
      rw [ih h]

/-- Nothing behind an error is acted on. -/
theorem acted_append_of_error {tokens : List Placed} {failure : Failure}
    (h : state.run resolver tokens = .error failure) (more : List Placed) :
    state.acted resolver (tokens ++ more) = state.acted resolver tokens := by
  induction tokens generalizing state with
  | nil => cases h
  | cons placed tokens ih =>
    rw [run_cons] at h
    cases hstep : state.step resolver placed with
    | error failure => simp only [List.cons_append, acted, hstep]
    | ok middle =>
      rw [hstep] at h
      simp only [List.cons_append, acted, hstep]
      rw [ih h]

/-- States that differ in what is written only. -/
theorem eq_of_unwritten_eq (h : after.unwritten = state.unwritten) :
    after.scopes = state.scopes ∧ after.alignments = state.alignments ∧
      after.dropNewline = state.dropNewline ∧ after.calls = state.calls := by
  injection h with _ _ hscopes halignments hdrop hcalls
  exact ⟨hscopes, halignments, hdrop, hcalls⟩

/-- Appending to the current line changes what is written only. -/
@[simp]
theorem append_unwritten (state : State) (text : List Char) :
    (state.append text).unwritten = state.unwritten := rfl

/-- Beginning another line changes what is written only. -/
theorem foldl_nextLine_unwritten (texts : List (List Char)) (state : State) :
    (texts.foldl nextLine state).unwritten = state.unwritten := by
  induction texts generalizing state with
  | nil => rfl
  | cons text texts ih =>
    rw [List.foldl_cons, ih]
    rfl

/-- Appending a text changes what is written only. -/
theorem addText_unwritten (state : State) (text : List Char) :
    (state.addText text).unwritten = state.unwritten := by
  unfold addText
  split
  · rfl
  · rw [foldl_nextLine_unwritten, append_unwritten]

/-- Appending lines changes what is written only. -/
theorem addLines_unwritten (state : State) (lines : List String) :
    (state.addLines lines).unwritten = state.unwritten := by
  cases lines with
  | nil => rfl
  | cons first rest => rw [addLines, foldl_nextLine_unwritten, append_unwritten]

/-- Appending a value changes what is written only. -/
theorem addValue_unwritten (state : State) (value : Value) :
    (state.addValue value).unwritten = state.unwritten := by
  cases value with
  | lines lines => exact addLines_unwritten state lines
  | _ => exact addText_unwritten state _

/-- A state that drops no newline is noted. -/
theorem noted_of_dropNewline_eq_false (h : state.dropNewline = false) : Noted state := by
  intro hdrop
  rw [h] at hdrop
  cases hdrop

/-- Noting a blank line makes a state noted. -/
theorem noted_noteBlankLine (state : State) : Noted state.noteBlankLine :=
  fun hblank => hblank

/-- Text, expansions and alignment directives are acted on in a branch that is taken, and are
without effect elsewhere. -/
theorem step_of_isContent (h : placed.token.isContent = true) :
    state.step resolver placed =
      if state.scope = .active then state.settled.act resolver placed.line placed.token
      else .ok state.settled := by
  obtain ⟨line, token⟩ := placed
  cases token <;> first | rfl | cases h

/-- Content in a branch that is taken is gone through by acting on it. -/
theorem step_of_taken (h : placed.token.isContent = true) (hscope : state.scope = .active) :
    state.step resolver placed = state.settled.act resolver placed.line placed.token := by
  rw [step_of_isContent h, if_pos hscope]

/-- A newline is dropped, ends the line in a branch that is taken, or is without effect. -/
theorem step_newline (line : Nat) :
    state.step resolver ⟨line, .newline⟩ =
      .ok (if state.dropNewline = true then { state.settled with current := [] }
        else state.settled.newline) := rfl

/-- A token that is a newline is gone through as one. -/
theorem step_of_newline (h : placed.token = .newline) :
    state.step resolver placed =
      .ok (if state.dropNewline = true then { state.settled with current := [] }
        else state.settled.newline) := by
  obtain ⟨line, token⟩ := placed
  subst h
  exact step_newline line

/-- Asking for a value changes the record of questions only. -/
theorem evaluate_ok {line : Nat} {directive : List Char} {value : Value}
    (h : state.evaluate resolver line directive = .ok (value, after)) :
    ∃ calls, after = { state with calls := calls } := by
  unfold evaluate at h
  split at h
  · cases h
  · dsimp only at h
    split at h
    · cases h
    · cases h
      exact ⟨_, rfl⟩

/-- Acting on a token keeps whether a newline is dropped. -/
theorem act_dropNewline {line : Nat} {token : Token}
    (h : state.act resolver line token = .ok after) : after.dropNewline = state.dropNewline := by
  cases token with
  | text text =>
    cases h
    exact (eq_of_unwritten_eq (addText_unwritten state text)).2.2.1
  | expand key =>
    rw [act] at h
    obtain ⟨⟨value, asked⟩, hasked, hafter⟩ := Outcome.bind_ok_iff.mp h
    obtain ⟨calls, rfl⟩ := evaluate_ok hasked
    cases hafter
    exact (eq_of_unwritten_eq (addValue_unwritten { state with calls := calls } value)).2.2.1
  | mark =>
    rw [act, goToMark] at h
    split at h <;> cases h
    rfl
  | pop =>
    rw [act, popAlignment] at h
    split at h <;> cases h
    rfl
  | _ =>
    cases h
    rfl

/-- Where no column is remembered, a mark fails. -/
theorem goToMark_of_nil (h : state.alignments = []) (line : Nat) :
    state.goToMark line = state.fail line .markWithoutPush := by
  rw [goToMark, h]

/-- A mark extends the line to the column that is remembered last. -/
theorem goToMark_of_cons {column : List Char} {columns : List (List Char)}
    (h : state.alignments = column :: columns) (line : Nat) :
    state.goToMark line = .ok (state.append (column.drop state.current.length)) := by
  rw [goToMark, h]

/-- Where no column is remembered, there is none to forget. -/
theorem popAlignment_of_nil (h : state.alignments = []) (line : Nat) :
    state.popAlignment line = state.fail line .popWithoutPush := by
  rw [popAlignment, h]

/-- The column that is remembered last is forgotten. -/
theorem popAlignment_of_cons {column : List Char} {columns : List (List Char)}
    (h : state.alignments = column :: columns) (line : Nat) :
    state.popAlignment line = .ok { state with alignments := columns } := by
  rw [popAlignment, h]

/-- Brings an effect on the open blocks about. Where anything changes, it is noted whether the line is
blank. -/
def undergo (resolver : Resolver) (state : State) (line : Nat) : Effect → Except Failure State
  | .refuse keyword => state.fail line (.outsideCondition keyword)
  | .change scopes => .ok { state with scopes := scopes }.noteBlankLine
  | .ask key outer =>
    (state.evaluate resolver line key).bind fun found =>
      .ok { found.2 with
        scopes := (if found.1.isTruthy then .active else .waiting) :: outer }.noteBlankLine
  | .pass => .ok state

/-- A conditional directive has an effect that the open blocks alone decide. -/
theorem step_of_isConditional (h : placed.token.isConditional = true) :
    state.step resolver placed =
      state.settled.undergo resolver placed.line (placed.token.effect state.scopes) := by
  obtain ⟨line, token⟩ := placed
  obtain ⟨finished, current, scopes, alignments, dropNewline, calls⟩ := state
  cases token with
  | ifKey key =>
    by_cases hactive : scopes.headD .active = .active
    · rw [Token.effect, if_pos hactive]
      change beginIf resolver (settled _) line key = _
      have hscope : (settled ⟨finished, current, scopes, alignments, dropNewline, calls⟩).scope =
          .active := hactive
      rw [beginIf, hscope]
      refine Outcome.bind_congr_ok rfl fun ⟨value, asked⟩ hasked => ?_
      obtain ⟨calls, rfl⟩ := evaluate_ok hasked
      rfl
    · rw [Token.effect, if_neg hactive]
      change beginIf resolver (settled _) line key = _
      unfold beginIf
      split
      · next hscope => exact absurd hscope hactive
      · rfl
  | endif => cases scopes <;> rfl
  | elifKey key =>
    cases scopes with
    | nil => rfl
    | cons scope scopes =>
      cases scope with
      | waiting =>
        refine Outcome.bind_congr_ok rfl fun ⟨value, asked⟩ hasked => ?_
        obtain ⟨calls, rfl⟩ := evaluate_ok hasked
        rfl
      | _ => rfl
  | elseBranch =>
    cases scopes with
    | nil => rfl
    | cons scope scopes => cases scope <;> rfl
  | _ => cases h

/-- Every step leads to a noted state. -/
theorem step_noted (h : state.step resolver placed = .ok after) : Noted after := by
  rcases placed.token.content_or_newline_or_conditional with hcontent | hnewline | hconditional
  · rw [step_of_isContent hcontent] at h
    split at h
    · exact noted_of_dropNewline_eq_false (act_dropNewline h)
    · cases h
      exact noted_of_dropNewline_eq_false rfl
  · rw [step_of_newline hnewline] at h
    cases h
    refine noted_of_dropNewline_eq_false ?_
    unfold newline
    split
    · rfl
    · split <;> rfl
  · rw [step_of_isConditional hconditional] at h
    cases heffect : placed.token.effect state.scopes with
    | refuse keyword =>
      rw [heffect] at h
      cases h
    | change scopes =>
      rw [heffect] at h
      cases h
      exact noted_noteBlankLine _
    | ask key outer =>
      rw [heffect] at h
      obtain ⟨found, -, hafter⟩ := Outcome.bind_ok_iff.mp h
      cases hafter
      exact noted_noteBlankLine _
    | pass =>
      rw [heffect] at h
      cases h
      exact noted_of_dropNewline_eq_false rfl

/-- Every run from a noted state leads to a noted state. -/
theorem run_noted {tokens : List Placed} (hnoted : Noted state)
    (h : state.run resolver tokens = .ok after) : Noted after := by
  induction tokens generalizing state with
  | nil =>
    cases h
    exact hnoted
  | cons placed tokens ih =>
    rw [run_cons] at h
    obtain ⟨middle, hstep, hrest⟩ := Outcome.bind_ok_iff.mp h
    exact ih (step_noted hstep) hrest

end State

end AnnotatedHelp.Template
