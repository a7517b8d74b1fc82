import Mathlib
import AnnotatedHelp.Proofs.TokenSteps

/-!
# Branches that are not taken

The one pass over the tokens of a template keeps a stack of scopes. In a branch that is not taken it
goes through whole forests without an error: no question is asked, no token is acted on, and text,
remembered columns and the scopes around stay as they are. Only blanks on an otherwise empty line may
go, where a conditional directive in the branch takes its newline with it.
-/

namespace AnnotatedHelp.Template

namespace State

variable {resolver : Resolver} {state after : State} {placed : Placed}

/-- Nothing is resolved, emitted, pushed or popped between two states; blanks on an otherwise empty
line may be gone. -/
structure Keeps (before after : State) : Prop where
  /-- The finished lines are the same. -/
  finished : after.finished = before.finished
  /-- The current line is the same, unless it was blank and is empty now. -/
  current : after.current = before.current ∨ before.isBlankLine = true ∧ after.current = []
  /-- The same columns are remembered. -/
  alignments : after.alignments = before.alignments
  /-- No question was asked. -/
  calls : after.calls = before.calls

/-- Keeping is transitive. -/
theorem Keeps.trans {before : State} (first : Keeps before state) (second : Keeps state after) :
    Keeps before after := by
  refine ⟨second.finished.trans first.finished, ?_, second.alignments.trans first.alignments,
    second.calls.trans first.calls⟩
  cases second.current with
  | inl hsame =>
    rw [hsame]
    exact first.current
  | inr hcleared =>
    obtain ⟨hblank, hempty⟩ := hcleared
    cases first.current with
    | inl hsame =>
      unfold isBlankLine at hblank
      rw [hsame] at hblank
      exact .inr ⟨hblank, hempty⟩
    | inr hbefore => exact .inr ⟨hbefore.1, hempty⟩

/-- Tokens are gone through without an error and without acting on any of them. -/
structure Idles (resolver : Resolver) (state : State) (tokens : List Placed) (after : State) :
    Prop where
  /-- The tokens lead to the state. -/
  run : state.run resolver tokens = .ok after
  /-- No token is acted on. -/
  acted : state.acted resolver tokens = []
  /-- The state is as before. -/
  keeps : Keeps state after

/-- No token at all is idle. -/
theorem Idles.nil : Idles resolver state [] state :=
  ⟨rfl, rfl, rfl, .inl rfl, rfl, rfl⟩

/-- A token that is not acted on is idle. -/
theorem Idles.of_step (h : state.step resolver placed = .ok after)
    (hacted : ¬(placed.token.isContent = true ∧ state.scope = .active))
    (hkeeps : Keeps state after) : Idles resolver state [placed] after := by
  refine ⟨?_, ?_, hkeeps⟩
  · rw [run_singleton]
    exact h
  · rw [acted_singleton, if_neg hacted]

/-- Idle tokens behind idle tokens. -/
theorem Idles.append {middle : State} {tokens more : List Placed}
    (first : Idles resolver state tokens middle) (second : Idles resolver middle more after) :
    Idles resolver state (tokens ++ more) after := by
  refine ⟨?_, ?_, first.keeps.trans second.keeps⟩
  · rw [run_append first.run]
    exact second.run
  · rw [acted_append first.run, first.acted, second.acted]
    rfl

/-- Tokens outside conditional directives are idle in a branch that is not taken. -/
theorem idles_plain (resolver : Resolver) (hplain : placed.token.isConditional = false)
    (hnoted : Noted state) (hscope : state.scope ≠ .active) :
    ∃ after, Idles resolver state [placed] after ∧ after.scopes = state.scopes := by
  have hacted : ¬(placed.token.isContent = true ∧ state.scope = .active) := fun h => hscope h.2
  rcases placed.token.content_or_newline_or_conditional with hcontent | hnewline | hconditional
  · have hstep : state.step resolver placed = .ok state.settled := by
      rw [step_of_isContent hcontent, if_neg hscope]
    exact ⟨_, .of_step hstep hacted ⟨rfl, .inl rfl, rfl, rfl⟩, rfl⟩
  · have hstep : state.step resolver placed = _ := step_of_newline hnewline
    by_cases hdrop : state.dropNewline = true
    · rw [if_pos hdrop] at hstep
      exact ⟨_, .of_step hstep hacted ⟨rfl, .inr ⟨hnoted hdrop, rfl⟩, rfl, rfl⟩, rfl⟩
    · have hsettled : state.settled.scope ≠ .active := hscope
      rw [if_neg hdrop, newline, if_neg hsettled] at hstep
      exact ⟨_, .of_step hstep hacted ⟨rfl, .inl rfl, rfl, rfl⟩, rfl⟩
  · rw [hplain] at hconditional
    cases hconditional

/-- A conditional directive is idle if it does not ask for a condition and has its place in a block;
the blocks stand as its effect says. -/
theorem idles_of_isConditional (resolver : Resolver) {scopes : List Scope}
    (hconditional : placed.token.isConditional = true)
    (heffect : placed.token.effect state.scopes = .change scopes ∨
      placed.token.effect state.scopes = .pass ∧ state.scopes = scopes) :
    ∃ after, Idles resolver state [placed] after ∧ after.scopes = scopes := by
  have hacted : ¬(placed.token.isContent = true ∧ state.scope = .active) := by
    rintro ⟨hcontent, -⟩
    rw [Token.isContent_of_isConditional hconditional] at hcontent
    cases hcontent
  have hstep : state.step resolver placed = _ := step_of_isConditional hconditional
  rcases heffect with heffect | ⟨heffect, rfl⟩
  · rw [heffect] at hstep
    exact ⟨_, .of_step hstep hacted ⟨rfl, .inl rfl, rfl, rfl⟩, rfl⟩
  · rw [heffect] at hstep
    exact ⟨_, .of_step hstep hacted ⟨rfl, .inl rfl, rfl, rfl⟩, rfl⟩

/-- A block in a branch that is not taken is never taken, and its condition is not asked for. -/
theorem idles_ifKey (resolver : Resolver) (line : Nat) (key : List Char)
    (hscope : state.scope ≠ .active) :
    ∃ after, Idles resolver state [⟨line, .ifKey key⟩] after ∧
      after.scopes = .done :: state.scopes :=
  idles_of_isConditional resolver rfl (.inl (if_neg hscope))

/-- The end of a block brings back the scopes around it. -/
theorem idles_endif (resolver : Resolver) (line : Nat) {scope : Scope} {scopes : List Scope}
    (hscopes : state.scopes = scope :: scopes) :
    ∃ after, Idles resolver state [⟨line, .endif⟩] after ∧ after.scopes = scopes := by
  refine idles_of_isConditional resolver rfl (.inl ?_)
  rw [hscopes]
  rfl

/-- A further condition behind a branch that was taken is not asked for. -/
theorem idles_elifKey (resolver : Resolver) (line : Nat) (key : List Char) {scope : Scope}
    {scopes : List Scope} (hscopes : state.scopes = scope :: scopes) (hscope : scope ≠ .waiting) :
    ∃ after, Idles resolver state [⟨line, .elifKey key⟩] after ∧
      after.scopes = .done :: scopes := by
  refine idles_of_isConditional resolver rfl ?_
  rw [hscopes]
  cases scope with
  | active => exact .inl rfl
  | waiting => exact absurd rfl hscope
  | done => exact .inr ⟨rfl, rfl⟩

/-- The branch behind `ELSE` is taken unless another one was. -/
theorem idles_elseBranch (resolver : Resolver) (line : Nat) {scope : Scope} {scopes : List Scope}
    (hscopes : state.scopes = scope :: scopes) :
    ∃ after, Idles resolver state [⟨line, .elseBranch⟩] after ∧
      after.scopes = (if scope = .waiting then .active else .done) :: scopes := by
  refine idles_of_isConditional resolver rfl ?_
  rw [hscopes]
  cases scope with
  | active => exact .inl rfl
  | waiting => exact .inl rfl
  | done => exact .inr ⟨rfl, rfl⟩

/-- The scope of a state in a block is that of the block. -/
theorem scope_eq_of_scopes {scope : Scope} {scopes : List Scope}
    (h : state.scopes = scope :: scopes) : state.scope = scope := by
  rw [State.scope, h]
  rfl

/-- Nothing is taken in a block whose branch is not. -/
theorem scope_ne_active {scope : Scope} {scopes : List Scope} (h : state.scopes = scope :: scopes)
    (hscope : scope ≠ .active) : state.scope ≠ .active := by
  rw [scope_eq_of_scopes h]
  exact hscope

end State

open State

variable {resolver : Resolver}

mutual

/-- Nothing in a branch that is not taken is acted on, however deeply it is nested. -/
theorem Forest.idles (resolver : Resolver) (forest : Forest) {state : State} (hnoted : Noted state)
    (hscope : state.scope ≠ .active) :
    ∃ after, Idles resolver state forest.flatten after ∧ after.scopes = state.scopes := by
  match forest with
  | .nil => exact ⟨state, .nil, rfl⟩
  | .token placed hplain rest =>
    obtain ⟨middle, hfirst, hmiddle⟩ := idles_plain resolver hplain hnoted hscope
    have hrest : middle.scope ≠ .active := by
      rw [State.scope, hmiddle]
      exact hscope
    obtain ⟨after, hafter, hscopes⟩ := rest.idles resolver (run_noted hnoted hfirst.run) hrest
    exact ⟨after, hfirst.append hafter, hscopes.trans hmiddle⟩
  | .block line key body branches rest =>
    obtain ⟨opened, hopen, hopened⟩ := idles_ifKey resolver line key hscope
    have hopenedNoted := run_noted hnoted hopen.run
    obtain ⟨inner, hbody, hinner⟩ :=
      body.idles resolver hopenedNoted (scope_ne_active hopened nofun)
    have hinnerNoted := run_noted hopenedNoted hbody.run
    obtain ⟨closed, hbranches, hclosed⟩ :=
      branches.idles resolver hinnerNoted (hinner.trans hopened) nofun
    have hrestScope : closed.scope ≠ .active := by
      rw [State.scope, hclosed]
      exact hscope
    obtain ⟨after, hafter, hscopes⟩ :=
      rest.idles resolver (run_noted hinnerNoted hbranches.run) hrestScope
    exact ⟨after, hopen.append (hbody.append (hbranches.append hafter)), hscopes.trans hclosed⟩

/-- Nothing in further branches is acted on after a branch was taken. -/
theorem Branches.idles (resolver : Resolver) (branches : Branches) {state : State}
    {scope : Scope} {scopes : List Scope} (hnoted : Noted state)
    (hscopes : state.scopes = scope :: scopes) (hscope : scope ≠ .waiting) :
    ∃ after, Idles resolver state branches.flatten after ∧ after.scopes = scopes := by
  match branches with
  | .endif line => exact idles_endif resolver line hscopes
  | .elif line key body rest =>
    obtain ⟨opened, hopen, hopened⟩ :=
      idles_elifKey resolver line key hscopes hscope
    have hopenedNoted := run_noted hnoted hopen.run
    obtain ⟨inner, hbody, hinner⟩ :=
      body.idles resolver hopenedNoted (scope_ne_active hopened nofun)
    obtain ⟨after, hafter, hclosed⟩ :=
      rest.idles resolver (run_noted hopenedNoted hbody.run) (hinner.trans hopened) nofun
    exact ⟨after, hopen.append (hbody.append hafter), hclosed⟩
  | .orElse line body rest =>
    obtain ⟨opened, hopen, hopened⟩ := idles_elseBranch resolver line hscopes
    rw [if_neg hscope] at hopened
    have hopenedNoted := run_noted hnoted hopen.run
    obtain ⟨inner, hbody, hinner⟩ :=
      body.idles resolver hopenedNoted (scope_ne_active hopened nofun)
    obtain ⟨after, hafter, hclosed⟩ :=
      rest.idles resolver (run_noted hopenedNoted hbody.run) (hinner.trans hopened) nofun
    exact ⟨after, hopen.append (hbody.append hafter), hclosed⟩

end

end AnnotatedHelp.Template
