import Mathlib
import AnnotatedHelp.Proofs.BlankInsensitivity

/-!
# What one token does

Whatever a step does to the lines and to the remembered columns, it does in one of few ways: the token
is passed over, acted on, or ends a line, and conditional directives leave lines and columns alone. An
invariant of lines and columns is kept by every run as soon as each of these ways keeps it.
-/

namespace AnnotatedHelp.Template

open Text

namespace State

variable {resolver : Resolver} {state after : State} {placed : Placed}

/-- The value of a key is what the resolver answers at the place where the line ends. -/
theorem evaluate_ok_iff {line : Nat} {directive : List Char} {value : Value} :
    state.evaluate resolver line directive = .ok (value, after) ↔
      ∃ key args, readKey directive = .ok (key, args) ∧
        resolver key args state.context = .ok value ∧
          after = { state with calls := ⟨key, args, state.context⟩ :: state.calls } := by
  unfold evaluate
  cases hkey : readKey directive with
  | error cause =>
    constructor
    · intro h
      cases h
    · rintro ⟨_, _, hread, -⟩
      cases hread
  | ok found =>
    obtain ⟨key, args⟩ := found
    simp only [Call.answer, Except.ok.injEq, Prod.mk.injEq]
    cases hanswer : resolver key args state.context with
    | error error =>
      constructor
      · intro h
        cases h
      · rintro ⟨_, _, ⟨rfl, rfl⟩, hvalue, -⟩
        cases hanswer.symm.trans hvalue
    | ok answer =>
      constructor
      · intro h
        cases h
        exact ⟨key, args, ⟨rfl, rfl⟩, hanswer, rfl⟩
      · rintro ⟨_, _, ⟨rfl, rfl⟩, hvalue, rfl⟩
        cases hanswer.symm.trans hvalue
        rfl

/-- The state behind a token that is gone through, as far as lines and remembered columns go. -/
inductive Leaves (resolver : Resolver) (state : State) (placed : Placed) : State → Prop where
  /-- Text, expansions and alignment directives are passed over in a branch that is not taken. -/
  | passed (hcontent : placed.token.isContent = true) (htaken : state.scope ≠ .active) :
      Leaves resolver state placed state.settled
  /-- A text is written. -/
  | text {text : List Char} (htoken : placed.token = .text text) (htaken : state.scope = .active) :
      Leaves resolver state placed (state.settled.addText text)
  /-- The value of a key is written. -/
  | expand {directive : List Char} {key : String} {args : List String} {value : Value}
      (htoken : placed.token = .expand directive) (htaken : state.scope = .active)
      (hkey : readKey directive = .ok (key, args))
      (hvalue : resolver key args state.context = .ok value) :
      Leaves resolver state placed (addValue
        { state.settled with calls := ⟨key, args, state.context⟩ :: state.calls } value)
  /-- The column is remembered. -/
  | push (htoken : placed.token = .push) (htaken : state.scope = .active) :
      Leaves resolver state placed
        { state.settled with alignments := state.context.alignment :: state.alignments }
  /-- The line is extended to the column that is remembered last. -/
  | mark {column : List Char} {columns : List (List Char)} (htoken : placed.token = .mark)
      (htaken : state.scope = .active) (hcolumns : state.alignments = column :: columns) :
      Leaves resolver state placed (state.settled.append (column.drop state.current.length))
  /-- The column that is remembered last is forgotten. -/
  | pop {column : List Char} {columns : List (List Char)} (htoken : placed.token = .pop)
      (htaken : state.scope = .active) (hcolumns : state.alignments = column :: columns) :
      Leaves resolver state placed { state.settled with alignments := columns }
  /-- A newline is dropped with the line that it ends. -/
  | dropped (htoken : placed.token = .newline) (hdrop : state.dropNewline = true) :
      Leaves resolver state placed { state.settled with current := [] }
  /-- A newline finishes the line. -/
  | finished (htoken : placed.token = .newline) (htaken : state.scope = .active) :
      Leaves resolver state placed state.settled.finishLine
  /-- A newline is passed over in a branch that is not taken. -/
  | kept (htoken : placed.token = .newline) (htaken : state.scope ≠ .active) :
      Leaves resolver state placed state.settled
  /-- A conditional directive changes nothing but blocks, questions and whether a newline is
  dropped. -/
  | conditional {scopes : List Scope} {dropNewline : Bool} {calls : List Call}
      (htoken : placed.token.isConditional = true) :
      Leaves resolver state placed
        { state with scopes := scopes, dropNewline := dropNewline, calls := calls }

/-- Acting on a token in a branch that is taken. -/
theorem leaves_of_act (hcontent : placed.token.isContent = true) (htaken : state.scope = .active)
    (h : state.settled.act resolver placed.line placed.token = .ok after) :
    Leaves resolver state placed after := by
  obtain ⟨line, token⟩ := placed
  cases token with
  | text text =>
    cases h
    exact .text rfl htaken
  | expand directive =>
    obtain ⟨⟨value, asked⟩, hasked, h⟩ := Outcome.bind_ok_iff.mp h
    cases h
    obtain ⟨key, args, hkey, hvalue, rfl⟩ := evaluate_ok_iff.mp hasked
    exact .expand rfl htaken hkey hvalue
  | push =>
    cases h
    exact .push rfl htaken
  | mark =>
    replace h : state.settled.goToMark line = .ok after := h
    cases hcolumns : state.settled.alignments with
    | nil =>
      rw [goToMark_of_nil hcolumns] at h
      cases h
    | cons column columns =>
      rw [goToMark_of_cons hcolumns] at h
      cases h
      exact .mark rfl htaken hcolumns
  | pop =>
    replace h : state.settled.popAlignment line = .ok after := h
    cases hcolumns : state.settled.alignments with
    | nil =>
      rw [popAlignment_of_nil hcolumns] at h
      cases h
    | cons column columns =>
      rw [popAlignment_of_cons hcolumns] at h
      cases h
      exact .pop rfl htaken hcolumns
  | _ => cases hcontent

/-- A conditional directive leaves lines and columns alone. -/
theorem leaves_of_isConditional (hconditional : placed.token.isConditional = true)
    (h : state.step resolver placed = .ok after) : Leaves resolver state placed after := by
  rw [step_of_isConditional hconditional] at h
  cases heffect : placed.token.effect state.scopes with
  | refuse keyword =>
    rw [heffect] at h
    cases h
  | ask key outer =>
    rw [heffect] at h
    obtain ⟨⟨value, asked⟩, hasked, h⟩ := Outcome.bind_ok_iff.mp h
    obtain ⟨calls, rfl⟩ := evaluate_ok hasked
    cases h
    exact .conditional hconditional
  | _ =>
    rw [heffect] at h
    cases h
    exact .conditional hconditional

/-- A step goes through its token in one of these ways. -/
theorem leaves_of_step (h : state.step resolver placed = .ok after) :
    Leaves resolver state placed after := by
  rcases placed.token.content_or_newline_or_conditional with hcontent | hnewline | hconditional
  · rw [step_of_isContent hcontent] at h
    split_ifs at h with htaken
    · exact leaves_of_act hcontent htaken h
    · cases h
      exact .passed hcontent htaken
  · rw [step_of_newline hnewline] at h
    split_ifs at h with hdrop
    · cases h
      exact .dropped hnewline hdrop
    · unfold newline at h
      split_ifs at h with htaken
      · cases h
        exact .finished hnewline htaken
      · cases h
        exact .kept hnewline htaken
  · exact leaves_of_isConditional hconditional h

/-- What every step keeps, a run keeps. -/
theorem run_keeps (holds : State → Prop)
    (hstep : ∀ {state after : State} {placed : Placed}, holds state →
      state.step resolver placed = .ok after → holds after)
    {tokens : List Placed} (hstate : holds state) (h : state.run resolver tokens = .ok after) :
    holds after := by
  induction tokens generalizing state with
  | nil =>
    cases h
    exact hstate
  | cons placed tokens ih =>
    rw [run_cons] at h
    obtain ⟨middle, hfirst, hrest⟩ := Outcome.bind_ok_iff.mp h
    exact ih (hstep hstate hfirst) hrest

end State

end AnnotatedHelp.Template
