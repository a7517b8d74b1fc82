import Mathlib
import AnnotatedHelp.Proofs.LineComposition
import AnnotatedHelp.Proofs.BranchSelection

/-!
# What runs come to

For a resolver that does not look at the place of a key, the text of a template decides nothing but
text: whether a run fails, with which problem, and which blocks it leaves open depends on the blocks
around it and on the number of remembered columns only. What a run writes is written behind what was
finished before, so states that agree on the current line are gone on from in the same way.
-/

namespace AnnotatedHelp.Template

/-- What a run comes to: the open blocks and the number of remembered columns, or the problem. -/
def standingOf (result : Except Failure State) : Except Problem (List Scope × Nat) :=
  (result.map fun state => (state.scopes, state.alignments.length)).mapError (·.problem)

namespace State

variable {resolver : Resolver} {answers : Answers} {state other after last : State}
  {placed : Placed}

/-- A key has the same value, or the same problem, wherever it is asked for. -/
theorem evaluate_cases (hanswers : ∀ key args context, resolver key args context = answers key args)
    (line : Nat) (directive : List Char) :
    (∃ value, ∀ state : State, ∃ calls,
      state.evaluate resolver line directive = .ok (value, { state with calls := calls })) ∨
    ∃ problem, ∀ state : State, ∃ calls,
      state.evaluate resolver line directive = .error ⟨problem, calls⟩ := by
  unfold evaluate
  cases readKey directive with
  | error cause => exact .inr ⟨_, fun state => ⟨_, rfl⟩⟩
  | ok found =>
    obtain ⟨key, args⟩ := found
    simp only [Call.answer, hanswers]
    cases answers key args with
    | error error => exact .inr ⟨_, fun state => ⟨_, rfl⟩⟩
    | ok value => exact .inl ⟨value, fun state => ⟨_, rfl⟩⟩

/-- With the given blocks open, a directive leaves the blocks as told. It notes whether the line is
blank, or passes over it, and keeps everything else but the questions. -/
def Changes (resolver : Resolver) (placed : Placed) (scopes next : List Scope) (notes : Bool) :
    Prop :=
  ∀ state : State, state.scopes = scopes → ∃ calls, state.step resolver placed =
    .ok { state with
      scopes := next
      dropNewline := notes && state.isBlankLine
      calls := calls }

/-- With the given blocks open, a directive fails with a problem. -/
def Refuses (resolver : Resolver) (placed : Placed) (scopes : List Scope) (problem : Problem) :
    Prop :=
  ∀ state : State, state.scopes = scopes → ∃ calls,
    state.step resolver placed = .error ⟨problem, calls⟩

/-- With the given blocks open, a directive does the same in every state, or fails in every one with
the same problem. It passes over the line only where nothing is taken, and leaves the blocks there. -/
def Decides (resolver : Resolver) (placed : Placed) (scopes : List Scope) : Prop :=
  (∃ next notes, (notes = true ∨ next = scopes ∧ scopes.headD .active ≠ .active) ∧
    Changes resolver placed scopes next notes) ∨
  ∃ problem, Refuses resolver placed scopes problem

/-- A conditional directive changes nothing only where no branch of its block is open any more. -/
theorem headD_of_pass {token : Token} {scopes : List Scope} (h : token.isConditional = true)
    (heffect : token.effect scopes = .pass) : scopes.headD .active ≠ .active := by
  cases token with
  | ifKey key =>
    rw [Token.effect] at heffect
    split_ifs at heffect
  | endif =>
    cases scopes with
    | nil => cases heffect
    | cons scope outer => cases heffect
  | elifKey key =>
    cases scopes with
    | nil => cases heffect
    | cons scope outer =>
      cases scope with
      | done =>
        intro hactive
        cases hactive
      | _ => cases heffect
  | elseBranch =>
    cases scopes with
    | nil => cases heffect
    | cons scope outer =>
      cases scope with
      | done =>
        intro hactive
        cases hactive
      | _ => cases heffect
  | _ => cases h

/-- The open blocks decide what a conditional directive does. -/
theorem decides_of_isConditional
    (hanswers : ∀ key args context, resolver key args context = answers key args)
    (h : placed.token.isConditional = true) (scopes : List Scope) :
    Decides resolver placed scopes := by
  have hstep : ∀ state : State, state.scopes = scopes → state.step resolver placed =
      state.settled.undergo resolver placed.line (placed.token.effect scopes) := by
    rintro state rfl
    exact step_of_isConditional h
  cases heffect : placed.token.effect scopes with
  | refuse keyword =>
    refine .inr ⟨⟨placed.line, .outsideCondition keyword⟩, fun state hscopes => ⟨state.calls, ?_⟩⟩
    rw [hstep state hscopes, heffect]
    rfl
  | change next =>
    refine .inl ⟨next, true, .inl rfl, fun state hscopes => ⟨state.calls, ?_⟩⟩
    rw [hstep state hscopes, heffect]
    rfl
  | ask key outer =>
    rcases evaluate_cases hanswers placed.line key with ⟨value, hvalue⟩ | ⟨problem, hproblem⟩
    · refine .inl ⟨(if value.isTruthy then .active else .waiting) :: outer, true, .inl rfl, ?_⟩
      intro state hscopes
      obtain ⟨calls, hasked⟩ := hvalue state.settled
      refine ⟨calls, ?_⟩
      rw [hstep state hscopes, heffect, undergo, hasked]
      rfl
    · refine .inr ⟨problem, fun state hscopes => ?_⟩
      obtain ⟨calls, hasked⟩ := hproblem state.settled
      refine ⟨calls, ?_⟩
      rw [hstep state hscopes, heffect, undergo, hasked]
      rfl
  | pass =>
    refine .inl ⟨scopes, false, .inr ⟨rfl, headD_of_pass h heffect⟩, fun state hscopes => ?_⟩
    refine ⟨state.calls, ?_⟩
    rw [hstep state hscopes, heffect, ← hscopes]
    rfl

/-- Two states stand in the same blocks and remember as many columns. -/
structure Level (state other : State) : Prop where
  /-- The same blocks are open, and stand in the same way. -/
  scopes : state.scopes = other.scopes
  /-- As many columns are remembered. -/
  columns : state.alignments.length = other.alignments.length

/-- Results are the same exactly where the states are level. -/
theorem standingOf_ok_iff :
    standingOf (.ok state) = standingOf (.ok other) ↔ Level state other := by
  simp only [standingOf, Except.map, Except.mapError, Except.ok.injEq, Prod.mk.injEq]
  exact ⟨fun ⟨hscopes, hcolumns⟩ => ⟨hscopes, hcolumns⟩, fun h => ⟨h.scopes, h.columns⟩⟩

/-- What is written keeps states level. -/
theorem Level.of_unwritten (h : Level state other) (hafter : after.unwritten = state.unwritten)
    (hlast : last.unwritten = other.unwritten) : Level after last := by
  obtain ⟨hscopes, halignments, -⟩ := eq_of_unwritten_eq hafter
  obtain ⟨hscopes', halignments', -⟩ := eq_of_unwritten_eq hlast
  exact ⟨by rw [hscopes, hscopes', h.scopes], by rw [halignments, halignments', h.columns]⟩

/-- Acting on a token comes to the same in level states. -/
theorem Level.act (hanswers : ∀ key args context, resolver key args context = answers key args)
    (h : Level state other) (line : Nat) (token : Token) :
    standingOf (state.act resolver line token) = standingOf (other.act resolver line token) := by
  cases token with
  | text text =>
    exact standingOf_ok_iff.mpr
      (h.of_unwritten (addText_unwritten state text) (addText_unwritten other text))
  | expand key =>
    rcases evaluate_cases hanswers line key with ⟨value, hvalue⟩ | ⟨problem, hproblem⟩
    · obtain ⟨calls, hasked⟩ := hvalue state
      obtain ⟨calls', hasked'⟩ := hvalue other
      have hlevel : Level { state with calls := calls } { other with calls := calls' } :=
        ⟨h.scopes, h.columns⟩
      rw [State.act, State.act, hasked, hasked']
      exact standingOf_ok_iff.mpr
        (hlevel.of_unwritten (addValue_unwritten _ value) (addValue_unwritten _ value))
    · obtain ⟨calls, hasked⟩ := hproblem state
      obtain ⟨calls', hasked'⟩ := hproblem other
      rw [State.act, State.act, hasked, hasked']
      rfl
  | push => exact standingOf_ok_iff.mpr ⟨h.scopes, congrArg Nat.succ h.columns⟩
  | mark =>
    have hcolumns := h.columns
    unfold State.act goToMark
    cases hown : state.alignments <;> cases hothers : other.alignments <;>
      rw [hown, hothers] at hcolumns
    · rfl
    · cases hcolumns
    · cases hcolumns
    · exact standingOf_ok_iff.mpr ⟨h.scopes, h.columns⟩
  | pop =>
    have hcolumns := h.columns
    unfold State.act popAlignment
    cases hown : state.alignments <;> cases hothers : other.alignments <;>
      rw [hown, hothers] at hcolumns
    · rfl
    · cases hcolumns
    · cases hcolumns
    · exact standingOf_ok_iff.mpr ⟨h.scopes, Nat.succ.inj hcolumns⟩
  | _ => exact standingOf_ok_iff.mpr h

/-- Level states stand in like branches. -/
theorem Level.scope (h : Level state other) : state.scope = other.scope :=
  congrArg (·.headD .active) h.scopes

/-- A step comes to the same in level states. -/
theorem Level.step (hanswers : ∀ key args context, resolver key args context = answers key args)
    (h : Level state other) (placed : Placed) :
    standingOf (state.step resolver placed) = standingOf (other.step resolver placed) := by
  have hsettled : Level state.settled other.settled := ⟨h.scopes, h.columns⟩
  rcases placed.token.content_or_newline_or_conditional with hcontent | hnewline | hconditional
  · rw [step_of_isContent hcontent, step_of_isContent hcontent, h.scope]
    split
    · exact hsettled.act hanswers _ _
    · exact standingOf_ok_iff.mpr hsettled
  · have hkeeps : ∀ state : State, Level (if state.dropNewline = true then
        { state.settled with current := [] } else state.settled.newline) state := by
      intro state
      unfold newline
      split_ifs <;> exact ⟨rfl, rfl⟩
    rw [step_of_newline hnewline, step_of_newline hnewline, standingOf_ok_iff]
    exact ⟨(hkeeps state).scopes.trans (h.scopes.trans (hkeeps other).scopes.symm),
      (hkeeps state).columns.trans (h.columns.trans (hkeeps other).columns.symm)⟩
  · rcases decides_of_isConditional hanswers hconditional other.scopes with
      ⟨next, notes, -, hchanges⟩ | ⟨problem, hrefuses⟩
    · obtain ⟨calls, hstep⟩ := hchanges state h.scopes
      obtain ⟨calls', hstep'⟩ := hchanges other rfl
      rw [hstep, hstep']
      exact standingOf_ok_iff.mpr ⟨rfl, h.columns⟩
    · obtain ⟨calls, hstep⟩ := hrefuses state h.scopes
      obtain ⟨calls', hstep'⟩ := hrefuses other rfl
      rw [hstep, hstep']
      rfl

/-- Runs that come to the same come to the same with further steps that do. -/
theorem standingOf_bind {result others : Except Failure State}
    {next following : State → Except Failure State} (h : standingOf result = standingOf others)
    (hnext : ∀ {state other : State}, Level state other →
      standingOf (next state) = standingOf (following other)) :
    standingOf (result >>= next) = standingOf (others >>= following) := by
  cases result with
  | error failure =>
    cases others with
    | error failure' => exact h
    | ok other => cases h
  | ok state =>
    cases others with
    | error failure' => cases h
    | ok other => exact hnext (standingOf_ok_iff.mp h)

/-- A run comes to the same in level states. -/
theorem Level.run (hanswers : ∀ key args context, resolver key args context = answers key args)
    (h : Level state other) (tokens : List Placed) :
    standingOf (state.run resolver tokens) = standingOf (other.run resolver tokens) := by
  induction tokens generalizing state other with
  | nil => exact standingOf_ok_iff.mpr h
  | cons placed tokens ih =>
    rw [run_cons, run_cons]
    exact standingOf_bind (h.step hanswers placed) ih

/-- Runs over the same tokens come to the same if what follows does. -/
theorem standingOf_run_append
    (hanswers : ∀ key args context, resolver key args context = answers key args)
    (tokens : List Placed) {more others : List Placed}
    (h : ∀ state : State,
      standingOf (state.run resolver more) = standingOf (state.run resolver others)) :
    standingOf (state.run resolver (tokens ++ more)) =
      standingOf (state.run resolver (tokens ++ others)) := by
  rw [run_append_eq, run_append_eq]
  exact standingOf_bind rfl fun hlevel => (hlevel.run hanswers more).trans (h _)

/-- The state before anything was finished or asked. -/
def fresh (state : State) : State :=
  { state with finished := [], calls := [] }

/-- States that differ in what was finished and asked are gone on from with the same lines. -/
theorem run_finished (hanswers : ∀ key args context, resolver key args context = answers key args)
    (hfresh : state.fresh = other.fresh) {tokens : List Placed}
    (h : state.run resolver tokens = .ok after) (hother : other.run resolver tokens = .ok last) :
    ∃ lines, after.finished = lines ++ state.finished ∧
      last.finished = lines ++ other.finished := by
  -- What was finished and asked before is below everything that follows.
  let below (state : State) : State := { start with finished := state.finished, calls := state.calls }
  have habove : ∀ state : State, state = state.fresh.above (below state) := by
    intro state
    simp [below, above, fresh, start]
  have hlevel : Level state.fresh state := ⟨rfl, rfl⟩
  have hrun := hlevel.run hanswers tokens
  rw [h] at hrun
  cases hown : state.fresh.run resolver tokens with
  | error failure =>
    rw [hown] at hrun
    cases hrun
  | ok middle =>
    have hstate := run_above_of_tokens (below state) rfl hown
    have hother' := run_above_of_tokens (below other) rfl (hfresh ▸ hown)
    rw [← habove, h] at hstate
    rw [← habove, hother] at hother'
    cases hstate
    cases hother'
    exact ⟨middle.finished, rfl, rfl⟩

end State

/-- Whether tokens render, and why not, is what their run comes to. -/
theorem renderTokens_standingOf (resolver : Resolver) (tokens : List Placed) :
    (renderTokens resolver tokens).lines.map (fun _ => ()) =
      standingOf (State.start.run resolver tokens) >>= fun standing =>
        if standing.1.isEmpty then .ok ()
        else .error ⟨lastLine tokens, .openConditions standing.1.length⟩ := by
  unfold renderTokens
  cases State.start.run resolver tokens with
  | error failure => rfl
  | ok state =>
    change _ = if state.scopes.isEmpty then _ else _
    dsimp only
    split <;> rfl

end AnnotatedHelp.Template
