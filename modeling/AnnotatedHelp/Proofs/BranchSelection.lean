import Mathlib
import AnnotatedHelp.Proofs.UntakenBranches

/-!
# Selection of branches

Structured evaluation walks the tree of conditional blocks: it asks for the conditions of a block
from left to right up to the first one that holds, walks that branch, or the one behind `ELSE` if
none holds, and knows nothing of the other branches. The one pass over the tokens with its stack of
scopes asks the same questions, acts on the same tokens and meets the same first error.
-/

namespace AnnotatedHelp.Template

/-- The answers of a resolver that does not look at the place of a key. -/
abbrev Answers := (key : String) → (args : List String) → Except ResolveError Value

/-- What structured evaluation does. -/
structure Walk (α : Type) where
  /-- The keys asked for with their arguments, in order. -/
  asked : List (String × List String)
  /-- The text, expansions and alignment directives acted on, in order, a failing one included. -/
  acted : List Placed
  /-- What the walk comes to, or the first error. -/
  outcome : Except Problem α

namespace Walk

variable {α β : Type}

/-- Nothing is asked and nothing done. -/
def done (a : α) : Walk α := ⟨[], [], .ok a⟩

/-- One walk after another; an error ends both. -/
def andThen (walk : Walk α) (next : α → Walk β) : Walk β :=
  match walk.outcome with
  | .error problem => ⟨walk.asked, walk.acted, .error problem⟩
  | .ok a => ⟨walk.asked ++ (next a).asked, walk.acted ++ (next a).acted, (next a).outcome⟩

/-- Asks for the value of a key on behalf of the given tokens. -/
def ask (answers : Answers) (acted : List Placed) (line : Nat) (directive : List Char) :
    Walk Value :=
  match readKey directive with
  | .error cause => ⟨[], acted, .error ⟨line, cause⟩⟩
  | .ok (key, args) =>
    ⟨[(key, args)], acted, (answers key args).mapError fun error => ⟨line, .unresolved key error⟩⟩

/-- Visits a token outside conditional directives with a number of remembered columns. -/
def visit (answers : Answers) (columns : Nat) (placed : Placed) : Walk Nat :=
  match placed.token with
  | .text _ => ⟨[], [placed], .ok columns⟩
  | .expand key => (ask answers [placed] placed.line key).andThen fun _ => .done columns
  | .push => ⟨[], [placed], .ok (columns + 1)⟩
  | .mark =>
    ⟨[], [placed], if columns = 0 then .error ⟨placed.line, .markWithoutPush⟩ else .ok columns⟩
  | .pop =>
    ⟨[], [placed], if columns = 0 then .error ⟨placed.line, .popWithoutPush⟩ else .ok (columns - 1)⟩
  | _ => .done columns

/-- A walk that goes on with nothing is itself. -/
theorem andThen_done (walk : Walk α) : walk.andThen done = walk := by
  obtain ⟨asked, acted, outcome⟩ := walk
  cases outcome <;> simp [andThen, done]

end Walk

mutual

/-- Walks a forest with a number of remembered columns. -/
def Forest.walk (answers : Answers) (columns : Nat) : Forest → Walk Nat
  | .nil => .done columns
  | .token placed _ rest =>
    (Walk.visit answers columns placed).andThen fun columns => rest.walk answers columns
  | .block line key body branches rest =>
    (Walk.ask answers [] line key).andThen fun value =>
      (if value.isTruthy then body.walk answers columns else branches.walk answers columns).andThen
        fun columns => rest.walk answers columns

/-- Walks the first of further branches that is to be taken, if there is one. -/
def Branches.walk (answers : Answers) (columns : Nat) : Branches → Walk Nat
  | .endif _ => .done columns
  | .elif line key body rest =>
    (Walk.ask answers [] line key).andThen fun value =>
      if value.isTruthy then body.walk answers columns else rest.walk answers columns
  | .orElse _ body _ => body.walk answers columns

end

/-- The keys of recorded questions with their arguments, in order. -/
def questions (calls : List Call) : List (String × List String) :=
  calls.reverse.map fun call => (call.key, call.args)

open State

variable {resolver : Resolver}

/-- Going through tokens does what a walk does: it asks the same, acts on the same, and fails with
the same error or leads to a state that is as it should be for what the walk comes to. -/
inductive Follows {α : Type} (resolver : Resolver) (state : State) (tokens : List Placed)
    (walk : Walk α) (holds : α → State → Prop) : Prop where
  /-- Both get to the end. -/
  | finishes {a : α} {after : State} (run : state.run resolver tokens = .ok after)
    (outcome : walk.outcome = .ok a) (acted : state.acted resolver tokens = walk.acted)
    (asked : questions after.calls = questions state.calls ++ walk.asked) (post : holds a after)
  /-- Both fail, and with the same error. -/
  | fails {failure : Failure} (run : state.run resolver tokens = .error failure)
    (outcome : walk.outcome = .error failure.problem)
    (acted : state.acted resolver tokens = walk.acted)
    (asked : questions failure.calls = questions state.calls ++ walk.asked)

namespace Follows

variable {α β : Type} {state after : State} {tokens : List Placed} {placed : Placed}
variable {holds : α → State → Prop}

/-- Idle tokens follow the walk that does nothing. -/
theorem of_idles {a : α} (h : Idles resolver state tokens after) (hpost : holds a after) :
    Follows resolver state tokens (.done a) holds := by
  refine .finishes h.run rfl h.acted ?_ hpost
  rw [h.keeps.calls]
  exact (List.append_nil _).symm

/-- A token that asks nothing and succeeds. -/
theorem of_step {a : α} {acted : List Placed} (h : state.step resolver placed = .ok after)
    (hacted : state.acted resolver [placed] = acted) (hcalls : after.calls = state.calls)
    (hpost : holds a after) : Follows resolver state [placed] ⟨[], acted, .ok a⟩ holds := by
  refine .finishes (run_singleton.trans h) rfl hacted ?_ hpost
  rw [hcalls]
  exact (List.append_nil _).symm

/-- A token that asks nothing and fails. -/
theorem of_fail {acted : List Placed} {cause : Cause}
    (h : state.step resolver placed = state.settled.fail placed.line cause)
    (hacted : state.acted resolver [placed] = acted) :
    Follows resolver state [placed] ⟨[], acted, .error ⟨placed.line, cause⟩⟩ holds :=
  .fails (run_singleton.trans h) rfl hacted (List.append_nil _).symm

/-- Tokens behind others follow the one walk after the other. -/
theorem andThen {walk : Walk α} {next : α → Walk β} {more : List Placed}
    {holdsNext : β → State → Prop} (h : Follows resolver state tokens walk holds)
    (hnext : ∀ a after, holds a after → Follows resolver after more (next a) holdsNext) :
    Follows resolver state (tokens ++ more) (walk.andThen next) holdsNext := by
  obtain ⟨asked, acted, outcome⟩ := walk
  cases h with
  | fails hrun houtcome hacted hasked =>
    cases houtcome
    refine .fails (run_append_of_error hrun more) rfl ?_ hasked
    rw [acted_append_of_error hrun, hacted]
    rfl
  | @finishes a middle hrun houtcome hacted hasked hpost =>
    cases houtcome
    have hmore : state.acted resolver (tokens ++ more) = acted ++ middle.acted resolver more := by
      rw [acted_append hrun, hacted]
    cases hnext a middle hpost with
    | fails hrun' houtcome' hacted' hasked' =>
      refine .fails ((run_append hrun more).trans hrun') houtcome' ?_ ?_
      · rw [hmore, hacted']
        rfl
      · rw [hasked', hasked, List.append_assoc]
        rfl
    | finishes hrun' houtcome' hacted' hasked' hpost' =>
      refine .finishes ((run_append hrun more).trans hrun') houtcome' ?_ ?_ hpost'
      · rw [hmore, hacted']
        rfl
      · rw [hasked', hasked, List.append_assoc]
        rfl

/-- Tokens that follow a walk follow it with another result. -/
theorem map {walk : Walk α} {g : α → β} {holdsNext : β → State → Prop}
    (h : Follows resolver state tokens walk holds)
    (hnext : ∀ a after, holds a after → holdsNext (g a) after) :
    Follows resolver state tokens (walk.andThen fun a => .done (g a)) holdsNext := by
  have happend :
      Follows resolver state (tokens ++ []) (walk.andThen fun a => .done (g a)) holdsNext :=
    h.andThen fun a after hpost => .of_idles .nil (hnext a after hpost)
  rw [List.append_nil] at happend
  exact happend

/-- What a walk leads to can be weakened. -/
theorem imp {walk : Walk α} {weaker : α → State → Prop}
    (h : Follows resolver state tokens walk holds) (himp : ∀ a after, holds a after → weaker a after) :
    Follows resolver state tokens walk weaker := by
  cases h with
  | finishes hrun houtcome hacted hasked hpost =>
    exact .finishes hrun houtcome hacted hasked (himp _ _ hpost)
  | fails hrun houtcome hacted hasked => exact .fails hrun houtcome hacted hasked

/-- Idle tokens behind others that follow a walk. -/
theorem append_idle {walk : Walk α} {more : List Placed} {holdsNext : α → State → Prop}
    (h : Follows resolver state tokens walk holds)
    (hnext : ∀ a after, holds a after →
      ∃ last, Idles resolver after more last ∧ holdsNext a last) :
    Follows resolver state (tokens ++ more) walk holdsNext := by
  have happend : Follows resolver state (tokens ++ more) (walk.andThen .done) holdsNext := by
    refine h.andThen ?_
    intro a after hpost
    obtain ⟨last, hidle, hlast⟩ := hnext a after hpost
    exact .of_idles hidle hlast
  rw [Walk.andThen_done] at happend
  exact happend

/-- Tokens that follow a walk behind idle ones. -/
theorem prepend_idle {walk : Walk α} {more : List Placed}
    (hidle : Idles resolver state tokens after) (h : Follows resolver after more walk holds) :
    Follows resolver state (tokens ++ more) walk holds := by
  have hdone : Follows resolver state tokens (.done ()) fun _ last => last = after :=
    .of_idles hidle rfl
  have happend :
      Follows resolver state (tokens ++ more) ((Walk.done ()).andThen fun _ => walk) holds := by
    refine hdone.andThen ?_
    rintro _ _ rfl
    exact h
  exact happend

end Follows

/-- The value of a key is asked for in the same way, and no token but the asking one is acted on. -/
theorem follows_ask {answers : Answers} {state : State} {placed : Placed} {acted : List Placed}
    {line : Nat} {key : List Char} (proceed : Value → State → State)
    (hanswers : ∀ key args context, resolver key args context = answers key args)
    (hstep : state.step resolver placed =
      (state.settled.evaluate resolver line key).bind fun found => .ok (proceed found.1 found.2))
    (hacted : state.acted resolver [placed] = acted)
    (hcalls : ∀ value state, (proceed value state).calls = state.calls) :
    Follows resolver state [placed] (.ask answers acted line key) fun value after =>
      ∃ calls, after = proceed value { state.settled with calls := calls } := by
  have hrun : state.run resolver [placed] =
      (state.settled.evaluate resolver line key).bind fun found => .ok (proceed found.1 found.2) :=
    run_singleton.trans hstep
  unfold evaluate at hrun
  unfold Walk.ask
  cases hkey : readKey key with
  | error cause =>
    rw [hkey] at hrun
    exact .fails hrun rfl hacted (List.append_nil _).symm
  | ok found =>
    obtain ⟨name, args⟩ := found
    have hanswer := hanswers name args state.settled.context
    simp only [hkey, Call.answer, hanswer] at hrun
    have hasked : questions (⟨name, args, state.settled.context⟩ :: state.calls) =
        questions state.calls ++ [(name, args)] := by
      simp [questions]
    let report (error : ResolveError) : Problem := ⟨line, .unresolved name error⟩
    cases hvalue : answers name args with
    | error error =>
      rw [hvalue] at hrun
      exact .fails hrun (congrArg (Except.mapError report) hvalue) hacted hasked
    | ok value =>
      rw [hvalue] at hrun
      refine .finishes hrun (congrArg (Except.mapError report) hvalue) hacted ?_ ⟨_, rfl⟩
      rw [hcalls]
      exact hasked

/-- How a state stands behind tokens of a branch that is taken. -/
structure Standing (scopes : List Scope) (columns : Nat) (state : State) : Prop where
  /-- The blocks around it are the given ones. -/
  scopes : state.scopes = scopes
  /-- As many columns are remembered as the walk counts. -/
  columns : state.alignments.length = columns
  /-- A newline is to be dropped only behind blanks. -/
  noted : Noted state

section Visiting

variable {state : State} {line : Nat} {cause : Cause}

/-- A token that is acted on and asks nothing is visited, if it is visited as one that succeeds. -/
theorem follows_acting {token : Token} {columns : Nat} {after : State}
    (hcontent : token.isContent = true) (hscope : state.scope = .active)
    (hact : state.settled.act resolver line token = .ok after)
    (hscopes : after.scopes = state.scopes) (hcolumns : after.alignments.length = columns)
    (hcalls : after.calls = state.calls) :
    Follows resolver state [⟨line, token⟩] ⟨[], [⟨line, token⟩], .ok columns⟩
      (Standing state.scopes) := by
  have hplaced : (Placed.mk line token).token.isContent = true := hcontent
  have hstep : state.step resolver ⟨line, token⟩ = .ok after :=
    (step_of_taken hplaced hscope).trans hact
  exact .of_step hstep (acted_of_isContent hplaced hscope) hcalls
    ⟨hscopes, hcolumns, step_noted hstep⟩

/-- A token that cannot be acted on is visited, if it is visited as one that fails. -/
theorem follows_failing {token : Token} (hcontent : token.isContent = true)
    (hscope : state.scope = .active)
    (hact : state.settled.act resolver line token = state.settled.fail line cause) :
    Follows resolver state [⟨line, token⟩] ⟨[], [⟨line, token⟩], .error ⟨line, cause⟩⟩
      (Standing state.scopes) := by
  have hplaced : (Placed.mk line token).token.isContent = true := hcontent
  exact .of_fail ((step_of_taken hplaced hscope).trans hact) (acted_of_isContent hplaced hscope)

/-- A text is written. -/
theorem follows_text (answers : Answers) (line : Nat) (text : List Char)
    (hscope : state.scope = .active) :
    Follows resolver state [⟨line, .text text⟩]
      (.visit answers state.alignments.length ⟨line, .text text⟩) (Standing state.scopes) := by
  obtain ⟨hscopes, halignments, -, hcalls⟩ :=
    eq_of_unwritten_eq (addText_unwritten state.settled text)
  exact follows_acting rfl hscope rfl hscopes (congrArg List.length halignments) hcalls

/-- A key is asked for and its value written. -/
theorem follows_expand {answers : Answers} (line : Nat) (key : List Char)
    (hanswers : ∀ key args context, resolver key args context = answers key args)
    (hscope : state.scope = .active) :
    Follows resolver state [⟨line, .expand key⟩]
      (.visit answers state.alignments.length ⟨line, .expand key⟩) (Standing state.scopes) := by
  have hcontent : (Placed.mk line (.expand key)).token.isContent = true := rfl
  have hstep : state.step resolver ⟨line, .expand key⟩ =
      (state.settled.evaluate resolver line key).bind fun found =>
        .ok (found.2.addValue found.1) := step_of_taken hcontent hscope
  have hacted : state.acted resolver [⟨line, .expand key⟩] = [⟨line, .expand key⟩] :=
    acted_of_isContent hcontent hscope
  have hcalls : ∀ (value : Value) (state : State), (state.addValue value).calls = state.calls :=
    fun value state => (eq_of_unwritten_eq (addValue_unwritten state value)).2.2.2
  refine (follows_ask (fun value state => state.addValue value) hanswers hstep hacted hcalls).map ?_
  rintro value after ⟨calls, rfl⟩
  obtain ⟨hscopes, halignments, hdrop, -⟩ :=
    eq_of_unwritten_eq (addValue_unwritten { state.settled with calls := calls } value)
  exact ⟨hscopes, congrArg List.length halignments, noted_of_dropNewline_eq_false hdrop⟩

/-- A mark needs a column that is remembered. -/
theorem follows_mark (answers : Answers) (line : Nat) (hscope : state.scope = .active) :
    Follows resolver state [⟨line, .mark⟩] (.visit answers state.alignments.length ⟨line, .mark⟩)
      (Standing state.scopes) := by
  cases hcolumns : state.alignments with
  | nil =>
    have hsettled : state.settled.alignments = [] := hcolumns
    exact follows_failing rfl hscope (goToMark_of_nil hsettled line)
  | cons column columns =>
    have hsettled : state.settled.alignments = column :: columns := hcolumns
    exact follows_acting rfl hscope (goToMark_of_cons hsettled line) rfl
      (congrArg List.length hcolumns) rfl

/-- A column can be forgotten if there is one. -/
theorem follows_pop (answers : Answers) (line : Nat) (hscope : state.scope = .active) :
    Follows resolver state [⟨line, .pop⟩] (.visit answers state.alignments.length ⟨line, .pop⟩)
      (Standing state.scopes) := by
  cases hcolumns : state.alignments with
  | nil =>
    have hsettled : state.settled.alignments = [] := hcolumns
    exact follows_failing rfl hscope (popAlignment_of_nil hsettled line)
  | cons column columns =>
    have hsettled : state.settled.alignments = column :: columns := hcolumns
    exact follows_acting rfl hscope (popAlignment_of_cons hsettled line) rfl rfl rfl

/-- A newline is not acted on. -/
theorem follows_newline (answers : Answers) (line : Nat) (hscope : state.scope = .active) :
    Follows resolver state [⟨line, .newline⟩]
      (.visit answers state.alignments.length ⟨line, .newline⟩) (Standing state.scopes) := by
  have hstep : state.step resolver ⟨line, .newline⟩ = _ := step_newline line
  have hactive : state.settled.scope = .active := hscope
  refine .of_step hstep (acted_of_not_isContent rfl) ?_ ⟨?_, ?_, step_noted hstep⟩
  all_goals
    rw [newline, if_pos hactive]
    split <;> rfl

/-- In a branch that is taken, a token outside conditional directives is visited. -/
theorem follows_visit {answers : Answers} {placed : Placed}
    (hanswers : ∀ key args context, resolver key args context = answers key args)
    (hplain : placed.token.isConditional = false) (hscope : state.scope = .active) :
    Follows resolver state [placed] (.visit answers state.alignments.length placed)
      (Standing state.scopes) := by
  obtain ⟨line, token⟩ := placed
  cases token with
  | text text => exact follows_text answers line text hscope
  | expand key => exact follows_expand line key hanswers hscope
  | push => exact follows_acting rfl hscope rfl rfl rfl rfl
  | mark => exact follows_mark answers line hscope
  | pop => exact follows_pop answers line hscope
  | newline => exact follows_newline answers line hscope
  | _ => cases hplain

end Visiting

/-- In a branch that is taken, going through a forest follows its walk. -/
def Forest.Faithful (resolver : Resolver) (answers : Answers) (forest : Forest) : Prop :=
  ∀ state : State, Noted state → state.scope = .active →
    Follows resolver state forest.flatten (forest.walk answers state.alignments.length)
      (Standing state.scopes)

/-- While no branch was taken, going through further branches follows their walk. -/
def Branches.Faithful (resolver : Resolver) (answers : Answers) (branches : Branches) : Prop :=
  ∀ (state : State) (scopes : List Scope), Noted state → state.scopes = .waiting :: scopes →
    Follows resolver state branches.flatten (branches.walk answers state.alignments.length)
      (Standing scopes)

variable {answers : Answers}

/-- Behind a condition that holds, its branch is walked and the further branches are idle. -/
theorem follows_taken {body : Forest} (branches : Branches) {state : State} {scopes : List Scope}
    (hbody : body.Faithful resolver answers) (hnoted : Noted state)
    (hscopes : state.scopes = .active :: scopes) :
    Follows resolver state (body.flatten ++ branches.flatten)
      (body.walk answers state.alignments.length) (Standing scopes) := by
  refine (hbody state hnoted (scope_eq_of_scopes hscopes)).append_idle ?_
  intro columns after hstanding
  obtain ⟨last, hidle, hlast⟩ :=
    branches.idles resolver hstanding.noted (hstanding.scopes.trans hscopes) nofun
  refine ⟨last, hidle, hlast, ?_, run_noted hstanding.noted hidle.run⟩
  rw [hidle.keeps.alignments]
  exact hstanding.columns

/-- Behind a condition that does not hold, its branch is idle and the further ones are walked. -/
theorem follows_passed (body : Forest) {branches : Branches} {state : State} {scopes : List Scope}
    (hbranches : branches.Faithful resolver answers) (hnoted : Noted state)
    (hscopes : state.scopes = .waiting :: scopes) :
    Follows resolver state (body.flatten ++ branches.flatten)
      (branches.walk answers state.alignments.length) (Standing scopes) := by
  obtain ⟨after, hidle, hafter⟩ := body.idles resolver hnoted (scope_ne_active hscopes nofun)
  have hrest := hbranches after scopes (run_noted hnoted hidle.run) (hafter.trans hscopes)
  rw [hidle.keeps.alignments] at hrest
  exact hrest.prepend_idle hidle

/-- Behind a condition, the first branch is walked that is to be taken. -/
theorem follows_chosen {body : Forest} {branches : Branches} {state : State}
    {scopes : List Scope} {value : Value} (hbody : body.Faithful resolver answers)
    (hbranches : branches.Faithful resolver answers) (hnoted : Noted state)
    (hscopes : state.scopes = (if value.isTruthy then .active else .waiting) :: scopes) :
    Follows resolver state (body.flatten ++ branches.flatten)
      (if value.isTruthy then body.walk answers state.alignments.length
        else branches.walk answers state.alignments.length) (Standing scopes) := by
  cases htruthy : value.isTruthy with
  | true =>
    rw [htruthy] at hscopes
    exact follows_taken branches hbody hnoted hscopes
  | false =>
    rw [htruthy] at hscopes
    exact follows_passed body hbranches hnoted hscopes

/-- A conditional directive that asks for its condition leaves the blocks as the value tells. -/
theorem follows_condition {state : State} {placed : Placed} {key : List Char} {outer : List Scope}
    (hanswers : ∀ key args context, resolver key args context = answers key args)
    (hconditional : placed.token.isConditional = true)
    (heffect : placed.token.effect state.scopes = .ask key outer) :
    Follows resolver state [placed] (.ask answers [] placed.line key) fun value after =>
      Standing ((if value.isTruthy then .active else .waiting) :: outer)
        state.alignments.length after := by
  have hstep : state.step resolver placed = _ := step_of_isConditional hconditional
  rw [heffect] at hstep
  have hacted : state.acted resolver [placed] = [] :=
    acted_of_not_isContent (Token.isContent_of_isConditional hconditional)
  let proceed (value : Value) (asked : State) : State :=
    { asked with scopes := (if value.isTruthy then .active else .waiting) :: outer }.noteBlankLine
  refine (follows_ask proceed hanswers hstep hacted fun _ _ => rfl).imp ?_
  rintro value after ⟨calls, rfl⟩
  exact ⟨rfl, rfl, noted_noteBlankLine _⟩

/-- A condition in a branch that is taken is asked for. -/
theorem follows_ifKey {state : State} (line : Nat) (key : List Char)
    (hanswers : ∀ key args context, resolver key args context = answers key args)
    (hscope : state.scope = .active) :
    Follows resolver state [⟨line, .ifKey key⟩] (.ask answers [] line key) fun value after =>
      Standing ((if value.isTruthy then .active else .waiting) :: state.scopes)
        state.alignments.length after :=
  follows_condition hanswers rfl (if_pos hscope)

/-- A further condition is asked for while no branch was taken. -/
theorem follows_elifKey {state : State} (line : Nat) (key : List Char) {scopes : List Scope}
    (hanswers : ∀ key args context, resolver key args context = answers key args)
    (hscopes : state.scopes = .waiting :: scopes) :
    Follows resolver state [⟨line, .elifKey key⟩] (.ask answers [] line key) fun value after =>
      Standing ((if value.isTruthy then .active else .waiting) :: scopes)
        state.alignments.length after := by
  refine follows_condition hanswers rfl ?_
  rw [hscopes]
  rfl

mutual

/-- The one pass over the tokens of a forest does what structured evaluation does. -/
theorem Forest.faithful
    (hanswers : ∀ key args context, resolver key args context = answers key args)
    (forest : Forest) : forest.Faithful resolver answers := by
  intro state hnoted hscope
  match forest with
  | .nil => exact .of_idles .nil ⟨rfl, rfl, hnoted⟩
  | .token placed hplain rest =>
    refine (follows_visit hanswers hplain hscope).andThen ?_
    rintro columns after ⟨hscopes, rfl, hafter⟩
    have hactive : after.scope = .active := by
      rw [State.scope, hscopes]
      exact hscope
    have hrest := rest.faithful hanswers after hafter hactive
    rw [hscopes] at hrest
    exact hrest
  | .block line key body branches rest =>
    refine (follows_ifKey line key hanswers hscope).andThen ?_
    intro value opened hopened
    have hchosen := follows_chosen (body.faithful hanswers) (branches.faithful hanswers)
      hopened.noted hopened.scopes
    rw [hopened.columns] at hchosen
    change Follows resolver opened (body.flatten ++ (branches.flatten ++ rest.flatten)) _ _
    rw [← List.append_assoc]
    refine hchosen.andThen ?_
    rintro columns after ⟨hscopes, rfl, hafter⟩
    have hactive : after.scope = .active := by
      rw [State.scope, hscopes]
      exact hscope
    have hrest := rest.faithful hanswers after hafter hactive
    rw [hscopes] at hrest
    exact hrest

/-- The one pass over the tokens of further branches takes the branch that structured evaluation
takes. -/
theorem Branches.faithful
    (hanswers : ∀ key args context, resolver key args context = answers key args)
    (branches : Branches) : branches.Faithful resolver answers := by
  intro state scopes hnoted hscopes
  match branches with
  | .endif line =>
    obtain ⟨after, hidle, hafter⟩ := idles_endif resolver line hscopes
    exact .of_idles hidle
      ⟨hafter, congrArg List.length hidle.keeps.alignments, run_noted hnoted hidle.run⟩
  | .elif line key body rest =>
    refine (follows_elifKey line key hanswers hscopes).andThen ?_
    intro value opened hopened
    have hchosen := follows_chosen (body.faithful hanswers) (rest.faithful hanswers)
      hopened.noted hopened.scopes
    rw [hopened.columns] at hchosen
    exact hchosen
  | .orElse line body rest =>
    obtain ⟨opened, hopen, hopened⟩ := idles_elseBranch resolver line hscopes
    have htaken := follows_taken rest (body.faithful hanswers) (run_noted hnoted hopen.run) hopened
    rw [hopen.keeps.alignments] at htaken
    exact htaken.prepend_idle hopen

end

end AnnotatedHelp.Template
