import Mathlib
import AnnotatedHelp.Proofs.UntakenBranches

/-!
# Balance of conditional directives

Which branches of a template are taken depends on the answers of the resolver, but how deep a token
stands in conditional blocks does not: the number of scopes goes up and down with the directives,
whatever the scopes are. So two resolvers that answer every question agree on whether a template
renders, and if it does not, on its first unmatched directive.
-/

namespace AnnotatedHelp.Template

/-- Whether a token has to stand inside a block: it begins a further branch or ends the block. -/
def Token.needsBlock : Token → Bool
  | .elifKey _ | .elseBranch | .endif => true
  | _ => false

/-- Whether a token deals with remembered columns. -/
def Token.isAlignment : Token → Bool
  | .push | .mark | .pop => true
  | _ => false

/-- The key that a token may ask for. -/
def Token.key? : Token → Option (List Char)
  | .ifKey key | .elifKey key | .expand key => some key
  | _ => none

/-- By how much a token makes the number of open blocks larger. -/
def Token.opened : Token → Int
  | .ifKey _ => 1
  | .endif => -1
  | _ => 0

/-- The conditions that tokens begin less the ends among them. -/
def openBlocks (tokens : List Placed) : Int :=
  (tokens.map (·.token.opened)).sum

/-- Every directive that needs a block stands in one, and no block is open at the end. -/
structure Balanced (tokens : List Placed) : Prop where
  /-- A further branch and an end stand at depth one at least. -/
  inside : ∀ before placed behind, tokens = before ++ placed :: behind →
    placed.token.needsBlock = true → 1 ≤ openBlocks before
  /-- The depth at the end is zero. -/
  closed : openBlocks tokens = 0

/-- The tokens before the first one are none. -/
@[simp]
theorem openBlocks_nil : openBlocks [] = 0 := rfl

/-- A token opens its blocks before those behind it. -/
@[simp]
theorem openBlocks_cons (placed : Placed) (tokens : List Placed) :
    openBlocks (placed :: tokens) = placed.token.opened + openBlocks tokens := by
  simp [openBlocks]

/-- A token leads to a depth unless it needs a block and there is none. -/
theorem Token.depthAfter_eq_some_iff {token : Token} {depth next : Nat} :
    token.depthAfter depth = some next ↔
      (token.needsBlock = true → 1 ≤ depth) ∧ (depth : Int) + token.opened = next := by
  cases token with
  | ifKey key =>
    simp only [depthAfter, needsBlock, opened, Option.some.injEq, Bool.false_eq_true,
      false_implies, true_and]
    omega
  | endif =>
    simp only [depthAfter, needsBlock, opened, true_implies]
    split_ifs with hzero <;> simp <;> omega
  | elifKey key =>
    simp only [depthAfter, needsBlock, opened, true_implies]
    split_ifs with hzero <;> simp <;> omega
  | elseBranch =>
    simp only [depthAfter, needsBlock, opened, true_implies]
    split_ifs with hzero <;> simp <;> omega
  | _ =>
    simp only [depthAfter, needsBlock, opened, Option.some.injEq, Bool.false_eq_true,
      false_implies, true_and]
    omega

/-- Tokens lead from a depth to another exactly when every directive that needs a block stands in
one, and the other depth is the first one with the blocks that are left open. -/
theorem depthAfter_eq_some_iff {tokens : List Placed} {depth final : Nat} :
    depthAfter depth tokens = some final ↔
      (∀ before placed behind, tokens = before ++ placed :: behind →
        placed.token.needsBlock = true → 1 ≤ (depth : Int) + openBlocks before) ∧
      (depth : Int) + openBlocks tokens = final := by
  induction tokens generalizing depth with
  | nil => simp [depthAfter]
  | cons first tokens ih =>
    rw [depthAfter, Option.bind_eq_some_iff]
    constructor
    · rintro ⟨next, hfirst, hrest⟩
      obtain ⟨hneeds, hnext⟩ := Token.depthAfter_eq_some_iff.mp hfirst
      obtain ⟨hinside, hfinal⟩ := ih.mp hrest
      refine ⟨?_, ?_⟩
      · intro before placed behind hsplit hplaced
        cases before with
        | nil =>
          obtain ⟨rfl, rfl⟩ := List.cons.inj hsplit
          have hdepth := hneeds hplaced
          rw [openBlocks_nil]
          omega
        | cons head before =>
          obtain ⟨rfl, htail⟩ := List.cons.inj hsplit
          have hdepth := hinside before placed behind htail hplaced
          rw [openBlocks_cons]
          omega
      · rw [openBlocks_cons]
        omega
    · rintro ⟨hinside, hfinal⟩
      have hneeds : first.token.needsBlock = true → 1 ≤ depth := by
        intro hfirst
        have hdepth := hinside [] first tokens rfl hfirst
        rw [openBlocks_nil] at hdepth
        omega
      -- A token that needs no block opens none or one, so the next depth is not negative.
      have hnonneg : 0 ≤ (depth : Int) + first.token.opened := by
        obtain ⟨line, token⟩ := first
        cases token with
        | endif =>
          have hdepth := hneeds rfl
          simp only [Token.opened]
          omega
        | _ =>
          simp only [Token.opened]
          omega
      obtain ⟨next, hnext⟩ := Int.eq_ofNat_of_zero_le hnonneg
      refine ⟨next, Token.depthAfter_eq_some_iff.mpr ⟨hneeds, hnext⟩, ih.mpr ⟨?_, ?_⟩⟩
      · intro before placed behind hsplit hplaced
        have hdepth := hinside (first :: before) placed behind
          (congrArg (first :: ·) hsplit) hplaced
        rw [openBlocks_cons] at hdepth
        omega
      · rw [openBlocks_cons] at hfinal
        omega

/-- Tokens are properly nested exactly when they are balanced. -/
theorem properlyNested_iff_balanced {tokens : List Placed} :
    ProperlyNested tokens ↔ Balanced tokens := by
  rw [ProperlyNested, depthAfter_eq_some_iff]
  simp only [Nat.cast_zero, zero_add]
  exact ⟨fun h => ⟨h.1, h.2⟩, fun h => ⟨h.inside, h.closed⟩⟩

/-- The depth behind a token at some depth, or the imbalance that it makes. -/
def Placed.nest (depth : Nat) (placed : Placed) : Except Problem Nat :=
  let inside (keyword : Keyword) (next : Nat) : Except Problem Nat :=
    if depth = 0 then .error ⟨placed.line, .outsideCondition keyword⟩ else .ok next
  match placed.token with
  | .ifKey _ => .ok (depth + 1)
  | .endif => inside .endifWord (depth - 1)
  | .elifKey _ => inside .elifWord depth
  | .elseBranch => inside .elseWord depth
  | _ => .ok depth

/-- The depth behind tokens, or the first imbalance among them. -/
def nesting (depth : Nat) (tokens : List Placed) : Except Problem Nat :=
  tokens.foldlM Placed.nest depth

/-- A token makes an imbalance exactly where it leads to no depth. -/
theorem Placed.toOption_nest (depth : Nat) (placed : Placed) :
    (placed.nest depth).toOption = placed.token.depthAfter depth := by
  obtain ⟨line, token⟩ := placed
  cases token <;> simp only [nest, Token.depthAfter] <;> first | rfl | (split_ifs <;> rfl)

/-- Tokens make an imbalance exactly where they lead to no depth. -/
theorem toOption_nesting (depth : Nat) (tokens : List Placed) :
    (nesting depth tokens).toOption = depthAfter depth tokens := by
  induction tokens generalizing depth with
  | nil => rfl
  | cons placed tokens ih =>
    rw [depthAfter, ← placed.toOption_nest depth, nesting, List.foldlM_cons]
    cases placed.nest depth with
    | error problem => rfl
    | ok next => exact ih next

/-- A first imbalance is a directive outside all blocks. -/
theorem cause_of_nesting {depth : Nat} {tokens : List Placed} {problem : Problem}
    (h : nesting depth tokens = .error problem) :
    ∃ placed ∈ tokens, ∃ keyword, problem = ⟨placed.line, .outsideCondition keyword⟩ := by
  induction tokens generalizing depth with
  | nil => cases h
  | cons first tokens ih =>
    rw [nesting, List.foldlM_cons] at h
    rcases Outcome.bind_error_iff.mp h with hfirst | ⟨next, -, hrest⟩
    · refine ⟨first, List.mem_cons_self, ?_⟩
      unfold Placed.nest at hfirst
      dsimp only at hfirst
      split at hfirst
      · cases hfirst
      · split_ifs at hfirst
        cases hfirst
        exact ⟨_, rfl⟩
      · split_ifs at hfirst
        cases hfirst
        exact ⟨_, rfl⟩
      · split_ifs at hfirst
        cases hfirst
        exact ⟨_, rfl⟩
      · cases hfirst
    · obtain ⟨placed, hmem, hplaced⟩ := ih hrest
      exact ⟨placed, List.mem_cons_of_mem first hmem, hplaced⟩

/-- A resolver that rejects no key. -/
def Answering (resolver : Resolver) : Prop :=
  ∀ key args context, ∃ value, resolver key args context = .ok value

/-- Tokens that can be gone through if they are balanced: no column is remembered among them, and
every key can be read. -/
structure Answerable (tokens : List Placed) : Prop where
  /-- There are no alignment directives. -/
  columns : ∀ placed ∈ tokens, placed.token.isAlignment = false
  /-- Every key has a name, and its parentheses are closed. -/
  keys : ∀ placed ∈ tokens, ∀ key ∈ placed.token.key?, ∃ found, readKey key = .ok found

/-- What the result of going through tokens says about nesting. -/
def nestingOf (result : Except Failure State) : Except Problem Nat :=
  (result.map (·.scopes.length)).mapError (·.problem)

namespace State

variable {resolver : Resolver}

/-- A key that can be read has a value, and asking for it changes the record of questions only. -/
theorem evaluate_answering (state : State) (hresolver : Answering resolver) {key : List Char}
    (hkey : ∃ found, readKey key = .ok found) (line : Nat) :
    ∃ value calls, state.evaluate resolver line key = .ok (value, { state with calls := calls }) := by
  obtain ⟨⟨name, args⟩, hfound⟩ := hkey
  obtain ⟨value, hvalue⟩ := hresolver name args state.context
  refine ⟨value, ⟨name, args, state.context⟩ :: state.calls, ?_⟩
  unfold evaluate
  rw [hfound]
  simp only [Call.answer, hvalue]

/-- Text and expansions leave the scopes. -/
theorem act_answering (state : State) (hresolver : Answering resolver) {token : Token}
    (hplain : token.isAlignment = false)
    (hkey : ∀ key ∈ token.key?, ∃ found, readKey key = .ok found) (line : Nat) :
    ∃ after, state.act resolver line token = .ok after ∧ after.scopes = state.scopes := by
  cases token with
  | text text => exact ⟨_, rfl, (eq_of_unwritten_eq (addText_unwritten state text)).1⟩
  | expand key =>
    obtain ⟨value, calls, hvalue⟩ := evaluate_answering state hresolver (hkey key rfl) line
    refine ⟨_, Outcome.bind_ok_iff.mpr ⟨_, hvalue, rfl⟩, ?_⟩
    exact (eq_of_unwritten_eq (addValue_unwritten { state with calls := calls } value)).1
  | push => cases hplain
  | mark => cases hplain
  | pop => cases hplain
  | _ => exact ⟨state, rfl, rfl⟩

/-- A condition that is asked for opens a block inside the given ones, whatever its value. -/
theorem nestingOf_ask (state : State) (hresolver : Answering resolver) {key : List Char}
    (hkey : ∃ found, readKey key = .ok found) (line : Nat) (outer : List Scope) :
    nestingOf (state.undergo resolver line (.ask key outer)) = .ok (outer.length + 1) := by
  obtain ⟨value, calls, hvalue⟩ := evaluate_answering state hresolver hkey line
  rw [undergo, hvalue]
  rfl

/-- The effect of a conditional directive changes the number of scopes as the directive changes the
depth. -/
theorem nestingOf_effect (state : State) (hresolver : Answering resolver) {placed : Placed}
    (hconditional : placed.token.isConditional = true)
    (hkey : ∀ key ∈ placed.token.key?, ∃ found, readKey key = .ok found) :
    nestingOf (state.undergo resolver placed.line (placed.token.effect state.scopes)) =
      placed.nest state.scopes.length := by
  obtain ⟨line, token⟩ := placed
  obtain ⟨finished, current, scopes, alignments, dropNewline, calls⟩ := state
  cases token with
  | ifKey key =>
    rw [Token.effect]
    split_ifs with hactive
    · exact nestingOf_ask _ hresolver (hkey key rfl) line scopes
    · rfl
  | endif => cases scopes <;> rfl
  | elifKey key =>
    cases scopes with
    | nil => rfl
    | cons scope outer =>
      cases scope with
      | waiting => exact nestingOf_ask _ hresolver (hkey key rfl) line outer
      | _ => rfl
  | elseBranch =>
    cases scopes with
    | nil => rfl
    | cons scope outer => cases scope <;> rfl
  | _ => cases hconditional

/-- A step changes the number of scopes as its token changes the depth, whatever the scopes are. -/
theorem step_nesting (state : State) (hresolver : Answering resolver) {placed : Placed}
    (hplain : placed.token.isAlignment = false)
    (hkey : ∀ key ∈ placed.token.key?, ∃ found, readKey key = .ok found) :
    nestingOf (state.step resolver placed) = placed.nest state.scopes.length := by
  rcases placed.token.content_or_newline_or_conditional with hcontent | hnewline | hconditional
  · have hnest : placed.nest state.scopes.length = .ok state.scopes.length := by
      obtain ⟨line, token⟩ := placed
      cases token <;> first | rfl | cases hcontent
    rw [step_of_isContent hcontent, hnest]
    split_ifs with hactive
    · obtain ⟨after, hact, hscopes⟩ :=
        act_answering state.settled hresolver hplain hkey placed.line
      rw [hact]
      exact congrArg (fun scopes => Except.ok scopes.length) hscopes
    · rfl
  · rw [step_of_newline hnewline, Placed.nest, hnewline]
    unfold newline
    split_ifs <;> rfl
  · rw [step_of_isConditional hconditional]
    exact nestingOf_effect state.settled hresolver hconditional hkey

/-- A run changes the number of scopes as its tokens change the depth, and fails with the first
imbalance. -/
theorem run_nesting (state : State) (hresolver : Answering resolver) {tokens : List Placed}
    (htokens : Answerable tokens) :
    nestingOf (state.run resolver tokens) = nesting state.scopes.length tokens := by
  induction tokens generalizing state with
  | nil => rfl
  | cons placed tokens ih =>
    have hstep := step_nesting state hresolver
      (htokens.columns placed List.mem_cons_self) (htokens.keys placed List.mem_cons_self)
    have hrest : Answerable tokens :=
      ⟨fun other hmem => htokens.columns other (List.mem_cons_of_mem placed hmem),
        fun other hmem => htokens.keys other (List.mem_cons_of_mem placed hmem)⟩
    rw [nesting, List.foldlM_cons, run_cons, ← hstep]
    cases state.step resolver placed with
    | error failure => rfl
    | ok after => exact ih after hrest

end State

/-- What balance says about rendering tokens: the first imbalance, else the blocks left open. -/
def imbalance (tokens : List Placed) : Except Problem Unit := do
  let depth ← nesting 0 tokens
  if depth = 0 then .ok () else .error ⟨lastLine tokens, .openConditions depth⟩

/-- A resolver that rejects no key has no influence on whether tokens render, and on why not. -/
theorem renderTokens_imbalance {resolver : Resolver} (hresolver : Answering resolver)
    {tokens : List Placed} (htokens : Answerable tokens) :
    (renderTokens resolver tokens).lines.map (fun _ => ()) = imbalance tokens := by
  have hrun := State.run_nesting State.start hresolver htokens
  have hnesting : nesting 0 tokens = nestingOf (State.start.run resolver tokens) := hrun.symm
  unfold imbalance renderTokens
  rw [hnesting]
  cases State.start.run resolver tokens with
  | error failure => rfl
  | ok after =>
    change _ = if after.scopes.length = 0 then _ else _
    by_cases hclosed : after.scopes = []
    · rw [if_pos (List.length_eq_zero_iff.mpr hclosed)]
      simp [hclosed, Except.map]
    · rw [if_neg (mt List.length_eq_zero_iff.mp hclosed)]
      simp [hclosed, Except.map]

/-- There is no imbalance exactly where tokens are balanced. -/
theorem imbalance_ok_iff {tokens : List Placed} : imbalance tokens = .ok () ↔ Balanced tokens := by
  have hdepth := toOption_nesting 0 tokens
  rw [← properlyNested_iff_balanced, ProperlyNested, ← hdepth, imbalance]
  cases nesting 0 tokens with
  | error problem => simp [bind, Except.bind, Except.toOption]
  | ok depth => by_cases hzero : depth = 0 <;> simp [bind, Except.bind, Except.toOption, hzero]

/-- An imbalance is an unmatched directive, or blocks that are open behind the last token. -/
theorem cause_of_imbalance {tokens : List Placed} {problem : Problem}
    (h : imbalance tokens = .error problem) :
    (∃ placed ∈ tokens, ∃ keyword, problem = ⟨placed.line, .outsideCondition keyword⟩) ∨
      ∃ count, problem = ⟨lastLine tokens, .openConditions count⟩ := by
  rcases Outcome.bind_error_iff.mp h with hnesting | ⟨depth, -, hopen⟩
  · exact .inl (cause_of_nesting hnesting)
  · split_ifs at hopen
    cases hopen
    exact .inr ⟨depth, rfl⟩

/-- Rendering a template comes to what balance says about its tokens. -/
theorem render_imbalance {resolver : Resolver} (hresolver : Answering resolver) {template : String}
    {placed : List Placed} (htokens : tokens template = .ok placed) (hplaced : Answerable placed) :
    ((∃ lines, (render resolver template).lines = .ok lines) ↔ imbalance placed = .ok ()) ∧
      ∀ problem, (render resolver template).lines = .error problem ↔
        imbalance placed = .error problem := by
  have hrender : render resolver template = renderTokens resolver placed := by
    rw [render, htokens]
  rw [hrender, ← renderTokens_imbalance hresolver hplaced]
  refine ⟨?_, fun problem => Outcome.map_error_iff.symm⟩
  cases (renderTokens resolver placed).lines <;> simp [Except.map]

/-- Structural errors of a template do not depend on the data. Where no columns are remembered and
every key can be read, a template renders with one resolver that rejects no key exactly if it renders
with another one, namely if its conditional directives are balanced; and if they are not, both report
the same unmatched directive, or the same number of open blocks, on the same line. -/
theorem render_balanced {resolver other : Resolver} {template : String} {placed : List Placed}
    (htokens : tokens template = .ok placed) (hplaced : Answerable placed)
    (hresolver : Answering resolver) (hother : Answering other) :
    ((∃ lines, (render resolver template).lines = .ok lines) ↔
        ∃ lines, (render other template).lines = .ok lines) ∧
      ((∃ lines, (render resolver template).lines = .ok lines) ↔ Balanced placed) ∧
      ∀ problem, (render resolver template).lines = .error problem →
        (render other template).lines = .error problem ∧
          ((∃ found ∈ placed, ∃ keyword, problem = ⟨found.line, .outsideCondition keyword⟩) ∨
            ∃ count, problem = ⟨lastLine placed, .openConditions count⟩) := by
  obtain ⟨hsuccess, hfailure⟩ := render_imbalance hresolver htokens hplaced
  obtain ⟨hsuccess', hfailure'⟩ := render_imbalance hother htokens hplaced
  refine ⟨hsuccess.trans hsuccess'.symm, hsuccess.trans imbalance_ok_iff, ?_⟩
  intro problem hproblem
  have himbalance := (hfailure problem).mp hproblem
  exact ⟨(hfailure' problem).mpr himbalance, cause_of_imbalance himbalance⟩

/-- A block in which another branch is taken for every answer, and below it a branch without a
block. -/
def unmatchedText : String :=
  "[[[IF a]]]x[[[ELIF b]]]y[[[ELSE]]][[[z]]][[[ENDIF]]]\n[[[IF c(1)]]][[[ENDIF]]][[[ELIF d]]]"

/-- The tokens of the text. -/
def unmatchedTokens : List Placed :=
  [⟨1, .ifKey ['a']⟩, ⟨1, .text ['x']⟩, ⟨1, .elifKey ['b']⟩, ⟨1, .text ['y']⟩, ⟨1, .elseBranch⟩,
    ⟨1, .expand ['z']⟩, ⟨1, .endif⟩, ⟨1, .newline⟩, ⟨2, .ifKey "c(1)".toList⟩, ⟨2, .endif⟩,
    ⟨2, .elifKey ['d']⟩, ⟨2, .newline⟩]

/-- The same value for every key. -/
def constantly (value : Value) : Resolver := fun _ _ _ => .ok value

/-- Two resolvers that choose different branches are refused at the same place for the same cause. -/
theorem render_balanced_unmatched :
    tokens unmatchedText = .ok unmatchedTokens ∧ Answerable unmatchedTokens ∧
      (render (constantly (.bool true)) unmatchedText).lines =
        .error ⟨2, .outsideCondition .elifWord⟩ ∧
      (render (constantly (.int 0)) unmatchedText).lines =
        .error ⟨2, .outsideCondition .elifWord⟩ ∧
      ¬Balanced unmatchedTokens := by
  have htokens : tokens unmatchedText = .ok unmatchedTokens := by decide +kernel
  have hkeys : ∀ placed ∈ unmatchedTokens, ∀ key ∈ placed.token.key?,
      (readKey key).toOption.isSome = true := by
    decide +kernel
  have hanswerable : Answerable unmatchedTokens := by
    refine ⟨by decide, ?_⟩
    intro placed hmem key hkey
    have hread := hkeys placed hmem key hkey
    cases hfound : readKey key with
    | error cause =>
      rw [hfound] at hread
      cases hread
    | ok found => exact ⟨found, rfl⟩
  have htrue : (render (constantly (.bool true)) unmatchedText).lines =
      .error ⟨2, .outsideCondition .elifWord⟩ := by
    decide +kernel
  have hbool : Answering (constantly (.bool true)) := fun _ _ _ => ⟨_, rfl⟩
  have hint : Answering (constantly (.int 0)) := fun _ _ _ => ⟨_, rfl⟩
  obtain ⟨-, hbalanced, hfailure⟩ := render_balanced htokens hanswerable hbool hint
  refine ⟨htokens, hanswerable, htrue, (hfailure _ htrue).1, ?_⟩
  intro hall
  obtain ⟨lines, hlines⟩ := hbalanced.mpr hall
  rw [htrue] at hlines
  cases hlines

end AnnotatedHelp.Template
