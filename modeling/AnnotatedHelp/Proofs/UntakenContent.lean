import Mathlib
import AnnotatedHelp.Proofs.BlankInsensitivity
import AnnotatedHelp.Proofs.TemplateJoining

/-!
# Content of branches that are not taken

What stands in a branch that is not taken has one trace only: a newline behind a conditional
directive is dropped there too, and takes the blanks with it that stand on the line so far. So the
content of such a branch may be replaced by any other content, and the template renders to lines
that show the same; and to the same lines, unless the branch begins on a line with nothing but
blanks and a newline is dropped in one content but not in the other.
-/

namespace AnnotatedHelp.Template

open Text

/-- Whether a condition begins or ends with a token. -/
def Token.isEdge : Token → Bool
  | .ifKey _ | .endif => true
  | _ => false

/-- Whether a newline among tokens stands right behind the begin or the end of a condition, or comes
first where one is pending. On a blank line of a branch that is not taken it is dropped. -/
def dropsNewline (pending : Bool) : List Placed → Bool
  | [] => false
  | placed :: tokens =>
    (pending && placed.token == .newline) || dropsNewline placed.token.isEdge tokens

/-- Text, expansions and alignment directives keep the depth, and no newline has to do with them. -/
theorem Token.inert_of_isContent {token : Token} (h : token.isContent = true) (depth : Nat) :
    token.depthAfter depth = some depth ∧ token.isEdge = false ∧ (token == .newline) = false := by
  cases token <;> first | exact ⟨rfl, rfl, rfl⟩ | cases h

namespace State

variable {resolver : Resolver} {state after : State}

/-- The state with an empty line, if it is said to be cleared. -/
def cleared (state : State) (clears : Bool) : State :=
  { state with current := if clears = true then [] else state.current }

/-- A line that is cleared where it is blank shows what it showed. -/
theorem visible_cleared {clears : Bool} (h : clears = true → state.isBlankLine = true) :
    visible (state.cleared clears).current = visible state.current := by
  by_cases hclears : clears = true
  · have hblank : visible state.current = [] := isBlankLine_iff.mp (h hclears)
    rw [hblank]
    simp [cleared, hclears, visible]
  · simp [cleared, hclears]

/-- Nothing is taken below blocks that are not taken. -/
theorem scope_ne_active_of_done {depth : Nat} {outer : List Scope}
    (hscopes : state.scopes = List.replicate depth .done ++ outer)
    (houter : outer.headD .active ≠ .active) : state.scope ≠ .active := by
  rw [scope, hscopes]
  cases depth with
  | zero => exact houter
  | succ depth => nofun

/-- The effect of a conditional directive below blocks that are not taken: the begin and the end of a
condition change the depth, and the others nothing. -/
theorem effect_of_done {token : Token} {depth next : Nat} {outer : List Scope}
    (hconditional : token.isConditional = true) (hnext : token.depthAfter depth = some next)
    (houter : outer.headD .active ≠ .active) :
    token.effect (List.replicate depth .done ++ outer) =
      if token.isEdge = true then .change (List.replicate next .done ++ outer) else .pass := by
  cases token with
  | ifKey key =>
    cases hnext
    refine if_neg ?_
    cases depth with
    | zero => exact houter
    | succ depth => nofun
  | endif =>
    cases depth with
    | zero => cases hnext
    | succ depth =>
      cases hnext
      rfl
  | elifKey key =>
    cases depth with
    | zero => cases hnext
    | succ depth => rfl
  | elseBranch =>
    cases depth with
    | zero => cases hnext
    | succ depth => rfl
  | _ => cases hconditional

/-- Only the begin and the end of a condition change the depth. -/
theorem depthAfter_of_not_isEdge {token : Token} {depth next : Nat}
    (hnext : token.depthAfter depth = some next) (hedge : token.isEdge = false) : next = depth := by
  cases token <;> simp_all [Token.depthAfter, Token.isEdge]

/-- A step in a branch that is not taken: it keeps track of the depth, a newline that is pending
clears the line, and the begin or the end of a condition makes one pending if the line is blank. -/
theorem step_untaken (resolver : Resolver) {depth next : Nat} {outer : List Scope} {placed : Placed}
    (hnext : placed.token.depthAfter depth = some next)
    (hscopes : state.scopes = List.replicate depth .done ++ outer)
    (houter : outer.headD .active ≠ .active) :
    state.step resolver placed =
      .ok { state.cleared (state.dropNewline && placed.token == .newline) with
        scopes := List.replicate next .done ++ outer
        dropNewline := placed.token.isEdge && state.isBlankLine } := by
  have huntaken : state.scope ≠ .active := scope_ne_active_of_done hscopes houter
  rcases placed.token.content_or_newline_or_conditional with hcontent | hnewline | hconditional
  · obtain ⟨hdepth, hedge, hnewline⟩ := Token.inert_of_isContent hcontent depth
    cases hdepth.symm.trans hnext
    rw [step_of_isContent hcontent, if_neg huntaken, hedge, hnewline, ← hscopes]
    simp [settled, cleared]
  · have hnone : state.settled.scope ≠ .active := huntaken
    rw [hnewline] at hnext ⊢
    cases hnext
    rw [step_of_newline hnewline, newline, if_neg hnone, ← hscopes]
    by_cases hdrop : state.dropNewline = true
    · simp [hdrop, cleared, settled, Token.isEdge]
    · simp [hdrop, cleared, settled, Token.isEdge]
  · have hother : (placed.token == .newline) = false := by
      obtain ⟨line, token⟩ := placed
      cases token <;> first | rfl | cases hconditional
    rw [step_of_isConditional hconditional, hscopes, effect_of_done hconditional hnext houter, hother,
      Bool.and_false]
    by_cases hedge : placed.token.isEdge = true
    · rw [if_pos hedge, hedge, Bool.true_and]
      rfl
    · have hsame := depthAfter_of_not_isEdge hnext (eq_false_of_ne_true hedge)
      rw [if_neg hedge, hsame, ← hscopes, eq_false_of_ne_true hedge]
      rfl

/-- Clearing a line that is blank leaves a blank line. -/
theorem isBlankLine_cleared {clears : Bool} (h : clears = true → state.isBlankLine = true) :
    (state.cleared clears).isBlankLine = state.isBlankLine := by
  rw [Bool.eq_iff_iff]
  unfold isBlankLine at h ⊢
  rw [isBlankLine_iff, isBlankLine_iff, visible_cleared h]

/-- A run through a branch that is not taken: blanks go where a newline is dropped, and nothing else
is changed. -/
theorem run_untaken (resolver : Resolver) {depth final : Nat} {outer : List Scope}
    {tokens : List Placed} {pending : Bool} (hfinal : depthAfter depth tokens = some final)
    (hscopes : state.scopes = List.replicate depth .done ++ outer)
    (houter : outer.headD .active ≠ .active)
    (hpending : state.dropNewline = (pending && state.isBlankLine)) :
    ∃ dropNewline, state.run resolver tokens =
      .ok { state.cleared (state.isBlankLine && dropsNewline pending tokens) with
        scopes := List.replicate final .done ++ outer
        dropNewline := dropNewline } := by
  induction tokens generalizing state depth pending with
  | nil =>
    cases hfinal
    refine ⟨state.dropNewline, congrArg Except.ok ?_⟩
    simp [dropsNewline, cleared, ← hscopes]
  | cons placed tokens ih =>
    obtain ⟨next, hnext, hrest⟩ := Option.bind_eq_some_iff.mp hfinal
    have hstep := step_untaken resolver hnext hscopes houter
    set clears := state.dropNewline && placed.token == .newline with hclears
    have hblank : clears = true → state.isBlankLine = true := by
      intro h
      rw [hclears, hpending] at h
      simp only [Bool.and_eq_true] at h
      exact h.1.2
    have hsame := isBlankLine_cleared hblank
    let after : State := { state.cleared clears with
      scopes := List.replicate next .done ++ outer
      dropNewline := placed.token.isEdge && state.isBlankLine }
    have hcleared : after.isBlankLine = state.isBlankLine := hsame
    have hafter : after.dropNewline = (placed.token.isEdge && after.isBlankLine) :=
      congrArg (placed.token.isEdge && ·) hcleared.symm
    have hbehind : after.scopes = List.replicate next .done ++ outer := rfl
    obtain ⟨dropNewline, hrun⟩ := ih hrest hbehind hafter
    refine ⟨dropNewline, ?_⟩
    rw [run_cons, hstep]
    refine hrun.trans (congrArg Except.ok ?_)
    have hboth : (state.isBlankLine && dropsNewline pending (placed :: tokens)) =
        (clears || (state.isBlankLine && dropsNewline placed.token.isEdge tokens)) := by
      rw [dropsNewline, hclears, hpending]
      cases state.isBlankLine <;> simp
    rw [hboth, hcleared]
    by_cases hdrops : clears = true
    · simp [after, cleared, hdrops]
    · simp [after, cleared, hdrops]

/-- Whether a newline is pending matters to newlines only. -/
theorem run_settled {placed : Placed} (hnewline : placed.token ≠ .newline) (tokens : List Placed) :
    state.run resolver (placed :: tokens) = state.settled.run resolver (placed :: tokens) := by
  have hstep : state.step resolver placed = state.settled.step resolver placed := by
    obtain ⟨line, token⟩ := placed
    cases token <;> first | rfl | exact absurd rfl hnewline
  rw [run_cons, run_cons, hstep]

end State

/-- A text that ends with a conditional directive, with its tokens. -/
structure Opens (opening : String) (before : List Placed) (directive : Placed) : Prop where
  /-- The directive is the last token before the final newline. -/
  reads : ∃ last, tokens opening = .ok (before ++ [directive] ++ [⟨last, .newline⟩])
  /-- It is conditional. -/
  conditional : directive.token.isConditional = true

/-- A text that stands in a branch, with its tokens. -/
structure Fills (content : String) (inner : List Placed) : Prop where
  /-- The text has the tokens, but for a final newline. -/
  reads : ∃ last, tokens content = .ok (inner ++ [⟨last, .newline⟩])
  /-- Its conditional directives are properly nested. -/
  nested : ProperlyNested inner
  /-- It does not end with an opening bracket, which a directive behind it would take for its
  own. -/
  apart : content.toList.getLast? ≠ some '['

/-- A text that begins with a conditional directive, with its tokens. -/
structure Closes (closing : String) (directive : Placed) (behind : List Placed) : Prop where
  /-- The directive is the first token. -/
  reads : tokens closing = .ok (directive :: behind)
  /-- It is conditional. -/
  conditional : directive.token.isConditional = true

/-- A conditional directive is neither text nor a newline. -/
theorem Token.ne_of_isConditional {token : Token} (h : token.isConditional = true) :
    (∀ shown, token ≠ .text shown) ∧ token ≠ .newline := by
  refine ⟨?_, ?_⟩
  · rintro shown rfl
    cases h
  · rintro rfl
    cases h

variable {resolver : Resolver} {opening content closing : String}
variable {before inner behind : List Placed} {opens ends : Placed}

/-- Content that fills a branch is read alone: the directive before it and the one behind it keep
their brackets. -/
theorem Fills.joins (hcontent : Fills content inner) (hopens : opens.token.isConditional = true)
    (hclosing : Closes closing ends behind) (lines : Nat) :
    Joins ((before ++ [opens] ++ inner.map (Placed.moved lines)).map Placed.token)
      (opening ++ content).toList closing.toList := by
  obtain ⟨last, htokens⟩ := hcontent.reads
  rw [String.toList_append]
  by_cases hempty : content = ""
  · -- No content at all: the opening directive is next to the closing one.
    subst hempty
    have hnewline : tokens "" = .ok [⟨1, .newline⟩] := by decide +kernel
    have hnone : [⟨1, .newline⟩] = inner ++ [⟨last, .newline⟩] :=
      Except.ok.inj (hnewline.symm.trans htokens)
    obtain ⟨rfl, -⟩ | ⟨-, hlast⟩ := List.append_eq_singleton_iff.mp hnone.symm
    · refine .inl ?_
      intro shown hshown
      simp only [List.map_nil, List.append_nil, List.map_append, List.map_cons, List.getLast?_concat,
        Option.some.injEq] at hshown
      exact (Token.ne_of_isConditional hopens).1 shown hshown
    · cases hlast
  · obtain ⟨htext, hnewline⟩ := Token.ne_of_isConditional hclosing.conditional
    refine .inr ⟨?_, begins_of_tokens hclosing.reads htext hnewline⟩
    have hne : content.toList ≠ [] := mt String.toList_eq_nil_iff.mp hempty
    rw [List.getLast?_append_of_ne_nil _ hne]
    exact hcontent.apart

/-- The tokens of a template with some content in a branch are those before it, those of the
content and those behind it. -/
theorem exists_tokens_of_fills (hopening : Opens opening before opens)
    (hcontent : Fills content inner) (hclosing : Closes closing ends behind) :
    ∃ lines below, tokens (opening ++ content ++ closing) =
      .ok (before ++ [opens] ++ inner.map (Placed.moved lines) ++
        (ends :: behind).map (Placed.moved below)) := by
  obtain ⟨first, hfirst⟩ := hopening.reads
  obtain ⟨last, hlast⟩ := hcontent.reads
  have hdirective : ∀ shown, ((before ++ [opens]).map Placed.token).getLast? ≠
      some (.text shown) := by
    intro shown hshown
    simp only [List.map_append, List.map_cons, List.map_nil, List.getLast?_concat,
      Option.some.injEq] at hshown
    exact (Token.ne_of_isConditional hopening.conditional).1 shown hshown
  obtain ⟨lines, hopened⟩ := tokens_beside hfirst hlast (.inl hdirective)
  rw [List.map_append, ← List.append_assoc] at hopened
  obtain ⟨below, hboth⟩ :=
    tokens_beside hopened hclosing.reads (hcontent.joins hopening.conditional hclosing lines)
  exact ⟨lines, below, hboth⟩

/-- A template with some content in a branch that is not taken renders as what is behind the branch
renders, once the line is cleared if the content drops a newline. -/
theorem render_of_fills {state : State} {lines : List String} (hopening : Opens opening before opens)
    (hrun : State.start.run resolver (before ++ [opens]) = .ok state)
    (huntaken : state.scope ≠ .active) (hcontent : Fills content inner)
    (hclosing : Closes closing ends behind) :
    (render resolver (opening ++ content ++ closing)).lines = .ok lines ↔
      ∃ after, (state.cleared (state.isBlankLine &&
          dropsNewline state.dropNewline inner)).settled.run resolver (ends :: behind) = .ok after ∧
        after.scopes = [] ∧ lines = after.finished.reverse := by
  obtain ⟨count, below, htokens⟩ := exists_tokens_of_fills hopening hcontent hclosing
  have hnoted : state.dropNewline = (state.dropNewline && state.isBlankLine) := by
    have hblank := State.run_noted (State.noted_of_dropNewline_eq_false rfl) hrun
    cases hdrop : state.dropNewline with
    | false => rfl
    | true => rw [hblank hdrop]; rfl
  have hscopes : state.scopes = List.replicate 0 .done ++ state.scopes := rfl
  obtain ⟨dropNewline, hinner⟩ :=
    State.run_untaken resolver hcontent.nested hscopes huntaken hnoted
  have hmoved : ∀ (count : Nat) (tokens : List Placed),
      (tokens.map (Placed.moved count)).map (·.token) = tokens.map (·.token) := by
    intro count tokens
    rw [List.map_map]
    rfl
  have hfilled := State.run_of_tokens (hmoved count inner) hinner
  have hboth := (State.run_append hrun (inner.map (Placed.moved count))).trans hfilled
  have hbehind := State.run_append hboth ((ends :: behind).map (Placed.moved below))
  let filled : State := { state.cleared (state.isBlankLine &&
      dropsNewline state.dropNewline inner) with
    scopes := List.replicate 0 .done ++ state.scopes
    dropNewline := dropNewline }
  have hsettled : filled.run resolver (ends :: behind) =
      filled.settled.run resolver (ends :: behind) :=
    State.run_settled (Token.ne_of_isConditional hclosing.conditional).2 behind
  constructor
  · intro h
    obtain ⟨placed, after, hplaced, hafter, hclosed, -, hlines⟩ := render_ok h
    cases htokens.symm.trans hplaced
    rw [hbehind] at hafter
    have hunmoved := State.run_of_tokens (hmoved below (ends :: behind)).symm hafter
    rw [hsettled] at hunmoved
    exact ⟨after, hunmoved, hclosed, hlines⟩
  · rintro ⟨after, hafter, hclosed, rfl⟩
    have hunmoved := State.run_of_tokens (hmoved below (ends :: behind)) (hsettled.trans hafter)
    rw [render, htokens]
    dsimp only
    rw [renderTokens, hbehind, hunmoved]
    dsimp only
    rw [if_pos (List.isEmpty_iff.mpr hclosed)]

/-- The content of a branch that is not taken does not show. For a resolver whose answers do not
depend on the place of a key, replacing the whole content by another one in a template that renders
gives a template that renders, to as many lines which show the same. The lines are the same unless
nothing but blanks stands on the line where the branch begins and a newline is dropped in one content
and not in the other: then it takes these blanks with it. -/
theorem render_replaced {answers : Answers}
    (hanswers : ∀ key args context, resolver key args context = answers key args)
    {other : String} {others : List Placed} {state : State} {lines : List String}
    (hopening : Opens opening before opens)
    (hrun : State.start.run resolver (before ++ [opens]) = .ok state)
    (huntaken : state.scope ≠ .active)
    (hcontent : Fills content inner) (hother : Fills other others)
    (hclosing : Closes closing ends behind)
    (hrender : (render resolver (opening ++ content ++ closing)).lines = .ok lines) :
    ∃ rendered, (render resolver (opening ++ other ++ closing)).lines = .ok rendered ∧
      rendered.map (visible ·.toList) = lines.map (visible ·.toList) ∧
      (state.current = [] ∨ state.isBlankLine = false ∨
          dropsNewline state.dropNewline inner = dropsNewline state.dropNewline others →
        rendered = lines) := by
  obtain ⟨after, hafter, hclosed, rfl⟩ :=
    (render_of_fills hopening hrun huntaken hcontent hclosing).mp hrender
  set drops := dropsNewline state.dropNewline inner
  set otherDrops := dropsNewline state.dropNewline others
  have hself : State.Alike state state := by
    obtain ⟨same, hsame, hlike⟩ := State.alike_start.run hanswers hrun
    cases hrun.symm.trans hsame
    exact hlike
  have hblank : ∀ {drops : Bool}, (state.isBlankLine && drops) = true → state.isBlankLine = true :=
    fun h => (Bool.and_eq_true_iff.mp h).1
  have hlike : State.Alike (state.cleared (state.isBlankLine && drops)).settled
      (state.cleared (state.isBlankLine && otherDrops)).settled := by
    refine ⟨hself.finished, ?_, hself.scopes, hself.alignments, hself.blank, rfl⟩
    exact (State.visible_cleared hblank).trans (State.visible_cleared hblank).symm
  obtain ⟨last, hlast, hshows⟩ := hlike.run hanswers hafter
  refine ⟨last.finished.reverse,
    (render_of_fills hopening hrun huntaken hother hclosing).mpr
      ⟨last, hlast, hshows.scopes.symm.trans hclosed, rfl⟩, ?_, ?_⟩
  · rw [List.map_reverse, List.map_reverse, hshows.finished]
  · intro hsame
    have hcleared : state.cleared (state.isBlankLine && drops) =
        state.cleared (state.isBlankLine && otherDrops) := by
      rcases hsame with hempty | hshown | hdrops
      · simp [State.cleared, hempty]
      · rw [hshown]
        rfl
      · rw [hdrops]
    rw [hcleared] at hafter
    cases hafter.symm.trans hlast
    rfl

/-- No condition holds. -/
def falseResolver : Resolver := fun _ _ _ => .ok (.bool false)

/-- A text that begins a branch on a line with nothing but blanks, below a remembered column. -/
def indentedText : String :=
  "f([[[>]]]x,\n  [[[IF no]]]"

/-- Content with a newline behind the begin of a condition. -/
def nestedText : String :=
  "one\n[[[IF deep]]]\ntwo[[[ENDIF]]]"

/-- Content that begins with a newline. -/
def expandingText : String :=
  "\n[[[gone]]]"

/-- A text that ends a branch and begins another one, at the remembered column. -/
def alignedText : String :=
  "[[[ELSE]]][[[|]]][[[x]]])[[[ENDIF]]]"

/-- The one content drops the newline behind its nested condition and the other one the newline at
its begin, so either leaves an empty line to the other branch. -/
theorem render_replaced_nested :
    (render falseResolver (indentedText ++ nestedText ++ alignedText)).lines =
        .ok ["f(x,", "  false)"] ∧
      (render falseResolver (indentedText ++ expandingText ++ alignedText)).lines =
        .ok ["f(x,", "  false)"] := by
  have hopening : Opens indentedText [⟨1, .text "f(".toList⟩, ⟨1, .push⟩, ⟨1, .text "x,".toList⟩,
      ⟨1, .newline⟩, ⟨2, .text "  ".toList⟩] ⟨2, .ifKey "no".toList⟩ :=
    ⟨⟨2, by decide +kernel⟩, rfl⟩
  have hrun : State.start.run falseResolver ([⟨1, .text "f(".toList⟩, ⟨1, .push⟩,
      ⟨1, .text "x,".toList⟩, ⟨1, .newline⟩, ⟨2, .text "  ".toList⟩] ++
      [⟨2, .ifKey "no".toList⟩]) =
      .ok ⟨["f(x,"], "  ".toList, [.waiting], ["  ".toList], true, [⟨"no", [], "  ", 2⟩]⟩ := by
    decide +kernel
  have hcontent : Fills nestedText [⟨1, .text "one".toList⟩, ⟨1, .newline⟩,
      ⟨2, .ifKey "deep".toList⟩, ⟨2, .newline⟩, ⟨3, .text "two".toList⟩, ⟨3, .endif⟩] :=
    ⟨⟨3, by decide +kernel⟩, rfl, by decide⟩
  have hother : Fills expandingText [⟨1, .newline⟩, ⟨2, .expand "gone".toList⟩] :=
    ⟨⟨2, by decide +kernel⟩, rfl, by decide⟩
  have hclosing : Closes alignedText ⟨1, .elseBranch⟩ [⟨1, .mark⟩, ⟨1, .expand ['x']⟩,
      ⟨1, .text [')']⟩, ⟨1, .endif⟩, ⟨1, .newline⟩] :=
    ⟨by decide +kernel, rfl⟩
  have hrender : (render falseResolver (indentedText ++ nestedText ++ alignedText)).lines =
      .ok ["f(x,", "  false)"] := by
    decide +kernel
  have hanswers : ∀ key args context,
      falseResolver key args context = (fun _ _ => .ok (.bool false) : Answers) key args :=
    fun _ _ _ => rfl
  obtain ⟨rendered, hrendered, -, hsame⟩ :=
    render_replaced hanswers hopening hrun nofun hcontent hother hclosing hrender
  obtain rfl := hsame (.inr (.inr (by decide +kernel)))
  exact ⟨hrender, hrendered⟩

/-- A newline right behind the condition takes the blanks before it with it, where other content
leaves them; and an opening bracket at the end of the content would open the directive behind it. -/
theorem render_replaced_cleared :
    Opens "  [[[IF no]]]" [⟨1, .text "  ".toList⟩] ⟨1, .ifKey "no".toList⟩ ∧
      (∃ state, State.start.run falseResolver ([⟨1, .text "  ".toList⟩] ++
        [⟨1, .ifKey "no".toList⟩]) = .ok state ∧ state.scope ≠ .active) ∧
      Fills "x" [⟨1, .text ['x']⟩] ∧ Fills "\n" [⟨1, .newline⟩] ∧
      Closes "[[[ENDIF]]]y" ⟨1, .endif⟩ [⟨1, .text ['y']⟩, ⟨1, .newline⟩] ∧
      (render falseResolver ("  [[[IF no]]]" ++ "x" ++ "[[[ENDIF]]]y")).lines = .ok ["  y"] ∧
      (render falseResolver ("  [[[IF no]]]" ++ "\n" ++ "[[[ENDIF]]]y")).lines = .ok ["y"] ∧
      tokens "[" = .ok [⟨1, .text ['[']⟩, ⟨1, .newline⟩] ∧
      (render falseResolver ("[[[IF no]]]" ++ "x" ++ "[[[ENDIF]]]y")).lines = .ok ["y"] ∧
      (render falseResolver ("[[[IF no]]]" ++ "[" ++ "[[[ENDIF]]]y")).lines =
        .error ⟨1, .openConditions 1⟩ := by
  have hopening : Opens "  [[[IF no]]]" [⟨1, .text "  ".toList⟩] ⟨1, .ifKey "no".toList⟩ :=
    ⟨⟨1, by decide +kernel⟩, rfl⟩
  have hrun : State.start.run falseResolver ([⟨1, .text "  ".toList⟩] ++
      [⟨1, .ifKey "no".toList⟩]) =
      .ok ⟨[], "  ".toList, [.waiting], [], true, [⟨"no", [], "  ", 2⟩]⟩ := by
    decide +kernel
  have hcontent : Fills "x" [⟨1, .text ['x']⟩] :=
    ⟨⟨1, by decide +kernel⟩, rfl, by decide⟩
  have hother : Fills "\n" [⟨1, .newline⟩] :=
    ⟨⟨2, by decide +kernel⟩, rfl, by decide⟩
  have hclosing : Closes "[[[ENDIF]]]y" ⟨1, .endif⟩ [⟨1, .text ['y']⟩, ⟨1, .newline⟩] :=
    ⟨by decide +kernel, rfl⟩
  refine ⟨hopening, ⟨_, hrun, nofun⟩, hcontent, hother, hclosing, ?_, ?_, ?_, ?_, ?_⟩ <;>
    decide +kernel

end AnnotatedHelp.Template
