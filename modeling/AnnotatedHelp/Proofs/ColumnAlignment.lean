import Mathlib
import AnnotatedHelp.Proofs.RenderingSteps

/-!
# Columns

A column is remembered as the characters that lead to it, the blanks and tabs at the start of the line
and then spaces. They are as many as the line had, so what they are put before stands where the line
ended. The remembered columns are a stack that only the alignment directives in branches that are
taken change; whatever lines, blocks and further columns come in between, a mark goes to the column of
the push that it matches.
-/

namespace AnnotatedHelp.Template

open Text

/-- Characters lead to the column where a line ends. -/
structure LeadsTo (line lead : List Char) : Prop where
  /-- They are the blanks and tabs that the line begins with, and spaces behind them. -/
  made : ∃ spaces, lead = line.takeWhile Context.isIndentation ++ List.replicate spaces ' '
  /-- They are as many as the line has. -/
  length : lead.length = line.length

/-- Indentation is made of spaces and tabs. -/
theorem Context.isIndentation_iff {c : Char} :
    Context.isIndentation c = true ↔ c = ' ' ∨ c = '\t' := by
  simp [Context.isIndentation]

/-- The characters that are remembered for the end of a line lead there. -/
theorem leadsTo_alignment (line : List Char) : LeadsTo line (Context.ofLine line).alignment := by
  have hindentation : (line.takeWhile Context.isIndentation).length ≤ line.length :=
    (List.takeWhile_sublist _).length_le
  simp only [Context.alignment, Context.ofLine, String.toList_ofList]
  refine ⟨⟨_, rfl⟩, ?_⟩
  rw [List.length_append, List.length_replicate]
  omega

/-- What leads to a column is made of spaces and tabs. -/
theorem LeadsTo.isIndentation {line lead : List Char} (h : LeadsTo line lead) :
    ∀ c ∈ lead, Context.isIndentation c = true := by
  obtain ⟨spaces, rfl⟩ := h.made
  intro c hc
  rcases List.mem_append.mp hc with hline | hspace
  · exact List.mem_takeWhile_imp hline
  · rw [List.eq_of_mem_replicate hspace]
    rfl

/-- Nothing else leads to a column than what is remembered for it. -/
theorem LeadsTo.eq_alignment {line lead : List Char} (h : LeadsTo line lead) :
    lead = (Context.ofLine line).alignment := by
  obtain ⟨⟨spaces, hmade⟩, hlength⟩ := h
  obtain ⟨⟨others, hother⟩, hothers⟩ := leadsTo_alignment line
  have hsame : spaces = others := by
    rw [hmade, List.length_append, List.length_replicate] at hlength
    rw [hother, List.length_append, List.length_replicate] at hothers
    omega
  rw [hmade, hother, hsame]

/-- A line as it is finished. -/
def finishedLine (line : List Char) : String :=
  String.ofList (trimEnd line)

namespace State

/-- Beginning further lines finishes the current one and all of them but the last. -/
theorem foldl_nextLine_concat (texts : List (List Char)) (last : List Char) (state : State) :
    (texts ++ [last]).foldl nextLine state =
      { state with
        finished := (texts.map finishedLine).reverse ++
          finishedLine state.current :: state.finished
        current := last } := by
  induction texts generalizing state with
  | nil => rfl
  | cons text texts ih =>
    rw [List.cons_append, List.foldl_cons, ih, List.map_cons, List.reverse_cons, List.append_assoc]
    rfl

/-- Lines that are written stand one under another behind what leads to the column of the first
one. -/
theorem addLines_eq (state : State) (first : String) (middle : List String) (last : String) :
    state.addLines (first :: (middle ++ [last])) =
      { state with
        finished :=
          (middle.map fun line => finishedLine (state.context.alignment ++ line.toList)).reverse ++
            finishedLine (state.current ++ first.toList) :: state.finished
        current := state.context.alignment ++ last.toList } := by
  have hrest : (middle ++ [last]).map (fun line => state.context.alignment ++ line.toList) =
      middle.map (fun line => state.context.alignment ++ line.toList) ++
        [state.context.alignment ++ last.toList] := by
    rw [List.map_append, List.map_singleton]
  rw [addLines, hrest, foldl_nextLine_concat, List.map_map]
  rfl

end State

/-- By how much a token makes the number of remembered columns larger. -/
def Token.columns : Token → Int
  | .push => 1
  | .pop => -1
  | _ => 0

/-- The columns that tokens remember less those that they forget. -/
def openColumns (tokens : List Placed) : Int :=
  (tokens.map (·.token.columns)).sum

/-- Tokens behind others remember and forget further columns. -/
theorem openColumns_append (tokens more : List Placed) :
    openColumns (tokens ++ more) = openColumns tokens + openColumns more := by
  simp [openColumns]

namespace State

variable {resolver : Resolver} {state after : State} {placed : Placed}

/-- The state behind a push. -/
def pushed (state : State) : State :=
  { state.settled with alignments := state.context.alignment :: state.alignments }

/-- A push in a branch that is taken remembers the column. -/
theorem step_push (htaken : state.scope = .active) (line : Nat) :
    state.step resolver ⟨line, .push⟩ = .ok state.pushed :=
  step_of_taken rfl htaken

/-- A step remembers a column, forgets the one that is remembered last, or leaves the columns, and it
does so as the tokens say that are acted on. -/
theorem alignments_cases (h : state.step resolver placed = .ok after) :
    (placed.token = .push ∧ state.scope = .active ∧ after = state.pushed ∧
        openColumns (state.acted resolver [placed]) = 1) ∨
      (∃ column, state.alignments = column :: after.alignments ∧
        openColumns (state.acted resolver [placed]) = -1) ∨
      after.alignments = state.alignments ∧ openColumns (state.acted resolver [placed]) = 0 := by
  have htaken : ∀ {token}, placed.token = token → token.isContent = true → state.scope = .active →
      openColumns (state.acted resolver [placed]) = token.columns := by
    rintro _ rfl hcontent htaken
    rw [acted_of_isContent hcontent htaken]
    exact Int.add_zero _
  have hother : ¬(placed.token.isContent = true ∧ state.scope = .active) →
      openColumns (state.acted resolver [placed]) = 0 := by
    intro hidle
    rw [acted_singleton, if_neg hidle]
    rfl
  cases leaves_of_step h with
  | passed _ huntaken => exact .inr (.inr ⟨rfl, hother fun hacts => huntaken hacts.2⟩)
  | @text text htoken hscope =>
    exact .inr (.inr ⟨(eq_of_unwritten_eq (addText_unwritten state.settled text)).2.1,
      htaken htoken rfl hscope⟩)
  | @expand directive key args value htoken hscope _ _ =>
    exact .inr (.inr ⟨(eq_of_unwritten_eq (addValue_unwritten _ value)).2.1,
      htaken htoken rfl hscope⟩)
  | push htoken hscope => exact .inl ⟨htoken, hscope, rfl, htaken htoken rfl hscope⟩
  | mark htoken hscope _ => exact .inr (.inr ⟨rfl, htaken htoken rfl hscope⟩)
  | @pop column columns htoken hscope hcolumns =>
    exact .inr (.inl ⟨column, hcolumns, htaken htoken rfl hscope⟩)
  | dropped htoken _ => exact .inr (.inr ⟨rfl, hother (by simp [htoken, Token.isContent])⟩)
  | finished htoken _ => exact .inr (.inr ⟨rfl, hother (by simp [htoken, Token.isContent])⟩)
  | kept htoken _ => exact .inr (.inr ⟨rfl, hother (by simp [htoken, Token.isContent])⟩)
  | conditional htoken =>
    exact .inr (.inr ⟨rfl, hother (by simp [Token.isContent_of_isConditional htoken])⟩)

/-- A step keeps the columns below its own ones as long as it has an own one to forget. -/
theorem alignments_step {own base : List (List Char)} (hstate : state.alignments = own ++ base)
    (hown : 0 ≤ own.length + openColumns (state.acted resolver [placed]))
    (h : state.step resolver placed = .ok after) :
    ∃ next, after.alignments = next ++ base ∧
      (next.length : Int) = own.length + openColumns (state.acted resolver [placed]) := by
  rcases alignments_cases h with ⟨-, -, rfl, hopen⟩ | ⟨column, hcolumns, hopen⟩ | ⟨hsame, hopen⟩
  · refine ⟨state.context.alignment :: own, congrArg (_ :: ·) hstate, ?_⟩
    rw [hopen, List.length_cons]
    rfl
  · rw [hopen] at hown ⊢
    cases own with
    | nil => exact absurd hown (by decide)
    | cons first own =>
      obtain ⟨-, hafter⟩ := List.cons.inj (hcolumns.symm.trans hstate)
      refine ⟨own, hafter, ?_⟩
      rw [List.length_cons]
      omega
  · exact ⟨own, hsame.trans hstate, by rw [hopen, Int.add_zero]⟩

/-- A run keeps the columns below its own ones as long as it forgets own ones only. -/
theorem alignments_run {own base : List (List Char)} {tokens : List Placed}
    (hstate : state.alignments = own ++ base)
    (hown : ∀ front, front <+: state.acted resolver tokens → 0 ≤ own.length + openColumns front)
    (h : state.run resolver tokens = .ok after) :
    ∃ next, after.alignments = next ++ base ∧
      (next.length : Int) = own.length + openColumns (state.acted resolver tokens) := by
  induction tokens generalizing state own with
  | nil =>
    cases h
    exact ⟨own, hstate, (Int.add_zero _).symm⟩
  | cons placed tokens ih =>
    rw [run_cons] at h
    obtain ⟨middle, hstep, hrest⟩ := Outcome.bind_ok_iff.mp h
    have hacted : state.acted resolver (placed :: tokens) =
        state.acted resolver [placed] ++ middle.acted resolver tokens :=
      acted_append (run_singleton.trans hstep) tokens
    rw [hacted] at hown ⊢
    obtain ⟨next, hmiddle, hnext⟩ := alignments_step hstate (hown _ (List.prefix_append _ _)) hstep
    obtain ⟨last, hafter, hlast⟩ := ih hmiddle (fun front hfront => by
      have hwhole := hown _ (List.prefix_append_right_inj _ |>.mpr hfront)
      rw [openColumns_append] at hwhole
      omega) hrest
    refine ⟨last, hafter, ?_⟩
    rw [openColumns_append]
    omega

/-- A push in a run remembers a column, and a number of further ones that the tokens behind it remember
are not forgotten. They forget no column that was there before them. -/
structure Remembers (resolver : Resolver) (before : List Placed) (line : Nat) (between : List Placed)
    (depth : Nat) (opened : State) : Prop where
  /-- The run comes to the push. -/
  run : start.run resolver before = .ok opened
  /-- The push stands in a branch that is taken. -/
  taken : opened.scope = .active
  /-- Behind it, a column is remembered before it is forgotten. -/
  own : ∀ front, front <+: opened.pushed.acted resolver between → 0 ≤ openColumns front
  /-- So many columns are left. -/
  depth : openColumns (opened.pushed.acted resolver between) = depth

/-- The tokens behind a push are gone through from the state behind it. -/
theorem Remembers.run_between {before between : List Placed} {line depth : Nat} {opened reached : State}
    (h : Remembers resolver before line between depth opened)
    (hrun : start.run resolver (before ++ ⟨line, .push⟩ :: between) = .ok reached) :
    opened.pushed.run resolver between = .ok reached := by
  rwa [run_append h.run, run_cons, step_push h.taken] at hrun

/-- Behind a push whose further columns are forgotten, its column is the last one. -/
theorem Remembers.alignments {before between : List Placed} {line : Nat} {opened reached : State}
    (h : Remembers resolver before line between 0 opened)
    (hrun : start.run resolver (before ++ ⟨line, .push⟩ :: between) = .ok reached) :
    reached.alignments = opened.context.alignment :: opened.alignments := by
  have hown : ∀ front, front <+: opened.pushed.acted resolver between →
      0 ≤ (([] : List (List Char)).length : Int) + openColumns front := by
    intro front hfront
    rw [List.length_nil]
    have hnonneg := h.own front hfront
    omega
  obtain ⟨next, hafter, hnext⟩ := alignments_run (List.nil_append _).symm hown (h.run_between hrun)
  rw [h.depth] at hnext
  obtain rfl := List.length_eq_zero_iff.mp (by simpa using hnext)
  exact hafter

/-- A further token behind a push changes how many columns are left behind it. -/
theorem Remembers.concat {before between : List Placed} {line depth next : Nat} {opened middle : State}
    (h : Remembers resolver before line between depth opened)
    (hrun : start.run resolver (before ++ ⟨line, .push⟩ :: between) = .ok middle)
    (hnext : (depth : Int) + openColumns (middle.acted resolver [placed]) = next) :
    Remembers resolver before line (between ++ [placed]) next opened := by
  have hacted := acted_append (h.run_between hrun) [placed]
  have hdepth : openColumns (opened.pushed.acted resolver (between ++ [placed])) = next := by
    rw [hacted, openColumns_append, h.depth, hnext]
  refine ⟨h.run, h.taken, ?_, hdepth⟩
  intro front hfront
  -- A part of what is acted on is a part of what was acted on before, or all of it.
  by_cases hwhole : front = opened.pushed.acted resolver (between ++ [placed])
  · rw [hwhole, hdepth]
    exact Int.natCast_nonneg next
  · refine h.own front ?_
    rw [hacted, acted_singleton] at hfront hwhole
    split_ifs at hfront hwhole
    · exact (List.prefix_concat_iff.mp hfront).resolve_left hwhole
    · rwa [List.append_nil] at hfront

/-- Every column that is remembered was remembered by a push, and the columns above it were remembered
behind that one. -/
theorem exists_remembers {tokens : List Placed} {reached : State}
    (h : start.run resolver tokens = .ok reached) {depth : Nat}
    (hdepth : depth < reached.alignments.length) :
    ∃ before line between opened, tokens = before ++ ⟨line, .push⟩ :: between ∧
      Remembers resolver before line between depth opened := by
  induction tokens using List.reverseRecOn generalizing reached depth with
  | nil =>
    cases h
    exact absurd hdepth (Nat.not_lt_zero _)
  | append_singleton tokens placed ih =>
    rw [run_append_eq] at h
    obtain ⟨middle, hrun, hlast⟩ := Outcome.bind_ok_iff.mp h
    rw [run_singleton] at hlast
    -- A column that was there before was remembered by a push among the tokens before.
    have hbelow : ∀ below, below < middle.alignments.length →
        (below : Int) + openColumns (middle.acted resolver [placed]) = depth →
        ∃ before line between opened, tokens ++ [placed] = before ++ ⟨line, .push⟩ :: between ∧
          Remembers resolver before line between depth opened := by
      intro below hlt hopen
      obtain ⟨before, line, between, opened, rfl, hremembers⟩ := ih hrun hlt
      exact ⟨before, line, between ++ [placed], opened, by simp, hremembers.concat hrun hopen⟩
    rcases alignments_cases hlast with ⟨htoken, htaken, rfl, hopen⟩ | ⟨column, hcolumns, hopen⟩ |
      ⟨hsame, hopen⟩
    · cases depth with
      | zero =>
        obtain ⟨line, token⟩ := placed
        obtain rfl : token = .push := htoken
        exact ⟨tokens, line, [], middle, rfl, hrun, htaken, fun front hfront =>
          (List.prefix_nil.mp hfront) ▸ Int.le_refl 0, rfl⟩
      | succ depth =>
        refine hbelow depth (Nat.succ_lt_succ_iff.mp hdepth) ?_
        rw [hopen]
        rfl
    · refine hbelow (depth + 1) ?_ ?_
      · rw [hcolumns]
        exact Nat.succ_lt_succ hdepth
      · rw [hopen]
        omega
    · refine hbelow depth (hsame ▸ hdepth) ?_
      rw [hopen, Int.add_zero]

/-- The value of a key is written in a branch that is taken. -/
theorem step_expand {line : Nat} {directive : List Char} {key : String} {args : List String}
    {value : Value} (htaken : state.scope = .active) (hkey : readKey directive = .ok (key, args))
    (hvalue : resolver key args state.context = .ok value) :
    state.step resolver ⟨line, .expand directive⟩ = .ok (addValue
      { state.settled with calls := ⟨key, args, state.context⟩ :: state.calls } value) := by
  have hasked : state.settled.evaluate resolver line directive =
      .ok (value, { state.settled with calls := ⟨key, args, state.context⟩ :: state.calls }) :=
    evaluate_ok_iff.mpr ⟨key, args, hkey, hvalue, rfl⟩
  rw [step_of_taken rfl htaken]
  exact Outcome.bind_ok_iff.mpr ⟨_, hasked, rfl⟩

/-- A mark in a branch that is taken extends the line to the column that is remembered last. -/
theorem step_mark {line : Nat} {column : List Char} {columns : List (List Char)}
    (htaken : state.scope = .active) (hcolumns : state.alignments = column :: columns) :
    state.step resolver ⟨line, .mark⟩ =
      .ok (state.settled.append (column.drop state.current.length)) := by
  have hsettled : state.settled.alignments = column :: columns := hcolumns
  rw [step_of_taken rfl htaken, act, goToMark_of_cons hsettled]
  rfl

end State

/-- The run over the tokens of a template comes to a token in a branch that is taken. -/
structure ComesTo (resolver : Resolver) (template : String) (before : List Placed) (placed : Placed)
    (state : State) : Prop where
  /-- The token is one of those of the template. -/
  tokens : ∃ behind, tokens template = .ok (before ++ placed :: behind)
  /-- The tokens before it lead to the state. -/
  run : State.start.run resolver before = .ok state
  /-- Its branch is taken. -/
  taken : state.scope = .active

/-- Expansions and marks are true to columns. Wherever a run comes to a key that stands for two lines or
more, it finishes the current line with the first one and all further ones but the last, of which each
begins behind characters that lead to the column of the key, and goes on behind the last one. Wherever
it comes to a mark that matches a push, it extends the line by spaces and tabs to the column of the
push, unless the line is that long already; on an empty line it writes all that leads there. And every
mark that it goes through matches a push. -/
theorem render_columns (resolver : Resolver) (template : String) :
    (∀ before line directive state key args first middle last,
      ComesTo resolver template before ⟨line, .expand directive⟩ state →
      readKey directive = .ok (key, args) →
      resolver key args state.context = .ok (.lines (first :: (middle ++ [last]))) →
      ∃ lead after, LeadsTo state.current lead ∧
        state.step resolver ⟨line, .expand directive⟩ = .ok after ∧
        after.finished.reverse = state.finished.reverse ++
          finishedLine (state.current ++ first.toList) ::
            middle.map (fun text => finishedLine (lead ++ text.toList)) ∧
        after.current = lead ++ last.toList ∧
        after.current.length = state.current.length + last.length) ∧
    (∀ before line between opened mark reached,
      State.Remembers resolver before line between 0 opened →
      ComesTo resolver template (before ++ ⟨line, .push⟩ :: between) ⟨mark, .mark⟩ reached →
      ∃ lead padding after, LeadsTo opened.current lead ∧
        reached.step resolver ⟨mark, .mark⟩ = .ok after ∧
        after.finished = reached.finished ∧
        after.current = reached.current ++ padding ∧
        after.current.length = max reached.current.length opened.current.length ∧
        (∀ c ∈ padding, c = ' ' ∨ c = '\t') ∧ (reached.current = [] → padding = lead)) ∧
    ∀ before mark reached after, ComesTo resolver template before ⟨mark, .mark⟩ reached →
      reached.step resolver ⟨mark, .mark⟩ = .ok after →
      ∃ above line between opened, before = above ++ ⟨line, .push⟩ :: between ∧
        State.Remembers resolver above line between 0 opened := by
  refine ⟨?_, ?_, ?_⟩
  · intro before line directive state key args first middle last hcomes hkey hvalue
    have hlead := leadsTo_alignment state.current
    refine ⟨_, _, hlead, State.step_expand hcomes.taken hkey hvalue, ?_⟩
    rw [State.addValue, State.addLines_eq]
    refine ⟨?_, rfl, ?_⟩
    · simp [State.settled, State.context, List.reverse_append]
    · dsimp only
      rw [List.length_append, String.length_toList]
      exact congrArg (· + last.length) hlead.length
  · intro before line between opened mark reached hremembers hcomes
    have hlead := leadsTo_alignment opened.current
    have hcolumns := hremembers.alignments hcomes.run
    refine ⟨_, _, _, hlead, State.step_mark hcomes.taken hcolumns, rfl, rfl, ?_, ?_, ?_⟩
    · change (reached.current ++ List.drop reached.current.length _).length = _
      rw [List.length_append, List.length_drop, State.context, hlead.length]
      omega
    · exact fun c hc => Context.isIndentation_iff.mp (hlead.isIndentation c (List.mem_of_mem_drop hc))
    · intro hempty
      rw [hempty]
      rfl
  · intro before mark reached after hcomes hstep
    refine State.exists_remembers hcomes.run (List.length_pos_iff.mpr fun hnone => ?_)
    have hsettled : reached.settled.alignments = [] := hnone
    rw [State.step_of_taken rfl hcomes.taken, State.act, State.goToMark_of_nil hsettled] at hstep
    cases hstep

/-- Lines behind a tab, and marks under nested columns of which one is in a branch that is not taken. -/
def columnText : String :=
  "\tf([[[>]]][[[list]]],\n" ++
    "[[[|]]]g([[[>]]][[[IF no]]][[[<]]][[[ENDIF]]][[[|]]]x[[[<]]]\n" ++ "[[[|]]]y)[[[<]]]"

/-- Three lines, of which the middle one ends with blanks, and a condition that does not hold. -/
def listResolver : Resolver
  | "list", _, _ => .ok (.lines ["a", "b  ", "c"])
  | "no", _, _ => .ok (.bool false)
  | key, _, _ => .error (.unknownKey key)

/-- The tokens of the text up to the mark at the start of its last line. -/
def columnTokens : List Placed :=
  [⟨1, .text "\tf(".toList⟩, ⟨1, .push⟩, ⟨1, .expand "list".toList⟩, ⟨1, .text ",".toList⟩,
    ⟨1, .newline⟩, ⟨2, .mark⟩, ⟨2, .text "g(".toList⟩, ⟨2, .push⟩, ⟨2, .ifKey "no".toList⟩, ⟨2, .pop⟩,
    ⟨2, .endif⟩, ⟨2, .mark⟩, ⟨2, .text "x".toList⟩, ⟨2, .pop⟩, ⟨2, .newline⟩]

/-- The state at the push on the first line. -/
def atPush : State :=
  ⟨[], "\tf(".toList, [], [], false, []⟩

/-- The state at the mark on the last line. -/
def atMark : State :=
  ⟨["\t  g(x", "\t  c,", "\t  b", "\tf(a"], [], [], ["\t  ".toList], false,
    [⟨"no", [], "\t  ", 5⟩, ⟨"list", [], "\t", 3⟩]⟩

/-- The mark on the last line matches the push on the first one: of the alignment directives between
them, one is not acted on, and the others match each other. The list ends at the column of its key. -/
theorem render_columns_nested :
    State.Remembers listResolver (columnTokens.take 1) 1 (columnTokens.drop 2) 0 atPush ∧
      ComesTo listResolver columnText columnTokens ⟨3, .mark⟩ atMark ∧
      (∃ after, atMark.step listResolver ⟨3, .mark⟩ = .ok after ∧ after.current = "\t  ".toList) ∧
      ComesTo listResolver columnText (columnTokens.take 2) ⟨1, .expand "list".toList⟩
        atPush.pushed ∧
      ∃ after, atPush.pushed.step listResolver ⟨1, .expand "list".toList⟩ = .ok after ∧
        after.finished = ["\t  b", "\tf(a"] ∧ after.current = "\t  c".toList := by
  obtain ⟨hlines, hmarks, -⟩ := render_columns listResolver columnText
  have hfronts : ∀ front ∈ (atPush.pushed.acted listResolver (columnTokens.drop 2)).inits,
      0 ≤ openColumns front := by
    decide +kernel
  have hpush : State.start.run listResolver (columnTokens.take 1) = .ok atPush := by decide +kernel
  have hmark : State.start.run listResolver columnTokens = .ok atMark := by decide +kernel
  have hlist : State.start.run listResolver (columnTokens.take 2) = .ok atPush.pushed := by
    decide +kernel
  have htokens : tokens columnText =
      .ok (columnTokens ++ [⟨3, .mark⟩, ⟨3, .text "y)".toList⟩, ⟨3, .pop⟩, ⟨3, .newline⟩]) := by
    decide +kernel
  have hread : readKey "list".toList = .ok ("list", []) := by decide +kernel
  have hown : ∀ front, front <+: atPush.pushed.acted listResolver (columnTokens.drop 2) →
      0 ≤ openColumns front :=
    fun front hfront => hfronts front ((List.mem_inits front _).mpr hfront)
  have hremembers : State.Remembers listResolver (columnTokens.take 1) 1 (columnTokens.drop 2) 0
      atPush :=
    ⟨hpush, rfl, hown, by decide +kernel⟩
  have hcomes : ComesTo listResolver columnText columnTokens ⟨3, .mark⟩ atMark :=
    ⟨⟨_, htokens⟩, hmark, rfl⟩
  have hkey : ComesTo listResolver columnText (columnTokens.take 2) ⟨1, .expand "list".toList⟩
      atPush.pushed :=
    ⟨⟨columnTokens.drop 3 ++ _, htokens⟩, hlist, rfl⟩
  refine ⟨hremembers, hcomes, ?_, hkey, ?_⟩
  · obtain ⟨lead, padding, after, hlead, hstep, -, hcurrent, -, -, hempty⟩ :=
      hmarks _ _ _ _ _ _ hremembers hcomes
    refine ⟨after, hstep, ?_⟩
    rw [hcurrent, hempty rfl, hlead.eq_alignment]
    decide
  · obtain ⟨lead, after, hlead, hstep, hfinished, hcurrent, -⟩ :=
      hlines _ _ _ _ _ _ "a" ["b  "] "c" hkey hread rfl
    rw [hlead.eq_alignment] at hfinished hcurrent
    refine ⟨after, hstep, List.reverse_injective (hfinished.trans ?_), hcurrent.trans ?_⟩
    · decide +kernel
    · decide

end AnnotatedHelp.Template
