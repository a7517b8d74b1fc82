import Mathlib
import AnnotatedHelp.Proofs.Fields
import AnnotatedHelp.Proofs.LineComposition
import AnnotatedHelp.Proofs.ColumnAlignment

/-!
# Rendered lines

Whatever is written is cut at its newlines, so the current line never has one, and a finished line has
lost its trailing blanks. All that is written and not blank stays: it is finished with its line, or the
line is dropped, which happens only while nothing but blanks stands on it; and the last newline of a
template finishes or drops the last line.
-/

namespace AnnotatedHelp.Template

open Text

/-- No entry of the lists of lines that a resolver gives contains a newline. -/
def SingleEntries (resolver : Resolver) : Prop :=
  ∀ key args context entries, resolver key args context = .ok (.lines entries) →
    ∀ entry ∈ entries, '\n' ∉ entry.toList

/-- A line is one line, and does not end with a blank. -/
structure SingleLine (line : String) : Prop where
  /-- It contains no newline. -/
  newline : '\n' ∉ line.toList
  /-- Its last character, if it has one, is not blank. -/
  trimmed : ∀ c ∈ line.toList.getLast?, isBlank c = false

/-- A line without a newline is finished as a single one. -/
theorem singleLine_finishedLine {line : List Char} (h : '\n' ∉ line) :
    SingleLine (finishedLine line) := by
  rw [finishedLine]
  refine ⟨?_, ?_⟩
  · rw [String.toList_ofList, trimEnd, List.mem_reverse]
    exact fun hmem => h (List.mem_reverse.mp ((List.dropWhile_sublist _).subset hmem))
  · rw [String.toList_ofList, trimEnd, List.getLast?_reverse]
    intro c hc
    have hfirst := List.head?_dropWhile_not isBlank line.reverse
    rwa [Option.mem_def.mp hc] at hfirst

/-- An empty line shows nothing. -/
theorem visible_nil : visible [] = [] :=
  rfl

/-- Indentation is blank. -/
theorem Context.isBlank_of_isIndentation {c : Char} (h : Context.isIndentation c = true) :
    isBlank c = true := by
  rcases Context.isIndentation_iff.mp h with rfl | rfl
  · exact isBlank_space
  · decide

/-- Indentation does not show. -/
theorem visible_of_isIndentation {text : List Char}
    (h : ∀ c ∈ text, Context.isIndentation c = true) : visible text = [] :=
  isBlankLine_iff.mp (List.all_eq_true.mpr fun c hc => Context.isBlank_of_isIndentation (h c hc))

/-- Indentation contains no newline. -/
theorem newline_not_mem_of_isIndentation {text : List Char}
    (h : ∀ c ∈ text, Context.isIndentation c = true) : '\n' ∉ text :=
  fun hnewline => absurd (h '\n' hnewline) (by decide)

namespace State

variable {resolver : Resolver} {state after : State} {placed : Placed}

/-- What leads to the remembered columns is indentation. -/
def Indented (state : State) : Prop :=
  ∀ column ∈ state.alignments, ∀ c ∈ column, Context.isIndentation c = true

/-- No column is remembered before the first token. -/
theorem indented_start : Indented start :=
  nofun

/-- Every step remembers indentation. -/
theorem Indented.step (hstate : Indented state) (h : state.step resolver placed = .ok after) :
    Indented after := by
  rcases alignments_cases h with ⟨-, -, rfl, -⟩ | ⟨column, hcolumns, -⟩ | ⟨hsame, -⟩
  · exact List.forall_mem_cons.mpr ⟨(leadsTo_alignment state.current).isIndentation, hstate⟩
  · unfold Indented at hstate
    rw [hcolumns] at hstate
    exact (List.forall_mem_cons.mp hstate).2
  · unfold Indented
    rw [hsame]
    exact hstate

/-- The finished lines are single ones, and the current one contains no newline. -/
structure Tidy (state : State) : Prop where
  /-- The finished lines are single ones. -/
  finished : ∀ line ∈ state.finished, SingleLine line
  /-- The current line contains no newline. -/
  current : '\n' ∉ state.current

namespace Tidy

/-- Writing without newlines stays on the line. -/
theorem append (h : Tidy state) {text : List Char} (htext : '\n' ∉ text) :
    Tidy (state.append text) :=
  ⟨h.finished, by simpa [State.append] using ⟨h.current, htext⟩⟩

/-- The line is finished as a single one. -/
theorem finishLine (h : Tidy state) : Tidy state.finishLine :=
  ⟨List.forall_mem_cons.mpr ⟨singleLine_finishedLine h.current, h.finished⟩, List.not_mem_nil⟩

/-- Further lines are single ones if there are no newlines in them. -/
theorem foldl_nextLine (h : Tidy state) {texts : List (List Char)}
    (htexts : ∀ text ∈ texts, '\n' ∉ text) : Tidy (texts.foldl nextLine state) := by
  induction texts generalizing state with
  | nil => exact h
  | cons text texts ih =>
    obtain ⟨htext, hrest⟩ := List.forall_mem_cons.mp htexts
    exact ih (h.finishLine.append htext) hrest

/-- A text is cut at its newlines. -/
theorem addText (h : Tidy state) (text : List Char) : Tidy (state.addText text) := by
  unfold State.addText
  split
  · exact h
  · next first rest hfields =>
    have hsingle : ∀ field ∈ first :: rest, '\n' ∉ field :=
      fun field hfield => not_mem_of_mem_splitAll (hfields ▸ hfield)
    obtain ⟨hfirst, hrest⟩ := List.forall_mem_cons.mp hsingle
    exact (h.append hfirst).foldl_nextLine hrest

/-- A value is cut at its newlines, or has none in its entries. -/
theorem addValue (h : Tidy state) {value : Value}
    (hentries : ∀ entries, value = .lines entries → ∀ entry ∈ entries, '\n' ∉ entry.toList) :
    Tidy (state.addValue value) := by
  cases value with
  | lines entries =>
    cases entries with
    | nil => exact h
    | cons first rest =>
      obtain ⟨hfirst, hrest⟩ := List.forall_mem_cons.mp (hentries _ rfl)
      refine (h.append hfirst).foldl_nextLine (List.forall_mem_map.mpr fun entry hentry => ?_)
      have hlead := newline_not_mem_of_isIndentation (leadsTo_alignment state.current).isIndentation
      exact fun hmem => (List.mem_append.mp hmem).elim hlead (hrest entry hentry)
  | _ => exact h.addText _

/-- A step writes single lines. -/
theorem step (hentries : SingleEntries resolver) (hindented : Indented state) (hstate : Tidy state)
    (h : state.step resolver placed = .ok after) : Tidy after := by
  have hsettled : Tidy state.settled := ⟨hstate.finished, hstate.current⟩
  cases leaves_of_step h with
  | text => exact hsettled.addText _
  | @expand directive key args value _ _ _ hvalue =>
    have hasked : Tidy { state.settled with calls := ⟨key, args, state.context⟩ :: state.calls } :=
      ⟨hstate.finished, hstate.current⟩
    exact hasked.addValue fun entries he => hentries key args _ entries (he ▸ hvalue)
  | mark _ _ hcolumns =>
    have hcolumn := hindented _ (hcolumns ▸ List.mem_cons_self)
    exact hsettled.append
      (newline_not_mem_of_isIndentation fun c hc => hcolumn c (List.mem_of_mem_drop hc))
  | dropped => exact ⟨hstate.finished, List.not_mem_nil⟩
  | finished => exact hsettled.finishLine
  | _ => exact ⟨hstate.finished, hstate.current⟩

/-- A run writes single lines. -/
theorem run (hentries : SingleEntries resolver) {tokens : List Placed}
    (h : State.start.run resolver tokens = .ok after) : Tidy after := by
  have hstart : Indented start ∧ Tidy start := ⟨indented_start, nofun, List.not_mem_nil⟩
  have hboth := run_keeps (fun state => Indented state ∧ Tidy state)
    (fun hstate hstep => ⟨hstate.1.step hstep, hstate.2.step hentries hstate.1 hstep⟩) hstart h
  exact hboth.2

end Tidy

/-- What shows of the finished lines and the current one. -/
def shown (state : State) : List Char :=
  state.finished.reverse.flatMap (fun line => visible line.toList) ++ visible state.current

/-- Nothing shows before the first token. -/
theorem shown_start : start.shown = [] :=
  rfl

/-- What is appended shows. -/
theorem shown_append (state : State) (text : List Char) :
    (state.append text).shown = state.shown ++ visible text := by
  simp [shown, append]

/-- The end of a line changes nothing that shows. -/
theorem shown_finishLine (state : State) : state.finishLine.shown = state.shown := by
  simp [shown, finishLine, visible_nil]

/-- Further lines show. -/
theorem shown_foldl_nextLine (texts : List (List Char)) (state : State) :
    (texts.foldl nextLine state).shown = state.shown ++ texts.flatMap visible := by
  induction texts generalizing state with
  | nil => exact (List.append_nil _).symm
  | cons text texts ih =>
    rw [List.foldl_cons, ih, nextLine, shown_append, shown_finishLine, List.append_assoc,
      List.flatMap_cons]

/-- Texts that are joined by newlines show what they show by themselves. -/
theorem visible_intercalate_newline (texts : List (List Char)) :
    visible (['\n'].intercalate texts) = texts.flatMap visible := by
  induction texts with
  | nil => rfl
  | cons text texts ih =>
    rcases eq_or_ne texts [] with rfl | hne
    · simp
    · have hnewline : visible ['\n'] = [] := rfl
      rw [List.intercalate_cons_of_ne_nil hne, visible_append, visible_append, ih, hnewline,
        List.append_nil, List.flatMap_cons]

/-- A text shows, however it is cut into lines. -/
theorem shown_addText (state : State) (text : List Char) :
    (state.addText text).shown = state.shown ++ visible text := by
  have hjoined : ['\n'].intercalate (splitAll '\n' text) = text := List.intercalate_splitOn '\n'
  unfold addText
  split
  · next hfields => exact absurd hfields (List.splitOn_ne_nil _ _)
  · next first rest hfields =>
    rw [hfields] at hjoined
    rw [shown_foldl_nextLine, shown_append, List.append_assoc, ← hjoined,
      visible_intercalate_newline, List.flatMap_cons]

/-- A value shows as its text does: what its lines are put behind is blank. -/
theorem shown_addValue (state : State) (value : Value) :
    (state.addValue value).shown = state.shown ++ visible value.display.toList := by
  cases value with
  | lines entries =>
    cases entries with
    | nil => exact (List.append_nil _).symm
    | cons first rest =>
      have hlead : ∀ line : String,
          visible (state.context.alignment ++ line.toList) = visible line.toList := by
        intro line
        rw [visible_append, context, visible_alignment, List.nil_append]
      have hnewline : "\n".toList = ['\n'] := rfl
      rw [addValue, addLines, shown_foldl_nextLine, shown_append, Value.display,
        String.toList_intercalate, hnewline, visible_intercalate_newline, List.append_assoc]
      simp only [List.flatMap_map, hlead, List.flatMap_cons]
  | _ => exact shown_addText _ _

/-- What a token puts out in a branch that is taken: a text, or the text of a value. -/
def emitted (resolver : Resolver) (state : State) (placed : Placed) : List Char :=
  if state.scope = .active then
    match placed.token with
    | .text text => text
    | .expand directive =>
      match state.evaluate resolver placed.line directive with
      | .ok (value, _) => value.display.toList
      | .error _ => []
    | _ => []
  else []

/-- What tokens put out in branches that are taken. -/
def emissions (resolver : Resolver) (state : State) : List Placed → List Char
  | [] => []
  | placed :: tokens =>
    state.emitted resolver placed ++
      match state.step resolver placed with
      | .ok after => after.emissions resolver tokens
      | .error _ => []

/-- Other tokens than texts and expansions put out nothing. -/
theorem emitted_eq_nil (htext : ∀ text, placed.token ≠ .text text)
    (hexpand : ∀ directive, placed.token ≠ .expand directive) :
    state.emitted resolver placed = [] := by
  unfold emitted
  split_ifs
  · split
    · next text htoken => exact absurd htoken (htext text)
    · next directive htoken => exact absurd htoken (hexpand directive)
    · rfl
  · rfl

/-- A line that is dropped shows nothing. -/
theorem Noted.visible_current (hnoted : Noted state) (hdrop : state.dropNewline = true) :
    visible state.current = [] :=
  isBlankLine_iff.mp (hnoted hdrop)

/-- A step shows what its token puts out, and keeps what showed: a line is dropped only where it is
blank, and the characters that lead to a column are blank too. -/
theorem shown_step (hnoted : Noted state) (hindented : Indented state)
    (h : state.step resolver placed = .ok after) :
    after.shown = state.shown ++ visible (state.emitted resolver placed) := by
  have hquiet : after.shown = state.shown → state.emitted resolver placed = [] →
      after.shown = state.shown ++ visible (state.emitted resolver placed) := by
    intro hsame hnothing
    rw [hsame, hnothing]
    exact (List.append_nil _).symm
  have huntaken : state.scope ≠ .active → state.emitted resolver placed = [] :=
    fun htaken => if_neg htaken
  have hother : ∀ {token : Token}, placed.token = token → (∀ text, token ≠ .text text) →
      (∀ directive, token ≠ .expand directive) → state.emitted resolver placed = [] := by
    rintro _ rfl
    exact emitted_eq_nil
  cases leaves_of_step h with
  | passed _ htaken => exact hquiet rfl (huntaken htaken)
  | text htoken htaken =>
    rw [emitted, if_pos htaken, htoken]
    exact shown_addText _ _
  | @expand directive key args value htoken htaken hkey hvalue =>
    have hasked : state.evaluate resolver placed.line directive =
        .ok (value, { state with calls := ⟨key, args, state.context⟩ :: state.calls }) :=
      evaluate_ok_iff.mpr ⟨key, args, hkey, hvalue, rfl⟩
    rw [emitted, if_pos htaken, htoken]
    dsimp only
    rw [hasked]
    exact shown_addValue _ _
  | push htoken => exact hquiet rfl (hother htoken nofun nofun)
  | mark htoken _ hcolumns =>
    have hcolumn := visible_of_isIndentation (hindented _ (hcolumns ▸ List.mem_cons_self))
    refine hquiet ?_ (hother htoken nofun nofun)
    rw [shown_append, visible_drop hcolumn, List.append_nil]
    rfl
  | pop htoken => exact hquiet rfl (hother htoken nofun nofun)
  | dropped htoken hdrop =>
    refine hquiet ?_ (hother htoken nofun nofun)
    have hblank := hnoted.visible_current hdrop
    rw [shown, shown, hblank]
    rfl
  | finished htoken => exact hquiet (shown_finishLine _) (hother htoken nofun nofun)
  | kept _ htaken => exact hquiet rfl (huntaken htaken)
  | conditional htoken =>
    refine hquiet rfl (emitted_eq_nil ?_ ?_)
    · intro text he
      rw [he] at htoken
      cases htoken
    · intro directive he
      rw [he] at htoken
      cases htoken

/-- A run shows what its tokens put out. -/
theorem shown_run {tokens : List Placed} (hnoted : Noted state) (hindented : Indented state)
    (h : state.run resolver tokens = .ok after) :
    after.shown = state.shown ++ visible (state.emissions resolver tokens) := by
  induction tokens generalizing state with
  | nil =>
    cases h
    exact (List.append_nil _).symm
  | cons placed tokens ih =>
    rw [run_cons] at h
    obtain ⟨middle, hstep, hrest⟩ := Outcome.bind_ok_iff.mp h
    rw [ih (step_noted hstep) (hindented.step hstep) hrest, shown_step hnoted hindented hstep,
      emissions, hstep, visible_append, List.append_assoc]

end State

/-- Rendered lines are single lines, and nothing that is written is lost. Where no entry of a list of
lines contains a newline, no rendered line contains one or ends with a blank, so the rendered text, if
there are lines at all, is cut at its newlines into the same lines. Behind the last token the current
line is empty, and what shows of the lines is all that shows of what texts and keys put out in branches
that are taken. -/
theorem render_singleLines {resolver : Resolver} {template : String} {lines : List String}
    (hentries : SingleEntries resolver) (h : (render resolver template).lines = .ok lines) :
    (∀ line ∈ lines, SingleLine line) ∧
      (lines ≠ [] → ∃ text, (render resolver template).text = .ok text ∧
        splitAll '\n' text.toList = lines.map (·.toList)) ∧
      ∃ placed after, tokens template = .ok placed ∧ State.start.run resolver placed = .ok after ∧
        after.finished.reverse = lines ∧ after.current = [] ∧
        lines.flatMap (visible ·.toList) = visible (State.start.emissions resolver placed) := by
  obtain ⟨placed, after, htokens, hrun, hclosed, hrender, rfl⟩ := render_ok h
  have hsingle : ∀ line ∈ after.finished.reverse, SingleLine line :=
    fun line hline => (State.Tidy.run hentries hrun).finished line (List.mem_reverse.mp hline)
  have hempty : after.current = [] := by
    obtain ⟨before, last, rfl⟩ := tokens_ends htokens
    rw [State.eq_start_above hrun hclosed]
    rfl
  refine ⟨hsingle, ?_, placed, after, htokens, hrun, rfl, hempty, ?_⟩
  · intro hne
    refine ⟨_, by rw [Rendering.text, h]; rfl, ?_⟩
    have hfields : ∀ field ∈ after.finished.reverse.map (·.toList), '\n' ∉ field :=
      List.forall_mem_map.mpr fun line hline => (hsingle line hline).newline
    rw [String.toList_intercalate]
    exact List.splitOn_intercalate '\n' hfields (by simpa using hne)
  · have hnoted : State.Noted .start := State.noted_of_dropNewline_eq_false rfl
    have hshown := State.shown_run hnoted State.indented_start hrun
    rwa [State.shown, hempty, visible_nil, List.append_nil, State.shown_start,
      List.nil_append] at hshown

/-- Values of each kind: a text of several lines, lines of which one ends with a blank, a number and a
condition that does not hold. -/
def singleResolver : Resolver
  | "list", _, _ => .ok (.lines ["a", "b "])
  | "note", _, _ => .ok (.text "one \n\ntwo")
  | "count", _, _ => .ok (.int 7)
  | "no", _, _ => .ok (.bool false)
  | key, _, _ => .error (.unknownKey key)

/-- Lines and a text behind a column, and a blank line that is dropped. -/
def singleText : String :=
  "f([[[>]]][[[list]]],  \n[[[|]]][[[note]]]\n  [[[IF no]]]lost[[[ENDIF]]]\n end[[[count]]]"

/-- The rendered lines. -/
def singleLines : List String :=
  ["f(a", "  b ,", "  one", "", "two", " end7"]

/-- All that shows of what is written stands on the lines, and no blank ends them. -/
theorem render_singleLines_mixed :
    (render singleResolver singleText).lines = .ok singleLines ∧
      (∀ line ∈ singleLines, SingleLine line) ∧
      (∃ text, (render singleResolver singleText).text = .ok text ∧
        splitAll '\n' text.toList = singleLines.map (·.toList)) ∧
      ∃ placed, tokens singleText = .ok placed ∧
        visible (State.start.emissions singleResolver placed) = "f(ab,onetwoend7".toList := by
  have hentries : SingleEntries singleResolver := by
    intro key args context entries hvalue
    unfold singleResolver at hvalue
    split at hvalue <;> cases hvalue
    decide
  have hlines : (render singleResolver singleText).lines = .ok singleLines := by decide +kernel
  obtain ⟨hsingle, htext, placed, after, htokens, -, -, -, hshown⟩ :=
    render_singleLines hentries hlines
  refine ⟨hlines, hsingle, htext (by decide), placed, htokens, hshown.symm.trans ?_⟩
  decide +kernel

end AnnotatedHelp.Template
