import AnnotatedHelp.Template.Token

/-!
# Rendering

Rendering goes through the tokens of a template once. Its state holds the finished lines, the
current line, the branches it is in and the columns it remembers. Text, keys and alignments count
only in branches that are taken, and conditions are asked for only where their answer matters. A
conditional directive on a line that is blank so far takes the newline right behind it with it.

Every question to the resolver is recorded, also when rendering fails.
-/

namespace AnnotatedHelp.Template

open Text

/-- How a conditional block stands. -/
inductive Scope where
  /-- The branch is taken. -/
  | active
  /-- No branch was taken yet. -/
  | waiting
  /-- A branch was taken before, or the block stands in a branch that is not taken. -/
  | done
  deriving DecidableEq, Repr

/-- The state of rendering. -/
structure State where
  /-- The finished lines, latest first. -/
  finished : List String
  /-- The current line. -/
  current : List Char
  /-- The conditional blocks around the current token, innermost first. -/
  scopes : List Scope
  /-- The remembered columns as the characters that lead to them, latest first. -/
  alignments : List (List Char)
  /-- Whether a newline is dropped if it comes next. -/
  dropNewline : Bool
  /-- The questions to the resolver, latest first. -/
  calls : List Call
  deriving DecidableEq, Repr

/-- A failure, and the questions asked up to it, latest first. -/
structure Failure where
  /-- What went wrong. -/
  problem : Problem
  /-- The questions to the resolver, latest first. -/
  calls : List Call
  deriving DecidableEq, Repr

namespace State

/-- The state before the first token. -/
def start : State := ⟨[], [], [], [], false, []⟩

/-- How the innermost block stands; outside blocks everything is taken. -/
def scope (state : State) : Scope :=
  state.scopes.headD .active

/-- Whether only blanks stand on the current line. -/
def isBlankLine (state : State) : Bool :=
  Text.isBlankLine state.current

/-- Where the output stands. -/
def context (state : State) : Context :=
  .ofLine state.current

/-- Fails on a line of the template. -/
def fail {α : Type} (state : State) (line : Nat) (cause : Cause) : Except Failure α :=
  .error ⟨⟨line, cause⟩, state.calls⟩

/-- Finishes the current line without its trailing blanks. -/
def finishLine (state : State) : State :=
  { state with
    finished := String.ofList (trimEnd state.current) :: state.finished
    current := [] }

/-- Appends characters to the current line. -/
def append (state : State) (text : List Char) : State :=
  { state with current := state.current ++ text }

/-- Finishes the current line and begins another one with the given characters. -/
def nextLine (state : State) (text : List Char) : State :=
  state.finishLine.append text

/-- Appends a text; every newline in it finishes a line. -/
def addText (state : State) (text : List Char) : State :=
  match splitAll '\n' text with
  | [] => state
  | first :: rest => rest.foldl nextLine (state.append first)

/-- Appends lines; all but the first begin at the current column. -/
def addLines (state : State) : List String → State
  | [] => state
  | first :: rest =>
    let alignment := state.context.alignment
    (rest.map fun line => alignment ++ line.toList).foldl nextLine (state.append first.toList)

/-- Appends a value. -/
def addValue (state : State) : Value → State
  | .lines lines => state.addLines lines
  | value => state.addText value.display.toList

/-- Notes whether a newline is dropped if it comes next. -/
def noteBlankLine (state : State) : State :=
  { state with dropNewline := state.isBlankLine }

/-- Begins a block that stands as given. -/
def openScope (state : State) (scope : Scope) : State :=
  { state with scopes := scope :: state.scopes }

/-- Changes how the innermost block stands. -/
def setScope (state : State) (scope : Scope) : State :=
  { state with scopes := scope :: state.scopes.tail }

end State

/-- The arguments between parentheses, without outer blanks; blank parentheses hold none. -/
def readArguments (inner : List Char) : List String :=
  if isBlankLine inner then []
  else (splitAll ',' inner).map fun arg => String.ofList (trim arg)

/-- The name and the arguments of a key. What follows the closing parenthesis is ignored. -/
def readKey (directive : List Char) : Except Cause (String × List String) :=
  let named (name : List Char) (args : List String) : Except Cause (String × List String) :=
    match trim name with
    | [] => .error (.malformedKey (String.ofList directive))
    | name => .ok (String.ofList name, args)
  match cut ['('] directive with
  | none => named directive []
  | some (name, opened) =>
    match cut [')'] opened with
    | none => .error (.malformedKey (String.ofList directive))
    | some (inner, _) => named name (readArguments inner)

namespace State

/-- Asks the resolver for the value of a key and records the question. -/
def evaluate (resolver : Resolver) (state : State) (line : Nat) (directive : List Char) :
    Except Failure (Value × State) :=
  match readKey directive with
  | .error cause => state.fail line cause
  | .ok (key, args) =>
    let call : Call := ⟨key, args, state.context⟩
    let asked := { state with calls := call :: state.calls }
    match call.answer resolver with
    | .error error => asked.fail line (.unresolved key error)
    | .ok value => .ok (value, asked)

/-- Begins a conditional block. Its condition is asked for only in a branch that is taken. -/
def beginIf (resolver : Resolver) (state : State) (line : Nat) (key : List Char) :
    Except Failure State :=
  match state.scope with
  | .active => do
    let (value, state) ← state.evaluate resolver line key
    .ok (state.openScope (if value.isTruthy then .active else .waiting)).noteBlankLine
  | _ => .ok (state.openScope .done).noteBlankLine

/-- Ends the innermost block. -/
def endIf (state : State) (line : Nat) : Except Failure State :=
  match state.scopes with
  | [] => state.fail line (.outsideCondition .endifWord)
  | _ :: scopes => .ok { state with scopes := scopes }.noteBlankLine

/-- Begins a further branch with a condition, which is asked for only if no branch was taken. -/
def beginElif (resolver : Resolver) (state : State) (line : Nat) (key : List Char) :
    Except Failure State :=
  match state.scopes with
  | [] => state.fail line (.outsideCondition .elifWord)
  | .active :: _ => .ok (state.setScope .done).noteBlankLine
  | .waiting :: _ => do
    let (value, state) ← state.evaluate resolver line key
    .ok (state.setScope (if value.isTruthy then .active else .waiting)).noteBlankLine
  | .done :: _ => .ok state

/-- Begins the branch that is taken if no other was. -/
def beginElse (state : State) (line : Nat) : Except Failure State :=
  match state.scopes with
  | [] => state.fail line (.outsideCondition .elseWord)
  | .active :: _ => .ok (state.setScope .done).noteBlankLine
  | .waiting :: _ => .ok (state.setScope .active).noteBlankLine
  | .done :: _ => .ok state

/-- Ends a line of the template. -/
def newline (state : State) : State :=
  if state.scope = .active then state.finishLine else state

/-- Goes to the column remembered last, unless the line is that long already. -/
def goToMark (state : State) (line : Nat) : Except Failure State :=
  match state.alignments with
  | [] => state.fail line .markWithoutPush
  | alignment :: _ => .ok (state.append (alignment.drop state.current.length))

/-- Forgets the column remembered last. -/
def popAlignment (state : State) (line : Nat) : Except Failure State :=
  match state.alignments with
  | [] => state.fail line .popWithoutPush
  | _ :: alignments => .ok { state with alignments := alignments }

/-- Acts on a token in a branch that is taken. Tokens of conditions and newlines do not get here. -/
def act (resolver : Resolver) (state : State) (line : Nat) : Token → Except Failure State
  | .text text => .ok (state.addText text)
  | .expand key => do
    let (value, state) ← state.evaluate resolver line key
    .ok (state.addValue value)
  | .push => .ok { state with alignments := state.context.alignment :: state.alignments }
  | .mark => state.goToMark line
  | .pop => state.popAlignment line
  | _ => .ok state

/-- Goes through one token. -/
def step (resolver : Resolver) (state : State) (placed : Placed) : Except Failure State :=
  let dropped := state.dropNewline
  let state := { state with dropNewline := false }
  match placed.token with
  | .newline => .ok (if dropped then { state with current := [] } else state.newline)
  | .ifKey key => state.beginIf resolver placed.line key
  | .endif => state.endIf placed.line
  | .elifKey key => state.beginElif resolver placed.line key
  | .elseBranch => state.beginElse placed.line
  | token => if state.scope = .active then state.act resolver placed.line token else .ok state

/-- Goes through tokens. -/
def run (resolver : Resolver) (state : State) (tokens : List Placed) : Except Failure State :=
  tokens.foldlM (step resolver) state

end State

/-- What rendering gives, with all questions to the resolver in order. -/
structure Rendering where
  /-- The questions, the failing one included. -/
  calls : List Call
  /-- The lines, or why there are none. -/
  lines : Except Problem (List String)

namespace Rendering

/-- The lines joined by newlines. -/
def text (rendering : Rendering) : Except Problem String :=
  rendering.lines.map ("\n".intercalate ·)

end Rendering

/-- The line of the last token. -/
def lastLine (tokens : List Placed) : Nat :=
  (tokens.getLast?.map (·.line)).getD 1

/-- Renders tokens. Every block has to be closed at the end. -/
def renderTokens (resolver : Resolver) (tokens : List Placed) : Rendering :=
  match State.start.run resolver tokens with
  | .error failure => ⟨failure.calls.reverse, .error failure.problem⟩
  | .ok state =>
    if state.scopes.isEmpty then ⟨state.calls.reverse, .ok state.finished.reverse⟩
    else ⟨state.calls.reverse, .error ⟨lastLine tokens, .openConditions state.scopes.length⟩⟩

/-- Renders a template. -/
def render (resolver : Resolver) (template : String) : Rendering :=
  match tokens template with
  | .error problem => ⟨[], .error problem⟩
  | .ok tokens => renderTokens resolver tokens

end AnnotatedHelp.Template
