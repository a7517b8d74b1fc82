import AnnotatedHelp.Text.Character
import AnnotatedHelp.Text.Token
import AnnotatedHelp.Template.Problem

/-!
# Tokens of a template

A template is cut into lines, and every line into text and directives between triple brackets. A
directive has to be closed on the line on which it is opened. Every line ends with a newline token,
the last one too.
-/

namespace AnnotatedHelp.Template

open Text

/-- A piece of a template. -/
inductive Token where
  /-- Text that is shown as it is. -/
  | text (text : List Char)
  /-- The end of a line. -/
  | newline
  /-- A key to expand, with its arguments. -/
  | expand (key : List Char)
  /-- Begins a condition. -/
  | ifKey (key : List Char)
  /-- Begins a further branch with a condition. -/
  | elifKey (key : List Char)
  /-- Begins the branch taken when no condition holds. -/
  | elseBranch
  /-- Ends a condition. -/
  | endif
  /-- Remembers the current column. -/
  | push
  /-- Goes to the remembered column. -/
  | mark
  /-- Forgets the remembered column. -/
  | pop
  deriving DecidableEq, Repr

/-- A token and the line it stands on. -/
structure Placed where
  /-- The line of the template, from one. -/
  line : Nat
  /-- The token. -/
  token : Token
  deriving DecidableEq, Repr

/-- Opens a directive. -/
def directiveStart : Text.Token := ⟨"[[[".toList, by decide⟩

/-- Closes a directive. -/
def directiveEnd : Text.Token := ⟨"]]]".toList, by decide⟩

/-- Tells what a directive is whose body, without outer blanks, is none of the fixed forms. -/
def classifyKey (body : List Char) : Except Cause Token :=
  match dropToken? "IF ".toList body with
  | some key => .ok (.ifKey (trim key))
  | none =>
    match dropToken? "ELIF ".toList body with
    | some key => .ok (.elifKey (trim key))
    | none =>
      let name := body.takeWhile (· != '(')
      if name.any isBlank then
        let word := String.ofList ((words name).headD [])
        if word = "ELSE" then .error (.extraArgument .elseWord)
        else if word = "ENDIF" then .error (.extraArgument .endifWord)
        else .error (.unknownKeyword word)
      else .ok (.expand body)

/-- Tells what a directive is. -/
def classify (body : List Char) : Except Cause Token :=
  match String.ofList (trim body) with
  | ">" => .ok .push
  | "|" => .ok .mark
  | "<" => .ok .pop
  | "ELSE" => .ok .elseBranch
  | "ENDIF" => .ok .endif
  | "IF" => .error (.missingKey .ifWord)
  | "ELIF" => .error (.missingKey .elifWord)
  | "" => .error (.malformedKey (String.ofList body))
  | _ => classifyKey (trim body)

/-- A text token, unless the text is empty. -/
def textToken (text : List Char) : List Token :=
  if text.isEmpty then [] else [.text text]

/-- The tokens of one line, without its newline. -/
def lineTokens (text : List Char) : Except Cause (List Token) :=
  match ho : cut directiveStart.chars text with
  | none => .ok (textToken text)
  | some (before, opened) =>
    match hc : cut directiveEnd.chars opened with
    | none => .error .unterminated
    | some (body, rest) =>
      have : rest.length < text.length :=
        Nat.lt_trans (directiveEnd.length_lt_of_cut hc) (directiveStart.length_lt_of_cut ho)
      do
        let directive ← classify body
        let tokens ← lineTokens rest
        .ok (textToken before ++ directive :: tokens)
termination_by text.length

/-- The tokens of lines, the first of which has the given number. -/
def tokensFrom (line : Nat) : List (List Char) → Except Problem (List Placed)
  | [] => .ok []
  | text :: texts => do
    let tokens ← (lineTokens text).mapError (Problem.mk line)
    let rest ← tokensFrom (line + 1) texts
    .ok ((tokens ++ [Token.newline]).map (Placed.mk line) ++ rest)

/-- The tokens of a template. -/
def tokens (template : String) : Except Problem (List Placed) :=
  tokensFrom 1 (splitAll '\n' template.toList)

end AnnotatedHelp.Template
