import AnnotatedHelp.Text.Token

/-!
# Settings

Settings name the tokens that delimit definitions, the table of property names in effect, the rule
that rejects declared defaults and whether a help option is required. Settings may hold any texts
as tokens; `Settings.marks` checks them and gives the tokens in a form that cannot be empty.
-/

namespace AnnotatedHelp

open Text

/-- Which table of property names is in effect. -/
inductive Dialect where
  /-- Names written as one word, and the short forms `del`, `delcount`, `cond` and `vtype`. -/
  | classic
  /-- Names with underscores, and the short forms `mem`, `metavar`, `sep`, `val` and `vals`. -/
  | extended
  deriving DecidableEq, Repr

/-- When a declared default is rejected. -/
inductive DefaultRule where
  /-- When the member has to be given at least once. -/
  | nonZeroMinimum
  /-- When the member is a list. -/
  | listKind
  deriving DecidableEq, Repr

/-- The texts that delimit definitions, as they stand in a settings file. -/
structure Delimiters where
  /-- Opens a definition. -/
  opening : String
  /-- Closes a definition. -/
  closing : String
  /-- Separates the visible text and the properties. -/
  separator : String
  deriving DecidableEq, Repr

/-- The tokens used unless others are given: `$` and a brace, a brace and `$`, and a bar. -/
def Delimiters.standard : Delimiters := ⟨"$\x7b", "\x7d$", "|"⟩

/-- Everything that can be set about reading help texts. -/
structure Settings where
  /-- The texts that delimit definitions. -/
  delimiters : Delimiters
  /-- The table of property names. -/
  dialect : Dialect
  /-- When a declared default is rejected. -/
  defaultRule : DefaultRule
  /-- Whether a document without a help member is rejected. -/
  requireHelp : Bool
  deriving DecidableEq, Repr

/-- The settings used unless others are given. -/
def Settings.standard : Settings := ⟨.standard, .classic, .nonZeroMinimum, false⟩

/-- Why settings cannot be used. -/
inductive SettingsProblem where
  /-- The token that opens a definition is empty. -/
  | emptyOpening
  /-- The token that closes a definition is empty. -/
  | emptyClosing
  /-- The separator is empty. -/
  | emptySeparator
  /-- A definition opens and closes with the same token. -/
  | sameTokens
  deriving DecidableEq, Repr

/-- The sentence that reports the cause. -/
def SettingsProblem.message : SettingsProblem → String
  | emptyOpening => "invalid configuration: definition_start can't be empty"
  | emptyClosing => "invalid configuration: definition_end can't be empty"
  | emptySeparator => "invalid configuration: separator can't be empty"
  | sameTokens => "invalid configuration: definition_start and definition_end must differ"

/-- Tokens that can delimit definitions. -/
structure Marks where
  /-- Opens a definition. -/
  opening : Token
  /-- Closes a definition. -/
  closing : Token
  /-- Separates the visible text and the properties. -/
  separator : Token
  deriving DecidableEq

/-- The tokens of the settings. No token may be empty, and a definition may not open and close
with the same token; the first fault in this order is reported. -/
def Settings.marks (settings : Settings) : Except SettingsProblem Marks :=
  match Token.ofString? settings.delimiters.opening with
  | none => .error .emptyOpening
  | some opening =>
    match Token.ofString? settings.delimiters.closing with
    | none => .error .emptyClosing
    | some closing =>
      match Token.ofString? settings.delimiters.separator with
      | none => .error .emptySeparator
      | some separator =>
        if opening = closing then .error .sameTokens else .ok ⟨opening, closing, separator⟩

/-- Accepts settings whose tokens can delimit definitions. -/
def Settings.validate (settings : Settings) : Except SettingsProblem Unit :=
  settings.marks.map fun _ => ()

end AnnotatedHelp
