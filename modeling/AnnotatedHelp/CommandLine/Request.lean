import AnnotatedHelp.Output
import AnnotatedHelp.Settings.Saved

/-!
# Requests

The words of a command line are read into a request: a command with its files and options. Options
that hold for every command may stand before or behind the name of the command, and the one behind
it counts. An option may be given once at each of the two places. A value stands behind an equals
sign or is the next word; in the second case it may not look like an option.
-/

namespace AnnotatedHelp.CommandLine

/-- An option. -/
inductive OptionName where
  /-- The settings file. -/
  | config
  /-- The table of property names. -/
  | dialect
  /-- The rule that rejects declared defaults. -/
  | defaultRule
  /-- Asks for a help member. -/
  | requireHelp
  /-- Asks for more reports. -/
  | verbose
  /-- The form of the printed document. -/
  | format
  /-- The template file. -/
  | template
  /-- The file to write to. -/
  | output
  deriving DecidableEq, Repr

namespace OptionName

/-- The options that hold for every command. -/
def shared : List OptionName := [.config, .dialect, .defaultRule, .requireHelp, .verbose]

/-- The name of an option behind its two dashes. -/
def long : OptionName → String
  | config => "config"
  | dialect => "dialect"
  | defaultRule => "default-rule"
  | requireHelp => "require-help"
  | verbose => "verbose"
  | format => "format"
  | template => "template"
  | output => "output"

/-- Whether the option has a value. -/
def hasValue : OptionName → Bool
  | requireHelp | verbose => false
  | config | dialect | defaultRule | format | template | output => true

/-- The name of a rule on the command line. -/
def ruleName : DefaultRule → String
  | .nonZeroMinimum => "non-zero-minimum"
  | .listKind => "list-kind"

/-- Whether a text is a value of the option. A file has to have a name. -/
def accepts (option : OptionName) (value : String) : Bool :=
  match option with
  | dialect => Dialect.all.any (·.name == value)
  | defaultRule => DefaultRule.all.any (ruleName · == value)
  | format => OutputFormat.all.any (·.name == value)
  | config | template | output => value != ""
  | requireHelp | verbose => true

end OptionName

/-- The names of the commands. -/
inductive CommandName where
  /-- Prints the model of a help file. -/
  | parse
  /-- Prints the help text that users see. -/
  | text
  /-- Reports the first failure of every help file. -/
  | check
  /-- Renders a template. -/
  | render
  /-- Writes a settings file. -/
  | initConfig
  deriving DecidableEq, Repr

namespace CommandName

/-- Every command. -/
def all : List CommandName := [.parse, .text, .check, .render, .initConfig]

/-- The word that names the command. -/
def word : CommandName → String
  | parse => "parse"
  | text => "text"
  | check => "check"
  | render => "render"
  | initConfig => "init-config"

/-- The options that the command knows. -/
def options : CommandName → List OptionName
  | parse => .format :: OptionName.shared
  | text | check | initConfig => OptionName.shared
  | render => .template :: .output :: OptionName.shared

end CommandName

/-- A command with its files. -/
inductive Command where
  /-- Prints the model of a help file in a form. -/
  | parse (input : String) (format : OutputFormat)
  /-- Prints the help text that users see. -/
  | text (input : String)
  /-- Reports the first failure of every help file. -/
  | check (inputs : List String)
  /-- Renders a template, to a file or to the standard output. -/
  | render (input template : String) (output : Option String)
  /-- Writes a settings file. -/
  | initConfig (output : String)
  deriving DecidableEq, Repr

/-- What the options say about the settings. -/
structure SettingsChoice where
  /-- The settings file. -/
  file : Option String
  /-- The table of property names. -/
  dialect : Option Dialect
  /-- The rule that rejects declared defaults. -/
  defaultRule : Option DefaultRule
  /-- Whether a help member is required. -/
  requireHelp : Bool
  deriving DecidableEq, Repr

/-- What a command line asks for. -/
inductive Request where
  /-- The version of the program. -/
  | version
  /-- To run a command. -/
  | command (choice : SettingsChoice) (command : Command)
  deriving DecidableEq, Repr

/-- Why a command line cannot be read, or need not be read further. -/
inductive Stop where
  /-- The command line is not well formed. -/
  | usage
  /-- The version is asked for. -/
  | version
  deriving DecidableEq, Repr

/-- The options and the other words of a part of a command line. -/
structure Words where
  /-- The options with their values, latest first. -/
  options : List (OptionName × String)
  /-- The other words, in order. -/
  plain : List String
  deriving DecidableEq, Repr

namespace Words

/-- Nothing. -/
def empty : Words := ⟨[], []⟩

/-- Adds an option, which may not be there yet. -/
def addOption (option : OptionName) (value : String) (words : Words) : Except Stop Words :=
  if (words.options.lookup option).isSome || !option.accepts value then .error .usage
  else .ok { words with options := (option, value) :: words.options }

/-- Adds the letters behind a single dash. -/
def addLetters (isFirstPart : Bool) : List Char → Words → Except Stop Words
  | [], words => .ok words
  | 'v' :: letters, words => do
    addLetters isFirstPart letters (← words.addOption .verbose "")
  | 'V' :: _, _ => .error (if isFirstPart then .version else .usage)
  | _ :: _, _ => .error .usage

end Words

/-- Whether a word looks like an option. A single dash does not. -/
def looksLikeOption (word : String) : Bool :=
  match word.toList with
  | '-' :: _ :: _ => true
  | _ => false

/-- The name of an option behind two dashes, and the value behind an equals sign. -/
def splitOption (word : List Char) : String × Option String :=
  let name := word.takeWhile (· != '=')
  match word.drop name.length with
  | [] => (String.ofList name, none)
  | _ :: value => (String.ofList name, some (String.ofList value))

/-- Reads a part of a command line. The first part, before the name of the command, ends with the
first word that is no option; the words behind it are left. -/
def readWords (isFirstPart : Bool) (known : List OptionName) (words : Words) :
    List String → Except Stop (Words × List String)
  | [] => .ok (words, [])
  | word :: rest =>
    match word.toList with
    | '-' :: '-' :: [] =>
      if isFirstPart then .error .usage else .ok ({ words with plain := words.plain ++ rest }, [])
    | '-' :: '-' :: body =>
      let (name, value?) := splitOption body
      match known.find? (·.long == name) with
      | none =>
        .error (if isFirstPart && name == "version" && value?.isNone then .version else .usage)
      | some option =>
        match option.hasValue, value?, rest with
        | true, some value, rest => do
          readWords isFirstPart known (← words.addOption option value) rest
        | true, none, value :: rest =>
          if looksLikeOption value then .error .usage
          else do readWords isFirstPart known (← words.addOption option value) rest
        | true, none, [] => .error .usage
        | false, none, rest => do
          readWords isFirstPart known (← words.addOption option "") rest
        | false, some _, _ => .error .usage
    | '-' :: c :: letters => do
      readWords isFirstPart known (← words.addLetters isFirstPart (c :: letters)) rest
    | _ =>
      if isFirstPart then .ok ({ words with plain := [word] }, rest)
      else readWords isFirstPart known { words with plain := words.plain ++ [word] } rest

namespace Request

/-- What the options say about the settings. -/
def choiceOf (options : List (OptionName × String)) : SettingsChoice where
  file := options.lookup .config
  dialect := (options.lookup .dialect).bind fun value => Dialect.all.find? (·.name == value)
  defaultRule := (options.lookup .defaultRule).bind fun value =>
    DefaultRule.all.find? (OptionName.ruleName · == value)
  requireHelp := (options.lookup .requireHelp).isSome

/-- The command of a name with its options and words. Words that name files may not be empty. -/
def commandOf (name : CommandName) (options : List (OptionName × String)) (files : List String) :
    Except Stop Command :=
  if files.contains "" then .error .usage
  else match name, files with
    | .parse, [input] =>
      let named := (options.lookup .format).bind fun value => OutputFormat.all.find? (·.name == value)
      .ok (.parse input (named.getD .json))
    | .text, [input] => .ok (.text input)
    | .check, input :: inputs => .ok (.check (input :: inputs))
    | .render, [input] =>
      match options.lookup .template with
      | some template => .ok (.render input template (options.lookup .output))
      | none => .error .usage
    | .initConfig, [output] => .ok (.initConfig output)
    | _, _ => .error .usage

/-- Reads the words of a command line. -/
def read (args : List String) : Except Stop Request := do
  let (first, rest) ← readWords true OptionName.shared .empty args
  match first.plain with
  | [word] =>
    match CommandName.all.find? (·.word == word) with
    | none => .error .usage
    | some name =>
      let (second, _) ← readWords false name.options .empty rest
      let options := second.options ++ first.options
      .ok (.command (choiceOf options) (← commandOf name options second.plain))
  | _ => .error .usage

/-- What a command line asks for; `none` if it is not well formed. -/
def ofArgs? (args : List String) : Option Request :=
  match read args with
  | .ok request => some request
  | .error .version => some .version
  | .error .usage => none

end Request

end AnnotatedHelp.CommandLine
