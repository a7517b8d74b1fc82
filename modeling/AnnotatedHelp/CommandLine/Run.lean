import AnnotatedHelp.CommandLine.Request
import AnnotatedHelp.CommandLine.Script
import AnnotatedHelp.Query
import AnnotatedHelp.Session
import AnnotatedHelp.Settings.Loaded
import AnnotatedHelp.Template.Rendering

/-!
# Running requests

Every request becomes a script whose result is what the program prints and the code with which it
ends. The settings are loaded first. A command that fails prints one line that begins with `error`
and ends with code one; checking files prints one line for every file before it.
-/

namespace AnnotatedHelp.CommandLine

open Text

/-- What a program prints and how it ends. -/
structure Outcome where
  /-- The code with which the program ends. -/
  code : Nat
  /-- What it prints to the standard output. -/
  out : String
  /-- What it prints to the standard error. -/
  err : String
  deriving DecidableEq, Repr

namespace Outcome

/-- Success with a text to print. -/
def success (out : String) : Outcome := ⟨0, out, ""⟩

/-- Failure with the reason in one line. -/
def failure (reason : String) : Outcome := ⟨1, "", "error: " ++ reason ++ "\n"⟩

/-- The end of a program whose command line is not well formed. -/
def usage : Outcome := ⟨2, "", "error: the command line is not well formed\n"⟩

/-- The version of the program. -/
def version : Outcome := success "helpspec 0.1.0\n"

/-- Success with a text, or failure with a reason. -/
def ofResult : Except String String → Outcome
  | .ok out => success out
  | .error reason => failure reason

end Outcome

/-- A script that may fail with a reason. -/
abbrev Attempt (α : Type) := ExceptT String Script α

namespace Attempt

/-- Goes on after an answer, with the reason of a failure put into words. -/
def orFail {α : Type} (reason : FileFailure → String) (script : Script (Except FileFailure α)) :
    Attempt α :=
  ExceptT.mk do return (← script).mapError reason

/-- Fails unless a result is there. -/
def ofExcept {ε α : Type} (reason : ε → String) (result : Except ε α) : Attempt α :=
  ExceptT.mk (pure (result.mapError reason))

end Attempt

/-- A path between single quotes. -/
def quotedPath (path : String) : String :=
  "'" ++ path ++ "'"

/-- The settings in a file. A file that can be opened but not read counts as malformed. -/
def settingsOfFile : Except FileFailure String → Except LoadProblem Settings
  | .ok text => Settings.load text
  | .error .isDirectory => .error (.malformed FileFailure.isDirectory.message)
  | .error .notText => .error (.malformed FileFailure.notText.message)
  | .error failure => .error (.unreadable failure.message)

namespace SettingsChoice

/-- The settings of a file, changed as the options say. -/
def apply (choice : SettingsChoice) (settings : Settings) : Settings :=
  { settings with
    dialect := choice.dialect.getD settings.dialect
    defaultRule := choice.defaultRule.getD settings.defaultRule
    requireHelp := choice.requireHelp || settings.requireHelp }

/-- Loads the settings. -/
def load (choice : SettingsChoice) : Attempt Settings :=
  match choice.file with
  | none => return choice.apply .standard
  | some file => do
    let content ← ExceptT.lift (Script.read file)
    let settings ← Attempt.ofExcept
      (fun problem => "Failed to load config " ++ quotedPath file ++ ": " ++ problem.message)
      (settingsOfFile content)
    return choice.apply settings

end SettingsChoice

/-- Reads a help file. -/
def documentOf (settings : Settings) (file : String) : Script (Except Diagnostic Document) := do
  let content ← Script.read file
  return Document.ofFile settings file (content.mapError (·.message))

/-- Reads a help file, or the standard input if the file is named by a dash. -/
def readDocument (settings : Settings) (file : String) : Attempt Document :=
  if isName file "-" then do
    let text ← Attempt.orFail (fun failure => "Failed to read stdin: " ++ failure.message)
      Script.input
    Attempt.ofExcept (·.text) (Document.parse settings text)
  else do
    let document ← ExceptT.lift (documentOf settings file)
    Attempt.ofExcept (·.text) document

/-- The line that reports that a help file is in order. -/
def acceptedLine (file : String) (document : Document) : String :=
  "ok: " ++ file ++ " (" ++ document.members.length.repr ++ " members)\n"

/-- What checking files has found. -/
structure CheckReport where
  /-- The lines about files in order. -/
  out : String
  /-- The lines about files with failures. -/
  err : String
  /-- The number of files with failures. -/
  failures : Nat
  deriving DecidableEq, Repr

namespace CheckReport

/-- Nothing was checked. -/
def empty : CheckReport := ⟨"", "", 0⟩

/-- Adds a file. -/
def add (report : CheckReport) (file : String) : Except Diagnostic Document → CheckReport
  | .ok document => { report with out := report.out ++ acceptedLine file document }
  | .error diagnostic =>
    { report with
      err := report.err ++ diagnostic.text ++ "\n"
      failures := report.failures + 1 }

/-- The end of the program after checking a number of files. -/
def outcome (report : CheckReport) (total : Nat) : Outcome :=
  if report.failures = 0 then ⟨0, report.out, report.err⟩
  else
    ⟨1, report.out, report.err ++ "error: " ++ report.failures.repr ++ " of " ++ total.repr ++
      " help files failed\n"⟩

end CheckReport

/-- Checks files one after another. -/
def checkFiles (settings : Settings) : CheckReport → List String → Script CheckReport
  | report, [] => return report
  | report, file :: files => do
    let result ← documentOf settings file
    checkFiles settings (report.add file result) files

/-- Renders a template for a help file. -/
def renderFile (settings : Settings) (input template : String) : Attempt String := do
  let document ← readDocument settings input
  let text ← Attempt.orFail
    (fun failure => "Failed to read " ++ quotedPath template ++ ": " ++ failure.message)
    (Script.read template)
  Attempt.ofExcept (fun problem => template ++ ": " ++ problem.message)
    (Template.render document.resolver text).text

/-- Writes a text to a file. -/
def saveText (describe : FileFailure → String) (file text : String) : Attempt Unit :=
  Attempt.orFail
    (fun failure => "Failed to write " ++ quotedPath file ++ ": " ++ describe failure)
    (Script.write file text)

/-- The end of the program after an attempt: its text is printed, or its failure reported. -/
def Attempt.outcome (attempt : Attempt String) : Script Outcome := do
  return Outcome.ofResult (← attempt.run)

namespace Command

/-- Runs a command. -/
def run (settings : Settings) : Command → Script Outcome
  | parse input format => Attempt.outcome do
    let document ← readDocument settings input
    return String.ofList (trimEnd (document.format format).toList) ++ "\n"
  | text input => Attempt.outcome do
    return (← readDocument settings input).text
  | check inputs => do
    let report ← checkFiles settings .empty inputs
    return report.outcome inputs.length
  | render input template none => Attempt.outcome do
    return (← renderFile settings input template) ++ "\n"
  | render input template (some output) => Attempt.outcome do
    let rendered ← renderFile settings input template
    saveText FileFailure.message output (rendered ++ "\n")
    return ""
  | initConfig output => Attempt.outcome do
    saveText (fun failure => (LoadProblem.unreadable failure.message).message) output
      settings.saved
    return "wrote " ++ output ++ "\n"

end Command

namespace Request

/-- Runs a request. -/
def run : Request → Script Outcome
  | .version => return Outcome.version
  | .command choice task => do
    match ← choice.load.run with
    | .error reason => return Outcome.failure reason
    | .ok settings => task.run settings

end Request

/-- Runs the program with the words of its command line. -/
def runArgs (args : List String) : Script Outcome :=
  match Request.ofArgs? args with
  | none => return Outcome.usage
  | some request => request.run

end AnnotatedHelp.CommandLine
