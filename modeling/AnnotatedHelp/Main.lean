import AnnotatedHelp.CommandLine.Run

/-!
# The program

The outer layer: scripts are run on the files and the standard input of the system, what they print
is printed, and the program ends with their code.
-/

namespace AnnotatedHelp.CommandLine

/-- The failure that the system reports. The code of a failure may come with a minus sign. -/
def failureOf : IO.Error → FileFailure
  | .noFileOrDirectory .. => .notFound
  | .inappropriateType _ code _ =>
    if code = 20 ∨ 0 - code = 20 then .notDirectory else .isDirectory
  | .invalidArgument (some file) code details =>
    if code = 36 ∨ 0 - code = 36 then .nameTooLong
    else .other (IO.Error.invalidArgument (some file) code details).toString
  | error => .other error.toString

/-- The text that bytes stand for. -/
def decode (bytes : ByteArray) : Except FileFailure String :=
  match String.fromUTF8? bytes with
  | some text => .ok text
  | none => .error .notText

/-- Runs an action and gives its failure as a value. -/
def catchFailure {α : Type} (action : IO α) : IO (Except FileFailure α) :=
  try return .ok (← action) catch error => return .error (failureOf error)

/-- Reads a file of the system. -/
def readSystemFile (path : String) : IO (Except FileFailure String) := do
  return (← catchFailure (IO.FS.readBinFile path)).bind decode

/-- Reads the standard input up to its end. -/
def readSystemInput : IO (Except FileFailure String) := do
  let input ← IO.getStdin
  return (← catchFailure input.readBinToEnd).bind decode

/-- Runs a script on the system. -/
def Script.perform {α : Type} : Script α → IO α
  | .done result => return result
  | .readFile path next => do (next (← readSystemFile path)).perform
  | .readInput next => do (next (← readSystemInput)).perform
  | .writeFile path text next => do
    (next (← catchFailure (IO.FS.writeFile path text))).perform

end AnnotatedHelp.CommandLine

/-- Runs the program. -/
def main (args : List String) : IO UInt32 := do
  let outcome ← (AnnotatedHelp.CommandLine.runArgs args).perform
  IO.print outcome.out
  IO.eprint outcome.err
  return UInt32.ofNat outcome.code
