import AnnotatedHelp.CommandLine.FileTree

/-!
# Scripts

A script is what a command asks of the world: to read a file, to read the standard input, to write a
file. It is a value that says what is asked next, depending on the answers so far, and can be run on
a tree of files in memory as well as on the system.
-/

namespace AnnotatedHelp.CommandLine

/-- A sequence of questions with a result. -/
inductive Script (α : Type) where
  /-- Nothing more is asked. -/
  | done (result : α)
  /-- Asks for the text of a file. -/
  | readFile (path : String) (next : Except FileFailure String → Script α)
  /-- Asks for the text of the standard input. -/
  | readInput (next : Except FileFailure String → Script α)
  /-- Asks for a text to be written to a file. -/
  | writeFile (path text : String) (next : Except FileFailure Unit → Script α)

namespace Script

/-- Goes on with another script that depends on the result. -/
def bind {α β : Type} : Script α → (α → Script β) → Script β
  | done result, next => next result
  | readFile path answer, next => readFile path fun content => (answer content).bind next
  | readInput answer, next => readInput fun content => (answer content).bind next
  | writeFile path text answer, next => writeFile path text fun written => (answer written).bind next

instance : Monad Script where
  pure := done
  bind := bind

/-- Reads a file. -/
def read (path : String) : Script (Except FileFailure String) :=
  readFile path done

/-- Reads the standard input. -/
def input : Script (Except FileFailure String) :=
  readInput done

/-- Writes a file. -/
def write (path text : String) : Script (Except FileFailure Unit) :=
  writeFile path text done

/-- Runs a script on files in memory and a text as the standard input. The second component holds
the files afterwards. -/
def run {α : Type} (tree : FileTree) (input : String) : Script α → α × FileTree
  | done result => (result, tree)
  | readFile path next => (next (tree.read path)).run tree input
  | readInput next => (next (.ok input)).run tree ""
  | writeFile path text next =>
    match tree.write path text with
    | .error failure => (next (.error failure)).run tree input
    | .ok tree => (next (.ok ())).run tree input

end Script

end AnnotatedHelp.CommandLine
