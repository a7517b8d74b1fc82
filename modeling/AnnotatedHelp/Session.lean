import AnnotatedHelp.Deduction.Members
import AnnotatedHelp.Model.Document

/-!
# Reading documents

A session reads help texts one after another under the same settings. All it keeps from one text to
the next are the counters that number definitions without a name of their own, and these also keep
what a refused text has used up.
-/

namespace AnnotatedHelp

namespace Document

/-- Reads a help text, numbering its definitions from the counters on. The second component holds
the counters afterwards. -/
def read (settings : Settings) (counters : Counters) (text : String) :
    Except Diagnostic Document × Counters :=
  match settings.marks with
  | .error problem => (.error (Problem.unusableSettings problem).diagnostic, counters)
  | .ok marks =>
    match Annotated.scan marks text with
    | .error diagnostic => (.error diagnostic, counters)
    | .ok annotated =>
      match Draft.ofBlocks marks settings.dialect counters 0 annotated.blocks with
      | (.error diagnostic, counters) => (.error diagnostic, counters)
      | (.ok drafts, counters) =>
        match Member.deduce settings drafts with
        | .error diagnostic => (.error diagnostic, counters)
        | .ok members =>
          (.ok ⟨String.ofList annotated.text, members, annotated.visibleLines⟩, counters)

/-- Reads a help text on its own. -/
def parse (settings : Settings) (text : String) : Except Diagnostic Document :=
  (read settings .zero text).1

/-- Reads what a file holds, or reports why it cannot be read. Failures name the file. -/
def ofFile (settings : Settings) (file : String) (content : Except String String) :
    Except Diagnostic Document :=
  match content with
  | .error reason => .error ((Problem.unreadable reason).diagnostic.withFile file)
  | .ok text => (parse settings text).mapError (·.withFile file)

/-- Reads help texts one after another; every result comes with the counters after it. -/
def readAll (settings : Settings) (counters : Counters) :
    List String → List (Except Diagnostic Document × Counters)
  | [] => []
  | text :: texts =>
    let result := read settings counters text
    result :: readAll settings result.2 texts

end Document

end AnnotatedHelp
