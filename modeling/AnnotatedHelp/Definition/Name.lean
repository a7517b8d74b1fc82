import AnnotatedHelp.Text.Character

/-!
# Names made from text

A definition that declares no member name gets one from its flags or from its text: the runs of
characters that a name may contain, joined by underscores. Where nothing is left, a numbered name
takes its place.
-/

namespace AnnotatedHelp.Name

open Text

/-- The punctuation that cannot be part of a name. The backslash, the bar, the tilde and the
underscore are not among it. -/
def punctuation : List Char :=
  "'!\"#$%&/()=?+*@.:,;<>^\x60-[]\x7b\x7d".toList

/-- Whether a character separates the parts of a name. -/
def isSeparator (c : Char) : Bool :=
  isBlank c || punctuation.contains c

/-- The parts of a text that a name may contain. -/
def parts (text : List Char) : List (List Char) :=
  (text.splitOnP isSeparator).filter (!·.isEmpty)

/-- The parts of a text joined by underscores. -/
def ofText (text : List Char) : List Char :=
  ['_'].intercalate (parts text)

/-- Looks through flags for the name of an option. `best` is the name found so far: a name of at
least two characters is kept, a shorter one gives way to the first longer one. -/
def ofFlagsFrom (number : Nat) (best : List Char) : List (List Char) → List Char
  | [] => if best.isEmpty then ("option_" ++ number.repr).toList else best
  | flag :: flags =>
    if flag = "-?".toList ∨ flag = "/?".toList then "help".toList
    else if flag = "--".toList then "end_of_options".toList
    else
      let candidate := ofText flag
      if best.isEmpty || (best.length ≤ 1 && 1 < candidate.length) then
        ofFlagsFrom number candidate flags
      else ofFlagsFrom number best flags

/-- The name of an option with these flags, the `number`-th option of the session. -/
def ofFlags (number : Nat) (flags : List (List Char)) : List Char :=
  ofFlagsFrom number [] flags

/-- The placeholder of a positional argument: its text, or a numbered one. -/
def placeholder (number : Nat) (text : List Char) : List Char :=
  if text.isEmpty then ("arg " ++ number.repr).toList else text

/-- The name of a positional argument, the `number`-th of the session. -/
def ofPositional (number : Nat) (text : List Char) : List Char :=
  match ofText (placeholder number text) with
  | [] => ("arg_" ++ number.repr).toList
  | name => name

end AnnotatedHelp.Name
