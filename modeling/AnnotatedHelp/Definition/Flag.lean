import AnnotatedHelp.Text.Character
import AnnotatedHelp.Text.Token
import AnnotatedHelp.Problem

/-!
# Flags

The text of an option is a sequence of flags, each of which may carry a placeholder, either after
an equals sign or as the following word. A comma at the end of a word is ignored.
-/

namespace AnnotatedHelp.Flag

open Text

/-- Whether a character begins a flag. -/
def isMark (c : Char) : Bool :=
  c == '-' || c == '/'

/-- A text is that of an option when it begins with a flag mark and a character that is no blank. -/
def isOptionText : List Char → Bool
  | mark :: c :: _ => isMark mark && !isBlank c
  | _ => false

/-- A word of the text of an option. -/
inductive Word where
  /-- A flag that carries no placeholder. -/
  | flag (flag : List Char)
  /-- A flag with a placeholder after an equals sign. -/
  | valued (flag placeholder : List Char)
  /-- A word that is no flag. -/
  | plain (word : List Char)
  deriving DecidableEq, Repr

/-- The word without one trailing comma. -/
def dropComma (word : List Char) : List Char :=
  if word.getLast? = some ',' then word.dropLast else word

/-- Tells what a word is. An equals sign separates a placeholder if it is the first one, stands
behind at least two characters, and the word does not begin with `--=`. An empty placeholder is
written `VALUE`. -/
def classify (word : List Char) : Word :=
  if word.head?.any isMark then
    match cut ['='] word with
    | some (flag, placeholder) =>
      if 1 < flag.length && (dropToken? "--=".toList word).isNone then
        .valued flag (if placeholder.isEmpty then "VALUE".toList else placeholder)
      else .flag word
    | none => .flag word
  else .plain word

/-- The words of the text of an option, without trailing commas and empty words. -/
def readWords (text : List Char) : List Word :=
  (((words text).map dropComma).filter (!·.isEmpty)).map classify

/-- Collects the flags and the last placeholder. A plain word is a placeholder where it directly
follows a flag that carries none; elsewhere it is refused. -/
def collect : (afterFlag : Bool) → List Word → Except Problem (List (List Char) × Option (List Char))
  | _, [] => .ok ([], none)
  | _, .flag flag :: rest => do
    let (flags, last) ← collect true rest
    .ok (flag :: flags, last)
  | _, .valued flag placeholder :: rest => do
    let (flags, last) ← collect false rest
    .ok (flag :: flags, last.or (some placeholder))
  | true, .plain word :: rest => do
    let (flags, last) ← collect false rest
    .ok (flags, last.or (some word))
  | false, .plain word :: _ => .error (.strayWord (String.ofList word))

/-- The flags and the placeholder of the text of an option. -/
def parse (text : List Char) : Except Problem (List (List Char) × Option (List Char)) :=
  collect false (readWords text)

/-- A declared flag is legal unless it has more than two characters, begins with a flag mark and
contains an equals sign. -/
def isLegal (flag : List Char) : Bool :=
  flag.length ≤ 2 || !(flag.head?.any isMark && flag.contains '=')

end AnnotatedHelp.Flag
