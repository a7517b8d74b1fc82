import AnnotatedHelp.Text.Numeral
import AnnotatedHelp.Yaml.Value

/-!
# What plain scalars mean

A plain scalar may stand for null, a truth value, an integer or a decimal number. A string that
looks like one of these is written in quotes, so that it is read as a string again. Digits with a
leading zero are no number, but are written in quotes as well.
-/

namespace AnnotatedHelp.Yaml

open Text

/-- Whether a plain scalar stands for null. -/
def isNull (text : String) : Bool :=
  ["", "null", "Null", "NULL", "~"].contains text

/-- The truth value that a plain scalar stands for. -/
def bool? (text : String) : Option Bool :=
  if ["true", "True", "TRUE"].contains text then some true
  else if ["false", "False", "FALSE"].contains text then some false
  else none

/-- The value of a digit below a base of at most sixteen. -/
def digitBelow? (base : Nat) (c : Char) : Option Nat :=
  let value :=
    if c.isDigit then some (c.toNat - 48)
    else if 'a' ≤ c ∧ c ≤ 'f' then some (c.toNat - 87)
    else if 'A' ≤ c ∧ c ≤ 'F' then some (c.toNat - 55)
    else none
  value.filter (· < base)

/-- Reads a nonempty run of digits in a base. -/
def digits? (base : Nat) (text : List Char) : Option Nat :=
  if text.isEmpty then none
  else text.foldlM (fun n c => (digitBelow? base c).map (n * base + ·)) 0

/-- Digits with a leading zero, after an optional sign. -/
def isZeroPadded (text : List Char) : Bool :=
  match dropSign text with
  | '0' :: c :: rest => (c :: rest).all Char.isDigit
  | _ => false

/-- Reads a numeral whose base is marked by `0x`, `0o` or `0b`. -/
def marked? (text : List Char) : Option Nat :=
  match text with
  | '0' :: 'x' :: digits => digits? 16 digits
  | '0' :: 'o' :: digits => digits? 8 digits
  | '0' :: 'b' :: digits => digits? 2 digits
  | _ => none

/-- Reads an integer: an optional sign and digits, or a numeral with a marked base. -/
def integer? (text : List Char) : Option Int :=
  let decimal (digits : List Char) := if isZeroPadded text then none else digits? 10 digits
  match text with
  | '+' :: rest => ((marked? rest).or (decimal rest)).map Int.ofNat
  | '-' :: rest => ((marked? rest).or (decimal rest)).map fun n => -Int.ofNat n
  | rest => ((marked? rest).or (decimal rest)).map Int.ofNat

/-- Whether a text is an integer of at most a hundred and twenty-eight bits. -/
def isInteger (text : List Char) : Bool :=
  (integer? text).any fun n => -Int.ofNat (wordCount 127) ≤ n && n < Int.ofNat (wordCount 128)

/-- Whether a text is a decimal number: infinity and the undefined value as YAML writes them, or a
finite number with digits. -/
def isFloat (text : List Char) : Bool :=
  let unsigned := match text with
    | '+' :: rest => rest
    | rest => rest
  [".inf", ".Inf", ".INF"].contains (String.ofList unsigned) ||
    ["-.inf", "-.Inf", "-.INF", ".nan", ".NaN", ".NAN"].contains (String.ofList text) ||
    (decimal? (dropSign text)).any (·.isFinite)

/-- Whether a string has to be told apart from a value of another type. -/
def needsQuotes (text : String) : Bool :=
  isNull text || (bool? text).isSome || isInteger text.toList || isZeroPadded text.toList ||
    isFloat text.toList

/-- The style in which a string is to be written. -/
def styleOf (text : String) : Style :=
  if text.toList.contains '\n' then .literal
  else if needsQuotes text then .single
  else .plain

/-- A string. -/
def string (text : String) : Yaml :=
  .scalar (styleOf text) text.toList

/-- A single character, which is always quoted. -/
def char (c : Char) : Yaml :=
  .scalar .single [c]

end AnnotatedHelp.Yaml
