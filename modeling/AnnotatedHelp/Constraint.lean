import AnnotatedHelp.Text.Character
import AnnotatedHelp.Text.Token

/-!
# Constraints on values

A list of constraints is a sequence of words. A word in quotes, and a word without `..`, is an
exact literal; any other word is a range with an upper limit, a lower limit or both. A round
bracket excludes its limit and a square bracket, or none, includes it: `[0..10)` admits 0 and not
10. Blanks inside quotes do not end a word. Beside the reader stands the writer `Constraint.text`.
-/

namespace AnnotatedHelp

open Text

/-- One end of a range of values. -/
structure Limit where
  /-- The literal as written. -/
  literal : String
  /-- Whether the literal itself is admitted. -/
  inclusive : Bool
  deriving DecidableEq, Repr

/-- One constraint on the values of a member. -/
inductive Constraint where
  /-- This literal alone. -/
  | exact (literal : String)
  /-- The values between the limits that are present. -/
  | range (lower upper : Option Limit)
  deriving DecidableEq, Repr

/-- Why a text is not a list of constraints. -/
inductive ConstraintError where
  /-- A quote is left open in this last word. -/
  | unterminatedQuote (word : String)
  /-- This word is a range without limits. -/
  | emptyRange (word : String)
  deriving DecidableEq, Repr

/-- The sentence that reports the cause. -/
def ConstraintError.message : ConstraintError → String
  | unterminatedQuote word => "values contain an unterminated string: " ++ word
  | emptyRange word => "range without limits in values: \"" ++ word ++ "\""

namespace Constraint

/-- The fields of a text between the blanks outside quotes, some of them empty, and whether the
text ends inside quotes. The first argument tells whether it starts there. -/
def quotedFields : Bool → List Char → List (List Char) × Bool
  | inside, [] => ([[]], inside)
  | inside, c :: text =>
    if isBlank c && !inside then
      let (fields, final) := quotedFields inside text
      ([] :: fields, final)
    else
      let (fields, final) := quotedFields (if c = '"' then !inside else inside) text
      (beforeFirst [c] fields, final)

/-- The words of a list of constraints. -/
def readWords (text : List Char) : Except ConstraintError (List (List Char)) :=
  match quotedFields false text with
  | (fields, true) => .error (.unterminatedQuote (String.ofList (fields.getLastD [])))
  | (fields, false) => .ok (fields.filter (!·.isEmpty))

/-- A word that begins and ends with a quote and has no other. -/
def isQuoted (word : List Char) : Bool :=
  word.head? == some '"' && word.getLast? == some '"' && word.count '"' == 2

/-- Whether a character opens a range. -/
def isOpening (c : Char) : Bool :=
  c == '[' || c == '('

/-- Whether a character closes a range. -/
def isClosing (c : Char) : Bool :=
  c == ']' || c == ')'

/-- The limit before `..`: opening brackets are dropped, and a first `(` excludes the literal. -/
def lowerLimit? (text : List Char) : Option Limit :=
  match text.dropWhile isOpening with
  | [] => none
  | literal => some ⟨String.ofList literal, text.head? != some '('⟩

/-- The limit after `..`: closing brackets are dropped, and a last `)` excludes the literal. -/
def upperLimit? (text : List Char) : Option Limit :=
  match (text.reverse.dropWhile isClosing).reverse with
  | [] => none
  | literal => some ⟨String.ofList literal, text.getLast? != some ')'⟩

/-- Reads one word. -/
def ofWord (word : List Char) : Except ConstraintError Constraint :=
  if isQuoted word then .ok (.exact (String.ofList word))
  else match cut "..".toList word with
    | none => .ok (.exact (String.ofList word))
    | some (before, after) =>
      match lowerLimit? before, upperLimit? after with
      | none, none => .error (.emptyRange (String.ofList word))
      | lower, upper => .ok (.range lower upper)

/-- Reads a list of constraints; the first word that is not one decides the error. -/
def parseList (text : String) : Except ConstraintError (List Constraint) := do
  let words ← readWords text.toList
  words.mapM ofWord

/-- Every literal that the constraint mentions. -/
def literals : Constraint → List String
  | exact literal => [literal]
  | range lower upper => (lower.toList ++ upper.toList).map (·.literal)

/-- The lowest admitted literal, where the constraint names one that it admits. -/
def inclusiveLower? : Constraint → Option String
  | exact literal => some literal
  | range (some limit) _ => if limit.inclusive then some limit.literal else none
  | range none _ => none

/-- The constraint in the form in which it is read. -/
def text : Constraint → String
  | exact literal => literal
  | range lower upper =>
    let before := match lower with
      | some limit => (if limit.inclusive then "[" else "(") ++ limit.literal
      | none => ""
    let after := match upper with
      | some limit => limit.literal ++ (if limit.inclusive then "]" else ")")
      | none => ""
    before ++ ".." ++ after

end Constraint

end AnnotatedHelp
