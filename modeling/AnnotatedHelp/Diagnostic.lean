import AnnotatedHelp.Text.Numeral

/-!
# Diagnostics

A diagnostic is a failure as it is shown to the author of a help file: a category, a sentence, the
lines of the definitions it concerns and the name of the file. Reading stops at the first failure,
so a document has at most one diagnostic. Lines are kept in ascending order without repetition.
-/

namespace AnnotatedHelp

/-- What sort of rule was broken. -/
inductive Category where
  /-- A definition is not closed, or a property has no colon. -/
  | malformedDefinition
  /-- A property name is unknown. -/
  | unknownProperty
  /-- Flags cannot be told apart. -/
  | illegalFlagSyntax
  /-- A kind or a value type has an unknown name. -/
  | illegalTypeValue
  /-- A quoted literal is not closed. -/
  | missingClosingToken
  /-- The value of a property is malformed. -/
  | invalidPropertyValue
  /-- Two properties, or two definitions, contradict each other. -/
  | conflictingProperty
  /-- Options of one member declare different counts. -/
  | conflictingCount
  /-- No value type fits all literals of a member. -/
  | ambiguousOrInvalidType
  /-- A default is not allowed, or has too few parts. -/
  | illegalDefaultValue
  /-- A property that is required is missing or empty. -/
  | missingRequiredProperty
  /-- An index is no number, or is out of range. -/
  | invalidIndex
  /-- Two positional arguments have one index. -/
  | duplicateIndex
  /-- The file could not be read. -/
  | unreadable
  deriving DecidableEq, Repr

namespace Category

/-- Every category. -/
def all : List Category :=
  [.malformedDefinition, .unknownProperty, .illegalFlagSyntax, .illegalTypeValue,
    .missingClosingToken, .invalidPropertyValue, .conflictingProperty, .conflictingCount,
    .ambiguousOrInvalidType, .illegalDefaultValue, .missingRequiredProperty, .invalidIndex,
    .duplicateIndex, .unreadable]

/-- The category in words. -/
def text : Category → String
  | malformedDefinition => "malformed definition"
  | unknownProperty => "unknown property"
  | illegalFlagSyntax => "illegal flag syntax"
  | illegalTypeValue => "illegal type value"
  | missingClosingToken => "missing closing token"
  | invalidPropertyValue => "invalid property value"
  | conflictingProperty => "conflicting property"
  | conflictingCount => "conflicting count"
  | ambiguousOrInvalidType => "ambiguous or invalid type"
  | illegalDefaultValue => "illegal default value"
  | missingRequiredProperty => "missing required property"
  | invalidIndex => "invalid index"
  | duplicateIndex => "duplicate index"
  | unreadable => "I/O error"

end Category

/-- A failure with the places it concerns. -/
structure Diagnostic where
  /-- What sort of rule was broken. -/
  category : Category
  /-- What went wrong. -/
  message : String
  /-- The lines of the definitions concerned, ascending, from one. -/
  lines : List Nat
  /-- The file, once it is known. -/
  file : Option String
  deriving DecidableEq, Repr

namespace Diagnostic

/-- A failure whose place is not known yet. -/
def unplaced (category : Category) (message : String) : Diagnostic :=
  ⟨category, message, [], none⟩

/-- Puts a line into an ascending list, unless it is there already. -/
def insertLine (line : Nat) : List Nat → List Nat
  | [] => [line]
  | first :: rest =>
    if line < first then line :: first :: rest
    else if line = first then first :: rest
    else first :: insertLine line rest

/-- Adds the lines of further definitions to those already known. -/
def withLines (lines : List Nat) (diagnostic : Diagnostic) : Diagnostic :=
  { diagnostic with lines := (diagnostic.lines ++ lines).foldr insertLine [] }

/-- Adds the line of one definition. -/
def atLine (line : Nat) (diagnostic : Diagnostic) : Diagnostic :=
  diagnostic.withLines [line]

/-- Sets the file. -/
def withFile (file : String) (diagnostic : Diagnostic) : Diagnostic :=
  { diagnostic with file := some file }

/-- Numbers separated by a comma and a space. -/
def joinNumbers (numbers : List Nat) : String :=
  ", ".intercalate (numbers.map Nat.repr)

/-- The lines, separated by a comma and a space. -/
def linesText (diagnostic : Diagnostic) : String :=
  joinNumbers diagnostic.lines

/-- The file and the lines in brackets, as far as they are known, and a space. -/
def location (diagnostic : Diagnostic) : String :=
  match diagnostic.file, diagnostic.lines with
  | some file, [] => file ++ " "
  | some file, _ => file ++ "[" ++ diagnostic.linesText ++ "] "
  | none, [] => ""
  | none, _ => "[" ++ diagnostic.linesText ++ "] "

/-- The diagnostic as it is shown: place and message. -/
def text (diagnostic : Diagnostic) : String :=
  diagnostic.location ++ "Error: " ++ diagnostic.message

/-- A result whose failure, if it is one, also concerns the given lines. -/
def place {α : Type} (lines : List Nat) (result : Except Diagnostic α) : Except Diagnostic α :=
  result.mapError (withLines lines)

end Diagnostic

end AnnotatedHelp
