import AnnotatedHelp.Constraint
import AnnotatedHelp.Kind
import AnnotatedHelp.Model.Argument

/-!
# Members

A member stands for one field of the result of parsing a command line. All arguments with one
member name write to it, and its count, type, kind and default are deduced from them together.
-/

namespace AnnotatedHelp

/-- All arguments that write to one field, and what was deduced about the field. -/
structure Member where
  /-- The name of the field. -/
  name : String
  /-- How values are collected. -/
  kind : Kind
  /-- The type of one value. -/
  valueType : ValueType
  /-- How many values the member can end up holding. -/
  count : Count
  /-- The constraints on values. -/
  values : List Constraint
  /-- The default, one entry per value. -/
  default : List String
  /-- An extra include requested by the help file. -/
  extraInclude : Option String
  /-- The contributing arguments in document order. -/
  arguments : List Argument
  deriving DecidableEq, Repr

namespace Member

/-- Whether every contributing argument is an option. -/
def isOption (member : Member) : Bool :=
  member.arguments.all (·.isOption)

/-- All flags of the contributing options. -/
def flags (member : Member) : List String :=
  member.arguments.flatMap (·.flags)

/-- The lines of the contributing definitions. -/
def lineNumbers (member : Member) : List Nat :=
  member.arguments.map (·.lineNumber)

/-- Whether the member is set by an option that has to be given. -/
def isMandatoryOption (member : Member) : Bool :=
  member.isOption && decide (0 < member.count.min)

/-- Kind, type and name on one line. -/
def declaration (member : Member) : String :=
  member.kind.name ++ " " ++ member.valueType.name ++ ": " ++ member.name

end Member

end AnnotatedHelp
