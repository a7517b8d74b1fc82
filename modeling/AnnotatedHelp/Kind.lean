import AnnotatedHelp.Text.Character

/-!
# Value types and kinds of members

A member of the model has a value type, the type of one value, and a kind, the way in which values
are collected. Both are written by name in help texts, in any case and with blanks around them.
-/

namespace AnnotatedHelp

open Text

/-- The type of one value of a member. -/
inductive ValueType where
  /-- A truth value. -/
  | bool
  /-- An integer. -/
  | int
  /-- A decimal number. -/
  | double
  /-- A text. -/
  | string
  deriving DecidableEq, Repr

namespace ValueType

/-- Every value type, in the alphabetical order of the names. -/
def all : List ValueType := [.bool, .double, .int, .string]

/-- The name under which the type is printed. -/
def name : ValueType → String
  | bool => "bool"
  | int => "int"
  | double => "double"
  | string => "string"

/-- Reads a name or one of the longer or shorter spellings. -/
def ofName? (text : String) : Option ValueType :=
  match foldCase (trimmed text) with
  | "bool" | "boolean" => some bool
  | "int" | "integer" => some int
  | "double" | "float" => some double
  | "string" | "str" => some string
  | _ => none

/-- Integers and decimal numbers are numeric. -/
def isNumeric : ValueType → Bool
  | int | double => true
  | bool | string => false

end ValueType

/-- How a member collects the values it is given. -/
inductive Kind where
  /-- One value. -/
  | value
  /-- Any number of values, in the order given. -/
  | list
  /-- A group of delimited values of a fixed size. -/
  | multivalue
  /-- Shows the help text and stops. -/
  | help
  /-- Stops without reporting missing arguments. -/
  | info
  /-- Ends the options; everything after it is positional. -/
  | final
  deriving DecidableEq, Repr

namespace Kind

/-- Every kind. -/
def all : List Kind := [.final, .help, .info, .list, .multivalue, .value]

/-- The name under which the kind is printed. -/
def name : Kind → String
  | value => "value"
  | list => "list"
  | multivalue => "multivalue"
  | help => "help"
  | info => "info"
  | final => "final"

/-- Reads a name. -/
def ofName? (text : String) : Option Kind :=
  all.find? fun kind => kind.name == foldCase (trimmed text)

/-- Kinds that only switch something and carry no value of their own. -/
def isSpecial : Kind → Bool
  | help | info | final => true
  | value | list | multivalue => false

/-- Kinds that hold several values. -/
def isCollection : Kind → Bool
  | list | multivalue => true
  | value | help | info | final => false

end Kind

end AnnotatedHelp
