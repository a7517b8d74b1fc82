import AnnotatedHelp.Count

/-!
# Arguments

An argument is one set of flags of an option, or one positional slot. It either captures what is
given on the command line, under a placeholder, or assigns a literal value.
-/

namespace AnnotatedHelp

/-- One set of flags or one positional slot. -/
structure Argument where
  /-- The display name, unique in a parsed document. -/
  name : String
  /-- The name of the member that the argument writes to. -/
  memberName : String
  /-- The flags as written; a positional argument has none. -/
  flags : List String
  /-- The placeholder of the captured value. -/
  metaVariable : Option String
  /-- The literal assigned when the option is given, cut into alternatives; `none` if the argument
  captures a value instead. -/
  value : Option (List String)
  /-- The character that cuts one capture into several values. -/
  delimiter : Option Char
  /-- How many delimiters one capture may contain. -/
  delimiterCount : Count
  /-- How often the argument may occur. -/
  count : Count
  /-- Whether the count was declared rather than implied. -/
  countDeclared : Bool
  /-- The position among the positional arguments. -/
  index : Option Nat
  /-- The text that the help shows for the argument. -/
  text : String
  /-- Whether the help lists the argument. -/
  visible : Bool
  /-- The line of the definition in the help file, from one. -/
  lineNumber : Nat
  /-- The place among all definitions of the document, from zero. -/
  ordinal : Nat
  /-- The place of the owning member in the document's list of members. -/
  memberIndex : Option Nat
  /-- The declared action. -/
  action : Option String
  /-- The declared type of the argument in the generated program. -/
  argumentType : Option String
  /-- The declared callback. -/
  callback : Option String
  /-- The declared condition. -/
  condition : Option String
  /-- The message for a condition that fails. -/
  conditionMessage : Option String
  deriving DecidableEq, Repr

namespace Argument

/-- An argument with flags is an option. -/
def isOption (argument : Argument) : Bool :=
  !argument.flags.isEmpty

/-- Whether the argument captures a value instead of assigning a literal. -/
def consumesInput (argument : Argument) : Bool :=
  argument.value.isNone

/-- Whether every capture has the same number of delimiters. -/
def hasFixedDelimiterCount (argument : Argument) : Bool :=
  argument.delimiterCount.isFixed

/-- A short form for messages: an option by its flags, a positional by its member. -/
def caption (argument : Argument) : String :=
  if argument.isOption then "option(" ++ " ".intercalate argument.flags ++ ")"
  else "argument(" ++ argument.memberName ++ ")"

end Argument

end AnnotatedHelp
