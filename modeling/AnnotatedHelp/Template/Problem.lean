import AnnotatedHelp.Template.Value

/-!
# Problems of templates

Every way in which rendering a template can fail. Each failure is reported with the line of the
template on which it occurs, counted from one.
-/

namespace AnnotatedHelp.Template

/-- The words that begin conditional directives. -/
inductive Keyword where
  /-- Begins a condition. -/
  | ifWord
  /-- Begins a further branch with a condition. -/
  | elifWord
  /-- Begins the branch taken when no condition holds. -/
  | elseWord
  /-- Ends a condition. -/
  | endifWord
  deriving DecidableEq, Repr

/-- The keyword as written. -/
def Keyword.text : Keyword → String
  | ifWord => "IF"
  | elifWord => "ELIF"
  | elseWord => "ELSE"
  | endifWord => "ENDIF"

/-- Why a template cannot be rendered. -/
inductive Cause where
  /-- A directive is not closed on its line. -/
  | unterminated
  /-- A directive begins with a word that is no keyword. -/
  | unknownKeyword (word : String)
  /-- A conditional directive lacks its key. -/
  | missingKey (keyword : Keyword)
  /-- A directive has an argument that it does not take. -/
  | extraArgument (keyword : Keyword)
  /-- A further branch or an end stands outside conditions. -/
  | outsideCondition (keyword : Keyword)
  /-- Conditions are open at the end of the template. -/
  | openConditions (count : Nat)
  /-- An alignment ends that was not begun. -/
  | popWithoutPush
  /-- A mark refers to an alignment that was not begun. -/
  | markWithoutPush
  /-- A key has no name or no closing parenthesis. -/
  | malformedKey (key : String)
  /-- The resolver gives no value. -/
  | unresolved (key : String) (error : ResolveError)
  deriving DecidableEq, Repr

/-- The sentence that reports the cause. -/
def Cause.message : Cause → String
  | unterminated => "\"[[[\" not followed by \"]]]\" on the same line"
  | unknownKeyword word => "unknown directive keyword \"" ++ word ++ "\""
  | missingKey keyword => keyword.text ++ " requires a condition key"
  | extraArgument keyword => keyword.text ++ " takes no argument"
  | outsideCondition keyword => keyword.text ++ " must be preceded by IF"
  | openConditions count => "number of IFs without closing ENDIFs: " ++ count.repr
  | popWithoutPush => "alignment pop without a matching push"
  | markWithoutPush => "alignment mark without a matching push"
  | malformedKey key => "malformed key \"" ++ key ++ "\""
  | unresolved key error => "can't expand \"" ++ key ++ "\": " ++ error.message

/-- A failure of rendering. -/
structure Problem where
  /-- The line of the template, from one. -/
  line : Nat
  /-- What went wrong. -/
  cause : Cause
  deriving DecidableEq, Repr

/-- The failure as it is shown. -/
def Problem.message (problem : Problem) : String :=
  "line " ++ problem.line.repr ++ ": " ++ problem.cause.message

end AnnotatedHelp.Template
