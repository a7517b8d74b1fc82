import AnnotatedHelp.Model.Member

/-!
# Documents

A document is the result of reading a help text: the text with every definition replaced by what
it shows, and the members deduced from the definitions.
-/

namespace AnnotatedHelp

/-- A help text and its model. -/
structure Document where
  /-- The help text as shown. -/
  text : String
  /-- The members; parsing sorts them by name. -/
  members : List Member
  /-- The lines of `text`, from zero, that begin with a visible definition. -/
  definitionLines : List Nat
  deriving DecidableEq, Repr

namespace Document

/-- Every argument, in the order of the definitions. -/
def arguments (document : Document) : List Argument :=
  (document.members.flatMap (·.arguments)).mergeSort fun a b => a.ordinal ≤ b.ordinal

/-- The options, in the order of the definitions. -/
def options (document : Document) : List Argument :=
  document.arguments.filter (·.isOption)

/-- The positional arguments, in the order of the definitions. -/
def positionals (document : Document) : List Argument :=
  document.arguments.filter (!·.isOption)

/-- The first member of a name. -/
def member? (document : Document) (name : String) : Option Member :=
  document.members.find? (·.name == name)

/-- The member that an argument points to by its member index. -/
def memberOf? (document : Document) (argument : Argument) : Option Member :=
  argument.memberIndex.bind (document.members[·]?)

/-- Whether some member has the kind. -/
def hasKind (document : Document) (kind : Kind) : Bool :=
  document.members.any (·.kind == kind)

end Document

end AnnotatedHelp
