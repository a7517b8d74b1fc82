import AnnotatedHelp.Model.Document
import AnnotatedHelp.Diagnostic
import AnnotatedHelp.Template.Value

/-!
# Asking a document

A document answers the keys of a template. There is a fixed table of keys about the whole document;
the key `member(NAME, FIELD)` asks for a field of one member, and `pad_to(COLUMN)` for the spaces up
to a column.
-/

namespace AnnotatedHelp

open Template Text

/-- A key that a document answers. -/
inductive ModelKey where
  /-- The help text, as lines. -/
  | helpText
  /-- Whether there are options. -/
  | hasOptions
  /-- Whether there are positional arguments. -/
  | hasArguments
  /-- Whether there is a help member. -/
  | hasHelpOption
  /-- Whether there are info members. -/
  | hasInfoOptions
  /-- Whether there is a final member. -/
  | hasFinalOption
  /-- The number of members. -/
  | memberCount
  /-- The number of options. -/
  | optionCount
  /-- The number of positional arguments. -/
  | argumentCount
  /-- The member names, as lines. -/
  | memberNames
  /-- Kind, type and name of every member, as lines. -/
  | memberDeclarations
  /-- The lines that begin with a definition, with commas between them. -/
  | definitionLines
  /-- A field of one member. -/
  | member
  /-- The spaces up to a column. -/
  | padTo
  deriving DecidableEq, Repr

namespace ModelKey

/-- Every key. -/
def all : List ModelKey :=
  [.helpText, .hasOptions, .hasArguments, .hasHelpOption, .hasInfoOptions, .hasFinalOption,
    .memberCount, .optionCount, .argumentCount, .memberNames, .memberDeclarations,
    .definitionLines, .member, .padTo]

/-- The key as written in a template. -/
def name : ModelKey → String
  | helpText => "help_text"
  | hasOptions => "has_options"
  | hasArguments => "has_arguments"
  | hasHelpOption => "has_help_option"
  | hasInfoOptions => "has_info_options"
  | hasFinalOption => "has_final_option"
  | memberCount => "member_count"
  | optionCount => "option_count"
  | argumentCount => "argument_count"
  | memberNames => "member_names"
  | memberDeclarations => "member_declarations"
  | definitionLines => "definition_lines"
  | member => "member"
  | padTo => "pad_to"

/-- The key of a name. -/
def ofName? (name : String) : Option ModelKey :=
  all.find? (·.name == name)

end ModelKey

/-- A field of a member that a template can ask for. -/
inductive MemberField where
  /-- The kind. -/
  | kind
  /-- The value type. -/
  | valueType
  /-- The count. -/
  | count
  /-- The smallest admitted number. -/
  | minCount
  /-- The largest admitted number; the empty text if there is none. -/
  | maxCount
  /-- The default, with commas between its entries. -/
  | default
  /-- The flags, with commas between them. -/
  | flags
  /-- The constraints, as lines. -/
  | values
  /-- The extra include. -/
  | extraInclude
  /-- The lines of the definitions, with commas between them. -/
  | lines
  /-- Whether the member is set by options. -/
  | isOption
  /-- Whether an option has to be given. -/
  | isMandatory
  /-- Whether the member holds several values. -/
  | isCollection
  deriving DecidableEq, Repr

namespace MemberField

/-- Every field. -/
def all : List MemberField :=
  [.kind, .valueType, .count, .minCount, .maxCount, .default, .flags, .values, .extraInclude,
    .lines, .isOption, .isMandatory, .isCollection]

/-- The field as written in a template. -/
def name : MemberField → String
  | kind => "kind"
  | valueType => "value_type"
  | count => "count"
  | minCount => "min_count"
  | maxCount => "max_count"
  | default => "default"
  | flags => "flags"
  | values => "values"
  | extraInclude => "include"
  | lines => "lines"
  | isOption => "is_option"
  | isMandatory => "is_mandatory"
  | isCollection => "is_collection"

/-- The field of a name. -/
def ofName? (name : String) : Option MemberField :=
  all.find? (·.name == name)

/-- The field of a member. -/
def valueOf (member : Member) : MemberField → Value
  | kind => .text member.kind.name
  | valueType => .text member.valueType.name
  | count => .text member.count.text
  | minCount => .int member.count.min.toNat
  | maxCount =>
    match member.count.max with
    | .bounded limit => .int limit.toNat
    | .unbounded => .text ""
  | default => .text (", ".intercalate member.default)
  | flags => .text (", ".intercalate member.flags)
  | values => .lines (member.values.map Constraint.text)
  | extraInclude => .text (member.extraInclude.getD "")
  | lines => .text (Diagnostic.joinNumbers member.lineNumbers)
  | isOption => .bool member.isOption
  | isMandatory => .bool member.isMandatoryOption
  | isCollection => .bool member.kind.isCollection

end MemberField

namespace Document

/-- Answers `member(NAME, FIELD)`. -/
def memberValue (document : Document) (key : String) (args : List String) :
    Except ResolveError Value :=
  match args with
  | [name, field] =>
    match document.member? name with
    | none => .error (.invalidArguments key ("no member named \"" ++ name ++ "\""))
    | some member =>
      match MemberField.ofName? field with
      | none => .error (.invalidArguments key ("unknown member field \"" ++ field ++ "\""))
      | some field => .ok (field.valueOf member)
  | _ => .error (.invalidArguments key ("expected 2 arguments, got " ++ args.length.repr))

/-- Answers `pad_to(COLUMN)`: the spaces up to the column, at least one. -/
def padding (key : String) (args : List String) (context : Context) : Except ResolveError Value :=
  match args with
  | [column] =>
    match natural64? column.toList with
    | none =>
      .error (.invalidArguments key ("column must be a number, got \"" ++ column ++ "\""))
    | some column =>
      .ok (.text (String.ofList (List.replicate (max (column - context.column) 1) ' ')))
  | _ => .error (.invalidArguments key ("expected 1 argument, got " ++ args.length.repr))

/-- Answers a key of the table. -/
def answer (document : Document) (name : String) (args : List String) (context : Context) :
    ModelKey → Except ResolveError Value
  | .helpText => .ok (.lines ((splitAll '\n' document.text.toList).map String.ofList))
  | .hasOptions => .ok (.bool !document.options.isEmpty)
  | .hasArguments => .ok (.bool !document.positionals.isEmpty)
  | .hasHelpOption => .ok (.bool (document.hasKind .help))
  | .hasInfoOptions => .ok (.bool (document.hasKind .info))
  | .hasFinalOption => .ok (.bool (document.hasKind .final))
  | .memberCount => .ok (.int document.members.length)
  | .optionCount => .ok (.int document.options.length)
  | .argumentCount => .ok (.int document.positionals.length)
  | .memberNames => .ok (.lines (document.members.map (·.name)))
  | .memberDeclarations => .ok (.lines (document.members.map (·.declaration)))
  | .definitionLines => .ok (.text (Diagnostic.joinNumbers document.definitionLines))
  | .member => document.memberValue name args
  | .padTo => padding name args context

/-- The resolver of a document. -/
def resolver (document : Document) : Resolver := fun name args context =>
  match ModelKey.ofName? name with
  | none => .error (.unknownKey name)
  | some key => document.answer name args context key

end Document

end AnnotatedHelp
