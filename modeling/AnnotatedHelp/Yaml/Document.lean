import AnnotatedHelp.Model.Document
import AnnotatedHelp.Yaml.Printer
import AnnotatedHelp.Yaml.Resolution

/-!
# Documents as YAML

The encoding of documents as YAML values. Structures are mappings in the order of their fields, and
an alternative with data is its data with the name as a tag.
-/

namespace AnnotatedHelp

namespace Bound

/-- Writes a bound. -/
def toYaml : Bound → Yaml
  | bounded limit => .tagged "!bounded" (.nat limit.toNat)
  | unbounded => .string "unbounded"

end Bound

namespace Count

/-- Writes a count. -/
def toYaml (count : Count) : Yaml :=
  .mapping [("min", .nat count.min.toNat), ("max", count.max.toYaml)]

end Count

namespace Limit

/-- Writes a limit. -/
def toYaml (limit : Limit) : Yaml :=
  .mapping [("literal", .string limit.literal), ("inclusive", .bool limit.inclusive)]

end Limit

namespace Constraint

/-- Writes a constraint. -/
def toYaml : Constraint → Yaml
  | exact literal => .tagged "!exact" (.string literal)
  | range lower upper =>
    .tagged "!range" (.mapping
      [("lower", .ofOption Limit.toYaml lower), ("upper", .ofOption Limit.toYaml upper)])

end Constraint

namespace Argument

/-- Writes an argument. -/
def toYaml (argument : Argument) : Yaml :=
  .mapping [
    ("name", .string argument.name),
    ("member_name", .string argument.memberName),
    ("flags", .ofList .string argument.flags),
    ("meta_variable", .ofOption .string argument.metaVariable),
    ("value", .ofOption (.ofList .string) argument.value),
    ("delimiter", .ofOption .char argument.delimiter),
    ("delimiter_count", argument.delimiterCount.toYaml),
    ("count", argument.count.toYaml),
    ("count_declared", .bool argument.countDeclared),
    ("index", .ofOption .nat argument.index),
    ("text", .string argument.text),
    ("visible", .bool argument.visible),
    ("line_number", .nat argument.lineNumber),
    ("ordinal", .nat argument.ordinal),
    ("member_index", .ofOption .nat argument.memberIndex),
    ("action", .ofOption .string argument.action),
    ("argument_type", .ofOption .string argument.argumentType),
    ("callback", .ofOption .string argument.callback),
    ("condition", .ofOption .string argument.condition),
    ("condition_message", .ofOption .string argument.conditionMessage)]

end Argument

namespace Member

/-- Writes a member. -/
def toYaml (member : Member) : Yaml :=
  .mapping [
    ("name", .string member.name),
    ("kind", .string member.kind.name),
    ("value_type", .string member.valueType.name),
    ("count", member.count.toYaml),
    ("values", .ofList Constraint.toYaml member.values),
    ("default", .ofList .string member.default),
    ("include", .ofOption .string member.extraInclude),
    ("arguments", .ofList Argument.toYaml member.arguments)]

end Member

namespace Document

/-- The YAML text of a document. -/
def yamlText (document : Document) : String :=
  Yaml.text [
    ("text", .string document.text),
    ("members", .ofList Member.toYaml document.members),
    ("definition_lines", .ofList .nat document.definitionLines)]

end Document

end AnnotatedHelp
