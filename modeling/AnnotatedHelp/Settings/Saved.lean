import AnnotatedHelp.Settings
import AnnotatedHelp.Yaml.Printer
import AnnotatedHelp.Yaml.Resolution

/-!
# Saved settings

The dialects and the rules for declared defaults have names, by which files and commands choose one.
Settings are saved as a YAML mapping in which every setting is present.
-/

namespace AnnotatedHelp

namespace Dialect

/-- Both dialects. -/
def all : List Dialect := [.classic, .extended]

/-- The name of the dialect in a settings file. -/
def name : Dialect → String
  | classic => "classic"
  | extended => "extended"

end Dialect

namespace DefaultRule

/-- Both rules. -/
def all : List DefaultRule := [.nonZeroMinimum, .listKind]

/-- The name of the rule in a settings file. -/
def name : DefaultRule → String
  | nonZeroMinimum => "non_zero_minimum"
  | listKind => "list_kind"

end DefaultRule

/-- The text of a settings file with these settings. -/
def Settings.saved (settings : Settings) : String :=
  Yaml.text [
    ("syntax", .mapping [
      ("definition_start", .string settings.delimiters.opening),
      ("definition_end", .string settings.delimiters.closing),
      ("separator", .string settings.delimiters.separator)]),
    ("dialect", .string settings.dialect.name),
    ("default_rule", .string settings.defaultRule.name),
    ("require_help_option", .bool settings.requireHelp)]

end AnnotatedHelp
