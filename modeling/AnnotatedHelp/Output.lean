import AnnotatedHelp.Json.Document
import AnnotatedHelp.Yaml.Document
import AnnotatedHelp.Summary

/-!
# Output formats

The forms in which a document is printed.
-/

namespace AnnotatedHelp

/-- The form of a printed document. -/
inductive OutputFormat where
  /-- Indented JSON. -/
  | json
  /-- YAML. -/
  | yaml
  /-- A table for reading. -/
  | summary
  deriving DecidableEq, Repr

namespace OutputFormat

/-- Every form. -/
def all : List OutputFormat := [.json, .yaml, .summary]

/-- The name of the form. -/
def name : OutputFormat → String
  | json => "json"
  | yaml => "yaml"
  | summary => "summary"

end OutputFormat

/-- A document in a form. -/
def Document.format (document : Document) : OutputFormat → String
  | .json => document.toJson.text
  | .yaml => document.yamlText
  | .summary => Summary.text document

end AnnotatedHelp
