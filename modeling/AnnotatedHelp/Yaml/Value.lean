/-!
# YAML values

The values that are written as YAML: scalars with a wanted style, sequences, mappings and tags. The
style is what the author of the value asks for; a text that cannot be written in this style is
written in another one.
-/

namespace AnnotatedHelp

/-- How a scalar is to be written. -/
inductive Yaml.Style where
  /-- Without quotes. -/
  | plain
  /-- Between single quotes. -/
  | single
  /-- As lines below a bar. -/
  | literal
  deriving DecidableEq, Repr

/-- A value to be written as YAML. -/
inductive Yaml where
  /-- A text in a style. -/
  | scalar (style : Yaml.Style) (text : List Char)
  /-- A sequence of values. -/
  | sequence (items : List Yaml)
  /-- A mapping from plain keys to values. -/
  | mapping (entries : List (String × Yaml))
  /-- A value with a local tag. -/
  | tagged (tag : String) (value : Yaml)
  deriving Repr

namespace Yaml

/-- A text without quotes, such as a number or a name. -/
def plain (text : String) : Yaml :=
  .scalar .plain text.toList

/-- The null value. -/
def null : Yaml :=
  plain "null"

/-- A truth value. -/
def bool (b : Bool) : Yaml :=
  plain (if b then "true" else "false")

/-- A natural number. -/
def nat (n : Nat) : Yaml :=
  plain n.repr

/-- Nothing, or something. -/
def ofOption {α : Type} (write : α → Yaml) : Option α → Yaml
  | none => null
  | some a => write a

/-- A list of values. -/
def ofList {α : Type} (write : α → Yaml) (items : List α) : Yaml :=
  .sequence (items.map write)

end Yaml

end AnnotatedHelp
