import AnnotatedHelp.Settings.Saved
import AnnotatedHelp.Yaml.Node

/-!
# Loading settings

A settings file is a YAML mapping in which every setting may be missing; names that are no settings
are ignored. A setting given twice, or of the wrong form, makes the file unusable, and so does a set
of tokens that cannot delimit definitions.
-/

namespace AnnotatedHelp

/-- Why settings cannot be loaded. -/
inductive LoadProblem where
  /-- The file could not be opened. -/
  | unreadable (reason : String)
  /-- The file is no YAML, or does not hold settings. -/
  | malformed (reason : String)
  /-- The tokens cannot delimit definitions. -/
  | unusable (problem : SettingsProblem)
  deriving DecidableEq, Repr

/-- The sentence that reports the cause. -/
def LoadProblem.message : LoadProblem → String
  | unreadable reason => "I/O error: " ++ reason
  | malformed reason => "YAML error: " ++ reason
  | unusable problem => problem.message

namespace Yaml.Node

/-- The text of a scalar, whatever its tag and style. -/
def text? : Node → Option String
  | scalar _ _ text => some text
  | _ => none

/-- The truth value of a plain scalar, or of lines tagged as a truth value. -/
def bool? : Node → Option Bool
  | scalar _ .plain text => Yaml.bool? text
  | scalar (some tag) (.lines true) text =>
    if tag = .ofString "tag:yaml.org,2002:bool" then Yaml.bool? text else none
  | _ => none

/-- Whether a node is a plain scalar for null, which an alternative without data may carry. -/
def isNothing : Node → Bool
  | scalar _ .plain text => isNull text
  | _ => false

/-- The tag of a node, if it has one. -/
def tag? : Node → Option Tag
  | scalar tag _ _ => tag
  | sequence tag _ => tag
  | mapping tag _ => tag
  | reference _ => none

/-- The name of an alternative without data: the text of a scalar, or a local tag of nothing. -/
def alternative? (node : Node) : Option String :=
  match (node.tag?.bind Tag.text?).map String.toList with
  | some ('!' :: name) => if node.isNothing then some (String.ofList name) else none
  | _ => node.text?

/-- The entries of a mapping; a missing node stands for a mapping without entries. -/
def entries? : Node → Option (List (Node × Node))
  | mapping _ entries => some entries
  | scalar _ .plain "" => some []
  | _ => none

/-- The entries of a mapping whose keys are all scalars, without aliases. -/
def namedEntries? (tree : NodeTree) (node : Node) : Option (List (String × Node)) := do
  let entries ← node.entries?
  entries.mapM fun (key, value) => (tree.follow key).text?.map fun name => (name, tree.follow value)

/-- The value of a setting: the standard one if it is missing, and nothing if it is given twice or
cannot be read. -/
def setting {α : Type} (entries : List (String × Node)) (name : String) (standard : α)
    (read : Node → Option α) : Option α :=
  match entries.filter (·.1 == name) with
  | [] => some standard
  | [(_, node)] => read node
  | _ => none

end Yaml.Node

namespace Settings

open Yaml.Node

/-- Reads the tokens of a settings file. -/
def delimitersOfNode? (tree : Yaml.NodeTree) (node : Yaml.Node) : Option Delimiters := do
  let entries ← namedEntries? tree node
  let standard := Delimiters.standard
  some ⟨← setting entries "definition_start" standard.opening text?,
    ← setting entries "definition_end" standard.closing text?,
    ← setting entries "separator" standard.separator text?⟩

/-- Reads one of several alternatives by its name. -/
def named? {α : Type} (name : α → String) (all : List α) (node : Yaml.Node) : Option α := do
  let text ← node.alternative?
  all.find? (name · == text)

/-- Reads the settings of a settings file. -/
def ofTree? (tree : Yaml.NodeTree) : Option Settings := do
  let entries ← namedEntries? tree tree.root
  let standard := Settings.standard
  some {
    delimiters := ← setting entries "syntax" standard.delimiters (delimitersOfNode? tree)
    dialect := ← setting entries "dialect" standard.dialect (named? Dialect.name Dialect.all)
    defaultRule :=
      ← setting entries "default_rule" standard.defaultRule (named? DefaultRule.name DefaultRule.all)
    requireHelp := ← setting entries "require_help_option" standard.requireHelp bool? }

/-- Reads the text of a settings file; a file without document holds the standard settings. -/
def ofText? (text : String) : Option Settings :=
  match Yaml.NodeTree.ofText? text with
  | none => none
  | some none => some standard
  | some (some tree) => ofTree? tree

/-- Reads the text of a settings file and checks the settings. -/
def load (text : String) : Except LoadProblem Settings :=
  match ofText? text with
  | none => .error (.malformed "the file does not hold settings")
  | some settings =>
    match settings.validate with
    | .error problem => .error (.unusable problem)
    | .ok _ => .ok settings

end Settings

end AnnotatedHelp
