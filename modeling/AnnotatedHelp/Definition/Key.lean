import AnnotatedHelp.Settings

/-!
# Property keys

The closed set of keys that a definition may give, and the names under which each dialect knows
them. The canonical names hold in both dialects; each dialect adds spellings of its own.
-/

namespace AnnotatedHelp

/-- A property of a definition. The order of the constructors is the order of validation. -/
inductive PropertyKey where
  /-- The action to run. -/
  | action
  /-- The type of the argument in the generated program. -/
  | argumentType
  /-- The callback to call. -/
  | callback
  /-- The condition to check. -/
  | condition
  /-- The message for a condition that fails. -/
  | conditionMessage
  /-- How often the argument may occur. -/
  | count
  /-- The default of the member. -/
  | default
  /-- The character that cuts a capture. -/
  | delimiter
  /-- How many delimiters a capture may contain. -/
  | delimiterCount
  /-- The flags of an option. -/
  | flags
  /-- An extra include. -/
  | extraInclude
  /-- The position among the positional arguments. -/
  | index
  /-- The member to write to. -/
  | memberName
  /-- The placeholder of the captured value. -/
  | metaVariable
  /-- The text that the help shows. -/
  | text
  /-- The kind of the member. -/
  | kind
  /-- The literal that an option assigns. -/
  | value
  /-- The value type of the member. -/
  | valueType
  /-- The constraints on values. -/
  | values
  /-- Whether the help lists the argument. -/
  | visible
  deriving DecidableEq, Repr

namespace PropertyKey

/-- Every key, in the order of validation. -/
def all : List PropertyKey :=
  [.action, .argumentType, .callback, .condition, .conditionMessage, .count, .default, .delimiter,
    .delimiterCount, .flags, .extraInclude, .index, .memberName, .metaVariable, .text, .kind,
    .value, .valueType, .values, .visible]

/-- The table of keys is complete. -/
theorem mem_all (key : PropertyKey) : key ∈ all := by
  cases key <;> decide

/-- The canonical name of a key. -/
def name : PropertyKey → String
  | action => "action"
  | argumentType => "argument_type"
  | callback => "callback"
  | condition => "condition"
  | conditionMessage => "condition_message"
  | count => "count"
  | default => "default"
  | delimiter => "delimiter"
  | delimiterCount => "delimiter_count"
  | flags => "flags"
  | extraInclude => "include"
  | index => "index"
  | memberName => "member_name"
  | metaVariable => "meta_variable"
  | text => "text"
  | kind => "type"
  | value => "value"
  | valueType => "value_type"
  | values => "values"
  | visible => "visible"

/-- The further names of the classic dialect. -/
def classicNames : List (String × PropertyKey) :=
  [("argument", .metaVariable), ("argumenttype", .argumentType), ("cond", .condition),
    ("condmessage", .conditionMessage), ("condmsg", .conditionMessage),
    ("conditionmessage", .conditionMessage), ("del", .delimiter), ("delcount", .delimiterCount),
    ("delimitercount", .delimiterCount), ("member", .memberName), ("membername", .memberName),
    ("metavariable", .metaVariable), ("valuetype", .valueType), ("vtype", .valueType)]

/-- The further names of the extended dialect. -/
def extendedNames : List (String × PropertyKey) :=
  [("arg", .metaVariable), ("arg_type", .argumentType), ("argtype", .argumentType),
    ("argumenttype", .argumentType), ("call", .callback), ("cond", .condition),
    ("mem", .memberName), ("member", .memberName), ("membername", .memberName),
    ("metavar", .metaVariable), ("metavariable", .metaVariable), ("sep", .delimiter),
    ("separator", .delimiter), ("sep_count", .delimiterCount), ("sepcount", .delimiterCount),
    ("separator_count", .delimiterCount), ("separatorcount", .delimiterCount), ("val", .value),
    ("vals", .values), ("vtype", .valueType)]

/-- The further names of a dialect. -/
def furtherNames : Dialect → List (String × PropertyKey)
  | .classic => classicNames
  | .extended => extendedNames

/-- The key of a name whose case is already folded: a canonical name, or one of the dialect's. -/
def ofName? (dialect : Dialect) (foldedName : String) : Option PropertyKey :=
  match all.find? (·.name == foldedName) with
  | some key => some key
  | none => (furtherNames dialect).lookup foldedName

end PropertyKey

end AnnotatedHelp
