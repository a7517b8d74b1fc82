import AnnotatedHelp.Json.Basic
import AnnotatedHelp.Model.Document

/-!
# Documents as JSON

The encoding of documents as JSON values and the decoding of values that have this form. A structure
is an object whose entries stand in a fixed order when written and in any order when read; entries
of other names are ignored, and an entry that may be missing counts as null. An array of all fields
is also read as a structure. An alternative without data is its name, any other an object with the
name as its only key.
-/

namespace AnnotatedHelp

namespace Json

/-- The fields of a structure, each with its name and whether it may be missing. -/
def fields? (names : List (String × Bool)) : Json → Option (List Json)
  | .object entries =>
    names.mapM fun (name, mayMiss) =>
      (entries.lookup name).or (if mayMiss then some .null else none)
  | .array items => if items.length = names.length then some items else none
  | _ => none

/-- Reads a truth value. -/
def bool? : Json → Option Bool
  | .bool b => some b
  | _ => none

/-- Reads a string. -/
def string? : Json → Option String
  | .string s => some s
  | _ => none

/-- Reads an integer from zero up to, and without, a limit. -/
def natBelow? (limit : Nat) : Json → Option Nat
  | .number n 0 => if 0 ≤ n ∧ n < limit then some n.toNat else none
  | _ => none

/-- Reads a position: a word of sixty-four bits. -/
def position? (value : Json) : Option Nat :=
  value.natBelow? (Text.wordCount 64)

/-- Reads an end of a count: a word of thirty-two bits. -/
def word? (value : Json) : Option UInt32 :=
  (value.natBelow? (Text.wordCount 32)).map UInt32.ofNat

/-- Reads a string of one character. -/
def char? (value : Json) : Option Char :=
  match value.string?.map String.toList with
  | some [c] => some c
  | _ => none

/-- Reads the items of an array. -/
def list? {α : Type} (read : Json → Option α) : Json → Option (List α)
  | .array items => items.mapM read
  | _ => none

/-- Reads null as nothing and any other value as something. -/
def optional? {α : Type} (read : Json → Option α) : Json → Option (Option α)
  | .null => some none
  | value => (read value).map some

/-- Reads an alternative without data by its name. -/
def named? {α : Type} (name : α → String) (all : List α) : Json → Option α
  | .string s => all.find? (name · == s)
  | .object [(s, .null)] => all.find? (name · == s)
  | _ => none

/-- Writes nothing as null. -/
def ofOption {α : Type} (write : α → Json) : Option α → Json
  | none => .null
  | some a => write a

/-- Writes a list as an array. -/
def ofList {α : Type} (write : α → Json) (items : List α) : Json :=
  .array (items.map write)

end Json

namespace Bound

/-- Writes a bound. -/
def toJson : Bound → Json
  | bounded limit => .object [("bounded", .nat limit.toNat)]
  | unbounded => .string "unbounded"

/-- Reads a bound. -/
def ofJson? : Json → Option Bound
  | .string "unbounded" => some unbounded
  | .object [("unbounded", .null)] => some unbounded
  | .object [("bounded", limit)] => limit.word?.map bounded
  | _ => none

end Bound

namespace Count

/-- Writes a count. -/
def toJson (count : Count) : Json :=
  .object [("min", .nat count.min.toNat), ("max", count.max.toJson)]

/-- Reads a count. -/
def ofJson? (value : Json) : Option Count := do
  let [min, max] ← value.fields? [("min", false), ("max", false)] | Option.none
  some ⟨← min.word?, ← Bound.ofJson? max⟩

end Count

namespace Limit

/-- Writes a limit. -/
def toJson (limit : Limit) : Json :=
  .object [("literal", .string limit.literal), ("inclusive", .bool limit.inclusive)]

/-- Reads a limit. -/
def ofJson? (value : Json) : Option Limit := do
  let [literal, inclusive] ← value.fields? [("literal", false), ("inclusive", false)] | none
  some ⟨← literal.string?, ← inclusive.bool?⟩

end Limit

namespace Constraint

/-- Writes a constraint. -/
def toJson : Constraint → Json
  | exact literal => .object [("exact", .string literal)]
  | range lower upper =>
    .object [("range",
      .object [("lower", .ofOption Limit.toJson lower), ("upper", .ofOption Limit.toJson upper)])]

/-- Reads a constraint. The limits of a range have to be an object. -/
def ofJson? : Json → Option Constraint
  | .object [("exact", literal)] => literal.string?.map exact
  | .object [("range", .object limits)] => do
    let [lower, upper] ← (Json.object limits).fields? [("lower", true), ("upper", true)] | none
    some (range (← lower.optional? Limit.ofJson?) (← upper.optional? Limit.ofJson?))
  | _ => none

end Constraint

namespace Kind

/-- Writes a kind. -/
def toJson (kind : Kind) : Json := .string kind.name

/-- Reads a kind by its exact name. -/
def ofJson? (value : Json) : Option Kind := value.named? name all

end Kind

namespace ValueType

/-- Writes a value type. -/
def toJson (valueType : ValueType) : Json := .string valueType.name

/-- Reads a value type by its exact name. -/
def ofJson? (value : Json) : Option ValueType := value.named? name all

end ValueType

namespace Argument

/-- The fields of an argument, in the order in which they are written, and whether each may be
missing. -/
def jsonFields : List (String × Bool) :=
  [("name", false), ("member_name", false), ("flags", false), ("meta_variable", true),
    ("value", true), ("delimiter", true), ("delimiter_count", false), ("count", false),
    ("count_declared", false), ("index", true), ("text", false), ("visible", false),
    ("line_number", false), ("ordinal", false), ("member_index", true), ("action", true),
    ("argument_type", true), ("callback", true), ("condition", true), ("condition_message", true)]

/-- Writes an argument. -/
def toJson (argument : Argument) : Json :=
  .object ((jsonFields.map (·.1)).zip [
    .string argument.name,
    .string argument.memberName,
    .ofList .string argument.flags,
    .ofOption .string argument.metaVariable,
    .ofOption (.ofList .string) argument.value,
    .ofOption (fun c => .string (String.ofList [c])) argument.delimiter,
    argument.delimiterCount.toJson,
    argument.count.toJson,
    .bool argument.countDeclared,
    .ofOption .nat argument.index,
    .string argument.text,
    .bool argument.visible,
    .nat argument.lineNumber,
    .nat argument.ordinal,
    .ofOption .nat argument.memberIndex,
    .ofOption .string argument.action,
    .ofOption .string argument.argumentType,
    .ofOption .string argument.callback,
    .ofOption .string argument.condition,
    .ofOption .string argument.conditionMessage])

/-- Reads an argument. -/
def ofJson? (value : Json) : Option Argument := do
  let [name, memberName, flags, metaVariable, literal, delimiter, delimiterCount, count,
    countDeclared, index, text, visible, lineNumber, ordinal, memberIndex, action, argumentType,
    callback, condition, conditionMessage] ← value.fields? jsonFields | none
  some {
    name := ← name.string?
    memberName := ← memberName.string?
    flags := ← flags.list? Json.string?
    metaVariable := ← metaVariable.optional? Json.string?
    value := ← literal.optional? (Json.list? Json.string?)
    delimiter := ← delimiter.optional? Json.char?
    delimiterCount := ← Count.ofJson? delimiterCount
    count := ← Count.ofJson? count
    countDeclared := ← countDeclared.bool?
    index := ← index.optional? Json.position?
    text := ← text.string?
    visible := ← visible.bool?
    lineNumber := ← lineNumber.position?
    ordinal := ← ordinal.position?
    memberIndex := ← memberIndex.optional? Json.position?
    action := ← action.optional? Json.string?
    argumentType := ← argumentType.optional? Json.string?
    callback := ← callback.optional? Json.string?
    condition := ← condition.optional? Json.string?
    conditionMessage := ← conditionMessage.optional? Json.string? }

end Argument

namespace Member

/-- The fields of a member, in the order in which they are written, and whether each may be
missing. -/
def jsonFields : List (String × Bool) :=
  [("name", false), ("kind", false), ("value_type", false), ("count", false), ("values", false),
    ("default", false), ("include", true), ("arguments", false)]

/-- Writes a member. -/
def toJson (member : Member) : Json :=
  .object ((jsonFields.map (·.1)).zip [
    .string member.name,
    member.kind.toJson,
    member.valueType.toJson,
    member.count.toJson,
    .ofList Constraint.toJson member.values,
    .ofList .string member.default,
    .ofOption .string member.extraInclude,
    .ofList Argument.toJson member.arguments])

/-- Reads a member. -/
def ofJson? (value : Json) : Option Member := do
  let [name, kind, valueType, count, values, default, extraInclude, arguments] ←
    value.fields? jsonFields | none
  some {
    name := ← name.string?
    kind := ← Kind.ofJson? kind
    valueType := ← ValueType.ofJson? valueType
    count := ← Count.ofJson? count
    values := ← values.list? Constraint.ofJson?
    default := ← default.list? Json.string?
    extraInclude := ← extraInclude.optional? Json.string?
    arguments := ← arguments.list? Argument.ofJson? }

end Member

namespace Document

/-- Writes a document. -/
def toJson (document : Document) : Json :=
  .object [("text", .string document.text), ("members", .ofList Member.toJson document.members),
    ("definition_lines", .ofList .nat document.definitionLines)]

/-- Reads a document. -/
def ofJson? (value : Json) : Option Document := do
  let [text, members, definitionLines] ←
    value.fields? [("text", false), ("members", false), ("definition_lines", false)] | none
  some ⟨← text.string?, ← members.list? Member.ofJson?, ← definitionLines.list? Json.position?⟩

end Document

end AnnotatedHelp
