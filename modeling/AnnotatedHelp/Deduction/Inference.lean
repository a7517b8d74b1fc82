import AnnotatedHelp.Deduction.Group
import AnnotatedHelp.Model.Member

/-!
# Inference of member properties

The rules by which the count, the value type, the kind and the default of a member follow from its
arguments and from what their definitions declare, and the rules that a declaration has to keep.
-/

namespace AnnotatedHelp

open Text

/-- Joins the counts of a list by an operation; an empty list has the given count. -/
def Count.join (operation : Count → Count → Count) (ofNone : Count) : List Count → Count
  | [] => ofNone
  | count :: counts => counts.foldl operation count

/-- The count on which two options agree: zero or one gives way to any other count. -/
def Count.agree? (a b : Count) : Option Count :=
  if a = b then some a
  else if a = .zeroOrOne then some b
  else if b = .zeroOrOne then some a
  else Option.none

/-- The type of a literal: a truth value, a text in quotes, an integer of sixty-four bits or a
decimal number. -/
def ValueType.ofLiteral? (literal : String) : Option ValueType :=
  let chars := literal.toList
  if literal = "true" ∨ literal = "false" then some .bool
  else if 1 < chars.length ∧ chars.head? = some '"' ∧ chars.getLast? = some '"' then some .string
  else if (integer64? chars).isSome then some .int
  else if isDecimal chars then some .double
  else none

/-- The type of a member whose literals have the given types, listed once each in alphabetical
order: the one type, or decimal numbers where integers stand beside them, or text where there are no
literals. -/
def ValueType.common (member : String) : List ValueType → Except Problem ValueType
  | [] => .ok .string
  | [single] => .ok single
  | [.double, .int] => .ok .double
  | types => .error (.ambiguousType member types)

/-- The default of a value type. -/
def ValueType.zeroText : ValueType → String
  | .bool => "false"
  | .int | .double => "0"
  | .string => ""

namespace Group

/-- The occurrence counts of the arguments. -/
def counts (group : Group) : List Count :=
  group.arguments.map (·.count)

/-- The smallest range that contains the delimiter counts of all arguments. -/
def delimiters (group : Group) : Count :=
  Count.join Count.combine Count.none (group.arguments.map (·.delimiterCount))

/-- Whether all arguments are options. -/
def isOption (group : Group) : Bool :=
  group.arguments.all (·.isOption)

/-- The count on which all options of the group agree. -/
def optionCount (group : Group) : Except Problem Count :=
  match group.counts.foldlM Count.agree? Count.zeroOrOne with
  | some count => .ok count
  | none => .error (.differingCounts group.name)

/-- How often the member can be given: options agree on a count, the counts of positional arguments
add up. -/
def count (group : Group) : Except Problem Count :=
  if group.isOption then group.optionCount
  else .ok (Count.join Count.sum Count.exactlyOne group.counts)

/-- The literals that decide the value type: the first part of the default, the literals of the
constraints and the alternatives of the options. -/
def candidates (group : Group) : List String :=
  (group.properties.default.bind (·.head?)).toList ++
    (group.properties.values.elim [] fun values => values.constraints.flatMap (·.literals)) ++
    group.arguments.flatMap fun argument => argument.value.getD []

/-- The value type that fits all literals of the member. -/
def inferValueType (group : Group) : Except Problem ValueType :=
  match group.candidates.mapM ValueType.ofLiteral? with
  | none => .error (.untypedLiteral group.name)
  | some types => ValueType.common group.name (ValueType.all.filter types.contains)

/-- The declared value type, else the inferred one. -/
def valueType (group : Group) : Except Problem ValueType :=
  match group.properties.valueType with
  | some valueType => .ok valueType
  | none => group.inferValueType

/-- Whether every argument has a fixed number of delimiters. -/
def hasFixedDelimiters (group : Group) : Bool :=
  group.arguments.all (·.hasFixedDelimiterCount)

/-- The kind of a member that declares none. -/
def inferKind (group : Group) (valueType : ValueType) (count : Count) : Kind :=
  if valueType = .bool ∧ count = .zeroOrOne ∧ group.isOption then
    match group.name with
    | "help" => .help
    | "end_of_options" => .final
    | _ => .value
  else if count.max ≠ .bounded 1 ∨ group.delimiters.max.isUnbounded then .list
  else if group.delimiters.max = .bounded 0 then .value
  else if group.delimiters.isFixed then .multivalue
  else if !group.hasFixedDelimiters then .list
  else .multivalue

/-- Checks a declared kind. -/
def checkKind (group : Group) (kind : Kind) (valueType : ValueType) (count : Count) :
    Except Problem Unit :=
  if kind = .multivalue ∧ !group.hasFixedDelimiters then .error (.openMultivalue group.name)
  else if !kind.isCollection ∧ count.max ≠ .bounded 1 then .error (.repeatedSingle group.name)
  else if !kind.isSpecial then .ok ()
  else if valueType ≠ .bool then .error (.specialType group.name kind valueType)
  else if !group.isOption then .error (.specialPositional group.name kind)
  else if group.properties.values.isSome then .error (.specialValues group.name kind)
  else .ok ()

/-- The declared kind if it passes the check, else the inferred one. -/
def kind (group : Group) (valueType : ValueType) (count : Count) : Except Problem Kind :=
  match group.properties.kind with
  | some kind => (group.checkKind kind valueType count).map fun _ => kind
  | none => .ok (group.inferKind valueType count)

/-- Checks a declared default against the rule in effect. -/
def checkDefault (group : Group) (rule : DefaultRule) (default : List String) (kind : Kind)
    (count : Count) : Except Problem Unit :=
  match rule with
  | .nonZeroMinimum =>
    if count.min ≠ 0 ∧ default.any (· ≠ "") then .error (.defaultOfRequired group.name) else .ok ()
  | .listKind => if kind = .list then .error (.defaultOfList group.name) else .ok ()

/-- The smallest number of delimiters that a contributing argument requires. -/
def leastDelimiters (group : Group) : Nat :=
  ((group.arguments.map fun argument => argument.delimiterCount.min.toNat).min?).getD 0

/-- The default of a member that declares none: the lowest value that its first constraint admits by
name, else that of the value type. A multivalue has it once for every value. -/
def inferDefault (group : Group) (kind : Kind) (valueType : ValueType) : List String :=
  let lowest := (group.properties.values.bind (·.constraints.head?)).bind (·.inclusiveLower?)
  let value := lowest.getD valueType.zeroText
  if kind = .multivalue then List.replicate (group.leastDelimiters + 1) value else [value]

/-- The declared default if it passes the check, else the inferred one. -/
def default (group : Group) (rule : DefaultRule) (kind : Kind) (valueType : ValueType)
    (count : Count) : Except Problem (List String) :=
  match group.properties.default with
  | some default => (group.checkDefault rule default kind count).map fun _ => default
  | none => .ok (group.inferDefault kind valueType)

/-- Deduces the member of a group. -/
def member (group : Group) (rule : DefaultRule) : Except Problem Member := do
  let count ← group.count
  let valueType ← group.valueType
  let kind ← group.kind valueType count
  let default ← group.default rule kind valueType count
  .ok {
    name := group.name
    kind := kind
    valueType := valueType
    count := count.timesArity group.delimiters
    values := group.properties.values.elim [] (·.constraints)
    default := default
    extraInclude := group.properties.extraInclude
    arguments := group.arguments }

end Group

end AnnotatedHelp
