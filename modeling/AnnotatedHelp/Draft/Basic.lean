import AnnotatedHelp.Definition.Basic
import AnnotatedHelp.Model.Argument

/-!
# Drafts of arguments

A draft is an argument made from one definition alone: what it takes, its delimiter, its counts and
its literal are settled, while its index and its member are not. Beside the argument it holds the
properties that belong to the member, which other definitions may share.
-/

namespace AnnotatedHelp

open Text

/-- Constraints on values as declared, with the text they were read from. -/
structure DeclaredValues where
  /-- The text as written. -/
  text : String
  /-- The constraints it contains. -/
  constraints : List Constraint
  deriving DecidableEq, Repr

/-- What a definition declares about its member. -/
structure MemberProperties where
  /-- The default, cut at the delimiter. -/
  default : Option (List String)
  /-- An extra include. -/
  extraInclude : Option String
  /-- The kind. -/
  kind : Option Kind
  /-- The constraints on values. -/
  values : Option DeclaredValues
  /-- The value type. -/
  valueType : Option ValueType
  deriving DecidableEq, Repr

/-- An argument whose index and member are not settled. -/
structure Draft where
  /-- The argument; its index and its member index are still missing. -/
  argument : Argument
  /-- What the definition declares about the member. -/
  member : MemberProperties
  /-- The index as declared. -/
  declaredIndex : Option String
  /-- The number of a positional argument in its session; an option has none. -/
  number : Option Nat
  deriving DecidableEq, Repr

/-- What an argument takes. -/
inductive Source where
  /-- It assigns this literal. -/
  | literal (text : String)
  /-- It captures a value under this placeholder. -/
  | placeholder (text : String)
  deriving DecidableEq, Repr

namespace Source

/-- The text of the literal or of the placeholder. -/
def text : Source → String
  | literal text => text
  | placeholder text => text

/-- The placeholder, if a value is captured. -/
def placeholder? : Source → Option String
  | literal _ => none
  | placeholder text => some text

/-- The source of an argument with the given literal and placeholder. Without both, an option
assigns `true`; an empty placeholder is written `VALUE`. -/
def ofDefinition (isOption : Bool) (literal placeholder : Option String) : Except Problem Source :=
  match literal, placeholder with
  | some literal, placeholder =>
    if !isOption then .error .literalOfPositional
    else if placeholder.isSome then .error .placeholderAndLiteral
    else if literal = "" then .error .emptyLiteral
    else .ok (.literal literal)
  | none, some placeholder => .ok (.placeholder (if placeholder = "" then "VALUE" else placeholder))
  | none, none => .ok (.literal "true")

end Source

namespace Draft

/-- Whether the draft is that of a positional argument. -/
def isPositional (draft : Draft) : Bool :=
  draft.number.isSome

/-- Whether a count is declared as the single digit zero. -/
def declaredZero (count : Option String) : Bool :=
  count.any fun text => trim text.toList == ['0']

/-- The delimiter: the declared one, or a comma where the source contains one and the delimiter
count is not declared as zero. It has to be one character that is no blank. -/
def readDelimiter (declared : Option String) (source : List Char) (count : Option String) :
    Except Problem (Option Char) :=
  let comma := source.contains ','
  let chosen := match declared with
    | some text => some text.toList
    | none => if comma && !declaredZero count then some [','] else none
  match chosen with
  | none => .ok none
  | some [c] => if isBlank c then .error (.illegalDelimiter comma) else .ok (some c)
  | some _ => .error (.illegalDelimiter comma)

/-- Reads the count of a key. -/
def readCount (key : PropertyKey) (text : String) : Except Problem Count :=
  (Count.parse text).mapError (.illegalCount key)

/-- The delimiter count: the declared one, else as many delimiters as the source contains, else any
number. Without a delimiter it is none, and only zero may be declared. -/
def readDelimiterCount (delimiter : Option Char) (source : List Char) (declared : Option String) :
    Except Problem Count :=
  match delimiter, declared with
  | none, some _ => if declaredZero declared then .ok .none else .error .countWithoutDelimiter
  | none, none => .ok .none
  | some _, some text => readCount .delimiterCount text
  | some c, none =>
    match source.count c with
    | 0 => .ok .zeroOrMore
    | n => .ok (.exactly (Count.clamp n))

/-- The fields of a text between delimiters, or the text itself where there is no delimiter. -/
def alternatives (delimiter : Option Char) (text : String) : List String :=
  match delimiter with
  | none => [text]
  | some c => (splitAll c text.toList).map String.ofList

/-- The literal that a source assigns, cut into alternatives. -/
def valueOf (delimiter : Option Char) : Source → Option (List String)
  | .literal text => some (alternatives delimiter text)
  | .placeholder _ => none

/-- An option of a special kind has to assign `true` and nothing else. -/
def checkSpecial (kind : Option Kind) (value : Option (List String)) : Except Problem Unit :=
  match kind with
  | none => .ok ()
  | some kind =>
    if !kind.isSpecial then .ok ()
    else match value with
      | none => .error (.specialCaptures kind)
      | some value => if value = ["true"] then .ok () else .error (.specialLiteral kind)

/-- Cuts a default at the delimiter, at most as often as a capture may contain one. A default of one
part is repeated for every value that a capture has to have. -/
def splitDefault (delimiter : Option Char) (count : Count) (text : String) :
    Except Problem (List String) :=
  match delimiter with
  | none => .ok [text]
  | some c =>
    let parts := match count.max with
      | .bounded limit => splitAtMost c limit.toNat text.toList
      | .unbounded => splitAll c text.toList
    let arity := count.min.toNat + 1
    if parts.length = 1 then .ok (List.replicate arity text)
    else if parts.length < arity then .error (.shortDefault arity)
    else .ok (parts.map String.ofList)

/-- The occurrence count: the declared or implied one, which may not have zero as its largest
number, else what holds for options and for positional arguments. -/
def readOccurrences (isOption : Bool) (text : Option String) : Except Problem Count :=
  match text with
  | none => .ok (if isOption then .zeroOrOne else .exactlyOne)
  | some text =>
    match readCount .count text with
    | .error problem => .error problem
    | .ok count => if count.max = .bounded 0 then .error .zeroMaximum else .ok count

/-- The member name, which may not be empty. -/
def readMemberName (text : String) : Except Problem String :=
  if text = "" then .error .emptyMemberName else .ok text

/-- Reads the constraints on values. -/
def readValues (text : String) : Except Problem DeclaredValues :=
  match Constraint.parseList text with
  | .error error => .error (.illegalValues error)
  | .ok constraints => .ok ⟨text, constraints⟩

/-- The flags of an option; there has to be at least one. -/
def readFlags (flags : Option String) : Except Problem (List String) :=
  match flags with
  | none => .ok []
  | some text =>
    match wordsOf text with
    | [] => .error .noFlags
    | flags => .ok flags

/-- Makes the draft of a definition, the `ordinal`-th of its document. -/
def ofDefinition (ordinal : Nat) (definition : Definition) : Except Problem Draft := do
  let get := definition.get
  let flags ← readFlags (get .flags)
  let source ← Source.ofDefinition definition.isOption (get .value) (get .metaVariable)
  let delimiter ← readDelimiter (get .delimiter) source.text.toList (get .delimiterCount)
  let delimiterCount ← readDelimiterCount delimiter source.text.toList (get .delimiterCount)
  let value := valueOf delimiter source
  let kind := (get .kind).bind Kind.ofName?
  checkSpecial kind value
  let default ← (get .default).mapM (splitDefault delimiter delimiterCount)
  let count ← readOccurrences definition.isOption (get .count)
  let memberName ← readMemberName ((get .memberName).getD definition.name)
  let values ← (get .values).mapM readValues
  let argument : Argument := {
    name := definition.name
    memberName := memberName
    flags := flags
    metaVariable := source.placeholder?
    value := value
    delimiter := delimiter
    delimiterCount := delimiterCount
    count := count
    countDeclared := definition.declares .count
    index := none
    text := (get .text).getD (String.ofList (trim definition.text))
    visible := ((get .visible).bind readBool?).getD true
    lineNumber := definition.line
    ordinal := ordinal
    memberIndex := none
    action := get .action
    argumentType := get .argumentType
    callback := get .callback
    condition := get .condition
    conditionMessage := get .conditionMessage }
  let member : MemberProperties := {
    default := default
    extraInclude := get .extraInclude
    kind := kind
    values := values
    valueType := (get .valueType).bind ValueType.ofName? }
  .ok ⟨argument, member, get .index, definition.number⟩

end Draft

end AnnotatedHelp
