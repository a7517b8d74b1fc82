import AnnotatedHelp.Definition.Block
import AnnotatedHelp.Definition.Flag
import AnnotatedHelp.Definition.Name
import AnnotatedHelp.Definition.Property

/-!
# Definitions

A definition is a block whose fields have been read: what it shows, the properties it declares and
the properties that its text implies. Options and positional arguments are numbered separately, and
the numbers run on over all definitions that a session reads. They name a definition that has no
text to take a name from, and give the order in which positional arguments get their indices.
-/

namespace AnnotatedHelp

open Text

/-- How many positional arguments and options have been numbered. -/
structure Counters where
  /-- Positional arguments so far. -/
  arguments : Nat
  /-- Options so far. -/
  options : Nat
  deriving DecidableEq, Repr

namespace Counters

/-- Nothing has been numbered. -/
def zero : Counters := ⟨0, 0⟩

/-- One more positional argument. -/
def nextArgument (counters : Counters) : Counters :=
  { counters with arguments := counters.arguments + 1 }

/-- One more option. -/
def nextOption (counters : Counters) : Counters :=
  { counters with options := counters.options + 1 }

end Counters

/-- A block whose fields have been read. -/
structure Definition where
  /-- The line of the block. -/
  line : Nat
  /-- What the block shows, exactly as written. -/
  text : List Char
  /-- The name taken from flags or text. -/
  name : String
  /-- The number of a positional argument in its session; an option has none. -/
  number : Option Nat
  /-- The properties that the text implies. -/
  implied : Properties
  /-- The properties that the block declares. -/
  declared : Properties

namespace Definition

/-- A property: the declared value, else the implied one. -/
def get (definition : Definition) (key : PropertyKey) : Option String :=
  (definition.declared key).or (definition.implied key)

/-- Whether the block declares a property. -/
def declares (definition : Definition) (key : PropertyKey) : Bool :=
  (definition.declared key).isSome

/-- A definition with flags, declared or implied, is an option. -/
def isOption (definition : Definition) : Bool :=
  (definition.get .flags).isSome

/-- The text of a truth value. -/
def boolText (b : Bool) : String :=
  if b then "true" else "false"

/-- The count that the text of a positional argument implies: brackets make it optional, and dots
at the end let it repeat. -/
def impliedCount (text : List Char) : String :=
  let optional := text.head? == some '['
  let repeats := "...".toList.isSuffixOf text || (optional && "...]".toList.isSuffixOf text)
  match optional, repeats with
  | true, true => "0.."
  | true, false => "0..1"
  | false, true => "1.."
  | false, false => "1"

/-- What declared flags imply: a member name. -/
def impliedByFlags (number : Nat) (flags : String) : Properties :=
  Properties.empty.set .memberName (String.ofList (Name.ofFlags number (words flags.toList)))

/-- What the text of an option implies: a member name, the flags, and a placeholder if there is
one. -/
def impliedByOption (number : Nat) (flags : List (List Char)) (placeholder : Option (List Char)) :
    Properties :=
  let implied := ((Properties.empty.set .memberName
    (String.ofList (Name.ofFlags number flags))).set .flags
    (String.ofList ([' '].intercalate flags))).set .visible (boolText true)
  match placeholder with
  | none => implied
  | some placeholder => implied.set .metaVariable (String.ofList placeholder)

/-- What the text of a positional argument implies: a member name, a placeholder, its visibility
and, unless the text is empty, a count. -/
def impliedByPositional (number : Nat) (text : List Char) : Properties :=
  let implied := ((Properties.empty.set .memberName
    (String.ofList (Name.ofPositional number text))).set .metaVariable
    (String.ofList (Name.placeholder number text))).set .visible (boolText !text.isEmpty)
  if text.isEmpty then implied else implied.set .count (impliedCount text)

/-- What a definition implies, with the flags its text contains. -/
inductive Shape where
  /-- An option whose flags are declared. -/
  | declaredFlags (flags : String)
  /-- An option whose text holds its flags and a placeholder. -/
  | optionText (flags : List (List Char)) (placeholder : Option (List Char))
  /-- A positional argument with its text. -/
  | positionalText (text : List Char)

/-- The shape of a definition. A declared text takes the place of the visible one. -/
def shapeOf (declared : Properties) (visible : List Char) : Except Problem Shape :=
  let text := trim ((declared .text).elim visible String.toList)
  match declared .flags with
  | some flags => .ok (.declaredFlags flags)
  | none =>
    if Flag.isOptionText text then
      match Flag.parse text with
      | .error problem => .error problem
      | .ok (flags, placeholder) => .ok (.optionText flags placeholder)
    else .ok (.positionalText text)

namespace Shape

/-- Whether a definition of this shape is a positional argument. -/
def isPositional : Shape → Bool
  | positionalText _ => true
  | declaredFlags _ | optionText .. => false

/-- The properties that the shape implies, numbered by the counters. -/
def implied (counters : Counters) : Shape → Properties
  | declaredFlags flags => impliedByFlags counters.options flags
  | optionText flags placeholder => impliedByOption counters.options flags placeholder
  | positionalText text => impliedByPositional counters.arguments text

/-- The number that a definition of this shape gets if it is a positional argument. -/
def number (counters : Counters) : Shape → Option Nat
  | positionalText _ => some counters.arguments
  | declaredFlags _ | optionText .. => none

/-- The counters after a definition of this shape. -/
def count (counters : Counters) : Shape → Counters
  | positionalText _ => counters.nextArgument
  | declaredFlags _ | optionText .. => counters.nextOption

end Shape

/-- Puts a definition together. An option may not declare an index. -/
def ofShape (line : Nat) (visible : List Char) (declared : Properties) (counters : Counters)
    (shape : Shape) : Except Problem Definition :=
  if (declared .index).isSome && !shape.isPositional then .error .indexOfOption
  else
    let implied := shape.implied counters
    .ok ⟨line, visible, (implied .memberName).getD "", shape.number counters, implied, declared⟩

/-- Reads a block. A definition takes its number once its fields are checked and its flags are told
apart, also when it is refused after that. -/
def ofBlock (marks : Marks) (dialect : Dialect) (counters : Counters) (block : Block) :
    Except Problem Definition × Counters :=
  let fields := splitAlone marks.separator block.body
  let visible := fields.headD []
  match Property.readFields dialect fields.tail with
  | .error problem => (.error problem, counters)
  | .ok declared =>
    match shapeOf declared visible with
    | .error problem => (.error problem, counters)
    | .ok shape => (ofShape block.line visible declared counters shape, shape.count counters)

end Definition

end AnnotatedHelp
