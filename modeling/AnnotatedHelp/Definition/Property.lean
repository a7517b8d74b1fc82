import AnnotatedHelp.Text.Character
import AnnotatedHelp.Definition.Flag

/-!
# Properties of a definition

The fields behind the visible text of a definition have the form `Key: Value`. They are collected
into a table with at most one value per key, and the values that have a syntax of their own are
checked in the order of the keys.
-/

namespace AnnotatedHelp

open Text

/-- A table with at most one text per property key. -/
def Properties := PropertyKey → Option String

namespace Properties

/-- The table without entries. -/
def empty : Properties := fun _ => none

/-- The table with one entry added or replaced. -/
def set (properties : Properties) (key : PropertyKey) (value : String) : Properties :=
  fun other => if other = key then some value else properties other

/-- A key that was just set has the new value. -/
@[simp] theorem set_self (properties : Properties) (key : PropertyKey) (value : String) :
    properties.set key value key = some value := by
  simp [set]

/-- Setting a key leaves the others. -/
@[simp] theorem set_other (properties : Properties) {key other : PropertyKey} (value : String)
    (h : other ≠ key) : properties.set key value other = properties other := by
  simp [set, h]

end Properties

/-- The truth value of a text, in any case and with blanks around it. -/
def readBool? (text : String) : Option Bool :=
  match foldCase (trimmed text) with
  | "true" => some true
  | "false" => some false
  | _ => none

namespace Property

/-- Reads one field: `none` if it is blank, else its key and its value without outer blanks. -/
def ofField (dialect : Dialect) (field : List Char) :
    Except Problem (Option (PropertyKey × String)) :=
  match trim field with
  | [] => .ok none
  | text =>
    match cut [':'] text with
    | none => .error (.missingColon (String.ofList text))
    | some (before, after) =>
      let name := String.ofList (trim before)
      match PropertyKey.ofName? dialect (foldCase name) with
      | none => .error (.unknownProperty name)
      | some key => .ok (some (key, String.ofList (trim after)))

/-- Adds a property to a table. A key may be given again with the value it has. -/
def add (properties : Properties) (key : PropertyKey) (value : String) :
    Except Problem Properties :=
  match properties key with
  | none => .ok (properties.set key value)
  | some first =>
    if first = value then .ok properties else .error (.repeatedProperty key first value)

/-- Adds the property of a field to a table. -/
def addField (dialect : Dialect) (properties : Properties) (field : List Char) :
    Except Problem Properties := do
  match ← ofField dialect field with
  | none => .ok properties
  | some (key, value) => add properties key value

/-- Checks the value of a key that has a syntax of its own. Counts, delimiters and indices are
checked later, where they are used. -/
def check (key : PropertyKey) (value : String) : Except Problem Unit :=
  match key with
  | .flags =>
    match (words value.toList).find? (!Flag.isLegal ·) with
    | some flag => .error (.illegalFlag (String.ofList flag))
    | none => .ok ()
  | .kind => if (Kind.ofName? value).isNone then .error (.illegalKind value) else .ok ()
  | .valueType =>
    if (ValueType.ofName? value).isNone then .error (.illegalValueType value) else .ok ()
  | .values => (Constraint.parseList value).mapError .illegalValues |>.map fun _ => ()
  | .visible => if (readBool? value).isNone then .error (.illegalVisibility value) else .ok ()
  | _ => .ok ()

/-- Checks the value of a key, if the table has one. -/
def checkEntry (properties : Properties) (key : PropertyKey) : Except Problem Unit :=
  match properties key with
  | none => .ok ()
  | some value => check key value

/-- Checks all entries of a table, in the order of the keys. -/
def checkAll (properties : Properties) : Except Problem Unit :=
  PropertyKey.all.forM (checkEntry properties)

/-- Reads the fields of a definition into a table of checked properties. -/
def readFields (dialect : Dialect) (fields : List (List Char)) : Except Problem Properties := do
  let properties ← fields.foldlM (addField dialect) .empty
  checkAll properties
  .ok properties

end Property

end AnnotatedHelp
