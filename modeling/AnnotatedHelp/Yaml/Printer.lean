import AnnotatedHelp.Yaml.Scalar

/-!
# Writing values

Values are written in block form. The entries of a nested mapping stand two columns further in; the
items of a sequence stand in the column of the mapping that holds it. A mapping that is an item
begins behind its dash, unless it has a tag. Empty collections are written as brackets.
-/

namespace AnnotatedHelp.Yaml

/-- Spaces up to a column. -/
def spaces (column : Nat) : List Char :=
  List.replicate column ' '

mutual

/-- What stands behind a key or a tag in a collection at a column, up to the end of the value. -/
def after (column : Nat) : Yaml → List Char
  | .scalar style text => ' ' :: scalarText (column + 2) style text
  | .sequence [] => " []\n".toList
  | .sequence (item :: items) => '\n' :: itemsAt column true (item :: items)
  | .mapping [] => " \x7b\x7d\n".toList
  | .mapping (entry :: entries) => '\n' :: entriesAt (column + 2) true (entry :: entries)
  | .tagged tag value => ' ' :: tag.toList ++ after column value

/-- What stands behind the dash of an item of a sequence at a column. -/
def afterDash (column : Nat) : Yaml → List Char
  | .scalar style text => ' ' :: scalarText (column + 2) style text
  | .sequence [] => " []\n".toList
  | .sequence (item :: items) => ' ' :: itemsAt (column + 2) false (item :: items)
  | .mapping [] => " \x7b\x7d\n".toList
  | .mapping (entry :: entries) => ' ' :: entriesAt (column + 2) false (entry :: entries)
  | .tagged tag value => ' ' :: tag.toList ++ after column value

/-- The items of a sequence at a column; the first is indented only if asked for. -/
def itemsAt (column : Nat) (indented : Bool) : List Yaml → List Char
  | [] => []
  | item :: items =>
    (if indented then spaces column else []) ++ '-' :: afterDash column item ++
      itemsAt column true items

/-- The entries of a mapping at a column; the first is indented only if asked for. -/
def entriesAt (column : Nat) (indented : Bool) : List (String × Yaml) → List Char
  | [] => []
  | (key, value) :: entries =>
    (if indented then spaces column else []) ++ key.toList ++ ':' :: after column value ++
      entriesAt column true entries

end

/-- A value as a YAML document whose root is a mapping. -/
def text (entries : List (String × Yaml)) : String :=
  String.ofList (entriesAt 0 true entries)

end AnnotatedHelp.Yaml
