import AnnotatedHelp.Text.Numeral

/-!
# JSON values and their text

Values of the JSON data format and the indented text in which they are written: two spaces for
every level, one entry a line, and empty brackets on one line. Strings escape the quote, the
backslash and the control characters below the space; everything else stands for itself.
-/

namespace AnnotatedHelp

/-- A JSON value. -/
inductive Json where
  /-- The null value. -/
  | null
  /-- A truth value. -/
  | bool (b : Bool)
  /-- The number `mantissa / 10 ^ places`. -/
  | number (mantissa : Int) (places : Nat)
  /-- A string. -/
  | string (s : String)
  /-- An array. -/
  | array (items : List Json)
  /-- An object, in the order in which its entries are written. -/
  | object (entries : List (String × Json))
  deriving Repr, Inhabited

namespace Json

/-- A natural number. -/
def nat (n : Nat) : Json := .number n 0

/-- The digits of a hexadecimal numeral, at least as many as asked for. -/
def hexDigits (width n : Nat) : List Char :=
  let digits := Nat.toDigits 16 n
  List.replicate (width - digits.length) '0' ++ digits

/-- A character inside a string. -/
def escape (c : Char) : List Char :=
  match c with
  | '"' => "\\\"".toList
  | '\\' => "\\\\".toList
  | '\n' => "\\n".toList
  | '\r' => "\\r".toList
  | '\t' => "\\t".toList
  | c =>
    if c = '\x08' then "\\b".toList
    else if c = '\x0c' then "\\f".toList
    else if c.toNat < 0x20 then "\\u".toList ++ hexDigits 4 c.toNat
    else [c]

/-- A string in quotes. -/
def quoted (s : String) : String :=
  "\"" ++ String.ofList (s.toList.flatMap escape) ++ "\""

/-- The text of a number. -/
def numberText (mantissa : Int) : (places : Nat) → String
  | 0 => Text.integerText mantissa
  | places => Text.integerText mantissa ++ "e-" ++ places.repr

/-- The indentation of a level. -/
def indent (level : Nat) : String :=
  String.ofList (List.replicate (2 * level) ' ')

/-- Entries, one a line, between brackets; the closing bracket stands on the given level. -/
def block (opening closing : String) (level : Nat) (entries : List String) : String :=
  match entries with
  | [] => opening ++ closing
  | entries =>
    opening ++ "\n" ++ ",\n".intercalate (entries.map (indent (level + 1) ++ ·)) ++ "\n" ++
      indent level ++ closing

mutual

/-- The indented text of a value that stands on a level. -/
def pretty (level : Nat) : Json → String
  | .null => "null"
  | .bool b => if b then "true" else "false"
  | .number mantissa places => numberText mantissa places
  | .string s => quoted s
  | .array items => block "[" "]" level (prettyItems (level + 1) items)
  | .object entries => block "\x7b" "\x7d" level (prettyEntries (level + 1) entries)

/-- The indented texts of the items of an array. -/
def prettyItems (level : Nat) : List Json → List String
  | [] => []
  | item :: items => pretty level item :: prettyItems level items

/-- The indented texts of the entries of an object. -/
def prettyEntries (level : Nat) : List (String × Json) → List String
  | [] => []
  | (key, value) :: entries =>
    (quoted key ++ ": " ++ pretty level value) :: prettyEntries level entries

end

/-- The indented text of a value. -/
def text (value : Json) : String :=
  value.pretty 0

end Json

end AnnotatedHelp
