import AnnotatedHelp.Yaml.Cursor
import AnnotatedHelp.Yaml.Value

/-!
# Writing scalars

A scalar is written in the wanted style if the text allows it. Plain text gives way to single
quotes, and single quotes and literal lines give way to double quotes, in which every text can be
written. Lines are never folded.
-/

namespace AnnotatedHelp.Yaml

/-- Whether a construct of YAML would be seen where plain text begins. -/
def beginsConstruct (text : List Char) : Bool :=
  "---".toList.isPrefixOf text || "...".toList.isPrefixOf text ||
    match text with
    | [] => false
    | c :: rest => isIndicator c || ((c == '?' || c == ':' || c == '-') && atBlankOrEnd rest)

/-- Whether a construct of YAML would be seen behind the first character of plain text: a colon
before a blank, or a number sign behind one. -/
def containsConstruct : List Char → Bool
  | [] => false
  | [_] => false
  | c :: next :: rest =>
    (next == ':' && atBlankOrEnd rest) || (next == '#' && (isBlank c || isBreak c)) ||
      containsConstruct (next :: rest)

/-- Whether two characters that satisfy the given conditions stand side by side. -/
def hasPair (first second : Char → Bool) : List Char → Bool
  | [] => false
  | [_] => false
  | c :: next :: rest => (first c && second next) || hasPair first second (next :: rest)

/-- Whether a character is the space. -/
def isSpace (c : Char) : Bool := c == ' '

/-- Whether a text can only be written in double quotes: it has a character that cannot be written
as it is, or a space before a line break. -/
def needsEscapes (text : List Char) : Bool :=
  text.any (!isPrintable ·) || hasPair isSpace isBreak text

/-- Whether a text can be written between single quotes. -/
def allowsSingle (text : List Char) : Bool :=
  !needsEscapes text && !hasPair isBreak isSpace text

/-- Whether a text can be written without quotes. -/
def allowsPlain (text : List Char) : Bool :=
  allowsSingle text && !text.any isBreak && text.head? != some ' ' && text.getLast? != some ' ' &&
    !beginsConstruct text && !containsConstruct text

/-- Whether a text can be written as literal lines. -/
def allowsLiteral (text : List Char) : Bool :=
  !text.isEmpty && !needsEscapes text && text.getLast? != some ' '

/-- The digits of a hexadecimal numeral in capitals, filled up to a width. -/
def hexCapitals (width n : Nat) : List Char :=
  let digits := (Nat.toDigits 16 n).map Char.toUpper
  List.replicate (width - digits.length) '0' ++ digits

/-- The escape of a character between double quotes. -/
def escapeOf (c : Char) : List Char :=
  match c.toNat with
  | 0x00 => "\\0".toList
  | 0x07 => "\\a".toList
  | 0x08 => "\\b".toList
  | 0x09 => "\\t".toList
  | 0x0A => "\\n".toList
  | 0x0B => "\\v".toList
  | 0x0C => "\\f".toList
  | 0x0D => "\\r".toList
  | 0x1B => "\\e".toList
  | 0x22 => "\\\"".toList
  | 0x5C => "\\\\".toList
  | 0x85 => "\\N".toList
  | 0xA0 => "\\_".toList
  | 0x2028 => "\\L".toList
  | 0x2029 => "\\P".toList
  | n =>
    if n ≤ 0xFF then "\\x".toList ++ hexCapitals 2 n
    else if n ≤ 0xFFFF then "\\u".toList ++ hexCapitals 4 n
    else "\\U".toList ++ hexCapitals 8 n

/-- A text between double quotes. -/
def doubleQuoted (text : List Char) : List Char :=
  '"' :: text.flatMap (fun c =>
    if !isPrintable c || isBreak c || c == '"' || c == '\\' then escapeOf c else [c]) ++ ['"']

/-- The characters of a text with spaces behind line breaks: after a run of breaks the line is
brought to the indentation. A newline that begins such a run is written twice, since a single one
would be read as a space. -/
def indentAfterBreaks (indent : Nat) : (behindBreak : Bool) → List Char → List Char
  | behindBreak, [] => if behindBreak then List.replicate indent ' ' else []
  | behindBreak, c :: text =>
    if isBreak c then
      (if c == '\n' && !behindBreak then ['\n'] else []) ++ c :: indentAfterBreaks indent true text
    else (if behindBreak then List.replicate indent ' ' else []) ++
      c :: indentAfterBreaks indent false text

/-- A text between single quotes. A quote is written twice. -/
def singleQuoted (indent : Nat) (text : List Char) : List Char :=
  '\x27' :: (indentAfterBreaks indent false text).flatMap (fun c =>
    if c == '\x27' then ['\x27', '\x27'] else [c]) ++ ['\x27']

/-- The lines of a literal scalar: every line that has characters is indented. -/
def indentLines (indent : Nat) : (atStart : Bool) → List Char → List Char
  | _, [] => []
  | atStart, c :: text =>
    if isBreak c then c :: indentLines indent true text
    else (if atStart then List.replicate indent ' ' else []) ++ c :: indentLines indent false text

/-- What stands behind the bar of a literal scalar: the indentation if the text begins with a space
or a line break, and how many line breaks at the end belong to it. -/
def literalHints (text : List Char) : List Char :=
  let leading := if text.head?.any fun c => c == ' ' || isBreak c then ['2'] else []
  let trailing := match text.reverse with
    | [] => ['-']
    | [last] => if isBreak last then ['+'] else ['-']
    | last :: previous :: _ =>
      if !isBreak last then ['-'] else if isBreak previous then ['+'] else []
  leading ++ trailing

/-- A text as literal lines. -/
def literalLines (indent : Nat) (text : List Char) : List Char :=
  '|' :: literalHints text ++ '\n' :: indentLines indent true text

/-- A written scalar, closed by a newline unless it ends with a line break of its own. -/
def closeLine (written : List Char) : List Char :=
  if written.getLast?.any isBreak then written else written ++ ['\n']

/-- A scalar as it is written, up to the end of its last line. -/
def scalarText (indent : Nat) (style : Style) (text : List Char) : List Char :=
  let quoted := if allowsSingle text then singleQuoted indent text else doubleQuoted text
  match style with
  | .plain => closeLine (if allowsPlain text then text else quoted)
  | .single => closeLine quoted
  | .literal =>
    closeLine (if allowsLiteral text then literalLines indent text else doubleQuoted text)

end AnnotatedHelp.Yaml
