/-!
# Characters and places of a YAML text

The classes of characters decide how YAML text is read and written. Line breaks are more than the
newline, and only the space counts as a space; the tab is a blank.

A cursor is the rest of a text with the place where it begins. Lines and columns count from zero; the
distance from the beginning is counted in bytes. A carriage return and a newline together are one
line break, and every line break but the line and paragraph separators is read as a newline.
-/

namespace AnnotatedHelp.Yaml

/-- Whether a character ends a line: newline, carriage return, next line, line separator or
paragraph separator. -/
def isBreak (c : Char) : Bool :=
  c == '\n' || c == '\r' || c == '\u0085' || c == '\u2028' || c == '\u2029'

/-- Whether a character is a space or a tab. -/
def isBlank (c : Char) : Bool :=
  c == ' ' || c == '\t'

/-- Whether a text is at its end, at a blank or at a line break. -/
def atBlankOrEnd (text : List Char) : Bool :=
  text.head?.all fun c => isBlank c || isBreak c

/-- Whether a character can be written as it is: the newline, the visible ASCII characters, and all
later characters but the controls, the byte order mark and the two last ones of the basic plane. -/
def isPrintable (c : Char) : Bool :=
  let n := c.toNat
  n == 0x0A || (0x20 ≤ n && n ≤ 0x7E) ||
    (0xA0 ≤ n && n != 0xFEFF && n != 0xFFFE && n != 0xFFFF)

/-- Whether a character begins a construct of YAML when it stands first. -/
def isIndicator (c : Char) : Bool :=
  "#,[]\x7b\x7d&*!|>'\"%@\x60".toList.contains c

/-- The number of bytes that characters take. -/
def byteLength : List Char → Nat
  | [] => 0
  | c :: text => c.utf8Size + byteLength text

/-- The rest of a text and where it begins. -/
structure Cursor where
  /-- The characters still to be read. -/
  rest : List Char
  /-- The number of bytes read. -/
  index : Nat
  /-- The number of lines read. -/
  line : Nat
  /-- The number of characters of the current line that were read. -/
  column : Nat
  deriving Repr

namespace Cursor

/-- The beginning of a text. -/
def start (text : List Char) : Cursor := ⟨text, 0, 0, 0⟩

/-- Passes characters of the current line. -/
def skip (count : Nat) (cursor : Cursor) : Cursor :=
  let passed := cursor.rest.take count
  { cursor with
    rest := cursor.rest.drop count
    index := cursor.index + byteLength passed
    column := cursor.column + passed.length }

/-- Passes the characters that satisfy a condition, none of which is a line break. -/
def skipWhile (p : Char → Bool) (cursor : Cursor) : Cursor :=
  cursor.skip (cursor.rest.takeWhile p).length

/-- Whether the cursor stands at a line break. -/
def atBreak (cursor : Cursor) : Bool :=
  cursor.rest.head?.any isBreak

/-- Whether the cursor stands at a line break or at the end. -/
def atBreakOrEnd (cursor : Cursor) : Bool :=
  cursor.rest.head?.all isBreak

/-- Reads one line break. -/
def readBreak (cursor : Cursor) : List Char × Cursor :=
  let next (bytes : Nat) (rest : List Char) : Cursor :=
    ⟨rest, cursor.index + bytes, cursor.line + 1, 0⟩
  match cursor.rest with
  | '\r' :: '\n' :: rest => (['\n'], next 2 rest)
  | c :: rest =>
    if c == '\u2028' || c == '\u2029' then ([c], next c.utf8Size rest)
    else if isBreak c then (['\n'], next c.utf8Size rest)
    else ([], cursor)
  | [] => ([], cursor)

/-- Passes the rest of the current line, without its line break. -/
def skipLine (cursor : Cursor) : Cursor :=
  cursor.skipWhile (!isBreak ·)

/-- Passes blanks, and a comment behind them. -/
def skipBlanksAndComment (cursor : Cursor) : Cursor :=
  let cursor := cursor.skipWhile isBlank
  if cursor.rest.head? == some '#' then cursor.skipLine else cursor

/-- Whether the cursor stands at the start of a line that holds the given mark of a document. -/
def atMark (mark : String) (cursor : Cursor) : Bool :=
  cursor.column == 0 && mark.toList.isPrefixOf cursor.rest && atBlankOrEnd (cursor.rest.drop 3)

/-- Whether the cursor stands at a mark that begins or ends a document. -/
def atDocumentMark (cursor : Cursor) : Bool :=
  cursor.atMark "---" || cursor.atMark "..."

end Cursor

/-- The blanks and line breaks between two pieces of a scalar. -/
structure Gap where
  /-- The blanks before the first line break. -/
  blanks : List Char
  /-- The line breaks, if there are any. -/
  breaks : List Char
  /-- Whether the text goes on on another line. -/
  folded : Bool
  deriving Repr

namespace Gap

/-- What a gap means: blanks stand for themselves, a single newline for a space, and of several
line breaks the first newline is dropped. -/
def text (gap : Gap) : List Char :=
  if !gap.folded then gap.blanks
  else match gap.breaks with
    | ['\n'] => [' ']
    | '\n' :: more => more
    | breaks => breaks

/-- Reads blanks and line breaks. Behind a line break, a tab before column `indent` is refused. -/
def read (fuel : Nat) (indent : Int) (gap : Gap) (cursor : Cursor) : Option (Gap × Cursor) :=
  match fuel with
  | 0 => some (gap, cursor)
  | fuel + 1 =>
    match cursor.rest with
    | [] => some (gap, cursor)
    | c :: _ =>
      if isBlank c then
        if gap.folded && c == '\t' && cursor.column < indent then none
        else if gap.folded then read fuel indent gap (cursor.skip 1)
        else read fuel indent { gap with blanks := gap.blanks ++ [c] } (cursor.skip 1)
      else if isBreak c then
        let (br, cursor) := cursor.readBreak
        read fuel indent { gap with breaks := gap.breaks ++ br, folded := true } cursor
      else some (gap, cursor)

end Gap

end AnnotatedHelp.Yaml
