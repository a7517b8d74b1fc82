import AnnotatedHelp.Yaml.Cursor
import AnnotatedHelp.Yaml.Resolution

/-!
# Reading scalars

Plain, quoted and literal or folded scalars. Every reader gives the text that the scalar stands for
and the cursor behind it, or nothing if the scalar is malformed.
-/

namespace AnnotatedHelp.Yaml

/-- Whether a character ends plain text inside brackets. -/
def isFlowIndicator (c : Char) : Bool :=
  ",[]\x7b\x7d".toList.contains c

/-- The number of characters of plain text up to the next blank, line break or indicator. Inside
brackets a colon may not stand before another indicator. -/
def plainLength (inFlow : Bool) : List Char → Option Nat
  | [] => some 0
  | c :: rest =>
    if isBlank c || isBreak c then some 0
    else if inFlow && c == ':' && rest.head?.any fun d => d == '?' || isFlowIndicator d then none
    else if (c == ':' && atBlankOrEnd rest) || (inFlow && isFlowIndicator c) then some 0
    else (plainLength inFlow rest).map (· + 1)

/-- Reads a plain scalar. The last component tells whether the reader has passed a line break. -/
def readPlain (fuel : Nat) (inFlow : Bool) (indent : Int) (text : List Char) (gap : Gap)
    (cursor : Cursor) : Option (List Char × Cursor × Bool) :=
  match fuel with
  | 0 => none
  | fuel + 1 =>
    if cursor.atDocumentMark || cursor.rest.head? == some '#' then some (text, cursor, gap.folded)
    else do
      let length ← plainLength inFlow cursor.rest
      if length = 0 then some (text, cursor, gap.folded)
      else
        let text := text ++ gap.text ++ cursor.rest.take length
        let (gap, next) ← Gap.read (cursor.rest.length + 1) indent ⟨[], [], false⟩
          (cursor.skip length)
        if next.index = (cursor.skip length).index then some (text, next, false)
        else if !inFlow && next.column < indent then some (text, next, gap.folded)
        else readPlain fuel inFlow indent text gap next

/-- The character of a numeral in hexadecimal digits, if it is one. -/
def charOfHex? (digits : List Char) : Option Char := do
  let n ← digits? 16 digits
  if n < 0xD800 ∨ (0xDFFF < n ∧ n ≤ 0x10FFFF) then some (Char.ofNat n) else none

/-- Reads the character of an escape with the given number of hexadecimal digits. -/
def hexEscape? (width : Nat) (rest : List Char) : Option (Char × Nat) :=
  if rest.length < width then none
  else (charOfHex? (rest.take width)).map fun c => (c, width + 1)

/-- The character of an escape, and the number of characters it takes behind the backslash. -/
def escape? : List Char → Option (Char × Nat)
  | [] => none
  | c :: rest =>
    match c with
    | '0' => some ('\x00', 1)
    | 'a' => some ('\x07', 1)
    | 'b' => some ('\x08', 1)
    | 't' | '\t' => some ('\t', 1)
    | 'n' => some ('\n', 1)
    | 'v' => some ('\x0b', 1)
    | 'f' => some ('\x0c', 1)
    | 'r' => some ('\r', 1)
    | 'e' => some ('\x1b', 1)
    | ' ' => some (' ', 1)
    | '"' => some ('"', 1)
    | '/' => some ('/', 1)
    | '\\' => some ('\\', 1)
    | 'N' => some ('\u0085', 1)
    | '_' => some ('\u00a0', 1)
    | 'L' => some ('\u2028', 1)
    | 'P' => some ('\u2029', 1)
    | 'x' => hexEscape? 2 rest
    | 'u' => hexEscape? 4 rest
    | 'U' => hexEscape? 8 rest
    | _ => none

/-- Whether a character stands for itself between quotes, wherever it is. -/
def isOrdinary (quote c : Char) : Bool :=
  c != quote && c != '\\' && !isBlank c && !isBreak c

/-- Reads a quoted scalar behind its opening quote. A single quote is written twice between single
quotes; double quotes know escapes, and a backslash at the end of a line joins it to the next. -/
def readQuoted (fuel : Nat) (quote : Char) (text : List Char) (cursor : Cursor) :
    Option (List Char × Cursor) :=
  match fuel with
  | 0 => none
  | fuel + 1 =>
    if cursor.atDocumentMark then none
    else match cursor.rest with
      | [] => none
      | c :: rest =>
        if c == quote then
          if quote == '\x27' && rest.head? == some quote then
            readQuoted fuel quote (text ++ [quote]) (cursor.skip 2)
          else some (text, cursor.skip 1)
        else if c == '\\' && quote == '"' then
          if rest.head?.any isBreak then do
            let (_, next) := (cursor.skip 1).readBreak
            let (gap, next) ← Gap.read (rest.length + 1) 0 ⟨[], [], true⟩ next
            readQuoted fuel quote (text ++ gap.breaks) next
          else do
            let (escaped, length) ← escape? rest
            readQuoted fuel quote (text ++ [escaped]) (cursor.skip (length + 1))
        else if isBlank c || isBreak c then do
          let (gap, next) ← Gap.read (rest.length + 2) 0 ⟨[], [], false⟩ cursor
          readQuoted fuel quote (text ++ gap.text) next
        else
          let run := c :: rest.takeWhile (isOrdinary quote)
          readQuoted fuel quote (text ++ run) (cursor.skip run.length)

/-- What happens to the line breaks at the end of a literal or folded scalar. -/
inductive Chomping where
  /-- They are dropped. -/
  | strip
  /-- One is kept. -/
  | clip
  /-- All are kept. -/
  | keep
  deriving DecidableEq, Repr

/-- Reads a sign that tells what happens to the line breaks at the end. -/
def chomping? (cursor : Cursor) : Option (Chomping × Cursor) :=
  match cursor.rest.head? with
  | some '+' => some (.keep, cursor.skip 1)
  | some '-' => some (.strip, cursor.skip 1)
  | _ => none

/-- Reads a digit that tells the indentation. -/
def indentation? (cursor : Cursor) : Option (Nat × Cursor) :=
  match cursor.rest.head? with
  | some c => if c.isDigit then some (c.toNat - 48, cursor.skip 1) else none
  | none => none

/-- Reads what stands behind the bar, in either order: the indentation, zero if there is none, and
what happens to the line breaks at the end. -/
def readHints (cursor : Cursor) : Option (Nat × Chomping × Cursor) :=
  match chomping? cursor with
  | some (chomping, cursor) =>
    match indentation? cursor with
    | some (0, _) => none
    | some (indent, cursor) => some (indent, chomping, cursor)
    | none => some (0, chomping, cursor)
  | none =>
    match indentation? cursor with
    | some (0, _) => none
    | some (indent, cursor) =>
      match chomping? cursor with
      | some (chomping, cursor) => some (indent, chomping, cursor)
      | none => some (indent, .clip, cursor)
    | none => some (0, .clip, cursor)

/-- Reads the empty lines before a line of a literal or folded scalar. With indentation zero, the
indentation is still to be found; `widest` is the widest line so far. -/
def readEmptyLines (fuel : Nat) (indent widest : Nat) (breaks : List Char) (cursor : Cursor) :
    Option (Nat × List Char × Cursor) :=
  match fuel with
  | 0 => none
  | fuel + 1 =>
    let width := (cursor.rest.takeWhile (· == ' ')).length
    let cursor := cursor.skip (if indent = 0 then width else min width (indent - cursor.column))
    let widest := max widest cursor.column
    if (indent = 0 || cursor.column < indent) && cursor.rest.head? == some '\t' then none
    else if !cursor.atBreak then some (widest, breaks, cursor)
    else
      let (br, cursor) := cursor.readBreak
      readEmptyLines fuel indent widest (breaks ++ br) cursor

/-- Reads the lines of a literal or folded scalar. `last` is the line break behind the line before,
`breaks` those of the empty lines behind it, and `blank` tells whether it began with a blank. -/
def readLines (fuel : Nat) (literal : Bool) (indent : Nat) (text last breaks : List Char)
    (blank : Bool) (cursor : Cursor) : Option (List Char × List Char × List Char × Cursor) :=
  match fuel with
  | 0 => none
  | fuel + 1 =>
    if cursor.column ≠ indent || cursor.rest.isEmpty then some (text, last, breaks, cursor)
    else
      let nowBlank := cursor.rest.head?.any isBlank
      let joint :=
        if !literal && last.head? == some '\n' && !blank && !nowBlank then
          if breaks.isEmpty then [' '] else breaks
        else last ++ breaks
      let line := cursor.rest.takeWhile (!isBreak ·)
      let (last, cursor) := cursor.skipLine.readBreak
      do
        let (_, breaks, cursor) ← readEmptyLines (cursor.rest.length + 2) indent 0 [] cursor
        readLines fuel literal indent (text ++ joint ++ line) last breaks nowBlank cursor

/-- Reads a literal or folded scalar behind its bar or angle bracket, inside a collection that is
indented by `outer`. -/
def readBlock (literal : Bool) (outer : Int) (cursor : Cursor) : Option (List Char × Cursor) := do
  let (declared, chomping, cursor) ← readHints cursor
  let cursor := cursor.skipBlanksAndComment
  if !cursor.atBreakOrEnd then none
  else
    let (_, cursor) := cursor.readBreak
    let fuel := cursor.rest.length + 2
    let indent := if declared = 0 then 0 else declared + outer.toNat
    let (widest, breaks, cursor) ← readEmptyLines fuel indent 0 [] cursor
    let indent := if indent = 0 then max (max widest (outer + 1).toNat) 1 else indent
    let (text, last, breaks, cursor) ← readLines fuel literal indent [] [] breaks false cursor
    let ending := match chomping with
      | .strip => []
      | .clip => last
      | .keep => last ++ breaks
    some (text ++ ending, cursor)

end AnnotatedHelp.Yaml
