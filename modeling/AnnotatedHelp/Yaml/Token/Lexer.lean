import AnnotatedHelp.Yaml.Token.Basic
import AnnotatedHelp.Yaml.Token.Scalar

/-!
# Cutting a text into tokens

Tokens are found from left to right. Indentation opens and closes collections, and a scalar or a
collection may turn out to be a key only when a colon follows it on the same line: its place is
remembered, and the tokens that announce a key are put there afterwards.
-/

namespace AnnotatedHelp.Yaml

/-- A place where a key may begin. -/
structure KeyPlace where
  /-- Whether only a key may stand there. -/
  required : Bool
  /-- The number of tokens before it. -/
  tokens : Nat
  /-- The number of bytes before it. -/
  index : Nat
  /-- Its line. -/
  line : Nat
  /-- Its column. -/
  column : Nat
  deriving Repr

/-- The state of cutting a text into tokens. -/
structure Lexer where
  /-- Where the rest of the text begins. -/
  cursor : Cursor
  /-- The tokens found. -/
  tokens : Array Token
  /-- The column of the innermost collection by indentation; below zero outside all. -/
  indent : Int
  /-- The columns of the collections around it, innermost first. -/
  outer : List Int
  /-- For every level of brackets, innermost first, the place where a key may have begun; the last
  entry is for the text outside brackets. -/
  keys : List (Option KeyPlace)
  /-- Whether a key may begin here. -/
  keyAllowed : Bool
  deriving Repr

namespace Lexer

/-- The state before the first character. -/
def start (text : List Char) : Lexer :=
  ⟨.start text, #[], -1, [], [none], true⟩

/-- Whether the cursor stands inside brackets. -/
def inFlow (lexer : Lexer) : Bool :=
  1 < lexer.keys.length

/-- Adds a token. -/
def add (token : Token) (lexer : Lexer) : Lexer :=
  { lexer with tokens := lexer.tokens.push token }

/-- Passes characters of the current line. -/
def skip (count : Nat) (lexer : Lexer) : Lexer :=
  { lexer with cursor := lexer.cursor.skip count }

/-- Allows or forbids a key to begin here. -/
def allowKey (allowed : Bool) (lexer : Lexer) : Lexer :=
  { lexer with keyAllowed := allowed }

/-- Forgets the place where a key may have begun, unless only a key may stand there. -/
def dropKey (lexer : Lexer) : Option Lexer :=
  match lexer.keys with
  | some place :: keys => if place.required then none else some { lexer with keys := none :: keys }
  | _ => some lexer

/-- Remembers this place as one where a key may begin. -/
def saveKey (lexer : Lexer) : Option Lexer :=
  if !lexer.keyAllowed then some lexer
  else do
    let lexer ← lexer.dropKey
    let cursor := lexer.cursor
    let place : KeyPlace :=
      ⟨!lexer.inFlow && lexer.indent == cursor.column, lexer.tokens.size, cursor.index,
        cursor.line, cursor.column⟩
    some { lexer with keys := some place :: lexer.keys.tail }

/-- A key has to end on its line and within a thousand and twenty-four bytes. -/
def isStale (cursor : Cursor) (place : KeyPlace) : Bool :=
  place.line < cursor.line || place.index + 1024 < cursor.index

/-- Forgets the places whose key can no longer be complete. -/
def dropStaleKeys (lexer : Lexer) : Option Lexer :=
  if lexer.keys.any fun key => key.any fun place => isStale lexer.cursor place && place.required then
    none
  else
    some { lexer with keys := lexer.keys.map fun key => key.filter (!isStale lexer.cursor ·) }

/-- Opens a collection by indentation if this column is further in than the innermost one. The token
that opens it goes to the given place. -/
def openBlock (column : Nat) (place : Nat) (token : Token) (lexer : Lexer) : Lexer :=
  if lexer.inFlow || (column : Int) ≤ lexer.indent then lexer
  else
    { lexer with
      indent := column
      outer := lexer.indent :: lexer.outer
      tokens := lexer.tokens.insertIdxIfInBounds place token }

/-- The columns of the collections that stay open when those further in than a column are closed,
innermost first, and the number of collections closed. -/
def columnsAt (column : Int) : (indent : Int) → (outer : List Int) → Int × List Int × Nat
  | indent, [] => (indent, [], 0)
  | indent, next :: outer =>
    if column < indent then
      let (indent, outer, closed) := columnsAt column next outer
      (indent, outer, closed + 1)
    else (indent, next :: outer, 0)

/-- Closes the collections that are further in than a column. -/
def closeBlocks (column : Int) (lexer : Lexer) : Lexer :=
  if lexer.inFlow then lexer
  else
    let (indent, outer, closed) := columnsAt column lexer.indent lexer.outer
    { lexer with
      indent := indent
      outer := outer
      tokens := lexer.tokens ++ Array.replicate closed Token.blockEnd }

/-- Passes blanks, comments and line breaks up to the next token, and a byte order mark at the
beginning of each line, which takes a column. -/
def skipToToken (fuel : Nat) (lexer : Lexer) : Lexer :=
  match fuel with
  | 0 => lexer
  | fuel + 1 =>
    let tabs := lexer.inFlow || !lexer.keyAllowed
    let marked := lexer.cursor.column == 0 && lexer.cursor.rest.head? == some '\uFEFF'
    let cursor := if marked then lexer.cursor.skip 1 else lexer.cursor
    let cursor := cursor.skipWhile fun c => c == ' ' || (tabs && c == '\t')
    let cursor := if cursor.rest.head? == some '#' then cursor.skipLine else cursor
    if cursor.atBreak then
      let next := { lexer with cursor := cursor.readBreak.2 }
      skipToToken fuel (if lexer.inFlow then next else next.allowKey true)
    else { lexer with cursor := cursor }

/-- Adds a mark of a document, which ends all collections. -/
def documentMark (token : Token) (lexer : Lexer) : Option Lexer := do
  let lexer ← (lexer.closeBlocks (-1)).dropKey
  some ((lexer.allowKey false).add token |>.skip 3)

/-- Opens a collection in brackets. -/
def openFlow (token : Token) (lexer : Lexer) : Option Lexer := do
  let lexer ← lexer.saveKey
  let lexer := { lexer with keys := none :: lexer.keys }
  some ((lexer.allowKey true).add token |>.skip 1)

/-- Closes a collection in brackets. -/
def closeFlow (token : Token) (lexer : Lexer) : Option Lexer := do
  let lexer ← lexer.dropKey
  let lexer := if lexer.inFlow then { lexer with keys := lexer.keys.tail } else lexer
  some ((lexer.allowKey false).add token |>.skip 1)

/-- Adds the comma between entries in brackets. -/
def comma (lexer : Lexer) : Option Lexer := do
  let lexer ← lexer.dropKey
  some ((lexer.allowKey true).add .comma |>.skip 1)

/-- Adds the dash of an item. -/
def item (lexer : Lexer) : Option Lexer :=
  if !lexer.inFlow && !lexer.keyAllowed then none
  else do
    let opened := lexer.openBlock lexer.cursor.column lexer.tokens.size .blockSequence
    let lexer ← opened.dropKey
    some ((lexer.allowKey true).add .item |>.skip 1)

/-- Adds a key announced by a question mark. -/
def key (lexer : Lexer) : Option Lexer :=
  if !lexer.inFlow && !lexer.keyAllowed then none
  else do
    let opened := lexer.openBlock lexer.cursor.column lexer.tokens.size .blockMapping
    let lexer ← opened.dropKey
    some ((lexer.allowKey !lexer.inFlow).add .key |>.skip 1)

/-- Adds a value announced by a colon. If a key began before it, the tokens that announce the key
are put where it began. -/
def value (lexer : Lexer) : Option Lexer :=
  match lexer.keys.head?.join with
  | some place =>
    let keyed := { lexer with
      tokens := lexer.tokens.insertIdxIfInBounds place.tokens .key
      keys := none :: lexer.keys.tail }
    let opened := keyed.openBlock place.column place.tokens .blockMapping
    some ((opened.allowKey false).add .value |>.skip 1)
  | none =>
    if !lexer.inFlow && !lexer.keyAllowed then none
    else
      let opened := lexer.openBlock lexer.cursor.column lexer.tokens.size .blockMapping
      some ((opened.allowKey !lexer.inFlow).add .value |>.skip 1)

/-- Whether a character may stand in the name of an anchor. -/
def isNameChar (c : Char) : Bool :=
  c.isAlphanum || c == '_' || c == '-'

/-- Adds an anchor or an alias, whose name stands behind the indicator. -/
def anchor (token : String → Token) (lexer : Lexer) : Option Lexer := do
  let lexer ← lexer.saveKey
  let name := (lexer.cursor.rest.drop 1).takeWhile isNameChar
  let next := lexer.cursor.rest.drop (name.length + 1)
  if name.isEmpty then none
  else if atBlankOrEnd next || next.head?.any "?:,]\x7d%@\x60".toList.contains then
    some ((lexer.allowKey false).add (token (String.ofList name)) |>.skip (name.length + 1))
  else none

/-- Whether a character may stand in a tag. -/
def isTagChar (c : Char) : Bool :=
  isNameChar c || ";/?:@&=+$.%!~*\x27()".toList.contains c

/-- Whether a character may stand in a tag that is written in full. -/
def isAddressChar (c : Char) : Bool :=
  isTagChar c || c == ',' || c == '[' || c == ']'

/-- The number of bytes of a character whose encoding begins with a byte. -/
def encodedLength? (first : Nat) : Option Nat :=
  if first < 0x80 then some 1
  else if 0xC0 ≤ first && first < 0xE0 then some 2
  else if 0xE0 ≤ first && first < 0xF0 then some 3
  else if 0xF0 ≤ first && first < 0xF8 then some 4
  else none

/-- Replaces the escapes of a tag, each of which is a percent sign and the two hexadecimal digits of
a byte. `due` is the number of bytes that the character begun before still needs; they have to come
next and to be bytes that continue a character. -/
def unescapeFrom? (due : Nat) : List Char → Option (List UInt8)
  | '%' :: high :: low :: rest => do
    let byte ← digits? 16 [high, low]
    if due = 0 then
      let length ← encodedLength? byte
      some (byte.toUInt8 :: (← unescapeFrom? (length - 1) rest))
    else if 0x80 ≤ byte && byte < 0xC0 then
      some (byte.toUInt8 :: (← unescapeFrom? (due - 1) rest))
    else none
  | '%' :: _ => none
  | c :: rest => do
    if due = 0 then some (c.toUInt8 :: (← unescapeFrom? 0 rest)) else none
  | [] => if due = 0 then some [] else none

/-- Replaces the escapes of a tag, which ends before a zero byte. -/
def unescape? (text : List Char) : Option Tag := do
  let bytes ← unescapeFrom? 0 text
  some ⟨bytes.takeWhile (· != 0)⟩

/-- Reads the name of a tag and the number of its characters. -/
def tagName? (rest : List Char) : Option (TagName × Nat) :=
  match rest with
  | '!' :: '<' :: body => do
    let name := body.takeWhile isAddressChar
    if name.isEmpty || (body.drop name.length).head? != some '>' then none
    else some (⟨"", ← unescape? name⟩, name.length + 3)
  | '!' :: body =>
    let word := body.takeWhile isNameChar
    match body.drop word.length with
    | '!' :: suffix => do
      let suffix := suffix.takeWhile isTagChar
      if suffix.isEmpty then none
      else some (⟨"!" ++ String.ofList word ++ "!", ← unescape? suffix⟩,
        word.length + suffix.length + 2)
    | _ => do
      let name := body.takeWhile isTagChar
      let suffix ← unescape? name
      some (if suffix.bytes.isEmpty then ⟨"", .bang⟩ else ⟨"!", suffix⟩, name.length + 1)
  | _ => none

/-- Adds a tag. -/
def tag (lexer : Lexer) : Option Lexer := do
  let lexer ← lexer.saveKey
  let (name, length) ← tagName? lexer.cursor.rest
  let next := lexer.cursor.rest.drop length
  if atBlankOrEnd next || (lexer.inFlow && next.head? == some ',') then
    some ((lexer.allowKey false).add (.tag name) |>.skip length)
  else none

/-- Adds a literal or folded scalar. -/
def block (literal : Bool) (lexer : Lexer) : Option Lexer := do
  let lexer ← lexer.dropKey
  let (text, cursor) ← readBlock literal lexer.indent (lexer.cursor.skip 1)
  let lexer := { lexer with cursor := cursor }
  some ((lexer.allowKey true).add (.scalar (.lines literal) (String.ofList text)))

/-- Adds a quoted scalar. -/
def quoted (quote : Char) (lexer : Lexer) : Option Lexer := do
  let lexer ← lexer.saveKey
  let (text, cursor) ← readQuoted (lexer.cursor.rest.length + 1) quote [] (lexer.cursor.skip 1)
  let lexer := { lexer with cursor := cursor }
  some ((lexer.allowKey false).add (.scalar .quoted (String.ofList text)))

/-- Adds a plain scalar. A key may begin behind it if it ended with a line break. -/
def plain (lexer : Lexer) : Option Lexer := do
  let lexer ← lexer.saveKey
  let (text, cursor, broken) ← readPlain (lexer.cursor.rest.length + 2) lexer.inFlow
    (lexer.indent + 1) [] ⟨[], [], false⟩ lexer.cursor
  let lexer := { lexer with cursor := cursor }
  some ((lexer.allowKey broken).add (.scalar .plain (String.ofList text)))

/-- Reads digits of a version number. -/
def versionNumber? (rest : List Char) : Option (Nat × List Char) :=
  let digits := rest.takeWhile Char.isDigit
  if digits.isEmpty || 9 < digits.length then none
  else some (Nat.ofDigitChars 10 digits 0, rest.drop digits.length)

/-- Reads the token of a directive from the text behind its name, and what is left of the text. -/
def directive? (name : String) (rest : List Char) : Option (Token × List Char) :=
  let rest := rest.dropWhile isBlank
  if name = "YAML" then do
    let (major, rest) ← versionNumber? rest
    match rest with
    | '.' :: rest => do
      let (minor, rest) ← versionNumber? rest
      some (.version major minor, rest)
    | _ => none
  else if name = "TAG" then
    match rest with
    | '!' :: body =>
      let word := body.takeWhile isNameChar
      let closed := (body.drop word.length).head? == some '!'
      let behind := body.drop (word.length + if closed then 1 else 0)
      let expansion := (behind.dropWhile isBlank).takeWhile isAddressChar
      let left := (behind.dropWhile isBlank).drop expansion.length
      if (!closed && !word.isEmpty) || !behind.head?.any isBlank || expansion.isEmpty ||
        !atBlankOrEnd left then none
      else do
        let handle := "!" ++ String.ofList word ++ (if closed then "!" else "")
        some (.handle handle (← unescape? expansion), left)
    | _ => none
  else none

/-- Adds a directive, which takes a line of its own. -/
def directive (lexer : Lexer) : Option Lexer := do
  let lexer ← (lexer.closeBlocks (-1)).dropKey
  let rest := lexer.cursor.rest.drop 1
  let name := rest.takeWhile isNameChar
  if name.isEmpty || !atBlankOrEnd (rest.drop name.length) then none
  else
    let (token, left) ← directive? (String.ofList name) (rest.drop name.length)
    let cursor := (lexer.cursor.skip (lexer.cursor.rest.length - left.length)).skipBlanksAndComment
    if !cursor.atBreakOrEnd then none
    else some (({ lexer with cursor := cursor.readBreak.2 }.allowKey false).add token)

/-- Whether a plain scalar may begin with a text. -/
def beginsPlain (inFlow : Bool) (c : Char) (rest : List Char) : Bool :=
  !("-?:".toList.contains c || isIndicator c || isBlank c) ||
    (c == '-' && !rest.head?.all isBlank) ||
    (!inFlow && (c == '?' || c == ':') && !atBlankOrEnd rest)

/-- Adds the token that begins with a character. -/
def token (lexer : Lexer) (c : Char) (rest : List Char) : Option Lexer :=
  let inFlow := lexer.inFlow
  if lexer.cursor.column == 0 && c == '%' then lexer.directive
  else if lexer.cursor.atMark "---" then lexer.documentMark .documentStart
  else if lexer.cursor.atMark "..." then lexer.documentMark .documentEnd
  else if c == '[' then lexer.openFlow .openSequence
  else if c == '\x7b' then lexer.openFlow .openMapping
  else if c == ']' then lexer.closeFlow .closeSequence
  else if c == '\x7d' then lexer.closeFlow .closeMapping
  else if c == ',' then lexer.comma
  else if c == '-' && atBlankOrEnd rest then lexer.item
  else if c == '?' && (inFlow || atBlankOrEnd rest) then lexer.key
  else if c == ':' && (inFlow || atBlankOrEnd rest) then lexer.value
  else if c == '*' then lexer.anchor .alias
  else if c == '&' then lexer.anchor .anchor
  else if c == '!' then lexer.tag
  else if c == '|' && !inFlow then lexer.block true
  else if c == '>' && !inFlow then lexer.block false
  else if c == '\x27' || c == '"' then lexer.quoted c
  else if beginsPlain inFlow c rest then lexer.plain
  else none

/-- Ends all collections at the end of the text. -/
def finish (lexer : Lexer) : Option Lexer :=
  (lexer.closeBlocks (-1)).dropKey

/-- Cuts the rest of a text into tokens. -/
def run (fuel : Nat) (lexer : Lexer) : Option Lexer :=
  match fuel with
  | 0 => none
  | fuel + 1 => do
    let lexer ← (lexer.skipToToken (lexer.cursor.rest.length + 1)).dropStaleKeys
    let lexer := lexer.closeBlocks lexer.cursor.column
    match lexer.cursor.rest with
    | [] => lexer.finish
    | c :: rest => run fuel (← lexer.token c rest)

end Lexer

/-- Whether a character may stand in a YAML text. Controls may not, the tab and line breaks
excepted. -/
def isAllowed (c : Char) : Bool :=
  c == '\t' || c == '\r' || c == '\u0085' || c == '\uFEFF' || isPrintable c

/-- The tokens of a text, or nothing if the text is no YAML. -/
def Token.ofText? (text : String) : Option (List Token) :=
  let chars := text.toList
  if chars.all isAllowed then ((Lexer.start chars).run (chars.length + 2)).map (·.tokens.toList)
  else none

end AnnotatedHelp.Yaml
