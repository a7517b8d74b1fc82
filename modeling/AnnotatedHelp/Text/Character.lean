/-!
# Characters of texts: blanks, words and case

A character is blank exactly when it has the Unicode property `White_Space`. Trimming, cutting a
text into words and deciding whether a line is empty all use this one class. Text is worked on as
a list of characters; the model keeps `String`, and the functions on `String` go through the list.

Property keys, kinds and types are ASCII names, written in any case. Only characters whose lower
case is an ASCII letter can occur in a spelling of such a name: the twenty-six capitals and the
Kelvin sign. Folding these is therefore enough to compare a text with an ASCII name.
-/

namespace AnnotatedHelp.Text

/-- Ranges of code points with the Unicode property `White_Space`, both ends included. -/
def blankRanges : List (Nat × Nat) :=
  [(0x09, 0x0D), (0x20, 0x20), (0x85, 0x85), (0xA0, 0xA0), (0x1680, 0x1680), (0x2000, 0x200A),
    (0x2028, 0x2029), (0x202F, 0x202F), (0x205F, 0x205F), (0x3000, 0x3000)]

/-- A character is blank when its code point lies in one of the `White_Space` ranges. -/
def isBlank (c : Char) : Bool :=
  blankRanges.any fun range => range.1 ≤ c.toNat && c.toNat ≤ range.2

/-- A newline is blank. -/
@[simp] theorem isBlank_newline : isBlank '\n' = true := by decide

/-- A space is blank. -/
@[simp] theorem isBlank_space : isBlank ' ' = true := by decide

/-- The text without its leading blanks. -/
def trimStart (text : List Char) : List Char :=
  text.dropWhile isBlank

/-- The text without its trailing blanks. -/
def trimEnd (text : List Char) : List Char :=
  (text.reverse.dropWhile isBlank).reverse

/-- The text without its leading and trailing blanks. -/
def trim (text : List Char) : List Char :=
  trimEnd (trimStart text)

/-- A line is blank when all its characters are. -/
def isBlankLine (text : List Char) : Bool :=
  text.all isBlank

/-- A line is blank where its parts are. -/
theorem isBlankLine_append (text more : List Char) :
    isBlankLine (text ++ more) = (isBlankLine text && isBlankLine more) :=
  List.all_append

/-- The maximal runs of characters that are not blank, in order. -/
def words (text : List Char) : List (List Char) :=
  (text.splitOnP isBlank).filter (!·.isEmpty)

/-- A string without its leading and trailing blanks. -/
def trimmed (s : String) : String :=
  String.ofList (trim s.toList)

/-- The words of a string, in order. -/
def wordsOf (s : String) : List String :=
  (words s.toList).map String.ofList

/-- The lower case of a character where that is an ASCII letter; other characters stay. -/
def foldChar (c : Char) : Char :=
  if c = '\u212A' then 'k' else c.toLower

/-- A string with every character folded. -/
def foldCase (s : String) : String :=
  String.ofList (s.toList.map foldChar)

end AnnotatedHelp.Text
