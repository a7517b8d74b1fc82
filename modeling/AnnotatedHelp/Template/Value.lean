import AnnotatedHelp.Text.Numeral

/-!
# Values and resolvers

A template asks a resolver for the value of a key. The resolver is told the arguments written behind
the key and where in the output the value will stand, so that it can fit the value to its place.
-/

namespace AnnotatedHelp.Template

/-- What a key stands for. -/
inductive Value where
  /-- A truth value. -/
  | bool (b : Bool)
  /-- An integer. -/
  | int (n : Int)
  /-- A text. Newlines in it begin new lines without indentation. -/
  | text (s : String)
  /-- Lines, of which all but the first are indented to the column where the key stands. -/
  | lines (lines : List String)
  deriving DecidableEq, Repr

namespace Value

/-- Whether a condition on the value holds. False, zero, the empty text and no lines do not. -/
def isTruthy : Value → Bool
  | .bool b => b
  | .int n => n != 0
  | .text s => s != ""
  | .lines all => !all.isEmpty

/-- The value as text. -/
def display : Value → String
  | .bool b => if b then "true" else "false"
  | .int n => Text.integerText n
  | .text s => s
  | .lines all => "\n".intercalate all

end Value

/-- Where the output stands when a key is resolved. -/
structure Context where
  /-- The blanks and tabs at the start of the current line. -/
  indentation : String
  /-- The number of characters of the current line. -/
  column : Nat
  deriving DecidableEq, Repr

namespace Context

/-- The characters that bring a following line to the same column: the indentation, then spaces. -/
def alignment (context : Context) : List Char :=
  let indentation := context.indentation.toList
  indentation ++ List.replicate (context.column - indentation.length) ' '

/-- Whether a character counts as indentation. -/
def isIndentation (c : Char) : Bool :=
  c == ' ' || c == '\t'

/-- The context at the end of a line. -/
def ofLine (line : List Char) : Context :=
  ⟨String.ofList (line.takeWhile isIndentation), line.length⟩

end Context

/-- Why a resolver gives no value. -/
inductive ResolveError where
  /-- There is no such key. -/
  | unknownKey (key : String)
  /-- The key exists, but not with these arguments. -/
  | invalidArguments (key message : String)
  deriving DecidableEq, Repr

/-- The sentence that reports the cause. -/
def ResolveError.message : ResolveError → String
  | unknownKey key => "unknown key \"" ++ key ++ "\""
  | invalidArguments key message => "invalid arguments for \"" ++ key ++ "\": " ++ message

/-- Gives the values of keys. -/
abbrev Resolver := (key : String) → (args : List String) → Context → Except ResolveError Value

/-- One question to a resolver. -/
structure Call where
  /-- The key asked for. -/
  key : String
  /-- The arguments written behind the key. -/
  args : List String
  /-- Where the output stood. -/
  context : Context
  deriving DecidableEq, Repr

/-- The answer of a resolver to a call. -/
def Call.answer (resolver : Resolver) (call : Call) : Except ResolveError Value :=
  resolver call.key call.args call.context

end AnnotatedHelp.Template
