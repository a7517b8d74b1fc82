/-!
# Tokens of YAML

The pieces into which a YAML text is cut: the marks of documents and collections, the indicators of
entries, keys and values, properties of nodes, and scalars.
-/

namespace AnnotatedHelp.Yaml

/-- How a scalar was written. -/
inductive ReadStyle where
  /-- Without quotes. -/
  | plain
  /-- Between quotes. -/
  | quoted
  /-- As lines below a bar or an angle bracket; true for the bar. -/
  | lines (literal : Bool)
  deriving DecidableEq, Repr

/-- A tag, as the bytes of its text. Escapes may write bytes that are no text. -/
structure Tag where
  /-- The bytes. -/
  bytes : List UInt8
  deriving DecidableEq, Repr

namespace Tag

/-- The tag with a text. -/
def ofString (text : String) : Tag :=
  ⟨text.toUTF8.toList⟩

/-- The text of a tag, if its bytes are one. -/
def text? (tag : Tag) : Option String :=
  String.fromUTF8? ⟨tag.bytes.toArray⟩

/-- The tag of a lone exclamation mark. -/
def bang : Tag :=
  .ofString "!"

end Tag

/-- The name of a tag as written: a handle and what follows it. -/
structure TagName where
  /-- The handle, empty for a tag written in full. -/
  handle : String
  /-- What follows the handle. -/
  suffix : Tag
  deriving DecidableEq, Repr

/-- A token of YAML. -/
inductive Token where
  /-- The version that a document asks for. -/
  | version (major minor : Nat)
  /-- A handle that stands for the beginning of tags. -/
  | handle (name : String) (expansion : Tag)
  /-- Begins a document. -/
  | documentStart
  /-- Ends a document. -/
  | documentEnd
  /-- Begins a sequence by indentation. -/
  | blockSequence
  /-- Begins a mapping by indentation. -/
  | blockMapping
  /-- Ends a collection by indentation. -/
  | blockEnd
  /-- Begins a sequence in brackets. -/
  | openSequence
  /-- Ends a sequence in brackets. -/
  | closeSequence
  /-- Begins a mapping in braces. -/
  | openMapping
  /-- Ends a mapping in braces. -/
  | closeMapping
  /-- The dash of an item. -/
  | item
  /-- The comma between entries. -/
  | comma
  /-- Announces a key. -/
  | key
  /-- Announces a value. -/
  | value
  /-- Stands for an anchored node. -/
  | alias (name : String)
  /-- Gives the next node a name. -/
  | anchor (name : String)
  /-- Gives the next node a tag. -/
  | tag (name : TagName)
  /-- A scalar. -/
  | scalar (style : ReadStyle) (text : String)
  deriving DecidableEq, Repr

end AnnotatedHelp.Yaml
