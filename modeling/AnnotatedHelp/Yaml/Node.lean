import AnnotatedHelp.Yaml.Token.Lexer

/-!
# Nodes of YAML

A document is a tree of scalars, sequences and mappings, read from tokens. An alias stays in the tree
as the number of the node that it stands for, so that a node may contain an alias of itself. A node
that is missing where one may be missing is an empty plain scalar. A text with malformed tokens, an
undefined alias or an unknown tag handle is refused.
-/

namespace AnnotatedHelp.Yaml

/-- A node of a YAML document. -/
inductive Node where
  /-- A scalar, as it was written. -/
  | scalar (tag : Option Tag) (style : ReadStyle) (text : String)
  /-- A sequence. -/
  | sequence (tag : Option Tag) (items : List Node)
  /-- A mapping. -/
  | mapping (tag : Option Tag) (entries : List (Node × Node))
  /-- An alias of the anchored node with a number. -/
  | reference (number : Nat)
  deriving Repr

/-- The node that stands for a missing one. -/
def Node.missing : Node := .scalar none .plain ""

/-- A document: its outermost node, and the nodes for which aliases stand. -/
structure NodeTree where
  /-- The outermost node. -/
  root : Node
  /-- The anchored nodes with their numbers, in the order of their anchors. -/
  anchored : Array (Nat × Node)
  deriving Repr

/-- The node that a node stands for: an alias for the last anchored node with its number, and any
other node for itself. -/
def NodeTree.follow (tree : NodeTree) : Node → Node
  | .reference number =>
    ((tree.anchored.findRev? (·.1 == number)).map (·.2)).getD (.reference number)
  | node => node

/-- The state of reading nodes from tokens. -/
structure Reading where
  /-- The tokens still to be read. -/
  tokens : List Token
  /-- The names of anchored nodes, each with the number that its last anchor got. -/
  names : List (String × Nat)
  /-- The anchored nodes with their numbers, in the order of their anchors. -/
  anchored : Array (Nat × Node)
  /-- The handles that the document declares for the beginning of tags. -/
  handles : List (String × Tag)

/-- The state before the first token. -/
def Reading.start (tokens : List Token) : Reading :=
  ⟨tokens, [], #[], []⟩

/-- The handles that every document has unless it declares them itself. -/
def standardHandles : List (String × Tag) :=
  [("!", .bang), ("!!", .ofString "tag:yaml.org,2002:")]

/-- A step of reading, which may refuse the text. -/
abbrev Reader := StateT Reading Option

namespace Reader

/-- The next token, which stays. -/
def peek : Reader (Option Token) := do
  return (← get).tokens.head?

/-- Passes one token. -/
def pass : Reader Unit :=
  modify fun reading => { reading with tokens := reading.tokens.tail }

/-- Passes the next token if it is the given one, and tells whether it was. -/
def passIf (token : Token) : Reader Bool := do
  if (← peek) = some token then
    pass
    return true
  else
    return false

/-- Passes the given token, which has to come next. -/
def expect (token : Token) : Reader Unit := do
  if !(← passIf token) then failure

/-- Whether the next token is one of those given. -/
def atAny (tokens : List Token) : Reader Bool := do
  return (← peek).any tokens.contains

/-- Reads a node and gives it a name. The number of the node is the number of names known before its
anchor; an anchor that names a node anew adds no name, and shares its number with the next new name.
Aliases of the name may stand in the node itself. -/
def named (anchor : Option String) (read : Reader Node) : Reader Node := do
  match anchor with
  | none => read
  | some name =>
    let number := (← get).names.length
    let place := (← get).anchored.size
    modify fun reading =>
      { reading with
        names := (name, number) :: reading.names.filter (·.1 != name)
        anchored := reading.anchored.push (number, .missing) }
    let node ← read
    modify fun reading =>
      { reading with anchored := reading.anchored.setIfInBounds place (number, node) }
    return node

/-- The alias of a name, which has to be known. -/
def aliasOf (name : String) : Reader Node := do
  match (← get).names.lookup name with
  | some number => return .reference number
  | none => failure

/-- The full tag of a name. -/
def expand (name : TagName) : Reader Tag := do
  if name.handle = "" then return name.suffix
  else match ((← get).handles.lookup name.handle).or (standardHandles.lookup name.handle) with
    | some expansion => return ⟨expansion.bytes ++ name.suffix.bytes⟩
    | none => failure

/-- Reads the anchor and the tag before a node, in either order. -/
def properties (fuel : Nat) (anchor : Option String) (tag : Option Tag) :
    Reader (Option String × Option Tag) :=
  match fuel with
  | 0 => return (anchor, tag)
  | fuel + 1 => do
    match ← peek with
    | some (.anchor name) =>
      if anchor.isSome then return (anchor, tag)
      else
        pass
        properties fuel (some name) tag
    | some (.tag name) =>
      if tag.isSome then return (anchor, tag)
      else
        pass
        properties fuel anchor (some (← expand name))
    | _ => return (anchor, tag)

mutual

/-- Reads a node. Outside brackets it may be a collection by indentation, and behind a key or a
colon also a sequence whose dashes are not indented. -/
def node (fuel : Nat) (inBlock dashes : Bool) : Reader Node :=
  match fuel with
  | 0 => failure
  | fuel + 1 => do
    match ← peek with
    | some (.alias name) =>
      pass
      aliasOf name
    | _ =>
      let (anchor, tag) ← properties 2 none none
      named anchor (content fuel inBlock dashes (anchor.isSome || tag.isSome) tag)

/-- Reads a node behind its anchor and tag. With one of these it may be missing. The tag of a lone
exclamation mark says nothing about a scalar. -/
def content (fuel : Nat) (inBlock dashes mayMiss : Bool) (tag : Option Tag) : Reader Node :=
  match fuel with
  | 0 => failure
  | fuel + 1 => do
    match ← peek with
    | some .item =>
      if dashes then return .sequence tag (← dashedItems fuel)
      else if mayMiss then return .scalar tag .plain ""
      else failure
    | some (.scalar style text) =>
      pass
      return .scalar (tag.filter (· != .bang)) style text
    | some .openSequence =>
      pass
      return .sequence tag (← flowItems fuel true)
    | some .openMapping =>
      pass
      return .mapping tag (← flowEntries fuel true)
    | some .blockSequence =>
      if inBlock then
        pass
        return .sequence tag (← blockItems fuel)
      else if mayMiss then return .scalar tag .plain ""
      else failure
    | some .blockMapping =>
      if inBlock then
        pass
        return .mapping tag (← blockEntries fuel)
      else if mayMiss then return .scalar tag .plain ""
      else failure
    | _ => if mayMiss then return .scalar tag .plain "" else failure

/-- Reads a node, or a missing one before any of the given tokens. -/
def nodeUnless (fuel : Nat) (inBlock dashes : Bool) (tokens : List Token) : Reader Node :=
  match fuel with
  | 0 => failure
  | fuel + 1 => do
    if ← atAny tokens then return .missing else node fuel inBlock dashes

/-- Reads the items of an indented sequence. -/
def blockItems (fuel : Nat) : Reader (List Node) :=
  match fuel with
  | 0 => failure
  | fuel + 1 => do
    if ← passIf .item then
      let first ← nodeUnless fuel true false [.item, .blockEnd]
      return first :: (← blockItems fuel)
    else
      expect .blockEnd
      return []

/-- Reads the items of a sequence that is not indented. -/
def dashedItems (fuel : Nat) : Reader (List Node) :=
  match fuel with
  | 0 => failure
  | fuel + 1 => do
    if ← passIf .item then
      let first ← nodeUnless fuel true false [.item, .key, .value, .blockEnd]
      return first :: (← dashedItems fuel)
    else return []

/-- Reads the entries of an indented mapping. -/
def blockEntries (fuel : Nat) : Reader (List (Node × Node)) :=
  match fuel with
  | 0 => failure
  | fuel + 1 => do
    if ← passIf .blockEnd then return []
    else
      expect .key
      let key ← nodeUnless fuel true true [.key, .value, .blockEnd]
      let value ←
        if ← passIf .value then nodeUnless fuel true true [.key, .value, .blockEnd]
        else pure .missing
      return (key, value) :: (← blockEntries fuel)

/-- Reads the items of a sequence in brackets. An item with a colon is a mapping of one entry. A key
that is announced there and missing takes the token behind it along. -/
def flowItems (fuel : Nat) (first : Bool) : Reader (List Node) :=
  match fuel with
  | 0 => failure
  | fuel + 1 => do
    if ← passIf .closeSequence then return []
    else
      if !first then expect .comma
      if ← passIf .closeSequence then return []
      else
        let item ←
          if ← passIf .key then do
            let key ←
              if ← atAny [.value, .comma, .closeSequence] then do
                pass
                pure .missing
              else node fuel false false
            let value ←
              if ← passIf .value then nodeUnless fuel false false [.comma, .closeSequence]
              else pure .missing
            pure (.mapping none [(key, value)])
          else node fuel false false
        return item :: (← flowItems fuel false)

/-- Reads the entries of a mapping in braces. -/
def flowEntries (fuel : Nat) (first : Bool) : Reader (List (Node × Node)) :=
  match fuel with
  | 0 => failure
  | fuel + 1 => do
    if ← passIf .closeMapping then return []
    else
      if !first then expect .comma
      if ← passIf .closeMapping then return []
      else
        let entry ←
          if ← passIf .key then do
            let key ← nodeUnless fuel false false [.value, .comma, .closeMapping]
            let value ←
              if ← passIf .value then nodeUnless fuel false false [.comma, .closeMapping]
              else pure .missing
            pure (key, value)
          else do
            let key ← node fuel false false
            pure (key, .missing)
        return entry :: (← flowEntries fuel false)

end

/-- Reads the directives before a document. -/
def directives (fuel : Nat) (versioned : Bool) : Reader Bool :=
  match fuel with
  | 0 => failure
  | fuel + 1 => do
    match ← peek with
    | some (.version major minor) =>
      if versioned || major ≠ 1 || (minor ≠ 1 && minor ≠ 2) then failure
      else
        pass
        directives fuel true
    | some (.handle name expansion) =>
      if ((← get).handles.lookup name).isSome then failure
      else
        pass
        modify fun reading => { reading with handles := (name, expansion) :: reading.handles }
        directives fuel versioned
    | _ => return versioned

/-- Passes the tokens that end documents. -/
def passDocumentEnds (fuel : Nat) : Reader Unit :=
  match fuel with
  | 0 => pure ()
  | fuel + 1 => do
    if ← passIf .documentEnd then passDocumentEnds fuel

/-- Reads the only document of a text; nothing if there is none. -/
def onlyDocument (fuel : Nat) : Reader (Option Node) := do
  if (← peek).isNone then return none
  else
    let before := (← get).tokens.length
    let _ ← directives fuel false
    let directed := (← get).tokens.length ≠ before
    let started ← passIf .documentStart
    if directed && !started then failure
    else
      let document ←
        if started && ((← peek).isNone || (← atAny [.documentStart, .documentEnd])) then
          pure Node.missing
        else node fuel true false
      passDocumentEnds fuel
      if (← peek).isSome then failure else return some document

end Reader

/-- Reads a text that holds at most one document. The outer `none` refuses the text; the inner one
stands for a text without document. -/
def NodeTree.ofText? (text : String) : Option (Option NodeTree) := do
  let tokens ← Token.ofText? text
  let fuel := 4 * tokens.length + 8
  let (root, reading) ← (Reader.onlyDocument fuel).run (.start tokens)
  return root.map (⟨·, reading.anchored⟩)

end AnnotatedHelp.Yaml
