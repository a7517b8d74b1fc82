import AnnotatedHelp.Text.Character
import AnnotatedHelp.Text.Token
import AnnotatedHelp.Problem

/-!
# Definition blocks

A help text contains blocks between an opening and a closing token. The text is cut at its blocks
from left to right; the shown text has every block replaced by the first field of its body. A block
that shows nothing and stands at the start of a line also takes the newline behind it with it. A
block without closing token, or with another opening token in its body, is refused.
-/

namespace AnnotatedHelp

open Text

/-- A block of a help text. -/
structure Block where
  /-- The line of the opening token, from one. -/
  line : Nat
  /-- The text between the tokens. -/
  body : List Char
  deriving DecidableEq, Repr

/-- A help text cut at its blocks. -/
structure Annotated where
  /-- The text with every block replaced by what it shows. -/
  text : List Char
  /-- The blocks, in order. -/
  blocks : List Block
  /-- The lines of `text`, from zero, that begin with a visible definition. -/
  visibleLines : List Nat
  deriving DecidableEq, Repr

namespace Annotated

/-- What a text has next. -/
inductive Next where
  /-- No opening token: the text is shown as it is. -/
  | plain
  /-- An opening token after `before` that no closing token matches. -/
  | unclosed (before : List Char)
  /-- A block with its body, and the text on both sides. -/
  | block (before body after : List Char)

/-- The first block of a text. It ends at the first closing token and contains no second opening
token. -/
def next (marks : Marks) (text : List Char) : Next :=
  match cut marks.opening.chars text with
  | none => .plain
  | some (before, opened) =>
    match cut marks.closing.chars opened with
    | none => .unclosed before
    | some (body, after) =>
      if occurs marks.opening.chars body then .unclosed before else .block before body after

/-- The text behind a block is shorter than the text. -/
theorem length_lt_of_next {marks : Marks} {text before body after : List Char}
    (h : next marks text = .block before body after) : after.length < text.length := by
  unfold next at h
  split at h
  · cases h
  · next b opened ho =>
    split at h
    · cases h
    · next bd af hc =>
      split at h
      · cases h
      · cases h
        exact Nat.lt_trans (marks.closing.length_lt_of_cut hc) (marks.opening.length_lt_of_cut ho)

/-- The number of newlines in a text. -/
def newlines (text : List Char) : Nat :=
  text.count '\n'

/-- What a block shows: the first field of its body. -/
def visible (marks : Marks) (body : List Char) : List Char :=
  (splitAlone marks.separator body).headD []

/-- Whether only blanks stand between the last newline and the end; `shown` is in reverse. -/
def atLineStart (shown : List Char) : Bool :=
  (shown.takeWhile (· != '\n')).all isBlank

/-- Whether nothing stands between the last newline and the end; `shown` is in reverse. -/
def atEmptyLine (shown : List Char) : Bool :=
  shown.head?.all (· == '\n')

/-- Whether a block takes the newline behind it with it. -/
def takesNewline (shown visible after : List Char) : Bool :=
  visible.isEmpty && atEmptyLine shown && after.head? == some '\n'

/-- Cuts the rest of a text at its blocks. The text shown so far is given in reverse, together with
the line on which the rest begins. -/
def scanFrom (marks : Marks) (shown : List Char) (line : Nat) (text : List Char) :
    Except Diagnostic Annotated :=
  match h : next marks text with
  | .plain => .ok ⟨text, [], []⟩
  | .unclosed before =>
    .error ((Problem.unclosedDefinition marks.closing.toString).atLines [line + newlines before])
  | .block before body after =>
    have hlt : after.length < text.length := length_lt_of_next h
    let shown := before.reverse ++ shown
    let line := line + newlines before
    let visible := visible marks body
    let listed := if !visible.isEmpty && atLineStart shown then [newlines shown] else []
    let taken := if takesNewline shown visible after then 1 else 0
    have : (after.drop taken).length < text.length :=
      Nat.lt_of_le_of_lt (by simp) hlt
    match scanFrom marks (visible.reverse ++ shown) (line + newlines body + taken)
        (after.drop taken) with
    | .error diagnostic => .error diagnostic
    | .ok rest =>
      .ok ⟨before ++ visible ++ rest.text, ⟨line, body⟩ :: rest.blocks, listed ++ rest.visibleLines⟩
termination_by text.length

/-- Cuts a help text at its blocks. -/
def scan (marks : Marks) (text : String) : Except Diagnostic Annotated :=
  scanFrom marks [] 1 text.toList

end Annotated

end AnnotatedHelp
