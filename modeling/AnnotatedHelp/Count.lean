import AnnotatedHelp.Text.Character
import AnnotatedHelp.Text.Token
import AnnotatedHelp.Text.Numeral

/-!
# Occurrence and delimiter counts

A count is an inclusive range of repetitions with an upper end that may be missing. It is written
`N`, `A..B`, `A..`, `..B` or `..`. Ends are words of thirty-two bits and arithmetic on them stops
at the largest word instead of wrapping, so that a sum or product of counts stays a range that
contains the true one where that fits a word.
-/

namespace AnnotatedHelp

open Text

/-- The largest number that an end of a count can hold. -/
def Count.wordMax : Nat := 4294967295

/-- The word nearest to a number: the number itself if it fits, else the largest word. -/
def Count.clamp (n : Nat) : UInt32 :=
  UInt32.ofNat (min n Count.wordMax)

/-- A clamped number has the number's value up to the largest word. -/
@[simp] theorem Count.toNat_clamp (n : Nat) : (Count.clamp n).toNat = min n Count.wordMax := by
  unfold Count.clamp Count.wordMax
  rw [UInt32.toNat_ofNat']
  omega

/-- Sum of two words that stops at the largest word. -/
def Count.addWord (a b : UInt32) : UInt32 :=
  Count.clamp (a.toNat + b.toNat)

/-- Product of two words that stops at the largest word. -/
def Count.mulWord (a b : UInt32) : UInt32 :=
  Count.clamp (a.toNat * b.toNat)

/-- The smaller of two words. -/
def Count.minWord (a b : UInt32) : UInt32 :=
  if a ≤ b then a else b

/-- The larger of two words. -/
def Count.maxWord (a b : UInt32) : UInt32 :=
  if a ≤ b then b else a

/-- The upper end of a count. -/
inductive Bound where
  /-- At most this many. -/
  | bounded (limit : UInt32)
  /-- No upper limit. -/
  | unbounded
  deriving DecidableEq, Repr

namespace Bound

/-- Whether there is no upper limit. -/
def isUnbounded : Bound → Bool
  | bounded _ => false
  | unbounded => true

/-- The limit, if there is one. -/
def limit? : Bound → Option UInt32
  | bounded limit => some limit
  | unbounded => none

/-- The larger of two bounds; a missing limit is larger than any limit. -/
def max : Bound → Bound → Bound
  | bounded a, bounded b => bounded (Count.maxWord a b)
  | _, _ => unbounded

/-- Sum of two bounds; a missing limit absorbs. -/
def add : Bound → Bound → Bound
  | bounded a, bounded b => bounded (Count.addWord a b)
  | _, _ => unbounded

/-- Product of two bounds; a missing limit absorbs. -/
def mul : Bound → Bound → Bound
  | bounded a, bounded b => bounded (Count.mulWord a b)
  | _, _ => unbounded

/-- Whether a number stays within the bound. -/
def Admits : Bound → Nat → Prop
  | bounded limit, n => n ≤ limit.toNat
  | unbounded, _ => True

instance (bound : Bound) (n : Nat) : Decidable (bound.Admits n) := by
  cases bound <;> unfold Admits <;> infer_instance

/-- The limit in decimal, or nothing when there is none. -/
def text : Bound → String
  | bounded limit => limit.toNat.repr
  | unbounded => ""

end Bound

/-- An inclusive range of repetitions. -/
structure Count where
  /-- Smallest admitted number. -/
  min : UInt32
  /-- Largest admitted number. -/
  max : Bound
  deriving DecidableEq, Repr

/-- Why a text is not a count. Each cause carries the trimmed text. -/
inductive CountError where
  /-- A part is no number, or a number too large for a count. -/
  | invalid (text : String)
  /-- The lower end is negative. -/
  | negativeMinimum (text : String)
  /-- The upper end is below the lower end. -/
  | invertedRange (text : String)
  deriving DecidableEq, Repr

/-- The sentence that reports the cause. -/
def CountError.message : CountError → String
  | invalid text => "invalid count: \"" ++ text ++ "\""
  | negativeMinimum text => "minimum count can't be less than 0: \"" ++ text ++ "\""
  | invertedRange text => "invalid range: \"" ++ text ++ "\""

namespace Count

/-- The count that admits `n` alone. -/
def exactly (n : UInt32) : Count := ⟨n, .bounded n⟩

/-- Zero or one, what an option has unless it declares a count. -/
def zeroOrOne : Count := ⟨0, .bounded 1⟩

/-- Exactly one, what a positional argument has unless its text implies another count. -/
def exactlyOne : Count := exactly 1

/-- Any number. -/
def zeroOrMore : Count := ⟨0, .unbounded⟩

/-- Zero alone, the delimiter count of a capture without a delimiter. -/
def none : Count := exactly 0

/-- Whether both ends are the same number. -/
def isFixed (count : Count) : Bool :=
  decide (count.max = .bounded count.min)

/-- Whether the count admits a number. -/
def Admits (count : Count) (n : Nat) : Prop :=
  count.min.toNat ≤ n ∧ count.max.Admits n

instance (count : Count) (n : Nat) : Decidable (count.Admits n) := by
  unfold Admits; infer_instance

/-- The smallest range that contains both ranges. -/
def combine (a b : Count) : Count :=
  ⟨minWord a.min b.min, a.max.max b.max⟩

/-- End by end sum of two ranges. -/
def sum (a b : Count) : Count :=
  ⟨addWord a.min b.min, a.max.add b.max⟩

/-- The number of pieces when each of `count` occurrences is cut at a number of delimiters that
`delimiters` admits. An occurrence with `d` delimiters has `d + 1` pieces. -/
def timesArity (count delimiters : Count) : Count :=
  ⟨mulWord count.min (addWord delimiters.min 1), count.max.mul (delimiters.max.add (.bounded 1))⟩

/-- Reads one end: blank is `none`, anything else has to be an integer of sixty-four bits. -/
def readEnd (whole part : List Char) : Except CountError (Option Int) :=
  match trim part with
  | [] => .ok Option.none
  | digits =>
    match integer64? digits with
    | some n => .ok (some n)
    | Option.none => .error (.invalid (String.ofList whole))

/-- Checks the ends against each other and against the size of a word. -/
def ofEnds (whole : List Char) (lower : Int) (upper : Option Int) : Except CountError Count :=
  if lower < 0 then .error (.negativeMinimum (String.ofList whole))
  else if wordMax < lower then .error (.invalid (String.ofList whole))
  else match upper with
    | Option.none => .ok ⟨clamp lower.toNat, .unbounded⟩
    | some upper =>
      if upper < lower then .error (.invertedRange (String.ofList whole))
      else if wordMax < upper then .error (.invalid (String.ofList whole))
      else .ok ⟨clamp lower.toNat, .bounded (clamp upper.toNat)⟩

/-- Reads a trimmed text: the ends stand before and after its first `..`, and a missing lower end
is zero. Without `..` the text is one number, which is both ends. -/
def parseTrimmed (whole : List Char) : Except CountError Count :=
  match cut "..".toList whole with
  | Option.none =>
    match integer64? whole with
    | Option.none => .error (.invalid (String.ofList whole))
    | some n => ofEnds whole n (some n)
  | some (before, after) => do
    let lower ← readEnd whole before
    let upper ← readEnd whole after
    ofEnds whole (lower.getD 0) upper

/-- Reads a count written `N`, `A..B`, `A..`, `..B` or `..`; blanks around each part are ignored. -/
def parse (text : String) : Except CountError Count :=
  parseTrimmed (trim text.toList)

/-- A fixed count as one number, any other as its ends around `..`. -/
def text (count : Count) : String :=
  if count.isFixed then count.min.toNat.repr
  else count.min.toNat.repr ++ ".." ++ count.max.text

end Count

end AnnotatedHelp
