/-!
# Numerals

The number literals that a help text and a template may contain: integers with an optional sign,
read with a bound on their size, and decimal literals, of which only the shape matters. Digits are
the ten ASCII digits.
-/

namespace AnnotatedHelp.Text

/-- How many numbers a word of the given number of bits can hold. -/
def wordCount (bits : Nat) : Nat :=
  Nat.pow 2 bits

/-- Reads a nonempty run of digits, of any length. -/
def natural? (text : List Char) : Option Nat :=
  if text.isEmpty || !text.all Char.isDigit then none else some (Nat.ofDigitChars 10 text 0)

/-- Reads an optional sign and a run of digits, of any length. -/
def integer? : List Char → Option Int
  | '+' :: digits => (natural? digits).map Int.ofNat
  | '-' :: digits => (natural? digits).map fun n => -Int.ofNat n
  | digits => (natural? digits).map Int.ofNat

/-- Reads an integer that fits a signed word of sixty-four bits. -/
def integer64? (text : List Char) : Option Int :=
  (integer? text).filter fun n => decide (-Int.ofNat (wordCount 63) ≤ n) && decide (n < Int.ofNat (wordCount 63))

/-- Reads a number without a minus sign that fits an unsigned word of sixty-four bits. -/
def natural64? (text : List Char) : Option Nat :=
  let digits := match text with
    | '+' :: digits => digits
    | digits => digits
  (natural? digits).filter (· < wordCount 64)

/-- The text without one leading sign. -/
def dropSign : List Char → List Char
  | '+' :: text => text
  | '-' :: text => text
  | text => text

/-- The lower-case form of an ASCII letter; other characters stay. -/
def asciiLower (text : List Char) : List Char :=
  text.map Char.toLower

/-- A number written with digits, a point and an exponent: `mantissa * 10 ^ exponent`. -/
structure Decimal where
  /-- The digits without the point. -/
  mantissa : Nat
  /-- The power of ten that the digits are multiplied by. -/
  exponent : Int
  deriving DecidableEq, Repr

/-- Reads an exponent, which is absent, or is `e` or `E`, an optional sign and digits. -/
def exponent? : List Char → Option Int
  | [] => some 0
  | c :: text => if c == 'e' || c == 'E' then integer? text else none

/-- Reads digits with at most one point among or beside them, at least one digit, and an
exponent. -/
def decimal? (text : List Char) : Option Decimal :=
  let whole := text.takeWhile Char.isDigit
  let rest := text.dropWhile Char.isDigit
  let (fraction, rest) := match rest with
    | '.' :: rest => (rest.takeWhile Char.isDigit, rest.dropWhile Char.isDigit)
    | rest => ([], rest)
  match natural? (whole ++ fraction), exponent? rest with
  | some mantissa, some exponent => some ⟨mantissa, exponent - fraction.length⟩
  | _, _ => none

/-- Whether a text is a decimal literal: an optional sign and then a number with digits, or a name
of infinity or of the undefined value in any case. -/
def isDecimal (text : List Char) : Bool :=
  let body := dropSign text
  (decimal? body).isSome ||
    ["inf".toList, "infinity".toList, "nan".toList].contains (asciiLower body)

/-- Whether a number is closer to a finite number of double precision than to the power of two
behind the largest one. -/
def Decimal.isFinite (number : Decimal) : Bool :=
  let digits : Int := (Nat.toDigits 10 number.mantissa).length
  if number.mantissa = 0 || digits + number.exponent < 300 then true
  else if 400 < digits + number.exponent then false
  else
    let limit := wordCount 1024 - wordCount 970
    if 0 ≤ number.exponent then decide (number.mantissa * Nat.pow 10 number.exponent.toNat < limit)
    else decide (number.mantissa < limit * Nat.pow 10 number.exponent.natAbs)

/-- The text of an integer: a minus sign if it is negative, then its decimal digits. -/
def integerText (n : Int) : String :=
  if n < 0 then "-" ++ n.natAbs.repr else n.natAbs.repr

end AnnotatedHelp.Text
