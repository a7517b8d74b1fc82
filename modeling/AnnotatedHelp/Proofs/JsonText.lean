import Mathlib
import AnnotatedHelp.Json.Basic
import AnnotatedHelp.Proofs.CountNotation

/-!
# Reading the text of a JSON value

A reader of JSON text, however the text is laid out: blanks may stand around every part, strings may escape
what they need not escape, and numbers may have a point and an exponent. Only pairs of surrogates are not
read. A reader takes its part off the front of a text and leaves the rest. The indented text of every value
is read as that value.
-/

namespace AnnotatedHelp

namespace Json

/-- Whether a character may stand between the parts of a value. -/
def isSpace (c : Char) : Bool :=
  [' ', '\n', '\r', '\t'].contains c

/-- Whether a character may stand in a number, a truth value or the null value. -/
def isWordChar (c : Char) : Bool :=
  c.isAlphanum || ['+', '-', '.'].contains c

/-- The text behind the blanks at its front. -/
def skipSpace (text : List Char) : List Char :=
  text.dropWhile isSpace

/-- The value of a hexadecimal digit. -/
def hexDigit? (c : Char) : Option Nat :=
  if c.isDigit then some (c.toNat - '0'.toNat)
  else if 'a' ≤ c.toLower ∧ c.toLower ≤ 'f' then some (c.toLower.toNat - 'a'.toNat + 10)
  else none

/-- The character with a hexadecimal code. One half of a pair of surrogates is no character. -/
def hexChar? (digits : List Char) : Option Char :=
  (digits.foldlM (fun n c => (hexDigit? c).map (16 * n + ·)) 0).bind fun n =>
    if n.isValidChar then some (Char.ofNat n) else none

/-- The character that a backslash and a letter stand for. -/
def unescape? : Char → Option Char
  | 'n' => some '\n'
  | 'r' => some '\r'
  | 't' => some '\t'
  | 'b' => some '\x08'
  | 'f' => some '\x0c'
  | c => if ['"', '\\', '/'].contains c then some c else none

/-- Takes the characters of a string off the front, with the quote that ends it. -/
def takeString : List Char → Option (List Char × List Char)
  | '"' :: rest => some ([], rest)
  | '\\' :: 'u' :: a :: b :: c :: d :: rest =>
    (hexChar? [a, b, c, d]).bind fun c => (takeString rest).map (Prod.map (c :: ·) id)
  | '\\' :: letter :: rest =>
    (unescape? letter).bind fun c => (takeString rest).map (Prod.map (c :: ·) id)
  | c :: rest => (takeString rest).map (Prod.map (c :: ·) id)
  | [] => none

/-- The number with a sign and the given digits. -/
def ofDecimal (sign : Int) (number : Text.Decimal) : Json :=
  if number.exponent ≤ 0 then .number (sign * number.mantissa) number.exponent.natAbs
  else .number (sign * (number.mantissa * Nat.pow 10 number.exponent.natAbs)) 0

/-- Reads a number. -/
def number? : List Char → Option Json
  | '-' :: digits => (Text.decimal? digits).map (ofDecimal (-1))
  | digits => (Text.decimal? digits).map (ofDecimal 1)

/-- Reads a value that is written as one word. -/
def wordValue? (word : List Char) : Option Json :=
  if word = "null".toList then some .null
  else if word = "true".toList then some (.bool true)
  else if word = "false".toList then some (.bool false)
  else number? word

/-- Takes a value that is written as one word off the front. -/
def takeWord (text : List Char) : Option (Json × List Char) :=
  (wordValue? (text.takeWhile isWordChar)).map (·, text.dropWhile isWordChar)

section Blocks

variable {α : Type}

/-- Takes one entry or more off the front, with commas between them and the bracket behind them. -/
def takeSeries (take : List Char → Option (α × List Char)) (closing : Char) :
    Nat → List Char → Option (List α × List Char)
  | 0, _ => none
  | bound + 1, text =>
    (take text).bind fun (entry, rest) =>
      match skipSpace rest with
      | [] => none
      | c :: rest =>
        if c = closing then some ([entry], rest)
        else if c = ',' then
          (takeSeries take closing bound rest).map (Prod.map (entry :: ·) id)
        else none

/-- Takes the entries off the front, if there are any, with the bracket behind them. -/
def takeBlock (take : List Char → Option (α × List Char)) (closing : Char) (text : List Char) :
    Option (List α × List Char) :=
  match takeSeries take closing text.length text with
  | some block => some block
  | none =>
    match skipSpace text with
    | [] => none
    | c :: rest => if c = closing then some ([], rest) else none

/-- Takes a key, a colon and a value off the front. -/
def takeEntry (take : List Char → Option (α × List Char)) (text : List Char) :
    Option ((String × α) × List Char) :=
  match skipSpace text with
  | '"' :: rest =>
    (takeString rest).bind fun (key, rest) =>
      match skipSpace rest with
      | ':' :: rest => (take rest).map (Prod.map (String.ofList key, ·) id)
      | _ => none
  | _ => none

end Blocks

/-- Takes a value off the front that has no more than the given depth. -/
def takeValue : (depth : Nat) → List Char → Option (Json × List Char)
  | 0, _ => none
  | depth + 1, text =>
    match skipSpace text with
    | '"' :: rest => (takeString rest).map (Prod.map (.string <| String.ofList ·) id)
    | '[' :: rest => (takeBlock (takeValue depth) ']' rest).map (Prod.map .array id)
    | '\x7b' :: rest =>
      (takeBlock (takeEntry (takeValue depth)) '\x7d' rest).map (Prod.map .object id)
    | rest => takeWord rest

/-- Reads a text that consists of one value. A value is no deeper than its text is long. -/
def read? (text : String) : Option Json :=
  (takeValue (text.length + 1) text.toList).bind fun (value, rest) =>
    if (skipSpace rest).isEmpty then some value else none

/-- A rest of a text that does not go on with the word in front of it. -/
def EndsWord (rest : List Char) : Prop :=
  ∀ c ∈ rest.head?, isWordChar c = false

/-- A character that stands in no word ends one. -/
theorem endsWord_cons {c : Char} (h : isWordChar c = false) (text : List Char) : EndsWord (c :: text) := by
  rintro _ ⟨⟩
  exact h

/-- No blanks are skipped in front of a character that is not blank. -/
theorem skipSpace_cons {c : Char} (h : isSpace c = false) (text : List Char) :
    skipSpace (c :: text) = c :: text :=
  List.dropWhile_cons_of_neg (by simp [h])

/-- Blanks at the front are skipped, up to a character that is not blank. -/
theorem skipSpace_append {blanks : List Char} (hblanks : ∀ c ∈ blanks, isSpace c = true) {c : Char}
    (hc : isSpace c = false) (text : List Char) : skipSpace (blanks ++ c :: text) = c :: text := by
  rw [skipSpace, List.dropWhile_append_of_pos hblanks]
  exact skipSpace_cons hc text

/-- The longest run at the front ends where a text begins that does not go on with it. -/
theorem takeWhile_dropWhile_append {p : Char → Bool} {run rest : List Char} (hrun : ∀ c ∈ run, p c = true)
    (hrest : ∀ c ∈ rest.head?, p c = false) :
    (run ++ rest).takeWhile p = run ∧ (run ++ rest).dropWhile p = rest := by
  have hstop : rest.takeWhile p = [] ∧ rest.dropWhile p = rest := by
    cases rest with
    | nil => exact ⟨rfl, rfl⟩
    | cons c rest => simp [hrest c rfl]
  rw [List.takeWhile_append_of_pos hrun, List.dropWhile_append_of_pos hrun, hstop.1, hstop.2]
  exact ⟨List.append_nil run, rfl⟩

/-- A character that stands in a word is not blank. -/
theorem isSpace_of_isWordChar {c : Char} (h : isWordChar c = true) : isSpace c = false := by
  rw [Bool.eq_false_iff]
  intro hspace
  simp only [isSpace, List.contains_iff_mem, List.mem_cons, List.not_mem_nil, or_false] at hspace
  rcases hspace with rfl | rfl | rfl | rfl <;> cases h

/-- A digit stands in a word. -/
theorem isWordChar_of_isDigit {c : Char} (h : c.isDigit = true) : isWordChar c = true := by
  simp [isWordChar, Char.isAlphanum, h]

/-- The code of a control character is read back. -/
theorem hexChar?_hexDigits {c : Char} (h : c.toNat < 0x20) :
    ∃ a b d e, hexDigits 4 c.toNat = [a, b, d, e] ∧ hexChar? [a, b, d, e] = some c := by
  have hcodes : ∀ n < 0x20, ∃ a b d e, hexDigits 4 n = [a, b, d, e] ∧
      hexChar? [a, b, d, e] = some (Char.ofNat n) := by
    intro n hn
    interval_cases n <;> exact ⟨_, _, _, _, rfl, rfl⟩
  have hcode := hcodes c.toNat h
  rwa [Char.ofNat_toNat] at hcode

/-- What is written for a character of a string is read as that character. -/
theorem takeString_escape (c : Char) (rest : List Char) :
    takeString (escape c ++ rest) = (takeString rest).map (Prod.map (c :: ·) id) := by
  unfold escape
  split
  · simp [takeString, unescape?]
  · simp [takeString, unescape?]
  · simp [takeString, unescape?]
  · simp [takeString, unescape?]
  · simp [takeString, unescape?]
  · next hquote hbackslash _ _ _ =>
    split_ifs with hback hfeed hcontrol
    · subst hback
      simp [takeString, unescape?]
    · subst hfeed
      simp [takeString, unescape?]
    · obtain ⟨_, _, _, _, hdigits, hchar⟩ := hexChar?_hexDigits hcontrol
      simp [takeString, hdigits, hchar]
    · have hplain : ∀ letter rest', c = '\\' → rest = letter :: rest' → False :=
        fun _ _ hc _ => hbackslash hc
      exact takeString.eq_4 c rest hquote (fun _ _ _ _ _ hc _ => hbackslash hc) hplain

/-- The characters of a string are read back up to the quote behind them. -/
theorem takeString_flatMap (s rest : List Char) :
    takeString (s.flatMap escape ++ '"' :: rest) = some (s, rest) := by
  induction s with
  | nil => simp [takeString]
  | cons c s ih =>
    rw [List.flatMap_cons, List.append_assoc, takeString_escape, ih]
    rfl

/-- A run of digits with an exponent that is absent or negative. -/
theorem decimal?_repr (n : Nat) {tail : List Char} {exponent : Int}
    (htail : ∀ c ∈ tail.head?, c.isDigit = false ∧ c ≠ '.')
    (hexponent : Text.exponent? tail = some exponent) :
    Text.decimal? (n.repr.toList ++ tail) = some ⟨n, exponent⟩ := by
  have hdigits := Text.digits_repr n
  obtain ⟨hwhole, hrest⟩ := takeWhile_dropWhile_append hdigits.digits fun c hc => (htail c hc).1
  have hnatural := Text.natural?_eq_some_iff.mpr hdigits
  rw [Text.decimal?, hwhole, hrest]
  split
  next fraction rest hfraction =>
    split at hfraction
    · exact absurd rfl (htail '.' rfl).2
    · cases hfraction
      rw [List.append_nil, hnatural, hexponent]
      simp

/-- A number is written as a sign, digits and an exponent that is absent or negative. -/
theorem toList_numberText (mantissa : Int) (places : Nat) :
    ∃ tail, (numberText mantissa places).toList =
        (if mantissa < 0 then ['-'] else []) ++ (mantissa.natAbs.repr.toList ++ tail) ∧
      (∀ c ∈ tail.head?, c.isDigit = false ∧ c ≠ '.') ∧ Text.exponent? tail = some (-(places : Int)) ∧
      ∀ c ∈ tail, isWordChar c = true := by
  have hinteger : (Text.integerText mantissa).toList =
      (if mantissa < 0 then ['-'] else []) ++ mantissa.natAbs.repr.toList := by
    unfold Text.integerText
    split_ifs <;> simp
  cases places with
  | zero => exact ⟨[], by simp [numberText, hinteger], nofun, rfl, nofun⟩
  | succ places =>
    have hplaces := Text.digits_repr (places + 1)
    refine ⟨'e' :: '-' :: (places + 1).repr.toList, ?_, ?_, ?_, ?_⟩
    · simp [numberText, hinteger]
    · rintro c ⟨⟩
      decide
    · exact Text.integer?_eq_some_iff.mpr (.minus hplaces)
    · intro c hc
      rcases List.mem_cons.mp hc with rfl | hc
      · decide
      rcases List.mem_cons.mp hc with rfl | hc
      · decide
      exact isWordChar_of_isDigit (hplaces.digits c hc)

/-- A number is read back. -/
theorem number?_numberText (mantissa : Int) (places : Nat) :
    number? (numberText mantissa places).toList = some (.number mantissa places) := by
  obtain ⟨tail, htext, hstop, hexponent, -⟩ := toList_numberText mantissa places
  have hdecimal := decimal?_repr mantissa.natAbs hstop hexponent
  have hvalue : ∀ sign : Int, ofDecimal sign ⟨mantissa.natAbs, -(places : Int)⟩ =
      .number (sign * mantissa.natAbs) places := by
    simp [ofDecimal]
  rw [htext]
  split_ifs with hsign
  · have hmantissa : -1 * (mantissa.natAbs : Int) = mantissa := by omega
    rw [List.singleton_append, number?, hdecimal, Option.map_some, hvalue, hmantissa]
  · have hmantissa : 1 * (mantissa.natAbs : Int) = mantissa := by omega
    have hdigits := Text.digits_repr mantissa.natAbs
    obtain ⟨c, digits, hrepr⟩ := List.exists_cons_of_ne_nil hdigits.nonempty
    have hminus : c ≠ '-' := by
      rintro rfl
      exact absurd (hdigits.digits '-' (hrepr ▸ List.mem_cons_self)) (by decide)
    rw [List.nil_append]
    unfold number?
    split
    · next heq =>
      rw [hrepr, List.cons_append] at heq
      exact absurd (List.cons.inj heq).1 hminus
    · rw [hdecimal, Option.map_some, hvalue, hmantissa]

/-- A number is read back from a word. -/
theorem wordValue?_numberText (mantissa : Int) (places : Nat) :
    wordValue? (numberText mantissa places).toList = some (.number mantissa places) := by
  have hnumber := number?_numberText mantissa places
  have hother : ∀ word : List Char, number? word = none →
      (numberText mantissa places).toList ≠ word := by
    rintro _ hword rfl
    rw [hword] at hnumber
    cases hnumber
  rw [wordValue?, if_neg (hother _ rfl), if_neg (hother _ rfl), if_neg (hother _ rfl), hnumber]

/-- A number is written with the characters of a word. -/
theorem isWordChar_of_mem_numberText {mantissa : Int} {places : Nat} :
    ∀ c ∈ (numberText mantissa places).toList, isWordChar c = true := by
  obtain ⟨tail, htext, -, -, htail⟩ := toList_numberText mantissa places
  intro c hc
  rw [htext, List.mem_append, List.mem_append] at hc
  rcases hc with hsign | hdigit | hc
  · split_ifs at hsign
    · obtain rfl := List.mem_singleton.mp hsign
      decide
    · cases hsign
  · exact isWordChar_of_isDigit ((Text.digits_repr _).digits c hdigit)
  · exact htail c hc

section Values

variable {depth : Nat} {blanks rest : List Char}

/-- A value that is written as a word is taken off the front. -/
theorem takeValue_word {value : Json} {word : List Char} (hvalue : wordValue? word = some value)
    (hword : ∀ c ∈ word, isWordChar c = true) (hblanks : ∀ c ∈ blanks, isSpace c = true)
    (hrest : EndsWord rest) : takeValue (depth + 1) (blanks ++ (word ++ rest)) = some (value, rest) := by
  have htake : takeWord (word ++ rest) = some (value, rest) := by
    obtain ⟨hfront, hbehind⟩ := takeWhile_dropWhile_append hword hrest
    rw [takeWord, hfront, hbehind, hvalue]
    rfl
  cases word with
  | nil => cases hvalue
  | cons c word =>
    have hc := hword c List.mem_cons_self
    have hhead : ∀ {other text}, c :: (word ++ rest) = other :: text → isWordChar other = true := by
      rintro _ _ ⟨⟩
      exact hc
    rw [takeValue, List.cons_append, skipSpace_append hblanks (isSpace_of_isWordChar hc)]
    -- No word begins with a quote or a bracket.
    split
    · next heq => cases hhead heq
    · next heq => cases hhead heq
    · next heq => cases hhead heq
    · exact htake

/-- A string is taken off the front. -/
theorem takeValue_quoted (s : String) (hblanks : ∀ c ∈ blanks, isSpace c = true) :
    takeValue (depth + 1) (blanks ++ ((quoted s).toList ++ rest)) = some (.string s, rest) := by
  have hquoted : (quoted s).toList ++ rest = '"' :: (s.toList.flatMap escape ++ '"' :: rest) := by
    simp [quoted]
  rw [takeValue, hquoted, skipSpace_append hblanks (by decide)]
  simp only [takeString_flatMap, Option.map_some, Prod.map_apply, String.ofList_toList, id]

end Values

/-- Texts, one a line and indented, with commas at the ends of the lines but for the last one. -/
def lines (level : Nat) (texts : List String) : List Char :=
  [',', '\n'].intercalate (texts.map fun text => (indent level).toList ++ text.toList)

/-- The end of a line and the indentation of the next one are blank. -/
theorem isSpace_of_mem_indent {level : Nat} : ∀ c ∈ '\n' :: (indent level).toList, isSpace c = true := by
  intro c hc
  rw [indent, String.toList_ofList] at hc
  rcases List.mem_cons.mp hc with rfl | hc
  · rfl
  · obtain rfl := List.eq_of_mem_replicate hc
    rfl

/-- One text stands on one line. -/
theorem lines_singleton (level : Nat) (text : String) :
    lines level [text] = (indent level).toList ++ text.toList :=
  List.intercalate_singleton

/-- The first of many lines ends with a comma. -/
theorem lines_cons_cons (level : Nat) (first second : String) (texts : List String) :
    lines level (first :: second :: texts) =
      (indent level).toList ++ (first.toList ++ ',' :: '\n' :: lines level (second :: texts)) := by
  simp only [lines, List.map_cons, List.intercalate_cons_cons, List.append_assoc, List.cons_append,
    List.nil_append]

/-- A line is no longer than all lines. -/
theorem length_le_length_lines (level : Nat) {text : String} {texts : List String} (h : text ∈ texts) :
    text.toList.length ≤ (lines level texts).length := by
  induction texts with
  | nil => cases h
  | cons first texts ih =>
    cases texts with
    | nil =>
      obtain rfl := List.mem_singleton.mp h
      rw [lines_singleton, List.length_append]
      omega
    | cons second texts =>
      simp only [lines_cons_cons, List.length_append, List.length_cons]
      rcases List.mem_cons.mp h with rfl | h
      · omega
      · have hrest := ih h
        omega

/-- A block with entries has them on lines of their own, one level further in. -/
theorem toList_block {texts : List String} (h : texts ≠ []) (opening closing : String) (level : Nat) :
    (block opening closing level texts).toList = opening.toList ++
      '\n' :: (lines (level + 1) texts ++ '\n' :: ((indent level).toList ++ closing.toList)) := by
  rw [block.eq_2 _ _ _ _ h]
  simp only [lines, String.toList_append, String.toList_intercalate, List.map_map, Function.comp_def,
    List.append_assoc]
  rfl

/-- The text of an entry is shorter than the block that it stands in. -/
theorem length_lt_length_block {opening closing text : String} {level : Nat} {texts : List String}
    (h : text ∈ texts) : text.length < (block opening closing level texts).length := by
  have hline := length_le_length_lines (level + 1) h
  rw [← String.length_toList, ← String.length_toList, toList_block (List.ne_nil_of_mem h)]
  simp only [List.length_append, List.length_cons]
  omega

section Blocks

variable {α : Type} {take : List Char → Option (α × List Char)} {spell : α → String} {closing : Char}
  {rest : List Char} {entries : List α}

/-- What takes an entry off the front reads each of the entries from what is written for it, behind
any blanks. -/
def Reads (take : List Char → Option (α × List Char)) (spell : α → String) (entries : List α) : Prop :=
  ∀ entry ∈ entries, ∀ blanks rest : List Char, (∀ c ∈ blanks, isSpace c = true) → EndsWord rest →
    take (blanks ++ ((spell entry).toList ++ rest)) = some (entry, rest)

/-- Entries on lines of their own are read back up to the bracket behind them. -/
theorem takeSeries_lines (hentries : entries ≠ []) (hreads : Reads take spell entries)
    {bound level : Nat} (hbound : (lines level (entries.map spell)).length < bound) {ending : List Char}
    (hcomma : closing ≠ ',') (hword : EndsWord ending) (hending : skipSpace ending = closing :: rest) :
    takeSeries take closing bound ('\n' :: (lines level (entries.map spell) ++ ending)) =
      some (entries, rest) := by
  induction entries generalizing bound with
  | nil => exact absurd rfl hentries
  | cons entry entries ih =>
    obtain ⟨bound, rfl⟩ := Nat.exists_eq_succ_of_ne_zero (Nat.ne_zero_of_lt hbound)
    have hentry : ∀ behind, EndsWord behind →
        take ('\n' :: ((indent level).toList ++ ((spell entry).toList ++ behind))) =
          some (entry, behind) :=
      fun behind hbehind => hreads entry List.mem_cons_self _ behind isSpace_of_mem_indent hbehind
    cases entries with
    | nil =>
      rw [List.map_singleton, lines_singleton, List.append_assoc, takeSeries, hentry ending hword,
        Option.bind_some]
      dsimp only
      rw [hending]
      exact if_pos rfl
    | cons second entries =>
      rw [List.map_cons, List.map_cons, lines_cons_cons] at hbound ⊢
      have hshorter : (lines level ((second :: entries).map spell)).length < bound := by
        simp only [List.length_append, List.length_cons] at hbound
        rw [List.map_cons]
        omega
      have hrest := ih (List.cons_ne_nil second entries)
        (fun other hother => hreads other (List.mem_cons_of_mem entry hother)) hshorter
      simp only [List.append_assoc, List.cons_append]
      rw [takeSeries, hentry _ (endsWord_cons rfl _), Option.bind_some]
      dsimp only
      rw [skipSpace_cons rfl]
      dsimp only
      rw [if_neg hcomma.symm, if_pos rfl, ← List.map_cons, hrest]
      rfl

/-- The entries of a block are read back behind its opening bracket. What takes an entry must not take
the closing bracket for one. -/
theorem takeBlock_block (hreads : Reads take spell entries) (hnone : take (closing :: rest) = none)
    (hspace : isSpace closing = false) (hcomma : closing ≠ ',') (opening : String) {bracket : String}
    (hbracket : bracket.toList = [closing]) (level : Nat) :
    ∃ behind : List Char,
      (block opening bracket level (entries.map spell)).toList ++ rest = opening.toList ++ behind ∧
        takeBlock take closing behind = some (entries, rest) := by
  cases entries with
  | nil =>
    have hseries : takeSeries take closing (closing :: rest).length (closing :: rest) = none := by
      rw [List.length_cons, takeSeries, hnone, Option.bind_none]
    refine ⟨closing :: rest, by simp [block, hbracket], ?_⟩
    rw [takeBlock, hseries, skipSpace_cons hspace]
    exact if_pos rfl
  | cons entry entries =>
    have htexts : (entry :: entries).map spell ≠ [] := List.cons_ne_nil _ _
    refine ⟨'\n' :: (lines (level + 1) ((entry :: entries).map spell) ++
      '\n' :: ((indent level).toList ++ closing :: rest)), ?_, ?_⟩
    · rw [toList_block htexts, hbracket]
      simp only [List.append_assoc, List.cons_append, List.nil_append]
    · have hbound : (lines (level + 1) ((entry :: entries).map spell)).length <
          ('\n' :: (lines (level + 1) ((entry :: entries).map spell) ++
            '\n' :: ((indent level).toList ++ closing :: rest))).length := by
        rw [List.length_cons, List.length_append]
        omega
      have hending : skipSpace ('\n' :: ((indent level).toList ++ closing :: rest)) = closing :: rest :=
        skipSpace_append isSpace_of_mem_indent hspace rest
      rw [takeBlock, takeSeries_lines (List.cons_ne_nil _ _) hreads hbound hcomma (endsWord_cons rfl _)
        hending]

end Blocks

section Nesting

variable {depth level : Nat} {blanks rest : List Char}

/-- The items of an array stand in the order of the array. -/
theorem prettyItems_eq_map (level : Nat) (items : List Json) :
    prettyItems level items = items.map (pretty level) := by
  induction items with
  | nil => rfl
  | cons item items ih => rw [prettyItems, ih, List.map_cons]

/-- The text of an entry of an object. -/
def prettyEntry (level : Nat) (entry : String × Json) : String :=
  quoted entry.1 ++ ": " ++ entry.2.pretty level

/-- The entries of an object stand in the order of the object. -/
theorem prettyEntries_eq_map (level : Nat) (entries : List (String × Json)) :
    prettyEntries level entries = entries.map (prettyEntry level) := by
  induction entries with
  | nil => rfl
  | cons entry entries ih => rw [prettyEntries, ih, List.map_cons, prettyEntry]

/-- An entry of an object is taken off the front if its value is. -/
theorem takeEntry_prettyEntry {take : List Char → Option (Json × List Char)}
    {entry : String × Json} (htake : ∀ rest, EndsWord rest →
      take (' ' :: ((entry.2.pretty level).toList ++ rest)) = some (entry.2, rest))
    (hblanks : ∀ c ∈ blanks, isSpace c = true) (hrest : EndsWord rest) :
    takeEntry take (blanks ++ ((prettyEntry level entry).toList ++ rest)) = some (entry, rest) := by
  have htext : (prettyEntry level entry).toList ++ rest = '"' :: (entry.1.toList.flatMap escape ++
      '"' :: ':' :: ' ' :: ((entry.2.pretty level).toList ++ rest)) := by
    simp [prettyEntry, quoted]
  have hcolon : ∀ text, skipSpace (':' :: text) = ':' :: text := skipSpace_cons rfl
  rw [takeEntry, htext, skipSpace_append hblanks (by decide)]
  simp only [takeString_flatMap, Option.bind_some, hcolon, htake rest hrest, Option.map_some,
    Prod.map_apply, String.ofList_toList, id]

/-- An array is taken off the front if its items are. -/
theorem takeValue_array {items : List Json}
    (hreads : Reads (takeValue depth) (pretty (level + 1)) items)
    (hblanks : ∀ c ∈ blanks, isSpace c = true) :
    takeValue (depth + 1) (blanks ++ (((array items).pretty level).toList ++ rest)) =
      some (.array items, rest) := by
  have hnone : takeValue depth (']' :: rest) = none := by
    cases depth <;> rfl
  have hend : "]".toList = [']'] := rfl
  obtain ⟨behind, htext, hitems⟩ := takeBlock_block hreads hnone rfl (by decide) "[" hend level
  have hbracket : ((array items).pretty level).toList ++ rest = '[' :: behind := by
    rw [pretty, prettyItems_eq_map, htext]
    rfl
  rw [hbracket, takeValue, skipSpace_append hblanks (by decide)]
  simp only [hitems, Option.map_some, Prod.map_apply, id]

/-- An object is taken off the front if its entries are. -/
theorem takeValue_object {entries : List (String × Json)}
    (hreads : Reads (takeEntry (takeValue depth)) (prettyEntry (level + 1)) entries)
    (hblanks : ∀ c ∈ blanks, isSpace c = true) :
    takeValue (depth + 1) (blanks ++ (((object entries).pretty level).toList ++ rest)) =
      some (.object entries, rest) := by
  have hnone : takeEntry (takeValue depth) ('\x7d' :: rest) = none := rfl
  have hend : "\x7d".toList = ['\x7d'] := rfl
  obtain ⟨behind, htext, hentries⟩ :=
    takeBlock_block hreads hnone rfl (by decide) "\x7b" hend level
  have hbracket : ((object entries).pretty level).toList ++ rest = '\x7b' :: behind := by
    rw [pretty, prettyEntries_eq_map, htext]
    rfl
  rw [hbracket, takeValue, skipSpace_append hblanks (by decide)]
  simp only [hentries, Option.map_some, Prod.map_apply, id]

/-- The text of a value is taken off the front of any text that does not go on with a word, if values of
the depth of its length are read. -/
theorem takeValue_pretty {value : Json} (hdepth : (value.pretty level).length < depth)
    (hblanks : ∀ c ∈ blanks, isSpace c = true) (hrest : EndsWord rest) :
    takeValue depth (blanks ++ ((value.pretty level).toList ++ rest)) = some (value, rest) := by
  -- An entry is shorter than the value that it stands in, so the depth suffices for it as well.
  induction depth generalizing level value blanks rest with
  | zero => cases hdepth
  | succ depth ih =>
    cases value with
    | null =>
      rw [pretty]
      exact takeValue_word rfl (List.all_eq_true.mp rfl) hblanks hrest
    | bool b =>
      rw [pretty]
      cases b with
      | false => exact takeValue_word rfl (List.all_eq_true.mp rfl) hblanks hrest
      | true => exact takeValue_word rfl (List.all_eq_true.mp rfl) hblanks hrest
    | number mantissa places =>
      exact takeValue_word (wordValue?_numberText mantissa places) isWordChar_of_mem_numberText
        hblanks hrest
    | string s => exact takeValue_quoted s hblanks
    | array items =>
      refine takeValue_array ?_ hblanks
      intro item hitem _ _ hspace hend
      have hshorter : (item.pretty (level + 1)).length < ((array items).pretty level).length := by
        rw [pretty, prettyItems_eq_map]
        exact length_lt_length_block (List.mem_map_of_mem hitem)
      exact ih (by omega) hspace hend
    | object entries =>
      refine takeValue_object ?_ hblanks
      intro entry hentry _ _ hspace hend
      have hshorter : (prettyEntry (level + 1) entry).length < ((object entries).pretty level).length := by
        rw [pretty, prettyEntries_eq_map]
        exact length_lt_length_block (List.mem_map_of_mem hentry)
      have hvalue : (entry.2.pretty (level + 1)).length ≤ (prettyEntry (level + 1) entry).length := by
        rw [prettyEntry, String.length_append]
        omega
      exact takeEntry_prettyEntry (fun _ hbehind =>
        ih (by omega) (List.forall_mem_singleton.mpr (rfl : isSpace ' ' = true)) hbehind) hspace hend

end Nesting

/-- The text of a value is read as that value. -/
theorem read?_text (value : Json) : read? value.text = some value := by
  have hdepth : (value.pretty 0).length < value.text.length + 1 := Nat.lt_succ_self _
  have hspace : ∀ c ∈ ([] : List Char), isSpace c = true := fun _ hc => absurd hc List.not_mem_nil
  have htake := takeValue_pretty hdepth hspace (show EndsWord [] from nofun)
  rw [List.nil_append, List.append_nil] at htake
  rw [read?, show value.text.toList = (value.pretty 0).toList from rfl, htake]
  rfl

-- Other layouts and spellings are read as well.
example : read? " [1.5e1 ,\"\\u00E9\\/\",\x7b \"a\" :null\x7d]\n" =
    some (.array [.number 15 0, .string "é/", .object [("a", .null)]]) := rfl

end Json

end AnnotatedHelp
