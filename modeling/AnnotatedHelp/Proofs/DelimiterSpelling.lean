import Mathlib
import AnnotatedHelp.Proofs.SessionCounters
import AnnotatedHelp.Proofs.WrittenProperties

/-!
# Spellings of delimiter counts

A delimiter count is looked at three times: before a comma is taken as delimiter, where there is no
delimiter, and where it is read. Only the reader compares counts; the other two compare the text with
the single digit zero. The main statement says when it does not matter how a count is written, which
is not always: zero written otherwise leaves the comma a delimiter.
-/

namespace AnnotatedHelp

open Outcome Text

variable {first second : String}

namespace Properties

/-- The table with another text for the delimiter count, where there is one. -/
def respelled (second : String) (properties : Properties) : Properties :=
  fun key => if key = .delimiterCount then (properties key).map fun _ => second else properties key

/-- The delimiter count has this text, if there is one. -/
def SpelledAs (first : String) (properties : Properties) : Prop :=
  ∀ text, properties .delimiterCount = some text → text = first

variable {properties : Properties} {key : PropertyKey}

/-- Under every other key the table is the same. -/
theorem respelled_other (hk : key ≠ .delimiterCount) :
    properties.respelled second key = properties key :=
  if_neg hk

/-- The delimiter count has the other text. -/
theorem respelled_delimiterCount :
    properties.respelled second .delimiterCount =
      (properties .delimiterCount).map fun _ => second :=
  if_pos rfl

/-- Without a delimiter count nothing changes. -/
theorem respelled_of_none (h : properties .delimiterCount = none) :
    properties.respelled second = properties := by
  funext key
  by_cases hk : key = .delimiterCount
  · rw [hk, respelled_delimiterCount, h, Option.map_none]
  · exact respelled_other hk

/-- An entry that is set before the text is changed may be set behind it. -/
theorem respelled_set (value : String) :
    (properties.set key value).respelled second =
      (properties.respelled second).set key (if key = .delimiterCount then second else value) := by
  funext other
  by_cases hother : other = .delimiterCount
  · subst hother
    rw [respelled_delimiterCount]
    by_cases hk : PropertyKey.delimiterCount = key
    · subst hk
      simp
    · rw [set_other _ _ hk, set_other _ _ hk, respelled_delimiterCount]
  · rw [respelled_other hother]
    by_cases hk : other = key
    · subst hk
      rw [set_self, set_self, if_neg hother]
    · rw [set_other _ _ hk, set_other _ _ hk, respelled_other hother]

end Properties

namespace Property

/-- Two fields that differ at most in the text of the delimiter count. -/
inductive Respelled (dialect : Dialect) (first second : String) : List Char → List Char → Prop
  /-- The field does not give the delimiter count. -/
  | same {field : List Char} :
      (∀ text, ofField dialect field ≠ .ok (some (.delimiterCount, text))) →
      Respelled dialect first second field field
  /-- Both give it, each with its own text. -/
  | count {field other : List Char} : ofField dialect field = .ok (some (.delimiterCount, first)) →
      ofField dialect other = .ok (some (.delimiterCount, second)) →
      Respelled dialect first second field other

variable {dialect : Dialect} {properties : Properties}

/-- An entry is added to the table with the other text as it is added to the first one. -/
theorem add_respelled (hs : properties.SpelledAs first) {key : PropertyKey} {value : String}
    (hv : key = .delimiterCount → value = first) :
    add (properties.respelled second) key (if key = .delimiterCount then second else value) =
      (add properties key value).map (·.respelled second) := by
  have hset : (properties.set key value).respelled second = _ := Properties.respelled_set value
  unfold add
  by_cases hk : key = .delimiterCount
  · subst hk
    obtain rfl := hv rfl
    rw [if_pos rfl] at hset ⊢
    rw [Properties.respelled_delimiterCount]
    cases hfound : properties .delimiterCount with
    | none => exact congrArg Except.ok hset.symm
    | some text =>
      rw [hs text hfound, Option.map_some]
      simp [Except.map]
  · rw [if_neg hk] at hset ⊢
    rw [Properties.respelled_other hk]
    cases properties key with
    | none => exact congrArg Except.ok hset.symm
    | some text =>
      dsimp only
      split_ifs <;> rfl

/-- A table keeps the text of its delimiter count when an entry is added. -/
theorem add_spelledAs {added : Properties} (hs : properties.SpelledAs first) {key : PropertyKey}
    {value : String} (hv : key = .delimiterCount → value = first)
    (h : add properties key value = .ok added) : added.SpelledAs first := by
  unfold add at h
  split at h
  · cases h
    intro text htext
    by_cases hk : PropertyKey.delimiterCount = key
    · subst hk
      rw [Properties.set_self] at htext
      cases htext
      exact hv rfl
    · rw [Properties.set_other _ _ hk] at htext
      exact hs text htext
  · split_ifs at h
    cases h
    exact hs

/-- One field of each block: where the first table had the one text, it has it afterwards, and the
second table is the first one with the other text. -/
theorem addField_respelled {field other : List Char} (h : Respelled dialect first second field other)
    (hs : properties.SpelledAs first) :
    addField dialect (properties.respelled second) other =
        (addField dialect properties field).map (·.respelled second) ∧
      ∀ added, addField dialect properties field = .ok added → added.SpelledAs first := by
  unfold addField
  cases h with
  | same hother =>
    cases hfield : ofField dialect field with
    | error problem => exact ⟨rfl, nofun⟩
    | ok entry =>
      cases entry with
      | none =>
        refine ⟨rfl, ?_⟩
        rintro _ ⟨⟩
        exact hs
      | some entry =>
        obtain ⟨key, value⟩ := entry
        have hk : key ≠ .delimiterCount := by
          rintro rfl
          exact hother value hfield
        have hadd : add (properties.respelled second) key _ = (add properties key value).map _ :=
          add_respelled hs (absurd · hk)
        rw [if_neg hk] at hadd
        exact ⟨hadd, fun added => add_spelledAs hs (absurd · hk)⟩
  | count hfirst hsecond =>
    rw [hfirst, hsecond]
    exact ⟨add_respelled hs fun _ => rfl, fun added => add_spelledAs hs fun _ => rfl⟩

/-- All fields of two blocks. -/
theorem foldlM_respelled {fields others : List (List Char)}
    (h : List.Forall₂ (Respelled dialect first second) fields others)
    (hs : properties.SpelledAs first) :
    others.foldlM (addField dialect) (properties.respelled second) =
        (fields.foldlM (addField dialect) properties).map (·.respelled second) ∧
      ∀ final, fields.foldlM (addField dialect) properties = .ok final → final.SpelledAs first := by
  induction h generalizing properties with
  | nil =>
    refine ⟨rfl, ?_⟩
    rintro _ ⟨⟩
    exact hs
  | cons hfield _ ih =>
    obtain ⟨hstep, hkept⟩ := addField_respelled hfield hs
    rw [List.foldlM_cons, List.foldlM_cons, hstep]
    cases hadded : addField dialect properties _ with
    | error problem => exact ⟨rfl, nofun⟩
    | ok added => exact ih (hkept added hadded)

/-- The text of a delimiter count is not checked with the other values. -/
theorem checkAll_respelled : checkAll (properties.respelled second) = checkAll properties := by
  have hentry : checkEntry (properties.respelled second) = checkEntry properties := by
    funext key
    unfold checkEntry
    by_cases hk : key = .delimiterCount
    · subst hk
      rw [Properties.respelled_delimiterCount]
      cases properties .delimiterCount <;> rfl
    · rw [Properties.respelled_other hk]
  rw [checkAll, checkAll, hentry]

/-- The tables of two blocks whose fields differ in the text of the delimiter count. -/
theorem readFields_respelled {fields others : List (List Char)}
    (h : List.Forall₂ (Respelled dialect first second) fields others) :
    readFields dialect others = (readFields dialect fields).map (·.respelled second) ∧
      ∀ declared, readFields dialect fields = .ok declared → declared.SpelledAs first := by
  have hempty : Properties.empty.respelled second = .empty := Properties.respelled_of_none rfl
  have hunspelled : Properties.empty.SpelledAs first := nofun
  obtain ⟨hrun, hkept⟩ := foldlM_respelled h hunspelled
  rw [hempty] at hrun
  constructor
  · rw [readFields, readFields, hrun, bind_of_map, map_of_bind]
    refine congrArg _ (funext fun final => ?_)
    rw [checkAll_respelled, map_of_bind]
    rfl
  · intro declared hdeclared
    obtain ⟨final, hfinal, hchecked⟩ := bind_ok_iff.mp hdeclared
    obtain ⟨-, -, he⟩ := bind_ok_iff.mp hchecked
    cases he
    exact hkept declared hfinal

end Property

/-- Two blocks that differ at most in the text of the delimiter count. -/
structure Block.Respelled (marks : Marks) (dialect : Dialect) (first second : String)
    (block other : Block) : Prop where
  /-- They begin on one line. -/
  line : other.line = block.line
  /-- They show the same. -/
  visible : (splitAlone marks.separator other.body).headD [] =
    (splitAlone marks.separator block.body).headD []
  /-- Their fields are the same up to the text of the delimiter count. -/
  fields : List.Forall₂ (Property.Respelled dialect first second)
    (splitAlone marks.separator block.body).tail (splitAlone marks.separator other.body).tail

/-- Two blocks that show the same and have the delimiter count as their only field. -/
theorem Block.respelled_of_single {marks : Marks} {dialect : Dialect} {block other : Block}
    (visible field changed : List Char) (hline : other.line = block.line)
    (hfields : splitAlone marks.separator block.body = [visible, field])
    (hothers : splitAlone marks.separator other.body = [visible, changed])
    (hcount : Property.ofField dialect field = .ok (some (.delimiterCount, first)))
    (hother : Property.ofField dialect changed = .ok (some (.delimiterCount, second))) :
    Block.Respelled marks dialect first second block other := by
  refine ⟨hline, ?_, ?_⟩
  · rw [hfields, hothers]
    rfl
  · rw [hfields, hothers]
    exact .cons (.count hcount hother) .nil

namespace Definition

variable {marks : Marks} {dialect : Dialect} {block other : Block}

/-- The definition with another text for the delimiter count, where it declares one. -/
def respelled (second : String) (definition : Definition) : Definition :=
  { definition with declared := definition.declared.respelled second }

/-- The shape does not depend on the delimiter count. -/
theorem shapeOf_respelled (declared : Properties) (visible : List Char) :
    shapeOf (declared.respelled second) visible = shapeOf declared visible :=
  rfl

/-- Nor does anything else of the definition, save the table of declared properties. -/
theorem ofShape_respelled (line : Nat) (visible : List Char) (declared : Properties)
    (counters : Counters) (shape : Shape) :
    ofShape line visible (declared.respelled second) counters shape =
      (ofShape line visible declared counters shape).map (respelled second) := by
  have hindex : declared.respelled second .index = declared .index := rfl
  unfold ofShape
  rw [hindex]
  split_ifs <;> rfl

/-- The other block has the definition of the first one with the other text. -/
theorem ofBlock_respelled (h : Block.Respelled marks dialect first second block other)
    (counters : Counters) :
    ofBlock marks dialect counters other =
      ((ofBlock marks dialect counters block).1.map (respelled second),
        (ofBlock marks dialect counters block).2) := by
  unfold ofBlock
  dsimp only
  rw [(Property.readFields_respelled h.fields).1, h.visible, h.line]
  cases Property.readFields dialect (splitAlone marks.separator block.body).tail with
  | error problem => rfl
  | ok declared =>
    simp only [Except.map, shapeOf_respelled, ofShape_respelled]
    cases shapeOf declared ((splitAlone marks.separator block.body).headD []) <;> rfl

/-- A block declares the delimiter count with its own text. -/
theorem spelledAs_of_ofBlock (h : Block.Respelled marks dialect first second block other)
    {counters after : Counters} {definition : Definition}
    (hread : ofBlock marks dialect counters block = (.ok definition, after)) :
    definition.declared.SpelledAs first :=
  (Property.readFields_respelled h.fields).2 _ (ofBlock_declared hread)

/-- Two spellings of one delimiter count that make no difference to a definition. -/
inductive SpellingFree (first second : String) (definition : Definition) : Prop
  /-- Both texts are the single digit zero, or neither is. -/
  | alike : Draft.declaredZero (some first) = Draft.declaredZero (some second) →
      SpellingFree first second definition
  /-- The definition declares its delimiter. -/
  | delimited {text : String} : definition.declared .delimiter = some text →
      SpellingFree first second definition
  /-- It does not declare a delimiter count. -/
  | undeclared : definition.declared .delimiterCount = none → SpellingFree first second definition

/-- A declared property is that of the definition. -/
theorem get_of_declared {definition : Definition} {key : PropertyKey} {text : String}
    (h : definition.declared key = some text) : definition.get key = some text := by
  rw [get, h, Option.some_or]

/-- A delimiter count that is declared has the other text. -/
theorem get_respelled_delimiterCount {definition : Definition} {text : String}
    (h : definition.declared .delimiterCount = some text) :
    (definition.respelled second).get .delimiterCount = some second := by
  refine get_of_declared ?_
  change definition.declared.respelled second .delimiterCount = some second
  rw [Properties.respelled_delimiterCount, h, Option.map_some]

/-- Where a delimiter count is declared, the spelling makes no difference if both texts are told from
the digit zero alike or there is a delimiter. -/
theorem SpellingFree.alike_or_delimited {definition : Definition}
    (h : definition.SpellingFree first second) {text : String}
    (hcount : definition.declared .delimiterCount = some text) :
    Draft.declaredZero (some first) = Draft.declaredZero (some second) ∨
      ∃ delimiter, definition.get .delimiter = some delimiter := by
  cases h with
  | alike hzero => exact .inl hzero
  | delimited hdeclared => exact .inr ⟨_, get_of_declared hdeclared⟩
  | undeclared hnone => cases hcount.symm.trans hnone

end Definition

namespace Draft

/-- Where the delimiter is declared, the count is not asked for. -/
theorem readDelimiter_declared (text : String) (source : List Char) (count other : Option String) :
    readDelimiter (some text) source other = readDelimiter (some text) source count :=
  rfl

/-- A delimiter that is declared is there. -/
theorem ne_none_of_readDelimiter {text : String} {source : List Char} {count : Option String}
    {delimiter : Option Char} (h : readDelimiter (some text) source count = .ok delimiter) :
    delimiter ≠ none := by
  rintro rfl
  unfold readDelimiter at h
  dsimp only at h
  split at h
  · next hnone => cases hnone
  · split_ifs at h
    cases h
  · cases h

/-- Texts that are read as one count give one delimiter count where there is a delimiter, or where
both or neither are the digit zero. -/
theorem readDelimiterCount_congr {count : Count} (hfirst : Count.parse first = .ok count)
    (hsecond : Count.parse second = .ok count) {delimiter : Option Char}
    (h : delimiter = none → declaredZero (some first) = declaredZero (some second))
    (source : List Char) :
    readDelimiterCount delimiter source (some second) =
      readDelimiterCount delimiter source (some first) := by
  cases delimiter with
  | none => rw [readDelimiterCount, readDelimiterCount, h rfl]
  | some c => rw [readDelimiterCount, readDelimiterCount, readCount, readCount, hfirst, hsecond]

/-- A definition to which the spelling makes no difference has the same draft with either text. -/
theorem ofDefinition_respelled {count : Count} (hfirst : Count.parse first = .ok count)
    (hsecond : Count.parse second = .ok count) {definition : Definition}
    (hs : definition.declared.SpelledAs first) (hfree : definition.SpellingFree first second)
    (ordinal : Nat) :
    ofDefinition ordinal (definition.respelled second) = ofDefinition ordinal definition := by
  cases hcount : definition.declared .delimiterCount with
  | none => rw [Definition.respelled, Properties.respelled_of_none hcount]
  | some text =>
    obtain rfl := hs text hcount
    -- The delimiter is read alike. Where only one text is the digit zero it is declared, so that it
    -- cannot be missing when the count is read.
    have hdelimiter : ∀ source, readDelimiter (definition.get .delimiter) source (some second) =
        readDelimiter (definition.get .delimiter) source (some text) := by
      intro source
      rcases hfree.alike_or_delimited hcount with hzero | ⟨given, hgiven⟩
      · unfold readDelimiter
        rw [hzero]
      · rw [hgiven, readDelimiter_declared]
    have hneeds : ∀ source delimiter,
        readDelimiter (definition.get .delimiter) source (some text) = .ok delimiter →
          delimiter = none → declaredZero (some text) = declaredZero (some second) := by
      intro source delimiter hread hnone
      rcases hfree.alike_or_delimited hcount with hzero | ⟨given, hgiven⟩
      · exact hzero
      · rw [hgiven] at hread
        exact absurd hnone (ne_none_of_readDelimiter hread)
    unfold ofDefinition
    dsimp only
    rw [Definition.get_of_declared hcount, Definition.get_respelled_delimiterCount hcount]
    refine bind_congr_ok rfl fun flags _ => bind_congr_ok rfl fun source _ =>
      bind_congr_ok (hdelimiter _) fun delimiter hread => bind_congr_ok ?_ fun _ _ => rfl
    exact readDelimiterCount_congr hfirst hsecond (hneeds _ delimiter hread) _

/-- A draft that two texts make without a declared delimiter has no delimiter if one of them is the
digit zero, and then the other one is as well. -/
theorem declaredZero_of_made {ordinal : Nat} {definition other : Definition} {draft : Draft}
    (hmade : ofDefinition ordinal definition = .ok draft)
    (hother : ofDefinition ordinal other = .ok draft)
    (hdelimiter : definition.get .delimiter = none)
    (hfirst : definition.get .delimiterCount = some first)
    (hsecond : other.get .delimiterCount = some second) (hzero : declaredZero (some first) = true) :
    declaredZero (some second) = true := by
  obtain ⟨source, hmade⟩ := ofDefinition_made hmade
  obtain ⟨taken, hother⟩ := ofDefinition_made hother
  have hnone : draft.argument.delimiter = none := by
    have hread := hmade.delimiter
    rw [hdelimiter, hfirst] at hread
    simp only [readDelimiter, hzero, Bool.not_true, Bool.and_false, Bool.false_eq_true,
      if_false] at hread
    exact (Except.ok.inj hread).symm
  have hcount := hother.delimiterCount
  rw [hnone, hsecond, readDelimiterCount] at hcount
  by_contra hnot
  rw [if_neg hnot] at hcount
  cases hcount

/-- What a single block gives is its draft, if it is accepted. -/
theorem ofBlocks_single (marks : Marks) (dialect : Dialect) (counters : Counters) (ordinal : Nat)
    (block : Block) :
    ofBlocks marks dialect counters ordinal [block] =
      ((ofBlock marks dialect counters ordinal block).map ([·]),
        (Definition.ofBlock marks dialect counters block).2) := by
  rw [ofBlocks_cons_eq]
  cases ofBlock marks dialect counters ordinal block <;> rfl

end Draft

/-- Two spellings of one delimiter count that make no difference to a block: none to its definition, if
it is read. -/
def Block.SpellingFree (marks : Marks) (dialect : Dialect) (counters : Counters)
    (first second : String) (block : Block) : Prop :=
  ∀ definition, (Definition.ofBlock marks dialect counters block).1 = .ok definition →
    definition.SpellingFree first second

namespace Draft

variable {marks : Marks} {dialect : Dialect} {block other : Block}

/-- One draft of both blocks leaves no difference between the spellings. -/
theorem spellingFree_of_ofBlock_eq (h : Block.Respelled marks dialect first second block other)
    {counters : Counters} {ordinal : Nat} {draft : Draft}
    (hdraft : ofBlock marks dialect counters ordinal block = .ok draft)
    (hother : ofBlock marks dialect counters ordinal other = .ok draft) :
    block.SpellingFree marks dialect counters first second := by
  intro definition hdefinition
  have hread : Definition.ofBlock marks dialect counters block =
      (.ok definition, (Definition.ofBlock marks dialect counters block).2) := Prod.ext hdefinition rfl
  have hmade : ofDefinition ordinal definition = .ok draft := by
    rw [ofBlock, mapError_ok_iff, hread] at hdraft
    exact hdraft
  have hrespelled : ofDefinition ordinal (definition.respelled second) = .ok draft := by
    rw [ofBlock, mapError_ok_iff, Definition.ofBlock_respelled h, hread] at hother
    exact hother
  cases hcount : definition.declared .delimiterCount with
  | none => exact .undeclared hcount
  | some text =>
    obtain rfl := Definition.spelledAs_of_ofBlock h hread text hcount
    cases hdelimiter : definition.declared .delimiter with
    | some given => exact .delimited hdelimiter
    | none =>
      have hnone : definition.get .delimiter = none :=
        (Definition.get_eq_declared hread (by decide)).trans hdelimiter
      have hfirst := Definition.get_of_declared hcount
      have hsecond : (definition.respelled second).get .delimiterCount = some second :=
        Definition.get_respelled_delimiterCount hcount
      refine .alike (Bool.eq_iff_iff.mpr ⟨fun hzero => ?_, fun hzero => ?_⟩)
      · exact declaredZero_of_made hmade hrespelled hnone hfirst hsecond hzero
      · exact declaredZero_of_made hrespelled hmade hnone hsecond hfirst hzero

/-- Two blocks that differ in how they write one delimiter count have one outcome, be it a draft or a
report, unless the delimiter is not declared and just one of the texts is the single digit zero. In
that case they never have the same draft. -/
theorem ofBlocks_spelling (h : Block.Respelled marks dialect first second block other)
    {count : Count} (hfirst : Count.parse first = .ok count)
    (hsecond : Count.parse second = .ok count) (counters : Counters) (ordinal : Nat) :
    (block.SpellingFree marks dialect counters first second →
      ofBlocks marks dialect counters ordinal [other] =
        ofBlocks marks dialect counters ordinal [block]) ∧
    ∀ drafts after, ofBlocks marks dialect counters ordinal [block] = (.ok drafts, after) →
      ofBlocks marks dialect counters ordinal [other] = (.ok drafts, after) →
        block.SpellingFree marks dialect counters first second := by
  rw [ofBlocks_single, ofBlocks_single]
  constructor
  · intro hfree
    rw [ofBlock, ofBlock, Definition.ofBlock_respelled h, h.line]
    cases hread : (Definition.ofBlock marks dialect counters block).1 with
    | error problem => rfl
    | ok definition =>
      have hs := Definition.spelledAs_of_ofBlock h (Prod.ext hread rfl)
      have hdraft := ofDefinition_respelled hfirst hsecond hs (hfree definition hread) ordinal
      exact congrArg (fun draft => ((Except.mapError _ draft).map ([·]), _)) hdraft
  · intro drafts after haccepted hother
    obtain ⟨draft, hdraft, rfl⟩ := map_ok_iff.mp (Prod.mk.inj haccepted).1
    obtain ⟨same, hsame, he⟩ := map_ok_iff.mp (Prod.mk.inj hother).1
    cases he
    exact spellingFree_of_ofBlock_eq h hdraft hsame

/-- An option that captures two values, with a delimiter count. -/
def pairBlock (count : String) : Block :=
  ⟨1, ("-f A,B | DelimiterCount: " ++ count).toList⟩

/-- Two spellings of one delimiter count can make different arguments. -/
theorem ofBlocks_spelling_zeros :
    ¬ ∀ (marks : Marks) (dialect : Dialect) (first second : String) (block other : Block)
        (count : Count), Block.Respelled marks dialect first second block other →
      Count.parse first = .ok count → Count.parse second = .ok count →
        ∀ counters ordinal, ofBlocks marks dialect counters ordinal [other] =
          ofBlocks marks dialect counters ordinal [block] := by
  intro hall
  have hrespelled :
      Block.Respelled shortMarks .classic "0" "00" (pairBlock "0") (pairBlock "00") :=
    Block.respelled_of_single "-f A,B ".toList " DelimiterCount: 0".toList
      " DelimiterCount: 00".toList rfl
      (by decide +kernel) (by decide +kernel) (by decide +kernel) (by decide +kernel)
  have hsame := hall _ _ _ _ _ _ Count.none hrespelled (by decide +kernel) (by decide +kernel)
    Counters.zero 0
  have hplain : (ofBlocks shortMarks .classic .zero 0 [pairBlock "0"]).1.toOption.map
      (·.map (·.argument.delimiter)) = some [none] := by decide +kernel
  have hcomma : (ofBlocks shortMarks .classic .zero 0 [pairBlock "00"]).1.toOption.map
      (·.map (·.argument.delimiter)) = some [some ','] := by decide +kernel
  rw [hsame, hplain] at hcomma
  cases hcomma

/-- A count other than zero makes the same argument in both of its spellings. -/
theorem ofBlocks_spelling_range :
    Block.Respelled shortMarks .classic "1" "1..1" (pairBlock "1") (pairBlock "1..1") ∧
      Count.parse "1" = .ok (.exactly 1) ∧ Count.parse "1..1" = .ok (.exactly 1) ∧
      (pairBlock "1").SpellingFree shortMarks .classic .zero "1" "1..1" ∧
      (∃ draft, ofBlocks shortMarks .classic .zero 0 [pairBlock "1"] = (.ok [draft], ⟨0, 1⟩) ∧
        draft.argument.delimiter = some ',' ∧ draft.argument.delimiterCount = .exactly 1 ∧
        ofBlocks shortMarks .classic .zero 0 [pairBlock "1..1"] = (.ok [draft], ⟨0, 1⟩)) := by
  have hrespelled :
      Block.Respelled shortMarks .classic "1" "1..1" (pairBlock "1") (pairBlock "1..1") :=
    Block.respelled_of_single "-f A,B ".toList " DelimiterCount: 1".toList
      " DelimiterCount: 1..1".toList rfl
      (by decide +kernel) (by decide +kernel) (by decide +kernel) (by decide +kernel)
  have hfirst : Count.parse "1" = .ok (.exactly 1) := by decide +kernel
  have hsecond : Count.parse "1..1" = .ok (.exactly 1) := by decide +kernel
  have hfree : (pairBlock "1").SpellingFree shortMarks .classic .zero "1" "1..1" :=
    fun definition _ => .alike (by decide)
  have hsame := (ofBlocks_spelling hrespelled hfirst hsecond .zero 0).1 hfree
  have hdrafts : (ofBlocks shortMarks .classic .zero 0 [pairBlock "1"]).1.toOption.map
      (·.map fun draft => (draft.argument.delimiter, draft.argument.delimiterCount)) =
        some [(some ',', .exactly 1)] := by decide +kernel
  have hafter : (ofBlocks shortMarks .classic .zero 0 [pairBlock "1"]).2 = ⟨0, 1⟩ := by
    decide +kernel
  obtain ⟨drafts, hok, hall⟩ := exists_ok_of_toOption hdrafts
  obtain ⟨draft, rfl, hdraft⟩ := List.map_eq_singleton_iff.mp hall
  have hread : ofBlocks shortMarks .classic .zero 0 [pairBlock "1"] = (.ok [draft], ⟨0, 1⟩) :=
    Prod.ext hok hafter
  obtain ⟨hdelimiter, hcount⟩ := Prod.mk.inj hdraft
  exact ⟨hrespelled, hfirst, hsecond, hfree, draft, hread, hdelimiter, hcount, hsame.trans hread⟩

end Draft

end AnnotatedHelp
