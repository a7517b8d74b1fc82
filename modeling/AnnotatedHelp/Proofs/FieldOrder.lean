import Mathlib
import AnnotatedHelp.Definition.Basic
import AnnotatedHelp.Proofs.Occurrence
import AnnotatedHelp.Proofs.Outcome
import AnnotatedHelp.Proofs.Positions

/-!
# The order of fields

The fields of a definition are added to a table one after another. A field never changes what an
earlier one gave, it can only contradict it. So what matters about fields is which values they give to
which keys, and not in which order they do so or how often: they are accepted where each of them is
blank or gives a value, no two of them contradict each other, and every value passes the check of its
key; and the table then has the values that are given.
-/

namespace AnnotatedHelp

open Outcome Text

namespace Text

variable {token text lead trail before after : List Char}

/-- Blanks around a text are trimmed off with those that it has itself. -/
theorem trim_surrounded (hlead : ∀ c ∈ lead, isBlank c = true)
    (htrail : ∀ c ∈ trail, isBlank c = true) : trim (lead ++ text ++ trail) = trim text := by
  have hend : ∀ line, trimEnd (line ++ trail) = trimEnd line := by
    intro line
    have hreverse : ∀ c ∈ trail.reverse, isBlank c = true :=
      fun c hc => htrail c (List.mem_reverse.mp hc)
    rw [trimEnd, List.reverse_append, List.dropWhile_append_of_pos hreverse, trimEnd]
  rw [trim, trimStart, List.append_assoc, List.dropWhile_append_of_pos hlead, List.dropWhile_append]
  split
  · next hempty =>
    have hnone : text.dropWhile isBlank = [] := List.isEmpty_iff.mp hempty
    have htrailing : trail.dropWhile isBlank = [] := by
      rw [List.dropWhile_eq_nil_iff]
      exact htrail
    rw [trim, trimStart, hnone, htrailing]
  · rw [hend, trim, trimStart]

/-- A text is what is left of it when it is trimmed, with blanks around. -/
theorem exists_surrounded (text : List Char) :
    ∃ lead trail, (∀ c ∈ lead, isBlank c = true) ∧ (∀ c ∈ trail, isBlank c = true) ∧
      text = lead ++ trim text ++ trail := by
  refine ⟨text.takeWhile isBlank, (trimStart text).rtakeWhile isBlank,
    fun c hc => List.mem_takeWhile_imp hc, fun c hc => List.mem_rtakeWhile_imp hc, ?_⟩
  have hstart : trim text ++ (trimStart text).rtakeWhile isBlank = trimStart text :=
    List.rdropWhile_append_rtakeWhile
  rw [List.append_assoc, hstart, trimStart, List.takeWhile_append_dropWhile]

/-- A character that is not blank stands between blanks exactly where it stands in the text. -/
theorem mem_trim_iff {c : Char} (hc : isBlank c = false) : c ∈ trim text ↔ c ∈ text := by
  obtain ⟨lead, trail, hlead, htrail, htext⟩ := exists_surrounded text
  have hvisible : ∀ line : List Char, (∀ c ∈ line, isBlank c = true) → c ∉ line := by
    intro line hline hmem
    rw [hline c hmem] at hc
    cases hc
  conv_rhs => rw [htext]
  simp [hvisible lead hlead, hvisible trail htrail]

/-- Nothing is left of a text exactly if it is blank. -/
theorem trim_eq_nil_iff : trim text = [] ↔ isBlankLine text = true := by
  constructor
  · intro h
    obtain ⟨lead, trail, hlead, htrail, htext⟩ := exists_surrounded text
    rw [htext, h, List.append_nil, isBlankLine, List.all_append, List.all_eq_true.mpr hlead,
      List.all_eq_true.mpr htrail]
    rfl
  · intro h
    have hblank : trim (text ++ [] ++ []) = [] := trim_surrounded (List.all_eq_true.mp h) nofun
    rwa [List.append_nil, List.append_nil] at hblank

/-- A character that is not blank is found first in a trimmed text where it is in the text. -/
theorem FirstAt.of_trim {mark : Char} (hmark : isBlank mark = false)
    (h : FirstAt [mark] (trim text) before after) :
    ∃ lead trail, (∀ c ∈ lead, isBlank c = true) ∧ (∀ c ∈ trail, isBlank c = true) ∧
      FirstAt [mark] text (lead ++ before) (after ++ trail) := by
  obtain ⟨lead, trail, hlead, htrail, htext⟩ := exists_surrounded text
  have hother : mark ∉ lead := by
    intro hmem
    rw [hlead mark hmem] at hmark
    cases hmark
  have hlast : ∀ c ∈ lead.getLast?, c ∉ [mark] := by
    intro c hc hmem
    obtain rfl := List.mem_singleton.mp hmem
    exact hother (List.mem_of_getLast? hc)
  have hnone : ¬[mark] <:+: lead := fun hinfix => hother ((List.singleton_infix_iff _ _).mp hinfix)
  refine ⟨lead, trail, hlead, htrail, ?_⟩
  rw [htext]
  exact (h.behind hnone hlast).append trail

end Text

namespace Properties

/-- Two tables are the same if they have the same entries. -/
theorem eq_of_entries {properties other : Properties}
    (h : ∀ key value, properties key = some value ↔ other key = some value) : properties = other :=
  funext fun key => Option.ext fun value => h key value

/-- Values that are given to keys make a table if no key is given two values. -/
theorem exists_of_agree {given : PropertyKey → String → Prop}
    (h : ∀ key value value', given key value → given key value' → value = value') :
    ∃ properties : Properties, ∀ key value, properties key = some value ↔ given key value := by
  have hentry : ∀ key, ∃ entry : Option String, ∀ value, entry = some value ↔ given key value := by
    intro key
    by_cases hgiven : ∃ value, given key value
    · obtain ⟨value, hvalue⟩ := hgiven
      refine ⟨some value, fun value' => ⟨?_, fun hvalue' => congrArg some (h key _ _ hvalue hvalue')⟩⟩
      rintro ⟨⟩
      exact hvalue
    · exact ⟨none, fun value => iff_of_false nofun fun hvalue => hgiven ⟨value, hvalue⟩⟩
  exact ⟨fun key => (hentry key).choose, fun key => (hentry key).choose_spec⟩

end Properties

namespace Property

variable {dialect : Dialect} {field : List Char} {fields others : List (List Char)} {key : PropertyKey}
  {value : String} {properties added declared : Properties} {problem : Problem}

/-- A field gives a key a value: a name of the key, in any case, stands in front of the first colon,
and the value behind it. Blanks around the two do not belong to them. -/
inductive Gives (dialect : Dialect) (field : List Char) (key : PropertyKey) (value : String) :
    Prop where
  /-- The name is known. -/
  | known {before after : List Char} (colon : FirstAt [':'] field before after)
      (name : PropertyKey.ofName? dialect (foldCase (String.ofList (trim before))) = some key)
      (behind : String.ofList (trim after) = value) : Gives dialect field key value

/-- A field that gives a value has a colon. -/
theorem Gives.mem (h : Gives dialect field key value) : ':' ∈ field := by
  obtain ⟨colon, -, -⟩ := h
  exact (List.singleton_infix_iff _ _).mp colon.found

/-- A field gives one value to one key at most. -/
theorem Gives.unique {other : PropertyKey} {value' : String} (h : Gives dialect field key value)
    (h' : Gives dialect field other value') : key = other ∧ value = value' := by
  obtain ⟨colon, name, rfl⟩ := h
  obtain ⟨colon', name', rfl⟩ := h'
  obtain ⟨rfl, rfl⟩ := colon.unique colon'
  exact ⟨Option.some.inj (name.symm.trans name'), rfl⟩

/-- A colon is not blank. -/
theorem not_isBlankLine_of_mem (h : ':' ∈ field) : isBlankLine field = false := by
  rw [isBlankLine, List.all_eq_false]
  exact ⟨':', h, by decide⟩

/-- What reading a field comes to: nothing if it is blank, a refusal if it has no colon or no name of a
key in front of it, and else what it gives. -/
inductive FieldOutcome (dialect : Dialect) (field : List Char) :
    Except Problem (Option (PropertyKey × String)) → Prop where
  /-- The field is blank. -/
  | blank (h : isBlankLine field = true) : FieldOutcome dialect field (.ok none)
  /-- There is no colon. -/
  | plain (hblank : isBlankLine field = false) (hnone : ':' ∉ field) :
      FieldOutcome dialect field (.error (.missingColon (String.ofList (trim field))))
  /-- There is no such key. -/
  | unknown {before after : List Char} (colon : FirstAt [':'] field before after)
      (name : PropertyKey.ofName? dialect (foldCase (String.ofList (trim before))) = none) :
      FieldOutcome dialect field (.error (.unknownProperty (String.ofList (trim before))))
  /-- A value is given. -/
  | given {key : PropertyKey} {value : String} (h : Gives dialect field key value) :
      FieldOutcome dialect field (.ok (some (key, value)))

/-- A field is trimmed before the colon is looked for, which does not matter. -/
theorem ofField_outcome (dialect : Dialect) (field : List Char) :
    FieldOutcome dialect field (ofField dialect field) := by
  have hcolon : isBlank ':' = false := by decide
  unfold ofField
  split
  · next hnothing => exact .blank (trim_eq_nil_iff.mp hnothing)
  · next hsomething =>
    split
    · next hcut =>
      have hblank : isBlankLine field = false := by
        rw [← Bool.not_eq_true, ← trim_eq_nil_iff]
        exact hsomething
      refine .plain hblank fun hmem => not_found_of_cut_eq_none hcut ?_
      exact (List.singleton_infix_iff _ _).mpr ((mem_trim_iff hcolon).mpr hmem)
    · next before after hcut =>
      obtain ⟨lead, trail, hlead, htrail, hfirst⟩ := (firstAt_of_cut hcut).of_trim hcolon
      have hbefore : trim (lead ++ before) = trim before := by
        rw [← List.append_nil (lead ++ before)]
        exact trim_surrounded hlead nofun
      have hafter : trim (after ++ trail) = trim after := by
        rw [← List.nil_append (after ++ trail), ← List.append_assoc]
        exact trim_surrounded nofun htrail
      rw [← hbefore, ← hafter]
      dsimp only
      split
      · next hname => exact .unknown hfirst hname
      · next key hname => exact .given (.known hfirst hname rfl)

/-- A field is read as what it gives. -/
theorem ofField_eq_some_iff :
    ofField dialect field = .ok (some (key, value)) ↔ Gives dialect field key value := by
  have hcases := ofField_outcome dialect field
  constructor
  · intro h
    rw [h] at hcases
    cases hcases with
    | given hgives => exact hgives
  · intro h
    generalize ofField dialect field = result at hcases
    cases hcases with
    | blank hblank => cases hblank.symm.trans (not_isBlankLine_of_mem h.mem)
    | plain hblank hnone => exact absurd h.mem hnone
    | unknown colon name =>
      obtain ⟨colon', name', -⟩ := h
      obtain ⟨rfl, rfl⟩ := colon.unique colon'
      cases name.symm.trans name'
    | given hgives =>
      obtain ⟨rfl, rfl⟩ := hgives.unique h
      rfl

/-- A value that is added leaves the entries of the table and becomes one of them. -/
theorem add_ok {given : PropertyKey} {value' : String} (h : add properties given value' = .ok added) :
    added key = some value ↔ properties key = some value ∨ (given = key ∧ value' = value) := by
  unfold add at h
  split at h
  · next hnone =>
    cases h
    by_cases hk : key = given
    · subst hk
      simp [hnone]
    · rw [Properties.set_other _ _ hk]
      simp [Ne.symm hk]
  · next first hfirst =>
    split_ifs at h with hsame
    cases h
    refine ⟨.inl, ?_⟩
    rintro (hold | ⟨rfl, rfl⟩)
    · exact hold
    · rw [hfirst, hsame]

/-- A value that is not added contradicts the table. -/
theorem add_error (h : add properties key value = .error problem) :
    ∃ first, properties key = some first ∧ first ≠ value := by
  unfold add at h
  split at h
  · cases h
  · next first hfirst =>
    split_ifs at h with hsame
    exact ⟨first, hfirst, hsame⟩

/-- A field that is added leaves the entries of the table and adds the one that it gives. -/
theorem addField_ok (h : addField dialect properties field = .ok added) :
    (∃ entry, ofField dialect field = .ok entry) ∧ ∀ key value,
      added key = some value ↔ properties key = some value ∨ Gives dialect field key value := by
  obtain ⟨entry, hentry, hadd⟩ := bind_ok_iff.mp h
  refine ⟨⟨entry, hentry⟩, fun key value => ?_⟩
  rw [← ofField_eq_some_iff, hentry]
  cases entry with
  | none =>
    cases hadd
    simp
  | some entry =>
    obtain ⟨given, value'⟩ := entry
    refine (add_ok hadd).trans (or_congr_right ?_)
    simp

/-- A field that is not added cannot be read, or contradicts the table. -/
theorem addField_error (h : addField dialect properties field = .error problem) :
    (∀ entry, ofField dialect field ≠ .ok entry) ∨ ∃ key first second, first ≠ second ∧
      properties key = some first ∧ Gives dialect field key second := by
  rcases bind_error_iff.mp h with hfield | ⟨entry, hentry, hadd⟩
  · exact .inl fun entry hentry => by cases hfield.symm.trans hentry
  · cases entry with
    | none => cases hadd
    | some entry =>
      obtain ⟨first, hfirst, hdiffer⟩ := add_error hadd
      exact .inr ⟨entry.1, first, entry.2, hdiffer, hfirst, ofField_eq_some_iff.mp hentry⟩

/-- Fields are added to a table exactly if each can be read and the values of the table and of the
fields together make a table, which is then the result. -/
theorem foldlM_addField_ok_iff :
    fields.foldlM (addField dialect) properties = .ok added ↔
      (∀ field ∈ fields, ∃ entry, ofField dialect field = .ok entry) ∧ ∀ key value,
        added key = some value ↔
          properties key = some value ∨ ∃ field ∈ fields, Gives dialect field key value := by
  induction fields generalizing properties with
  | nil =>
    constructor
    · rintro ⟨⟩
      simp
    · rintro ⟨-, hentries⟩
      have hsame : properties = added :=
        Properties.eq_of_entries fun key value => by simpa using (hentries key value).symm
      exact congrArg Except.ok hsame
  | cons field fields ih =>
    rw [List.foldlM_cons, List.forall_mem_cons]
    cases hfield : addField dialect properties field with
    | error problem =>
      refine iff_of_false nofun ?_
      rintro ⟨⟨⟨entry, hentry⟩, -⟩, hentries⟩
      rcases addField_error hfield with hnone | ⟨key, first, second, hdiffer, hfirst, hgives⟩
      · exact hnone entry hentry
      · have hold := (hentries key first).mpr (.inl hfirst)
        have hnew := (hentries key second).mpr (.inr ⟨field, List.mem_cons_self, hgives⟩)
        exact hdiffer (Option.some.inj (hold.symm.trans hnew))
    | ok middle =>
      obtain ⟨hread, hmiddle⟩ := addField_ok hfield
      refine ih.trans (and_congr (and_iff_right hread).symm ?_)
      simp only [hmiddle, List.exists_mem_cons_iff, or_assoc]

/-- A value that its key admits. Counts, delimiters, indices and texts are admitted as they are. -/
def Valid : PropertyKey → String → Prop
  | .flags, value => ∀ flag ∈ words value.toList, Flag.isLegal flag = true
  | .kind, value => ∃ kind, Kind.ofName? value = some kind
  | .valueType, value => ∃ valueType, ValueType.ofName? value = some valueType
  | .values, value => ∃ constraints, Constraint.parseList value = .ok constraints
  | .visible, value => ∃ visible, readBool? value = some visible
  | _, _ => True

/-- A value passes the check of its key exactly if the key admits it. -/
theorem check_ok_iff : check key value = .ok () ↔ Valid key value := by
  cases key
  case flags =>
    unfold check Valid
    dsimp only
    cases hfind : (words value.toList).find? (!Flag.isLegal ·) with
    | none => simpa using List.find?_eq_none.mp hfind
    | some flag =>
      refine iff_of_false nofun fun hall => ?_
      have hillegal := List.find?_some hfind
      rw [hall flag (List.mem_of_find?_eq_some hfind)] at hillegal
      cases hillegal
  case kind =>
    unfold check Valid
    dsimp only
    cases Kind.ofName? value <;> simp
  case valueType =>
    unfold check Valid
    dsimp only
    cases ValueType.ofName? value <;> simp
  case values =>
    unfold check Valid
    dsimp only
    rw [map_ok_iff]
    simp only [mapError_ok_iff, and_true]
  case visible =>
    unfold check Valid
    dsimp only
    cases readBool? value <;> simp
  all_goals exact iff_of_true rfl trivial

/-- A table passes all checks exactly if every key admits its value. -/
theorem checkAll_ok_iff :
    checkAll properties = .ok () ↔ ∀ key value, properties key = some value → Valid key value := by
  have hentry : ∀ key, checkEntry properties key = .ok () ↔
      ∀ value, properties key = some value → Valid key value := by
    intro key
    unfold checkEntry
    cases properties key with
    | none => simp
    | some value => simp [check_ok_iff]
  rw [checkAll, forM_ok_iff]
  simp only [hentry]
  exact forall_congr' fun key => forall_prop_of_true (PropertyKey.mem_all key)

/-- Fields that are accepted. -/
structure Acceptable (dialect : Dialect) (fields : List (List Char)) : Prop where
  /-- A field that is not blank has a colon. -/
  colon : ∀ field ∈ fields, isBlankLine field = false → ':' ∈ field
  /-- In front of the first colon stands a name of a key. -/
  known : ∀ field ∈ fields, ∀ before after, FirstAt [':'] field before after →
    ∃ key, PropertyKey.ofName? dialect (foldCase (String.ofList (trim before))) = some key
  /-- All values given to one key are equal. -/
  agree : ∀ field ∈ fields, ∀ other ∈ fields, ∀ key value value',
    Gives dialect field key value → Gives dialect other key value' → value = value'
  /-- Every key admits the value given to it. -/
  valid : ∀ field ∈ fields, ∀ key value, Gives dialect field key value → Valid key value

/-- A field can be read exactly if it is blank or has a colon with a name of a key in front. -/
theorem exists_ofField_iff :
    (∃ entry, ofField dialect field = .ok entry) ↔
      (isBlankLine field = false → ':' ∈ field) ∧ ∀ before after, FirstAt [':'] field before after →
        ∃ key, PropertyKey.ofName? dialect (foldCase (String.ofList (trim before))) = some key := by
  have hcases := ofField_outcome dialect field
  generalize ofField dialect field = result at hcases
  cases hcases with
  | blank hblank =>
    refine iff_of_true ⟨none, rfl⟩ ⟨fun hshown => ?_, fun before after colon => ?_⟩
    · cases hblank.symm.trans hshown
    · have hmem := (List.singleton_infix_iff _ _).mp colon.found
      cases hblank.symm.trans (not_isBlankLine_of_mem hmem)
  | plain hblank hnone =>
    refine iff_of_false ?_ fun h => hnone (h.1 hblank)
    rintro ⟨entry, ⟨⟩⟩
  | unknown colon name =>
    refine iff_of_false ?_ fun h => ?_
    · rintro ⟨entry, ⟨⟩⟩
    · obtain ⟨key, hkey⟩ := h.2 _ _ colon
      cases name.symm.trans hkey
  | given hgives =>
    refine iff_of_true ⟨_, rfl⟩ ⟨fun _ => hgives.mem, fun before after colon => ?_⟩
    obtain ⟨colon', name, -⟩ := hgives
    obtain ⟨rfl, rfl⟩ := colon.unique colon'
    exact ⟨_, name⟩

/-- The table that is read from fields, described without their order. -/
theorem readFields_ok_iff :
    readFields dialect fields = .ok declared ↔
      (∀ field ∈ fields, ∃ entry, ofField dialect field = .ok entry) ∧
        (∀ key value, declared key = some value ↔ ∃ field ∈ fields, Gives dialect field key value) ∧
        ∀ key value, declared key = some value → Valid key value := by
  have hempty : ∀ key value, Properties.empty key = some value ↔ False := fun key value => by
    simp [Properties.empty]
  rw [readFields, bind_ok_iff]
  simp only [foldlM_addField_ok_iff, bind_ok_iff, hempty, false_or]
  constructor
  · rintro ⟨added, ⟨hread, hentries⟩, ⟨⟩, hvalid, ⟨⟩⟩
    exact ⟨hread, hentries, checkAll_ok_iff.mp hvalid⟩
  · rintro ⟨hread, hentries, hvalid⟩
    exact ⟨declared, ⟨hread, hentries⟩, (), checkAll_ok_iff.mpr hvalid, rfl⟩

/-- Fields are accepted exactly if each of them is blank or gives a value, they do not contradict each
other, and the values are admitted. -/
theorem exists_readFields_iff :
    (∃ declared, readFields dialect fields = .ok declared) ↔ Acceptable dialect fields := by
  simp only [readFields_ok_iff, exists_ofField_iff]
  constructor
  · rintro ⟨declared, hread, hentries, hvalid⟩
    refine ⟨fun field hf => (hread field hf).1, fun field hf => (hread field hf).2, ?_, ?_⟩
    · intro field hf other hother key value value' hgives hgives'
      have hvalue := (hentries key value).mpr ⟨field, hf, hgives⟩
      exact Option.some.inj (hvalue.symm.trans ((hentries key value').mpr ⟨other, hother, hgives'⟩))
    · intro field hf key value hgives
      exact hvalid key value ((hentries key value).mpr ⟨field, hf, hgives⟩)
  · intro h
    have hagree : ∀ key value value', (∃ field ∈ fields, Gives dialect field key value) →
        (∃ field ∈ fields, Gives dialect field key value') → value = value' := by
      rintro key value value' ⟨field, hf, hgives⟩ ⟨other, hother, hgives'⟩
      exact h.agree field hf other hother key value value' hgives hgives'
    obtain ⟨declared, hentries⟩ := Properties.exists_of_agree hagree
    refine ⟨declared, fun field hf => ⟨h.colon field hf, h.known field hf⟩, hentries, ?_⟩
    intro key value hvalue
    obtain ⟨field, hf, hgives⟩ := (hentries key value).mp hvalue
    exact h.valid field hf key value hgives

/-- Fields in another order, or with repetitions, are read as the same table. -/
theorem readFields_congr (h : ∀ field, field ∈ others ↔ field ∈ fields) :
    readFields dialect others = .ok declared ↔ readFields dialect fields = .ok declared := by
  simp only [readFields_ok_iff, h]

end Property

/-- Two blocks that show the same and have the same fields, in any order and however often. -/
structure Block.Rearranged (marks : Marks) (block other : Block) : Prop where
  /-- They begin on one line. -/
  line : other.line = block.line
  /-- They show the same. -/
  visible : (splitAlone marks.separator other.body).headD [] =
    (splitAlone marks.separator block.body).headD []
  /-- They have the same fields. -/
  fields : ∀ field, field ∈ (splitAlone marks.separator other.body).tail ↔
    field ∈ (splitAlone marks.separator block.body).tail

namespace Definition

variable {marks : Marks} {dialect : Dialect} {block other : Block}

/-- Rearranged blocks have one definition, or both have none, and they take one number. -/
theorem ofBlock_rearranged (h : block.Rearranged marks other) (counters : Counters) :
    (ofBlock marks dialect counters other).1.toOption =
        (ofBlock marks dialect counters block).1.toOption ∧
      (ofBlock marks dialect counters other).2 = (ofBlock marks dialect counters block).2 := by
  have hread : ∀ declared, Property.readFields dialect (splitAlone marks.separator other.body).tail =
      .ok declared ↔ Property.readFields dialect (splitAlone marks.separator block.body).tail =
        .ok declared := fun declared => Property.readFields_congr h.fields
  unfold ofBlock
  dsimp only
  rw [h.visible, h.line]
  cases hblock : Property.readFields dialect (splitAlone marks.separator block.body).tail with
  | ok declared =>
    rw [(hread declared).mpr hblock]
    exact ⟨rfl, rfl⟩
  | error problem =>
    cases hother : Property.readFields dialect (splitAlone marks.separator other.body).tail with
    | error problem' => exact ⟨rfl, rfl⟩
    | ok declared => cases hblock.symm.trans ((hread declared).mp hother)

end Definition

namespace Property

/-- The order of fields does not matter, nor how often they are written. Fields are accepted exactly if
each of them is blank or has a colon behind a name of a key, all values given to one key are equal, and
every key admits its value; the table then has the values that are given. So fields in another order, or
with repetitions, are refused alike or make one table, and blocks with such fields make one
definition. -/
theorem readFields_unordered (dialect : Dialect) :
    (∀ fields, (∃ declared, readFields dialect fields = .ok declared) ↔ Acceptable dialect fields) ∧
      (∀ fields declared, readFields dialect fields = .ok declared → ∀ key value,
        declared key = some value ↔ ∃ field ∈ fields, Gives dialect field key value) ∧
      (∀ fields others, (∀ field, field ∈ others ↔ field ∈ fields) →
        (readFields dialect others).toOption = (readFields dialect fields).toOption) ∧
      ∀ marks counters block other, Block.Rearranged marks block other →
        (Definition.ofBlock marks dialect counters other).1.toOption =
            (Definition.ofBlock marks dialect counters block).1.toOption ∧
          (Definition.ofBlock marks dialect counters other).2 =
            (Definition.ofBlock marks dialect counters block).2 := by
  refine ⟨fun fields => exists_readFields_iff, fun fields declared h => (readFields_ok_iff.mp h).2.1, ?_,
    fun marks counters block other h => Definition.ofBlock_rearranged h counters⟩
  intro fields others h
  refine Option.ext fun declared => ?_
  rw [toOption_eq_some_iff, toOption_eq_some_iff]
  exact readFields_congr h

/-- An option with three properties and a blank field. -/
def orderlyBlock : Block :=
  ⟨1, "-n N| Count: 2 |vtype:int| Cond: a: b|".toList⟩

/-- The same fields from behind, one of them twice. -/
def repeatedBlock : Block :=
  ⟨1, "-n N| Cond: a: b|vtype:int| Count: 2 |vtype:int|".toList⟩

/-- The rearranged block has the definition of the first one. Fields that contradict each other are
refused in both orders, with reports that name their values in these orders. -/
theorem readFields_unordered_repeated :
    orderlyBlock.Rearranged Draft.shortMarks repeatedBlock ∧
      (∃ definition,
        (Definition.ofBlock Draft.shortMarks .classic .zero orderlyBlock).1 = .ok definition ∧
        (Definition.ofBlock Draft.shortMarks .classic .zero repeatedBlock).1 = .ok definition ∧
        definition.declared .count = some "2" ∧ definition.declared .condition = some "a: b") ∧
      readFields .classic ["count: 2".toList, "COUNT: 3".toList] =
        .error (.repeatedProperty .count "2" "3") ∧
      readFields .classic ["COUNT: 3".toList, "count: 2".toList] =
        .error (.repeatedProperty .count "3" "2") ∧
      ¬Acceptable .classic ["COUNT: 3".toList, "count: 2".toList] := by
  obtain ⟨haccepted, -, -, hblocks⟩ := readFields_unordered .classic
  have hfields : splitAlone Draft.shortMarks.separator orderlyBlock.body =
      ["-n N".toList, " Count: 2 ".toList, "vtype:int".toList, " Cond: a: b".toList, []] := by
    decide +kernel
  have hothers : splitAlone Draft.shortMarks.separator repeatedBlock.body =
      ["-n N".toList, " Cond: a: b".toList, "vtype:int".toList, " Count: 2 ".toList,
        "vtype:int".toList, []] := by
    decide +kernel
  have hrearranged : orderlyBlock.Rearranged Draft.shortMarks repeatedBlock := by
    refine ⟨rfl, by rw [hfields, hothers]; rfl, fun field => ?_⟩
    rw [hfields, hothers]
    simp only [List.tail_cons, List.mem_cons, List.not_mem_nil, or_false]
    tauto
  have hdeclared : (Definition.ofBlock Draft.shortMarks .classic .zero orderlyBlock).1.toOption.map
      (fun definition => (definition.declared .count, definition.declared .condition)) =
        some (some "2", some "a: b") := by decide +kernel
  obtain ⟨definition, hdefinition, hentries⟩ := exists_ok_of_toOption hdeclared
  obtain ⟨hcount, hcondition⟩ := Prod.mk.inj hentries
  have hsame := (hblocks _ .zero _ _ hrearranged).1
  rw [hdefinition] at hsame
  have hfirst : (readFields .classic ["count: 2".toList, "COUNT: 3".toList]).map (fun _ => ()) =
      .error (.repeatedProperty .count "2" "3") := by decide +kernel
  have hsecond : (readFields .classic ["COUNT: 3".toList, "count: 2".toList]).map (fun _ => ()) =
      .error (.repeatedProperty .count "3" "2") := by decide +kernel
  refine ⟨hrearranged, ⟨definition, hdefinition, toOption_eq_some_iff.mp hsame, hcount, hcondition⟩,
    map_error_iff.mp hfirst, map_error_iff.mp hsecond, fun h => ?_⟩
  obtain ⟨declared, hread⟩ := (haccepted _).mpr h
  cases (map_error_iff.mp hsecond).symm.trans hread

end Property

end AnnotatedHelp
