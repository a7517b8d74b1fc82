import Mathlib
import AnnotatedHelp.Output
import AnnotatedHelp.Proofs.Outcome
import AnnotatedHelp.Proofs.JsonText

/-!
# Documents that are written and read again

Every reader of a JSON value takes back what its writer makes of a value, and so does the reader of
documents. Numbers are the one restriction: a position is read as a word of sixty-four bits. A
document that was read has such positions only, so what is written of it is read as the same
document again, whatever else stood in the value that it was read from.
-/

namespace AnnotatedHelp

open Outcome

namespace Json

variable {α β : Type}

/-- A position that fits a word is read back. -/
theorem position?_nat {n : Nat} (h : n < Text.wordCount 64) : (nat n).position? = some n := by
  have hfits : (0 : Int) ≤ n ∧ (n : Int) < Text.wordCount 64 := by omega
  rw [position?, nat, natBelow?, if_pos hfits]
  rfl

/-- A position that is read fits a word. -/
theorem lt_of_position? {value : Json} {n : Nat} (h : value.position? = some n) :
    n < Text.wordCount 64 := by
  unfold position? natBelow? at h
  split at h
  · split_ifs at h with hfits
    cases h
    omega
  · cases h

/-- A word is read back. -/
theorem word?_nat (word : UInt32) : (nat word.toNat).word? = some word := by
  have hfits : (0 : Int) ≤ word.toNat ∧ (word.toNat : Int) < Text.wordCount 32 := by
    have hword : word.toNat < Text.wordCount 32 := word.toNat_lt
    omega
  rw [word?, nat, natBelow?, if_pos hfits]
  simp

/-- A character is read back. -/
theorem char?_string (c : Char) : (string (String.ofList [c])).char? = some c := by
  simp [char?, string?]

/-- A list of which every entry is read back is read back. -/
theorem list?_ofList {read : Json → Option α} {write : α → Json} {items : List α}
    (h : ∀ item ∈ items, read (write item) = some item) :
    (ofList write items).list? read = some items := by
  rw [ofList, list?, mapM_eq_some_iff]
  induction items with
  | nil => exact .nil
  | cons item items ih =>
    obtain ⟨hitem, hitems⟩ := List.forall_mem_cons.mp h
    exact .cons hitem (ih hitems)

/-- Every entry of a list that is read comes from an item of the array. -/
theorem exists_of_mem_list? {read : Json → Option α} {value : Json} {items : List α}
    (h : value.list? read = some items) {item : α} (hitem : item ∈ items) :
    ∃ source, read source = some item := by
  unfold list? at h
  split at h
  · have hall := mapM_eq_some_iff.mp h
    clear h
    induction hall with
    | nil => cases hitem
    | cons hread _ ih =>
      rcases List.mem_cons.mp hitem with rfl | hrest
      · exact ⟨_, hread⟩
      · exact ih hrest
  · cases h

/-- What may be absent is read back if it is read back where it is present; it must not be written
as null there. -/
theorem optional?_ofOption {read : Json → Option α} {write : α → Json} {value : Option α}
    (h : ∀ a ∈ value, read (write a) = some a) (hnull : ∀ a, write a ≠ .null) :
    (ofOption write value).optional? read = some value := by
  cases value with
  | none => rfl
  | some a =>
    have hread : (write a).optional? read = (read (write a)).map some := by
      unfold optional?
      split
      · next hwritten => exact absurd hwritten (hnull a)
      · rfl
    rw [ofOption, hread, h a rfl]
    rfl

/-- What is present in a value that may be absent comes from a value. -/
theorem exists_of_mem_optional? {read : Json → Option α} {value : Json} {found : Option α}
    (h : value.optional? read = some found) {a : α} (ha : a ∈ found) : read value = some a := by
  unfold optional? at h
  split at h
  · cases h
    cases ha
  · obtain ⟨b, hb, rfl⟩ := Option.map_eq_some_iff.mp h
    cases ha
    exact hb

/-- The fields of a structure are read back from an object with the names of the structure. -/
theorem fields?_zip {names : List (String × Bool)} {values : List Json}
    (hnames : (names.map (·.1)).Nodup) (hlength : values.length = names.length) :
    (object ((names.map (·.1)).zip values)).fields? names = some values := by
  rw [fields?, mapM_eq_some_iff]
  induction names generalizing values with
  | nil =>
    obtain rfl := List.length_eq_zero_iff.mp hlength
    exact .nil
  | cons name names ih =>
    cases values with
    | nil => cases hlength
    | cons value values =>
      obtain ⟨hfresh, hrest⟩ := List.nodup_cons.mp hnames
      refine .cons (by simp) ?_
      -- The names behind the first one are looked up behind its entry.
      obtain ⟨hsame, htail⟩ := List.forall₂_iff_get.mp (ih hrest (Nat.succ.inj hlength))
      refine List.forall₂_iff_get.mpr ⟨hsame, ?_⟩
      intro i hi hvalue
      have hother : ((names.get ⟨i, hi⟩).1 == name.1) = false := by
        refine beq_false_of_ne fun hname => hfresh ?_
        exact List.mem_map.mpr ⟨names.get ⟨i, hi⟩, List.get_mem names ⟨i, hi⟩, hname⟩
      have hfield := htail i hi hvalue
      simp only [List.map_cons, List.zip_cons_cons, List.lookup_cons, hother] at hfield ⊢
      exact hfield

end Json

/-- A bound is read back. -/
theorem Bound.ofJson?_toJson (bound : Bound) : ofJson? bound.toJson = some bound := by
  cases bound with
  | bounded limit =>
    rw [toJson, ofJson?, Json.word?_nat]
    rfl
  | unbounded => rfl

/-- A count is read from the fields of a value exactly if each part is read from its field. -/
theorem Count.ofJson?_eq_some_iff {value : Json} {count : Count} :
    ofJson? value = some count ↔
      ∃ min max, value.fields? [("min", false), ("max", false)] = some [min, max] ∧
        min.word? = some count.min ∧ Bound.ofJson? max = some count.max := by
  unfold ofJson?
  constructor
  · intro h
    obtain ⟨fields, hfields, h⟩ := Option.bind_eq_some_iff.mp h
    split at h
    · obtain ⟨_, hmin, h⟩ := Option.bind_eq_some_iff.mp h
      obtain ⟨_, hmax, h⟩ := Option.bind_eq_some_iff.mp h
      cases h
      exact ⟨_, _, hfields, hmin, hmax⟩
    · cases h
  · rintro ⟨_, _, hfields, hmin, hmax⟩
    refine Option.bind_eq_some_iff.mpr ⟨_, hfields, ?_⟩
    refine Option.bind_eq_some_iff.mpr ⟨_, hmin, ?_⟩
    exact Option.bind_eq_some_iff.mpr ⟨_, hmax, rfl⟩

/-- A count is read back. -/
theorem Count.ofJson?_toJson (count : Count) : ofJson? count.toJson = some count :=
  ofJson?_eq_some_iff.mpr ⟨_, _, rfl, Json.word?_nat count.min, count.max.ofJson?_toJson⟩

/-- A limit is read back. -/
theorem Limit.ofJson?_toJson (limit : Limit) : ofJson? limit.toJson = some limit := by
  have hfields : limit.toJson.fields? [("literal", false), ("inclusive", false)] =
      some [.string limit.literal, .bool limit.inclusive] := rfl
  rw [ofJson?, hfields]
  rfl

/-- A constraint is read back. -/
theorem Constraint.ofJson?_toJson (constraint : Constraint) :
    ofJson? constraint.toJson = some constraint := by
  cases constraint with
  | exact literal => rfl
  | range lower upper =>
    have hfields : (Json.object [("lower", .ofOption Limit.toJson lower),
        ("upper", .ofOption Limit.toJson upper)]).fields? [("lower", true), ("upper", true)] =
        some [.ofOption Limit.toJson lower, .ofOption Limit.toJson upper] := rfl
    have hlimit : ∀ limit : Option Limit,
        (Json.ofOption Limit.toJson limit).optional? Limit.ofJson? = some limit := fun limit =>
      Json.optional?_ofOption (fun a _ => a.ofJson?_toJson) nofun
    rw [toJson, ofJson?, hfields]
    simp [hlimit]

/-- A kind is read back. -/
theorem Kind.ofJson?_toJson (kind : Kind) : ofJson? kind.toJson = some kind := by
  cases kind <;> rfl

/-- A value type is read back. -/
theorem ValueType.ofJson?_toJson (valueType : ValueType) :
    ofJson? valueType.toJson = some valueType := by
  cases valueType <;> rfl

/-- An argument is read from the fields of a value exactly if each part is read from its field. -/
theorem Argument.ofJson?_eq_some_iff {value : Json} {argument : Argument} :
    ofJson? value = some argument ↔
      ∃ name memberName flags metaVariable literal delimiter delimiterCount count countDeclared index
          text visible lineNumber ordinal memberIndex action argumentType callback condition
          conditionMessage,
        value.fields? jsonFields = some [name, memberName, flags, metaVariable, literal, delimiter,
          delimiterCount, count, countDeclared, index, text, visible, lineNumber, ordinal,
          memberIndex, action, argumentType, callback, condition, conditionMessage] ∧
        name.string? = some argument.name ∧
        memberName.string? = some argument.memberName ∧
        flags.list? Json.string? = some argument.flags ∧
        metaVariable.optional? Json.string? = some argument.metaVariable ∧
        literal.optional? (Json.list? Json.string?) = some argument.value ∧
        delimiter.optional? Json.char? = some argument.delimiter ∧
        Count.ofJson? delimiterCount = some argument.delimiterCount ∧
        Count.ofJson? count = some argument.count ∧
        countDeclared.bool? = some argument.countDeclared ∧
        index.optional? Json.position? = some argument.index ∧
        text.string? = some argument.text ∧
        visible.bool? = some argument.visible ∧
        lineNumber.position? = some argument.lineNumber ∧
        ordinal.position? = some argument.ordinal ∧
        memberIndex.optional? Json.position? = some argument.memberIndex ∧
        action.optional? Json.string? = some argument.action ∧
        argumentType.optional? Json.string? = some argument.argumentType ∧
        callback.optional? Json.string? = some argument.callback ∧
        condition.optional? Json.string? = some argument.condition ∧
        conditionMessage.optional? Json.string? = some argument.conditionMessage := by
  unfold ofJson?
  constructor
  · intro h
    obtain ⟨fields, hfields, h⟩ := Option.bind_eq_some_iff.mp h
    split at h
    · iterate 20 obtain ⟨_, _, h⟩ := Option.bind_eq_some_iff.mp h
      cases h
      refine ⟨_, _, _, _, _, _, _, _, _, _, _, _, _, _, _, _, _, _, _, _, hfields, ?_⟩
      and_intros <;> assumption
    · cases h
  · rintro ⟨_, _, _, _, _, _, _, _, _, _, _, _, _, _, _, _, _, _, _, _, hfields, hread⟩
    refine Option.bind_eq_some_iff.mpr ⟨_, hfields, ?_⟩
    iterate 19
      obtain ⟨hfield, hread⟩ := hread
      refine Option.bind_eq_some_iff.mpr ⟨_, hfield, ?_⟩
    exact Option.bind_eq_some_iff.mpr ⟨_, hread, rfl⟩

/-- The positions of an argument are words of sixty-four bits. -/
structure Argument.InRange (argument : Argument) : Prop where
  /-- The position among the positional arguments. -/
  index : ∀ index ∈ argument.index, index < Text.wordCount 64
  /-- The line of the definition. -/
  lineNumber : argument.lineNumber < Text.wordCount 64
  /-- The place among all definitions. -/
  ordinal : argument.ordinal < Text.wordCount 64
  /-- The place of the owning member. -/
  memberIndex : ∀ index ∈ argument.memberIndex, index < Text.wordCount 64

/-- An argument is read back. -/
theorem Argument.ofJson?_toJson {argument : Argument} (h : argument.InRange) :
    ofJson? argument.toJson = some argument := by
  have hstring : ∀ text : Option String,
      (Json.ofOption .string text).optional? Json.string? = some text :=
    fun text => Json.optional?_ofOption (fun _ _ => rfl) nofun
  have hstrings : ∀ texts : List String,
      (Json.ofList .string texts).list? Json.string? = some texts :=
    fun texts => Json.list?_ofList fun _ _ => rfl
  have hposition : ∀ index : Option Nat, (∀ n ∈ index, n < Text.wordCount 64) →
      (Json.ofOption .nat index).optional? Json.position? = some index :=
    fun index hindex => Json.optional?_ofOption (fun n hn => Json.position?_nat (hindex n hn)) nofun
  have hvalue : (Json.ofOption (.ofList .string) argument.value).optional?
      (Json.list? Json.string?) = some argument.value :=
    Json.optional?_ofOption (fun texts _ => hstrings texts) nofun
  have hdelimiter : (Json.ofOption (fun c => .string (String.ofList [c]))
      argument.delimiter).optional? Json.char? = some argument.delimiter :=
    Json.optional?_ofOption (fun c _ => Json.char?_string c) nofun
  exact ofJson?_eq_some_iff.mpr ⟨_, _, _, _, _, _, _, _, _, _, _, _, _, _, _, _, _, _, _, _,
    Json.fields?_zip (by decide) rfl, rfl, rfl, hstrings _, hstring _, hvalue, hdelimiter,
    Count.ofJson?_toJson _, Count.ofJson?_toJson _, rfl, hposition _ h.index, rfl, rfl,
    Json.position?_nat h.lineNumber, Json.position?_nat h.ordinal, hposition _ h.memberIndex,
    hstring _, hstring _, hstring _, hstring _, hstring _⟩

/-- An argument that was read has positions in range. -/
theorem Argument.inRange_of_ofJson? {value : Json} {argument : Argument}
    (h : ofJson? value = some argument) : argument.InRange := by
  obtain ⟨_, _, _, _, _, _, _, _, _, index, _, _, lineNumber, ordinal, memberIndex, _, _, _, _, _, -,
    -, -, -, -, -, -, -, -, -, hindex, -, -, hline, hordinal, hmember, -⟩ := ofJson?_eq_some_iff.mp h
  exact ⟨fun n hn => Json.lt_of_position? (Json.exists_of_mem_optional? hindex hn),
    Json.lt_of_position? hline, Json.lt_of_position? hordinal,
    fun n hn => Json.lt_of_position? (Json.exists_of_mem_optional? hmember hn)⟩

/-- A member is read from the fields of a value exactly if each part is read from its field. -/
theorem Member.ofJson?_eq_some_iff {value : Json} {member : Member} :
    ofJson? value = some member ↔
      ∃ name kind valueType count values default extraInclude arguments,
        value.fields? jsonFields =
          some [name, kind, valueType, count, values, default, extraInclude, arguments] ∧
        name.string? = some member.name ∧
        Kind.ofJson? kind = some member.kind ∧
        ValueType.ofJson? valueType = some member.valueType ∧
        Count.ofJson? count = some member.count ∧
        values.list? Constraint.ofJson? = some member.values ∧
        default.list? Json.string? = some member.default ∧
        extraInclude.optional? Json.string? = some member.extraInclude ∧
        arguments.list? Argument.ofJson? = some member.arguments := by
  unfold ofJson?
  constructor
  · intro h
    obtain ⟨fields, hfields, h⟩ := Option.bind_eq_some_iff.mp h
    split at h
    · iterate 8 obtain ⟨_, _, h⟩ := Option.bind_eq_some_iff.mp h
      cases h
      refine ⟨_, _, _, _, _, _, _, _, hfields, ?_⟩
      and_intros <;> assumption
    · cases h
  · rintro ⟨_, _, _, _, _, _, _, _, hfields, hread⟩
    refine Option.bind_eq_some_iff.mpr ⟨_, hfields, ?_⟩
    iterate 7
      obtain ⟨hfield, hread⟩ := hread
      refine Option.bind_eq_some_iff.mpr ⟨_, hfield, ?_⟩
    exact Option.bind_eq_some_iff.mpr ⟨_, hread, rfl⟩

/-- A member is read back if its arguments have positions in range. -/
theorem Member.ofJson?_toJson {member : Member} (h : ∀ argument ∈ member.arguments, argument.InRange) :
    ofJson? member.toJson = some member :=
  ofJson?_eq_some_iff.mpr ⟨_, _, _, _, _, _, _, _, Json.fields?_zip (by decide) rfl, rfl,
    member.kind.ofJson?_toJson, member.valueType.ofJson?_toJson, member.count.ofJson?_toJson,
    Json.list?_ofList fun constraint _ => constraint.ofJson?_toJson,
    Json.list?_ofList fun _ _ => rfl, Json.optional?_ofOption (fun _ _ => rfl) nofun,
    Json.list?_ofList fun argument hargument => Argument.ofJson?_toJson (h argument hargument)⟩

/-- The positions in a document are words of sixty-four bits. -/
structure Document.InRange (document : Document) : Prop where
  /-- The positions of the arguments. -/
  arguments : ∀ member ∈ document.members, ∀ argument ∈ member.arguments, argument.InRange
  /-- The lines that begin with a definition. -/
  definitionLines : ∀ line ∈ document.definitionLines, line < Text.wordCount 64

/-- A document is read from the fields of a value exactly if each part is read from its field. -/
theorem Document.ofJson?_eq_some_iff {value : Json} {document : Document} :
    ofJson? value = some document ↔
      ∃ text members definitionLines,
        value.fields? [("text", false), ("members", false), ("definition_lines", false)] =
          some [text, members, definitionLines] ∧
        text.string? = some document.text ∧
        members.list? Member.ofJson? = some document.members ∧
        definitionLines.list? Json.position? = some document.definitionLines := by
  unfold ofJson?
  constructor
  · intro h
    obtain ⟨fields, hfields, h⟩ := Option.bind_eq_some_iff.mp h
    split at h
    · iterate 3 obtain ⟨_, _, h⟩ := Option.bind_eq_some_iff.mp h
      cases h
      refine ⟨_, _, _, hfields, ?_⟩
      and_intros <;> assumption
    · cases h
  · rintro ⟨_, _, _, hfields, htext, hmembers, hlines⟩
    refine Option.bind_eq_some_iff.mpr ⟨_, hfields, ?_⟩
    refine Option.bind_eq_some_iff.mpr ⟨_, htext, ?_⟩
    refine Option.bind_eq_some_iff.mpr ⟨_, hmembers, ?_⟩
    exact Option.bind_eq_some_iff.mpr ⟨_, hlines, rfl⟩

/-- A document is read back if its positions are in range. -/
theorem Document.ofJson?_toJson {document : Document} (h : document.InRange) :
    ofJson? document.toJson = some document :=
  ofJson?_eq_some_iff.mpr ⟨_, _, _, rfl, rfl,
    Json.list?_ofList fun member hmember => Member.ofJson?_toJson (h.arguments member hmember),
    Json.list?_ofList fun line hline => Json.position?_nat (h.definitionLines line hline)⟩

/-- A document that was read has positions in range. -/
theorem Document.inRange_of_ofJson? {value : Json} {document : Document}
    (h : ofJson? value = some document) : document.InRange := by
  obtain ⟨_, _, _, -, -, hmembers, hlines⟩ := ofJson?_eq_some_iff.mp h
  refine ⟨?_, ?_⟩
  · intro member hmember argument hargument
    obtain ⟨source, hsource⟩ := Json.exists_of_mem_list? hmembers hmember
    obtain ⟨_, _, _, _, _, _, _, _, -, -, -, -, -, -, -, -, harguments⟩ :=
      Member.ofJson?_eq_some_iff.mp hsource
    obtain ⟨origin, horigin⟩ := Json.exists_of_mem_list? harguments hargument
    exact Argument.inRange_of_ofJson? horigin
  · intro line hline
    obtain ⟨source, hsource⟩ := Json.exists_of_mem_list? hlines hline
    exact Json.lt_of_position? hsource

namespace Document

/-- Printing a document as JSON loses nothing. With any reader of JSON text that reads the printed
text as the value that was printed, the text of a document gives back an equal document, provided
that its positions are words of sixty-four bits; and so does the text of a document that was itself
read from a value, whatever else stood in that value or was missing there. -/
theorem format_json_readBack {read : String → Option Json} :
    (∀ document : Document, document.InRange →
        read document.toJson.text = some document.toJson →
        (read (document.format .json)).bind ofJson? = some document) ∧
      ∀ (value : Json) (document : Document), ofJson? value = some document →
        read document.toJson.text = some document.toJson →
        (read (document.format .json)).bind ofJson? = some document := by
  have hrange : ∀ document : Document, document.InRange →
      read document.toJson.text = some document.toJson →
      (read (document.format .json)).bind ofJson? = some document := by
    intro document hdocument hread
    have hformat : document.format .json = document.toJson.text := rfl
    rw [hformat, hread, Option.bind_some]
    exact ofJson?_toJson hdocument
  refine ⟨hrange, ?_⟩
  intro value document hvalue hread
  exact hrange document (inRange_of_ofJson? hvalue) hread

/-- A document with a count without end, both forms of constraints, and characters that are escaped. -/
def spelledDocument : Document :=
  ⟨"\"\\\t\x7fé😀", [⟨"m", .multivalue, .double, ⟨0, .unbounded⟩,
    [.exact "\n", .range (some ⟨"0", false⟩) none], ["", "1"], some "<x>",
    [⟨"a", "m", ["-a", "--b"], some "V", none, some 'é', ⟨1, .bounded 4294967295⟩, ⟨0, .unbounded⟩,
      true, none, "-a V", true, 1, 0, some 0, none, none, none, some "v > 0", none⟩]⟩], [0]⟩

/-- A value with an unknown entry, a structure given as an array, an alternative given as an object,
and entries that are missing. -/
def foreignValue : Json :=
  .object [("comment", .bool true), ("definition_lines", .array [.nat 18446744073709551615]),
    ("members", .array [.object [("kind", .object [("final", .null)]), ("name", .string "m"),
      ("value_type", .string "bool"), ("count", .array [.nat 0, .object [("unbounded", .null)]]),
      ("values", .array [.object [("range", .object [])]]), ("default", .array []),
      ("arguments", .array [])]]),
    ("text", .string "")]

/-- What the value is read as. -/
def foreignDocument : Document :=
  ⟨"", [⟨"m", .final, .bool, ⟨0, .unbounded⟩, [.range none none], [], none, []⟩],
    [18446744073709551615]⟩

/-- The reader of JSON text gives back both documents from what is printed of them, of which the second
one was read from a value that no document is printed as. -/
theorem format_json_readBack_foreign :
    (Json.read? (spelledDocument.format .json)).bind ofJson? = some spelledDocument ∧
      ofJson? foreignValue = some foreignDocument ∧
      (Json.read? (foreignDocument.format .json)).bind ofJson? = some foreignDocument := by
  have hspelled : spelledDocument.InRange := by
    refine ⟨?_, by decide⟩
    intro member hmember argument hargument
    obtain rfl := List.mem_singleton.mp hmember
    obtain rfl := List.mem_singleton.mp hargument
    exact ⟨nofun, by decide, by decide, by decide⟩
  have hforeign : ofJson? foreignValue = some foreignDocument := by decide +kernel
  exact ⟨format_json_readBack.1 _ hspelled (Json.read?_text _), hforeign,
    format_json_readBack.2 _ _ hforeign (Json.read?_text _)⟩

end Document

end AnnotatedHelp
