import Mathlib
import AnnotatedHelp.Proofs.MemberCounts

/-!
# Alternatives of literals

A literal is cut at its delimiter, and the delimiter count says how many delimiters belong into one
occurrence. Where it is taken from the literal, the two agree. A declared delimiter count is checked
against the parts of a default but not against the alternatives of a literal. The main statement says
exactly when the delimiter count admits the delimiters of the literal, and that the member accounts
for the alternatives in this case.
-/

namespace AnnotatedHelp

open Outcome Text

/-- The number of delimiters in a text. -/
def delimitersIn (delimiter : Option Char) (text : List Char) : Nat :=
  delimiter.elim 0 text.count

/-- A delimiter count, as far as one is declared, goes with so many delimiters in the literal. -/
structure DelimitersAllowed (declared : Option String) (delimiters : Nat) : Prop where
  /-- A count that is declared admits them. -/
  admitted : ∀ text, declared = some text → ∀ count, Count.parse text = .ok count →
    count.Admits delimiters
  /-- Otherwise their number is the count, and has to be a word. -/
  counted : declared = none → delimiters ≤ Count.wordMax

namespace Draft

/-- A text is cut into one alternative more than it has delimiters. -/
theorem length_alternatives (delimiter : Option Char) (text : String) :
    (alternatives delimiter text).length = delimitersIn delimiter text.toList + 1 := by
  cases delimiter with
  | none => rfl
  | some c =>
    rw [alternatives, List.length_map, length_splitAll]
    rfl

/-- A count that is declared as zero is read as zero alone. -/
theorem parse_of_declaredZero {text : String} (h : declaredZero (some text) = true) :
    Count.parse text = .ok .none := by
  have htrim : trim text.toList = ['0'] := by
    simpa [declaredZero] using h
  rw [Count.parse, htrim]
  decide +kernel

/-- The count that is taken from a literal is the number of its delimiters, if this is a word. -/
theorem admits_exactly_clamp_iff {n : Nat} :
    (Count.exactly (Count.clamp n)).Admits n ↔ n ≤ Count.wordMax := by
  simp only [Count.Admits, Count.exactly, Bound.Admits, Count.toNat_clamp]
  omega

/-- The delimiter count admits the delimiters of the text exactly when they are allowed. -/
theorem readDelimiterCount_admits_iff {delimiter : Option Char} {text : List Char}
    {declared : Option String} {count : Count}
    (h : readDelimiterCount delimiter text declared = .ok count) :
    count.Admits (delimitersIn delimiter text) ↔
      DelimitersAllowed declared (delimitersIn delimiter text) := by
  cases delimiter with
  | none =>
    -- Without a delimiter only zero may be declared, and there are no delimiters.
    have hnone : count = .none := readDelimiterCount_none h
    have hadmits : Count.none.Admits 0 := by decide
    rw [hnone]
    refine iff_of_true hadmits ⟨?_, fun _ => Nat.zero_le _⟩
    rintro given rfl read hread
    have hzero : declaredZero (some given) = true := by
      by_contra hzero
      rw [readDelimiterCount, if_neg hzero] at h
      cases h
    rw [parse_of_declaredZero hzero] at hread
    cases hread
    exact hadmits
  | some c =>
    change count.Admits (text.count c) ↔ DelimitersAllowed declared (text.count c)
    cases declared with
    | some given =>
      have hread : Count.parse given = .ok count := mapError_ok_iff.mp h
      refine ⟨fun hadmits => ⟨?_, nofun⟩, fun hallowed => hallowed.admitted given rfl count hread⟩
      rintro _ ⟨⟩ other hother
      rw [hread] at hother
      cases hother
      exact hadmits
    | none =>
      have hcounted : DelimitersAllowed none (text.count c) ↔ text.count c ≤ Count.wordMax :=
        ⟨fun hallowed => hallowed.counted rfl, fun hfits => ⟨nofun, fun _ => hfits⟩⟩
      rw [hcounted]
      simp only [readDelimiterCount] at h
      split at h
      · next hzero =>
        cases h
        rw [hzero]
        exact iff_of_true (by decide) (Nat.zero_le _)
      · cases h
        exact admits_exactly_clamp_iff

/-- A draft with a literal has one alternative more than the literal has delimiters. Its delimiter
count admits these exactly when they are allowed. -/
theorem Made.alternatives_admitted_iff {ordinal : Nat} {definition : Definition} {source : Source}
    {draft : Draft} (h : Made ordinal definition source draft) {taken : List String}
    (ht : draft.argument.value = some taken) :
    taken.length = delimitersIn draft.argument.delimiter definition.literal.toList + 1 ∧
      (draft.argument.delimiterCount.Admits (taken.length - 1) ↔
        DelimitersAllowed (definition.get .delimiterCount) (taken.length - 1)) := by
  have hvalue := h.value
  have hcount := h.delimiterCount
  rw [ht] at hvalue
  rcases Source.ofDefinition_ok h.takes with ⟨rfl, -, -⟩ | ⟨_, rfl, -, -⟩
  · cases hvalue
    change readDelimiterCount _ definition.literal.toList _ = _ at hcount
    change (alternatives _ definition.literal).length = _ ∧
      (Count.Admits _ ((alternatives _ definition.literal).length - 1) ↔
        DelimitersAllowed _ ((alternatives _ definition.literal).length - 1))
    rw [length_alternatives, Nat.add_sub_cancel]
    exact ⟨rfl, readDelimiterCount_admits_iff hcount⟩
  · cases hvalue

end Draft

/-- A member accounts for the values that one occurrence of an argument contributes. -/
structure Member.AccountsFor (member : Member) (argument : Argument) (values : Nat) : Prop where
  /-- The delimiters between the values lie in the range of all delimiter counts. -/
  delimiters : (Count.join Count.combine Count.none
    (member.arguments.map (·.delimiterCount))).Admits (values - 1)
  /-- A multivalue takes exactly so many values from the argument. -/
  arity : member.kind = .multivalue → values = argument.delimiterCount.min.toNat + 1
  /-- One occurrence does not exceed the count. -/
  once : values ≤ Count.wordMax → member.count.max.Admits values
  /-- If no other argument contributes, the count admits the values of admitted occurrences. -/
  alone : member.arguments.length = 1 → ∀ n, argument.count.Admits n →
    n * values ≤ Count.wordMax → member.count.Admits (n * values)

/-- Every argument of a multivalue has a fixed number of delimiters. -/
theorem Group.hasFixedDelimiters_of_kind {group : Group} {valueType : ValueType} {count : Count}
    (hr : group.HasRanges) (h : group.kind valueType count = .ok .multivalue) :
    group.hasFixedDelimiters = true := by
  cases hdeclared : group.properties.kind with
  | none => exact hasFixedDelimiters_of_inferKind hr (kind_of_undeclared hdeclared h).symm
  | some declared =>
    obtain ⟨rfl, done, hcheck⟩ := kind_of_declared hdeclared h
    unfold checkKind at hcheck
    split_ifs at hcheck with hopen
    all_goals simpa using hopen

/-- The member of a group accounts for the values of an occurrence whose delimiters are admitted. -/
theorem Group.Deduces.accountsFor {group : Group} {occurrences : Count} {member : Member}
    (h : group.Deduces occurrences member) (hg : group.HasCounts) {argument : Argument}
    (ha : argument ∈ group.arguments) {d : Nat} (hd : argument.delimiterCount.Admits d) :
    member.AccountsFor argument (d + 1) := by
  have hrange : group.delimiters.Admits d := admits_delimiters ha hd
  constructor
  case delimiters =>
    rw [h.arguments]
    exact hrange
  case arity =>
    intro hkind
    have hfixed := hasFixedDelimiters_of_kind hg.ranges (hkind ▸ h.kind)
    have hexact := Count.eq_of_isFixed (List.all_eq_true.mp hfixed argument ha) hd
    rw [hexact]
  case once =>
    intro hfits
    have hpieces : Count.pieces [d] = d + 1 := by simp [Count.pieces]
    have hroom : occurrences.max.Admits [d].length := (hg.canBeMet_count h.occurs).room
    rw [← hpieces] at hfits ⊢
    rw [h.count]
    exact Bound.admits_mul_arity hroom (List.forall_mem_singleton.mpr hrange.2) hfits
  case alone =>
    intro hlength n hn hfits
    have hsingle : member.arguments = [argument] := by
      obtain ⟨only, honly⟩ := List.length_eq_one_iff.mp hlength
      rw [← h.arguments, honly, List.mem_singleton] at ha
      rw [honly, ha]
    have husage : List.Forall₂ Argument.Allows member.arguments [List.replicate n d] := by
      rw [hsingle]
      exact .cons (Argument.allows_replicate hn hd) .nil
    have hpieces : Count.pieces [List.replicate n d].flatten = n * (d + 1) := by
      rw [List.flatten_singleton, Count.pieces_replicate]
    rw [← hpieces] at hfits ⊢
    exact (h.countsValues hg).covers (.inr hlength) _ husage hfits

/-- What a member accounts for does not depend on its place. -/
theorem Member.accountsFor_withPlace {member : Member} {argument : Argument} {values : Nat}
    (h : member.AccountsFor argument values) (place : Nat) :
    (member.withPlace place).AccountsFor { argument with memberIndex := some place } values := by
  constructor
  case delimiters =>
    rw [withPlace, List.map_map]
    exact h.delimiters
  case arity => exact h.arity
  case once => exact h.once
  case alone =>
    intro hlength
    rw [withPlace, List.length_map] at hlength
    exact h.alone hlength

/-- Every literal of a document has one alternative more than it has delimiters. The delimiter count
of its argument admits them exactly when they are allowed, which nothing checks where a delimiter
count is declared; the member accounts for the alternatives if it does. -/
theorem parse_literalArity {settings : Settings} {text : String} {document : Document}
    (h : Document.parse settings text = .ok document) :
    ∃ marks annotated, settings.marks = .ok marks ∧ Annotated.scan marks text = .ok annotated ∧
      ∀ member ∈ document.members, ∀ argument ∈ member.arguments,
        ∀ alternatives, argument.value = some alternatives →
          (∃ block earlier later definition, annotated.blocks[argument.ordinal]? = some block ∧
            Definition.ofBlock marks settings.dialect earlier block = (.ok definition, later) ∧
            alternatives.length =
              delimitersIn argument.delimiter definition.literal.toList + 1 ∧
            (argument.delimiterCount.Admits (alternatives.length - 1) ↔
              DelimitersAllowed (definition.get .delimiterCount) (alternatives.length - 1))) ∧
          (argument.delimiterCount.Admits (alternatives.length - 1) →
            member.AccountsFor argument alternatives.length) := by
  obtain ⟨marks, annotated, drafts, groups, hmarks, hscan, -, hdeduced⟩ :=
    Document.read_deduced (Prod.ext h rfl)
  refine ⟨marks, annotated, hmarks, hscan, ?_⟩
  intro member hm argument ha alternatives hvalue
  obtain ⟨group, hg, occurrences, base, place, hdeduces, rfl⟩ := hdeduced.members member hm
  obtain ⟨original, horiginal, rfl⟩ := List.mem_map.mp ha
  rw [hdeduces.arguments] at horiginal
  obtain ⟨block, earlier, later, definition, source, draft, name, index, before, hblock, hread, hmade,
    he⟩ := hdeduced.made group hg original horiginal
  have hsame : draft.argument.value = some alternatives := by
    rw [he] at hvalue
    exact hvalue
  obtain ⟨hlength, hadmitted⟩ := hmade.alternatives_admitted_iff hsame
  refine ⟨⟨block, earlier, later, definition, hblock, hread, ?_, ?_⟩, fun hadmits => ?_⟩
  · rw [he]
    exact hlength
  · rw [he]
    exact hadmitted
  · have hpositive : alternatives.length - 1 + 1 = alternatives.length := by
      rw [hlength, Nat.add_sub_cancel]
    have haccounts := hdeduces.accountsFor (hdeduced.hasCounts hg) horiginal hadmits
    rw [hpositive] at haccounts
    exact Member.accountsFor_withPlace haccounts place

/-- An option whose literal has fewer delimiters than are declared. -/
def shortLiteral : String :=
  "$\x7b--rgb | Value: 1,2,3 | DelimiterCount: 5\x7d$"

/-- A literal need not have as many delimiters as its argument allows. -/
theorem parse_literalArity_short :
    ¬ ∀ (settings : Settings) (text : String) (document : Document),
      Document.parse settings text = .ok document →
        ∀ member ∈ document.members, ∀ argument ∈ member.arguments,
          ∀ alternatives, argument.value = some alternatives →
            argument.delimiterCount.Admits (alternatives.length - 1) := by
  intro hall
  have hread : (Document.parse .standard shortLiteral).toOption.any
      (·.members.any fun member => member.arguments.any fun argument =>
        decide (argument.value = some ["1", "2", "3"]) &&
          !decide (argument.delimiterCount.Admits 2)) = true := by
    decide +kernel
  obtain ⟨document, hparse, hfound⟩ := exists_ok_of_any hread
  obtain ⟨member, hm, hargument⟩ := List.any_eq_true.mp hfound
  obtain ⟨argument, ha, hboth⟩ := List.any_eq_true.mp hargument
  rw [Bool.and_eq_true, decide_eq_true_eq, Bool.not_eq_true', decide_eq_false_iff_not] at hboth
  exact hboth.2 (hall _ _ document hparse member hm argument ha _ hboth.1)

/-- An option declares as many delimiters as its literal has. -/
def fittingLiteral : String :=
  "$\x7b--rgb | Value: 1,2,3 | DelimiterCount: 2\x7d$"

/-- The literal has the delimiters that its argument allows, and the member accounts for its three
pieces. -/
theorem parse_literalArity_fitting :
    ∃ document, Document.parse .standard fittingLiteral = .ok document ∧
      ∃ member ∈ document.members, member.kind = .multivalue ∧ member.count = ⟨0, .bounded 3⟩ ∧
        ∃ argument ∈ member.arguments, argument.value = some ["1", "2", "3"] ∧
          argument.delimiterCount.Admits 2 ∧ member.AccountsFor argument 3 := by
  have hread : (Document.parse .standard fittingLiteral).toOption.any
      (·.members.any fun member => member.kind == .multivalue &&
        member.count == ⟨0, .bounded 3⟩ && member.arguments.any fun argument =>
          decide (argument.value = some ["1", "2", "3"]) &&
            decide (argument.delimiterCount.Admits 2)) = true := by
    decide +kernel
  obtain ⟨document, hparse, hfound⟩ := exists_ok_of_any hread
  obtain ⟨member, hm, hmember⟩ := List.any_eq_true.mp hfound
  simp only [Bool.and_eq_true, beq_iff_eq, List.any_eq_true, decide_eq_true_eq] at hmember
  obtain ⟨⟨hkind, hcount⟩, argument, ha, hvalue, hadmits⟩ := hmember
  obtain ⟨marks, annotated, -, -, hall⟩ := parse_literalArity hparse
  obtain ⟨-, haccounts⟩ := hall member hm argument ha _ hvalue
  exact ⟨document, hparse, member, hm, hkind, hcount, argument, ha, hvalue, hadmits,
    haccounts hadmits⟩

end AnnotatedHelp
