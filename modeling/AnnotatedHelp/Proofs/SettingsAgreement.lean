import Mathlib
import AnnotatedHelp.Proofs.MemberDeduction
import AnnotatedHelp.Proofs.SessionCounters

/-!
# Settings and the documents they admit

Beside the tokens, settings name a dialect, a rule for defaults and whether a help member is required.
None of them changes what a text means. The dialects share some names of keys and differ on none of
those; the rule for defaults is a check without a result, and so is the requirement. Two settings with
the same tokens may therefore accept different texts, but never read one text as two documents.
-/

namespace AnnotatedHelp

open Outcome Text

namespace PropertyKey

variable {dialect other : Dialect} {name : String} {key key' : PropertyKey}

/-- A name that is looked up stands in the table of the dialect. -/
theorem mem_of_lookup_furtherNames (h : (furtherNames dialect).lookup name = some key) :
    (name, key) ∈ furtherNames dialect := by
  obtain ⟨before, after, htable, _⟩ := List.lookup_eq_some_iff.mp h
  rw [htable]
  simp

/-- A name that stands in the tables of two dialects has one key. -/
theorem eq_of_mem_furtherNames (h : (name, key) ∈ furtherNames dialect)
    (h' : (name, key') ∈ furtherNames other) : key = key' := by
  have htables : ∀ entry ∈ furtherNames dialect, ∀ entry' ∈ furtherNames other,
      entry.1 = entry'.1 → entry.2 = entry'.2 := by
    cases dialect <;> cases other <;> decide +kernel
  exact htables _ h _ h' rfl

/-- A name that two dialects know is the name of one key. -/
theorem eq_of_ofName? (h : ofName? dialect name = some key) (h' : ofName? other name = some key') :
    key = key' := by
  unfold ofName? at h h'
  cases hcanonical : all.find? (·.name == name) with
  | some found =>
    rw [hcanonical] at h h'
    exact Option.some.inj (h.symm.trans h')
  | none =>
    rw [hcanonical] at h h'
    exact eq_of_mem_furtherNames (mem_of_lookup_furtherNames h) (mem_of_lookup_furtherNames h')

end PropertyKey

namespace Property

/-- A field that two dialects can read has one key and one value. -/
theorem ofField_compatible (dialect other : Dialect) (field : List Char) :
    Compatible (ofField dialect field) (ofField other field) := by
  intro entry entry' h h'
  unfold ofField at h h'
  cases htrim : trim field with
  | nil =>
    rw [htrim] at h h'
    exact Except.ok.inj (h.symm.trans h')
  | cons c text =>
    simp only [htrim] at h h'
    cases hcut : cut [':'] (c :: text) with
    | none =>
      rw [hcut] at h
      cases h
    | some parts =>
      obtain ⟨before, after⟩ := parts
      simp only [hcut] at h h'
      split at h
      · cases h
      · next key hkey =>
        split at h'
        · cases h'
        · next key' hkey' =>
          cases h
          cases h'
          rw [PropertyKey.eq_of_ofName? hkey hkey']

/-- Fields that two dialects can read are the same properties. -/
theorem readFields_compatible (dialect other : Dialect) (fields : List (List Char)) :
    Compatible (readFields dialect fields) (readFields other fields) := by
  have hadd : ∀ properties field,
      Compatible (addField dialect properties field) (addField other properties field) :=
    fun properties field => (ofField_compatible dialect other field).bind fun _ => .refl _
  exact (Compatible.foldlM hadd .empty fields).bind fun _ => .refl _

end Property

/-- A block that two dialects can read has one definition, and takes one number. -/
theorem Definition.ofBlock_compatible {marks : Marks} {dialect other : Dialect}
    {counters after after' : Counters} {block : Block} {definition definition' : Definition}
    (h : ofBlock marks dialect counters block = (.ok definition, after))
    (h' : ofBlock marks other counters block = (.ok definition', after')) :
    definition = definition' ∧ after = after' := by
  unfold ofBlock at h h'
  dsimp only at h h'
  split at h
  · cases h
  · next declared hread =>
    split at h'
    · cases h'
    · next declared' hread' =>
      obtain rfl := Property.readFields_compatible _ _ _ _ _ hread hread'
      rw [h] at h'
      cases h'
      exact ⟨rfl, rfl⟩

/-- Blocks that two dialects can read have the same drafts. -/
theorem Draft.ofBlocks_compatible {marks : Marks} {dialect other : Dialect}
    {counters after after' : Counters} {ordinal : Nat} {blocks : List Block}
    {drafts drafts' : List Draft}
    (h : ofBlocks marks dialect counters ordinal blocks = (.ok drafts, after))
    (h' : ofBlocks marks other counters ordinal blocks = (.ok drafts', after')) :
    drafts = drafts' := by
  induction blocks generalizing counters ordinal drafts drafts' with
  | nil =>
    cases h
    cases h'
    rfl
  | cons block blocks ih =>
    obtain ⟨definition, middle, draft, rest, hd, hn, hr, rfl⟩ := ofBlocks_cons_ok h
    obtain ⟨definition', middle', draft', rest', hd', hn', hr', rfl⟩ := ofBlocks_cons_ok h'
    obtain ⟨rfl, rfl⟩ := Definition.ofBlock_compatible hd hd'
    obtain rfl : draft = draft' := Except.ok.inj (hn.symm.trans hn')
    rw [ih hr hr']

namespace Group

variable (group : Group) (rule other : DefaultRule)

/-- A default that passes two rules is the same default. -/
theorem default_compatible (kind : Kind) (valueType : ValueType) (count : Count) :
    Compatible (group.default rule kind valueType count)
      (group.default other kind valueType count) := by
  intro default default' h h'
  unfold Group.default at h h'
  cases hdeclared : group.properties.default with
  | none =>
    rw [hdeclared] at h h'
    exact Except.ok.inj (h.symm.trans h')
  | some declared =>
    simp only [hdeclared] at h h'
    cases hcheck : group.checkDefault rule declared kind count <;> rw [hcheck] at h <;> cases h
    cases hcheck' : group.checkDefault other declared kind count <;> rw [hcheck'] at h' <;> cases h'
    rfl

/-- A group that has a member under two rules has one member. -/
theorem member_compatible : Compatible (group.member rule) (group.member other) := by
  unfold member
  refine (Compatible.refl group.count).bind fun count => ?_
  refine (Compatible.refl group.valueType).bind fun valueType => ?_
  refine (Compatible.refl (group.kind valueType count)).bind fun kind => ?_
  exact (group.default_compatible rule other kind valueType count).bind fun _ => .refl _

end Group

/-- Drafts that have members under two settings have the same members. -/
theorem Member.deduce_compatible (settings other : Settings) (drafts : List Draft) :
    Compatible (deduce settings drafts) (deduce other drafts) := by
  refine (Compatible.refl _).bind fun resolved => ?_
  refine (Compatible.refl (Group.ofDrafts resolved)).bind fun groups => ?_
  have hmembers : Compatible (Group.members settings.defaultRule groups)
      (Group.members other.defaultRule groups) :=
    .mapM (fun group => (group.member_compatible _ _).mapError) groups
  refine hmembers.bind fun members => ?_
  intro sorted sorted' h h'
  obtain ⟨_, _, h⟩ := bind_ok_iff.mp h
  obtain ⟨_, _, h'⟩ := bind_ok_iff.mp h'
  exact Except.ok.inj (h.symm.trans h')

namespace Member

/-- Sorting and numbering members neither adds nor drops a help member. -/
theorem any_help_settled (members : List Member) :
    ((sortByName members).mapIdx withPlace).any (·.kind == .help) =
      members.any (·.kind == .help) := by
  have hkinds : ((sortByName members).mapIdx withPlace).map (·.kind) =
      (sortByName members).map (·.kind) := map_mapIdx_withPlace (·.kind) (fun _ _ => rfl) _
  have hplaced := congrArg (List.any · (· == Kind.help)) hkinds
  simp only [List.any_map, Function.comp_def] at hplaced
  rw [hplaced]
  exact (sortByName_perm members).any_eq

/-- Where a help member is required, members are deduced as elsewhere and then looked through. -/
theorem ofDrafts_requireHelp (settings : Settings) (drafts : List Draft) :
    ofDrafts { settings with requireHelp := true } drafts =
      ofDrafts { settings with requireHelp := false } drafts >>= fun members =>
        (checkHelp true members).map fun _ => members := by
  unfold ofDrafts
  cases Group.ofDrafts drafts with
  | error diagnostic => rfl
  | ok groups =>
    cases hmembers : Group.members settings.defaultRule groups with
    | error diagnostic => simp [bind, Except.bind, hmembers]
    | ok members =>
      have hsame : checkHelp true ((sortByName members).mapIdx withPlace) = checkHelp true members := by
        rw [checkHelp, checkHelp, any_help_settled]
      have hfree : checkHelp false members = .ok () := rfl
      simp only [bind, Except.bind, hmembers, hfree, hsame]
      cases checkHelp true members <;> rfl

/-- Requiring a help member leaves what is deduced as it is. -/
theorem deduce_requireHelp (settings : Settings) (drafts : List Draft) :
    deduce { settings with requireHelp := true } drafts =
      deduce { settings with requireHelp := false } drafts >>= fun members =>
        (checkHelp true members).map fun _ => members := by
  unfold deduce
  rw [bind_assoc]
  simp only [ofDrafts_requireHelp settings]

end Member

namespace Document

/-- Requiring a help member adds a last check to the reading of a text. -/
theorem parse_requireHelp (settings : Settings) (text : String) :
    parse { settings with requireHelp := true } text =
      parse { settings with requireHelp := false } text >>= fun document =>
        (Member.checkHelp true document.members).map fun _ => document := by
  cases hmarks : settings.marks with
  | error problem =>
    have hunusable : ∀ required, Settings.marks { settings with requireHelp := required } =
        .error problem := fun _ => hmarks
    simp only [parse, read, hunusable]
    rfl
  | ok marks =>
    have husable : ∀ required, Settings.marks { settings with requireHelp := required } =
        .ok marks := fun _ => hmarks
    cases hscan : Annotated.scan marks text with
    | error diagnostic =>
      simp only [parse, read, husable, hscan]
      rfl
    | ok annotated =>
      rw [parse, parse, read_of_scan (husable true) hscan, read_of_scan (husable false) hscan]
      cases (Draft.ofBlocks marks settings.dialect .zero 0 annotated.blocks).1 with
      | error diagnostic => rfl
      | ok drafts =>
        have hdeduce := Member.deduce_requireHelp settings drafts
        simp only [bind, Except.bind] at hdeduce ⊢
        rw [hdeduce]
        cases Member.deduce { settings with requireHelp := false } drafts with
        | error diagnostic => rfl
        | ok members =>
          dsimp only [Except.map]
          cases Member.checkHelp true members <;> rfl

/-- Two settings with the same tokens never read one text as two documents. Requiring a help member
leaves every failure and every document with a help member as it is, and refuses every other
document because of the missing member. -/
theorem parse_compatible :
    (∀ (settings other : Settings) (text : String) (document document' : Document),
      settings.delimiters = other.delimiters → parse settings text = .ok document →
        parse other text = .ok document' → document = document') ∧
    ∀ (settings : Settings) (text : String),
      (∀ diagnostic, parse { settings with requireHelp := false } text = .error diagnostic →
        parse { settings with requireHelp := true } text = .error diagnostic) ∧
      ∀ document, parse { settings with requireHelp := false } text = .ok document →
        ((∃ member ∈ document.members, member.kind = .help) →
          parse { settings with requireHelp := true } text = .ok document) ∧
        ((∀ member ∈ document.members, member.kind ≠ .help) →
          ∃ diagnostic, parse { settings with requireHelp := true } text = .error diagnostic ∧
            diagnostic = Problem.noHelp.diagnostic ∧
            diagnostic.category = .missingRequiredProperty) := by
  refine ⟨?_, fun settings text => ⟨?_, ?_⟩⟩
  · intro settings other text document document' hsame h h'
    obtain ⟨marks, annotated, drafts, hmarks, hscan, hdrafts, hmembers, htext, hlines⟩ :=
      read_ok (Prod.ext h rfl)
    obtain ⟨marks', annotated', drafts', hmarks', hscan', hdrafts', hmembers', htext', hlines'⟩ :=
      read_ok (Prod.ext h' rfl)
    have htokens : settings.marks = other.marks := by rw [Settings.marks, Settings.marks, hsame]
    obtain rfl : marks = marks' := Except.ok.inj (hmarks.symm.trans (htokens.trans hmarks'))
    obtain rfl : annotated = annotated' := Except.ok.inj (hscan.symm.trans hscan')
    obtain rfl := Draft.ofBlocks_compatible hdrafts hdrafts'
    have hdeduced := Member.deduce_compatible settings other drafts _ _ hmembers hmembers'
    obtain ⟨shown, members, lines⟩ := document
    obtain ⟨shown', members', lines'⟩ := document'
    dsimp only at htext htext' hlines hlines' hdeduced
    rw [htext, htext', hlines, hlines', hdeduced]
  · intro diagnostic h
    rw [parse_requireHelp, h]
    rfl
  · intro document h
    rw [parse_requireHelp, h]
    constructor
    · rintro ⟨member, hm, hkind⟩
      have hany : document.members.any (·.kind == .help) = true :=
        List.any_eq_true.mpr ⟨member, hm, by rw [hkind]; rfl⟩
      simp [bind, Except.bind, Member.checkHelp, hany, Except.map]
    · intro hnone
      have hany : document.members.any (·.kind == .help) = false := by
        rw [List.any_eq_false]
        intro member hm
        simpa using hnone member hm
      refine ⟨Problem.noHelp.diagnostic, ?_, rfl, rfl⟩
      simp [bind, Except.bind, Member.checkHelp, hany, Except.map]

/-- Settings that differ from the standard ones in everything but the tokens. -/
def otherwise : Settings :=
  ⟨.standard, .extended, .listKind, true⟩

/-- A help option with names of keys that both dialects know. -/
def commonText : String :=
  "$\x7b-h, --help | Cond: c | VType: bool | Count: 0..1\x7d$"

/-- An option that shows no help. -/
def helpless : String :=
  "$\x7b-n N\x7d$"

/-- A text with names that both dialects know has one document under both settings, and only a text
without help is refused where help is required. -/
theorem parse_compatible_common :
    ∃ document other diagnostic,
      parse .standard commonText = .ok document ∧ parse otherwise commonText = .ok document ∧
      (∃ member ∈ document.members, member.kind = .help) ∧
      parse { Settings.standard with requireHelp := true } commonText = .ok document ∧
      parse .standard helpless = .ok other ∧ (∀ member ∈ other.members, member.kind ≠ .help) ∧
      parse { Settings.standard with requireHelp := true } helpless = .error diagnostic ∧
      diagnostic.category = .missingRequiredProperty := by
  have hcommon : (parse .standard commonText).toOption.map (·.members.map (·.kind)) =
      some [.help] := by decide +kernel
  have hother : (parse otherwise commonText).toOption.map (·.members.map (·.kind)) =
      some [.help] := by decide +kernel
  have hhelpless : (parse .standard helpless).toOption.map (·.members.map (·.kind)) =
      some [.value] := by decide +kernel
  obtain ⟨document, h, hkinds⟩ := exists_ok_of_toOption hcommon
  obtain ⟨document', h', -⟩ := exists_ok_of_toOption hother
  obtain ⟨other, hfree, hplain⟩ := exists_ok_of_toOption hhelpless
  have hhelp : ∃ member ∈ document.members, member.kind = .help :=
    List.mem_map.mp (hkinds ▸ List.mem_singleton_self Kind.help)
  have hnone : ∀ member ∈ other.members, member.kind ≠ .help := by
    intro member hm hkind
    have hlisted : member.kind ∈ other.members.map (·.kind) := List.mem_map_of_mem hm
    rw [hplain, hkind] at hlisted
    cases List.mem_singleton.mp hlisted
  obtain rfl := parse_compatible.1 .standard otherwise commonText _ _ rfl h h'
  obtain ⟨diagnostic, hrefused, -, hcategory⟩ :=
    ((parse_compatible.2 .standard helpless).2 other hfree).2 hnone
  exact ⟨document, other, diagnostic, h, h', hhelp,
    ((parse_compatible.2 .standard commonText).2 document h).1 hhelp, hfree, hnone, hrefused,
    hcategory⟩

end Document

end AnnotatedHelp
