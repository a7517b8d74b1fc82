import Mathlib
import AnnotatedHelp.Proofs.ModelGraph

/-!
# Distinct display names

A draft whose display name is taken gets a number behind it, and a name that was made this way can
itself be the name that a later definition was written with. So names are kept apart not by the
numbers but by the names given so far: each draft takes the first free name of its own row, and one is
free among one more number than there are names before it. The main statement says that the search
ends for every list of drafts, what it gives to each of them, that no name is given twice, and that
names which are kept apart already stay as they are.
-/

namespace AnnotatedHelp

open Outcome

namespace Draft

/-- Two numbers make two names. -/
theorem numbered_injective (base : String) : Function.Injective (numbered base) := by
  have hsuffix : ∀ n, numbered base n = base ++ if n = 0 then "" else n.repr := by
    intro n
    cases n with
    | zero => exact String.append_empty.symm
    | succ n => rfl
  have hempty : ∀ n : Nat, n.repr ≠ "" := fun n => mt String.toList_eq_nil_iff.mpr (by simp)
  intro m n h
  rw [hsuffix m, hsuffix n, String.append_right_inj] at h
  split_ifs at h with hm hn hn
  · exact hm.trans hn.symm
  · exact absurd h.symm (hempty n)
  · exact absurd h (hempty m)
  · exact Nat.repr_inj.mp h

/-- Among one more number than there are names taken, one makes a name that is free. -/
theorem exists_free (taken : List String) (base : String) :
    ∃ n ≤ taken.length, numbered base n ∉ taken := by
  by_contra hnone
  have hall : (List.range (taken.length + 1)).map (numbered base) ⊆ taken := by
    intro name hname
    obtain ⟨n, hn, rfl⟩ := List.mem_map.mp hname
    by_contra hfree
    exact hnone ⟨n, Nat.lt_succ_iff.mp (List.mem_range.mp hn), hfree⟩
  have hdistinct : ((List.range (taken.length + 1)).map (numbered base)).Nodup :=
    List.nodup_range.map (numbered_injective base)
  have hlength := (hdistinct.subperm hall).length_le
  rw [List.length_map, List.length_range] at hlength
  omega

/-- The number that is chosen makes a free name, and all smaller ones make names that are taken. -/
theorem freeNumber_least (taken : List String) (base : String) :
    numbered base (freeNumber taken base) ∉ taken ∧
      ∀ m < freeNumber taken base, numbered base m ∈ taken := by
  unfold freeNumber
  cases hfind : (List.range (taken.length + 1)).find? fun n => !taken.contains (numbered base n) with
  | none =>
    obtain ⟨n, hn, hfree⟩ := exists_free taken base
    have htaken := List.find?_range_eq_none.mp hfind n (by omega)
    exact absurd (by simpa using htaken) hfree
  | some n =>
    obtain ⟨hfree, -, hsmaller⟩ := List.find?_range_eq_some.mp hfind
    exact ⟨by simpa using hfree, fun m hm => by simpa using hsmaller m hm⟩

/-- A search for a free name: it tries one number after the other, from the first one on, and ends at a
number that makes a name which is not taken. -/
inductive Finds (taken : List String) (base : String) : (first found : Nat) → Prop
  /-- The name is free. -/
  | free {n : Nat} : numbered base n ∉ taken → Finds taken base n n
  /-- The name is taken, and the search goes on. -/
  | next {n found : Nat} : numbered base n ∈ taken → Finds taken base (n + 1) found →
      Finds taken base n found

/-- A search ends at the first number from its start on that makes a free name. -/
theorem finds_iff {taken : List String} {base : String} {first found : Nat} :
    Finds taken base first found ↔ first ≤ found ∧ numbered base found ∉ taken ∧
      ∀ m, first ≤ m → m < found → numbered base m ∈ taken := by
  constructor
  · intro h
    induction h with
    | free hfree => exact ⟨le_rfl, hfree, fun m hfirst hfound => by omega⟩
    | @next n found htaken _ ih =>
      obtain ⟨hle, hfree, hsmaller⟩ := ih
      refine ⟨by omega, hfree, fun m hfirst hfound => ?_⟩
      rcases hfirst.eq_or_lt with rfl | hlater
      · exact htaken
      · exact hsmaller m hlater hfound
  · rintro ⟨hle, hfree, hsmaller⟩
    obtain ⟨steps, rfl⟩ := Nat.exists_eq_add_of_le hle
    induction steps generalizing first with
    | zero => exact .free hfree
    | succ steps ih =>
      have hsum : first + 1 + steps = first + (steps + 1) := by omega
      have hrest : Finds taken base (first + 1) (first + 1 + steps) :=
        ih (by omega) (hsum ▸ hfree) fun m hfirst hfound => hsmaller m (by omega) (by omega)
      exact .next (hsmaller first le_rfl (by omega)) (hsum ▸ hrest)

/-- The search from zero on ends, and at the number that is chosen. -/
theorem finds_zero_iff {taken : List String} {base : String} {found : Nat} :
    Finds taken base 0 found ↔ found = freeNumber taken base := by
  obtain ⟨hfree, hsmaller⟩ := freeNumber_least taken base
  rw [finds_iff]
  constructor
  · rintro ⟨-, hfound, hbefore⟩
    rcases Nat.lt_trichotomy found (freeNumber taken base) with hlt | heq | hgt
    · exact absurd (hsmaller found hlt) hfound
    · exact heq
    · exact absurd (hbefore _ (Nat.zero_le _) hgt) hfree
  · rintro rfl
    exact ⟨Nat.zero_le _, hfree, fun m _ hm => hsmaller m hm⟩

/-- The name that a draft gets where other names are taken. -/
inductive NamedBeside (taken : List String) (old : String) : String → Prop
  /-- A name that is not taken is kept. -/
  | kept : old ∉ taken → NamedBeside taken old old
  /-- A name that is taken gets the least positive number behind it that makes a free name. -/
  | suffixed {n : Nat} : old ∈ taken → 0 < n → old ++ n.repr ∉ taken →
      (∀ m, 0 < m → m < n → old ++ m.repr ∈ taken) → NamedBeside taken old (old ++ n.repr)

namespace NamedBeside

variable {taken others : List String} {old new : String}

/-- The name is not taken. -/
theorem fresh (h : NamedBeside taken old new) : new ∉ taken := by
  cases h with
  | kept hfree => exact hfree
  | suffixed _ _ hfree _ => exact hfree

/-- A name that is not taken is the one that is given. -/
theorem eq_of_not_mem (h : NamedBeside taken old new) (hfree : old ∉ taken) : new = old := by
  cases h with
  | kept _ => rfl
  | suffixed htaken _ _ _ => exact absurd htaken hfree

/-- It only matters which names are taken. -/
theorem congr (h : NamedBeside taken old new) (hsame : ∀ name, name ∈ others ↔ name ∈ taken) :
    NamedBeside others old new := by
  cases h with
  | kept hfree => exact .kept (mt (hsame old).mp hfree)
  | suffixed htaken hpos hfree hsmaller =>
    exact .suffixed ((hsame old).mpr htaken) hpos (mt (hsame _).mp hfree)
      fun m hm hlt => (hsame _).mpr (hsmaller m hm hlt)

end NamedBeside

/-- A renamed draft has the name that is chosen beside those taken. -/
theorem rename_namedBeside (taken : List String) (draft : Draft) :
    NamedBeside taken draft.argument.name (rename taken draft).argument.name := by
  obtain ⟨hfree, hsmaller⟩ := freeNumber_least taken draft.argument.name
  change NamedBeside taken draft.argument.name
    (numbered draft.argument.name (freeNumber taken draft.argument.name))
  cases hnumber : freeNumber taken draft.argument.name with
  | zero =>
    rw [hnumber] at hfree
    exact .kept hfree
  | succ n =>
    rw [hnumber] at hfree hsmaller
    refine .suffixed (hsmaller 0 n.succ_pos) n.succ_pos hfree fun m hpos hlt => ?_
    obtain ⟨m, rfl⟩ := Nat.exists_eq_add_one_of_ne_zero hpos.ne'
    exact hsmaller (m + 1) hlt

/-- A draft whose name is not taken is left as it is. -/
theorem rename_of_not_mem {taken : List String} {draft : Draft}
    (h : draft.argument.name ∉ taken) : rename taken draft = draft := by
  have hname := (rename_namedBeside taken draft).eq_of_not_mem h
  have hrest : rename taken draft = { draft with argument :=
      { draft.argument with name := (rename taken draft).argument.name } } := rfl
  rw [hrest, hname]

/-- The display names of drafts. -/
def names (drafts : List Draft) : List String :=
  drafts.map (·.argument.name)

/-- The draft with another display name. -/
def withName (name : String) (draft : Draft) : Draft :=
  { draft with argument := { draft.argument with name := name } }

/-- Drafts are renamed one after the other, each by a search beside the names that are taken, among them
those of the drafts before it. -/
inductive Renames : (taken : List String) → (drafts named : List Draft) → Prop
  /-- There is no draft left. -/
  | nil {taken : List String} : Renames taken [] []
  /-- The first draft gets the name at which its search ends. -/
  | cons {taken : List String} {draft : Draft} {drafts named : List Draft} {found : Nat} :
      Finds taken draft.argument.name 0 found →
      Renames (numbered draft.argument.name found :: taken) drafts named →
      Renames taken (draft :: drafts)
        (draft.withName (numbered draft.argument.name found) :: named)

/-- The searches end for every list of drafts, with one result. -/
theorem renames_iff {taken : List String} {drafts named : List Draft} :
    Renames taken drafts named ↔ named = uniqueNamesFrom taken drafts := by
  constructor
  · intro h
    induction h with
    | nil => rfl
    | cons hfinds _ ih =>
      obtain rfl := finds_zero_iff.mp hfinds
      rw [ih]
      rfl
  · rintro rfl
    induction drafts generalizing taken with
    | nil => exact .nil
    | cons draft drafts ih => exact .cons (finds_zero_iff.mpr rfl) ih

variable {taken : List String} {drafts named : List Draft}

/-- The names that are given differ from each other and from those taken. -/
theorem uniqueNamesFrom_apart (taken : List String) (drafts : List Draft) :
    (names (uniqueNamesFrom taken drafts)).Nodup ∧
      ∀ name ∈ names (uniqueNamesFrom taken drafts), name ∉ taken := by
  induction drafts generalizing taken with
  | nil => exact ⟨List.nodup_nil, nofun⟩
  | cons draft drafts ih =>
    have hfresh := (rename_namedBeside taken draft).fresh
    -- The names behind the first one differ from it because it is taken for them.
    obtain ⟨hdistinct, hbeside⟩ := ih ((rename taken draft).argument.name :: taken)
    constructor
    · exact List.nodup_cons.mpr ⟨fun hm => hbeside _ hm List.mem_cons_self, hdistinct⟩
    · refine List.forall_mem_cons.mpr ⟨hfresh, fun name hm htaken => ?_⟩
      exact hbeside name hm (List.mem_cons_of_mem _ htaken)

/-- Names that differ from each other and from those taken are left as they are. -/
theorem uniqueNamesFrom_of_apart (hdistinct : (names drafts).Nodup)
    (hbeside : ∀ name ∈ names drafts, name ∉ taken) : uniqueNamesFrom taken drafts = drafts := by
  induction drafts generalizing taken with
  | nil => rfl
  | cons draft drafts ih =>
    obtain ⟨hfirst, hrest⟩ := List.nodup_cons.mp hdistinct
    obtain ⟨hfree, hothers⟩ := List.forall_mem_cons.mp hbeside
    have hkept : rename taken draft = draft := rename_of_not_mem hfree
    have hbehind : uniqueNamesFrom (draft.argument.name :: taken) drafts = drafts := by
      refine ih hrest fun name hm htaken => ?_
      rcases List.mem_cons.mp htaken with rfl | htaken
      · exact hfirst hm
      · exact hothers name hm htaken
    change rename taken draft :: uniqueNamesFrom ((rename taken draft).argument.name :: taken) drafts =
      draft :: drafts
    rw [hkept, hbehind]

/-- Each draft is renamed beside the names taken and those given to the drafts before it. -/
theorem getElem?_uniqueNamesFrom (taken : List String) (drafts : List Draft) (place : Nat) :
    (uniqueNamesFrom taken drafts)[place]? = drafts[place]?.map
      (rename ((names ((uniqueNamesFrom taken drafts).take place)).reverse ++ taken)) := by
  induction drafts generalizing taken place with
  | nil => rfl
  | cons draft drafts ih =>
    cases place with
    | zero => rfl
    | succ place =>
      have hrest := ih ((rename taken draft).argument.name :: taken) place
      simpa [uniqueNamesFrom, names] using hrest

/-- What it means that drafts have been named apart. -/
structure NamedApart (drafts named : List Draft) : Prop where
  /-- Every draft has its place still. -/
  length : named.length = drafts.length
  /-- No two drafts have one display name. -/
  distinct : (names named).Nodup
  /-- Nothing but the name of a draft is changed, and the name is chosen beside the names that the
  drafts before it have got. -/
  chosen : ∀ place draft renamed, drafts[place]? = some draft → named[place]? = some renamed →
    renamed = draft.withName renamed.argument.name ∧
      NamedBeside (names (named.take place)) draft.argument.name renamed.argument.name
  /-- A name that no draft before has got is kept. -/
  kept : ∀ place draft renamed, drafts[place]? = some draft → named[place]? = some renamed →
    draft.argument.name ∉ names (named.take place) → renamed = draft

/-- Making the names of drafts differ names them apart. -/
theorem uniqueNames_namedApart (drafts : List Draft) : NamedApart drafts (uniqueNames drafts) := by
  have hchosen : ∀ place draft renamed, drafts[place]? = some draft →
      (uniqueNames drafts)[place]? = some renamed →
        renamed = draft.withName renamed.argument.name ∧
          NamedBeside (names ((uniqueNames drafts).take place)) draft.argument.name
            renamed.argument.name := by
    intro place draft renamed hdraft hrenamed
    rw [uniqueNames, getElem?_uniqueNamesFrom, hdraft, Option.map_some] at hrenamed
    obtain rfl := Option.some.inj hrenamed
    exact ⟨rfl, (rename_namedBeside _ draft).congr fun name => by simp [uniqueNames]⟩
  constructor
  case length =>
    have hlength := congrArg List.length (map_uniqueNamesFrom (fun _ => ()) (fun _ _ => rfl) [] drafts)
    simpa [uniqueNames] using hlength
  case distinct => exact (uniqueNamesFrom_apart [] drafts).1
  case chosen => exact hchosen
  case kept =>
    intro place draft renamed hdraft hrenamed hfree
    obtain ⟨hrest, hname⟩ := hchosen place draft renamed hdraft hrenamed
    rw [hrest, hname.eq_of_not_mem hfree]
    rfl

/-- Names that are made to differ once differ for good. -/
theorem uniqueNames_again (drafts : List Draft) :
    uniqueNames (uniqueNames drafts) = uniqueNames drafts :=
  uniqueNamesFrom_of_apart (uniqueNamesFrom_apart [] drafts).1 fun _ _ => List.not_mem_nil

/-- For every list of drafts the searches for names end, with one result. No two drafts have one
display name then; each has its old name, or behind it the least positive number that makes a name
which no draft before it has got, and it keeps a name which none of them has got. Searching again
changes nothing. -/
theorem uniqueNames_distinct (drafts : List Draft) :
    (∀ named, Renames [] drafts named ↔ named = uniqueNames drafts) ∧
      NamedApart drafts (uniqueNames drafts) ∧
      uniqueNames (uniqueNames drafts) = uniqueNames drafts :=
  ⟨fun _ => renames_iff, uniqueNames_namedApart drafts, uniqueNames_again drafts⟩

/-- The drafts of three options, two of which are named alike, while the third one is written with the
name that the second one gets. -/
def collidingDrafts : Except Diagnostic (List Draft) :=
  (ofBlocks shortMarks .classic .zero 0
    [⟨1, "-a".toList⟩, ⟨2, "--a".toList⟩, ⟨3, "--a1".toList⟩]).1

/-- The second name gets the least suffix, and the third one gives way to it; naming again changes
nothing. -/
theorem uniqueNames_distinct_colliding :
    ∃ drafts, collidingDrafts = .ok drafts ∧ names drafts = ["a", "a", "a1"] ∧
      names (uniqueNames drafts) = ["a", "a1", "a11"] ∧
      Renames [] drafts (uniqueNames drafts) ∧ NamedApart drafts (uniqueNames drafts) ∧
      uniqueNames (uniqueNames drafts) = uniqueNames drafts := by
  have hread : collidingDrafts.toOption.map (fun drafts =>
      (names drafts, names (uniqueNames drafts))) =
        some (["a", "a", "a1"], ["a", "a1", "a11"]) := by
    decide +kernel
  obtain ⟨drafts, hdrafts, hnames⟩ := exists_ok_of_toOption hread
  obtain ⟨hold, hnew⟩ := Prod.mk.inj hnames
  obtain ⟨hsearches, hapart, hagain⟩ := uniqueNames_distinct drafts
  exact ⟨drafts, hdrafts, hold, hnew, (hsearches _).mpr rfl, hapart, hagain⟩

end Draft

/-- No two arguments of a document that is read have one display name. -/
theorem Document.read_names {settings : Settings} {counters after : Counters} {text : String}
    {document : Document} (h : read settings counters text = (.ok document, after)) :
    (document.arguments.map (·.name)).Nodup := by
  obtain ⟨marks, annotated, drafts, -, -, -, hmembers, -, -⟩ := read_ok h
  obtain ⟨resolved, hresolved, hdeduced⟩ := bind_ok_iff.mp hmembers
  obtain ⟨sorted, hpart, -, hplaced⟩ := Member.ofDrafts_ok hdeduced
  have hshared := hpart.map_arguments_perm (fun argument => argument.name) fun _ _ => rfl
  have hperm := (document.arguments_perm.map (·.name)).trans (hplaced ▸ hshared)
  have hnames : resolved.map (·.argument.name) = Draft.names (Draft.uniqueNames drafts) :=
    Draft.map_resolveIndices (·.argument.name) (fun _ _ => rfl) hresolved
  rw [List.map_map] at hperm
  refine hperm.nodup_iff.mpr ?_
  change (resolved.map (·.argument.name)).Nodup
  rw [hnames]
  exact (Draft.uniqueNames_namedApart drafts).distinct

end AnnotatedHelp
