import Mathlib
import AnnotatedHelp.Proofs.Reading

/-!
# Indices of positional arguments

Positional arguments are queued by their numbers, which count up in document order, so the queue is
the document order itself. One pass collects the declared indices and reports the first fault; a
second one hands out the indices that are left. As many are left as arguments without a declared
index, so the indices are exactly those below the number of positional arguments.
-/

namespace AnnotatedHelp.Draft

open Text

/-- A list of drafts as reading makes it: positional arguments are numbered in document order, from
any number on, and no draft has an index yet. -/
structure InDocumentOrder (drafts : List Draft) : Prop where
  /-- The numbers of the positional arguments ascend. -/
  numbered : (drafts.filterMap (·.number)).Pairwise (· < ·)
  /-- No draft has an index. -/
  unplaced : ∀ draft ∈ drafts, draft.argument.index = none

/-- Drafts read from blocks are in document order, wherever the counters start. -/
theorem ReadFrom.inDocumentOrder {counters : Counters} {ordinal : Nat} {blocks : List Block}
    {drafts : List Draft} (h : ReadFrom counters ordinal blocks drafts) :
    InDocumentOrder drafts :=
  ⟨h.numbers ▸ List.pairwise_lt_range', h.unplaced⟩

/-- The number of positional arguments. -/
def positionalCount (drafts : List Draft) : Nat :=
  drafts.countP (·.isPositional)

/-- The integer that a positional argument declares as its index, if it declares one. -/
def declared? (draft : Draft) : Option Int :=
  if draft.isPositional then draft.declaredIndex.bind fun text => integer64? (trim text.toList)
  else none

/-- Only a positional argument with a readable text declares an index. -/
theorem declared?_eq_some_iff {draft : Draft} {index : Int} : draft.declared? = some index ↔
    draft.isPositional = true ∧
      ∃ text, draft.declaredIndex = some text ∧ integer64? (trim text.toList) = some index := by
  unfold declared?
  cases hp : draft.isPositional with
  | false => simp
  | true =>
    rw [if_pos rfl, Option.bind_eq_some_iff]
    simp

/-- No index declared in a list of drafts is at fault. -/
structure Faultless (total : Nat) (drafts : List Draft) : Prop where
  /-- Every declared index is an integer from zero up to, and without, the total. -/
  readable : ∀ draft ∈ drafts, draft.isPositional → draft.declaredIndex ≠ none →
    ∃ index : Int, draft.declared? = some index ∧ 0 ≤ index ∧ index < total
  /-- No index is declared twice. -/
  distinct : (drafts.filterMap declared?).Nodup

/-- Why a positional argument cannot have the index it declares, given the drafts before it. -/
inductive Offence (total : Nat) (earlier : List Draft) (draft : Draft) : Diagnostic → Prop
  /-- The text is no integer. -/
  | unreadable {text : String} : draft.isPositional → draft.declaredIndex = some text →
      integer64? (trim text.toList) = none →
      Offence total earlier draft
        ((Problem.unreadableIndex text).atLines [draft.argument.lineNumber])
  /-- The integer is negative or too large. -/
  | outOfRange {index : Int} : draft.declared? = some index → ¬(0 ≤ index ∧ index < total) →
      Offence total earlier draft
        ((Problem.indexOutOfRange total index).atLines [draft.argument.lineNumber])
  /-- An earlier draft declares the same index; both lines are reported. -/
  | repeated {other : Draft} {index : Int} : other ∈ earlier → other.declared? = some index →
      draft.declared? = some index →
      Offence total earlier draft
        (Problem.duplicateIndex.atLines [other.argument.lineNumber, draft.argument.lineNumber])

/-- The first draft whose declared index is at fault, with the diagnostic of its fault. -/
def FirstOffence (total : Nat) (drafts : List Draft) (diagnostic : Diagnostic) : Prop :=
  ∃ before draft after, drafts = before ++ draft :: after ∧ Faultless total before ∧
    Offence total before draft diagnostic

/-- A list of drafts in which the positional arguments have got their indices. -/
structure Resolved (drafts result : List Draft) : Prop where
  /-- Nothing but indices is changed. -/
  kept : result.map (withIndex none) = drafts.map (withIndex none)
  /-- The indices of the positional arguments are the numbers below their count, each once. -/
  bijective : ((result.filter (·.isPositional)).map (·.argument.index)).Perm
    ((List.range (positionalCount drafts)).map some)
  /-- A positional argument has the index that it declares. -/
  declared : ∀ draft ∈ result, ∀ index, draft.declared? = some index →
    ∃ place : Nat, draft.argument.index = some place ∧ index = place
  /-- The others have the indices that are not declared, in ascending order. -/
  automatic : (result.filter fun draft => draft.isPositional && draft.declaredIndex.isNone).map
      (·.argument.index) =
    ((List.range (positionalCount drafts)).filter fun place : Nat =>
      !(drafts.filterMap declared?).contains (place : Int)).map some
  /-- Options have no index. -/
  options : ∀ draft ∈ result, draft.isPositional = false → draft.argument.index = none

section Queue

variable (first : Nat) (drafts : List Draft)

/-- The positional arguments in document order, where the first draft has the place `first`. -/
def placedFrom : List Positional :=
  (drafts.zipIdx first).filterMap fun (draft, place) =>
    draft.number.map fun number => ⟨number, place, draft⟩

/-- The queue begins with the first draft, if that is a positional argument. -/
theorem placedFrom_cons (draft : Draft) : placedFrom first (draft :: drafts) =
    (draft.number.map fun number => ⟨number, first, draft⟩).toList ++
      placedFrom (first + 1) drafts := by
  cases h : draft.number <;> simp [placedFrom, List.zipIdx_cons, h]

/-- The queue has the numbers of the drafts. -/
theorem map_number_placedFrom :
    (placedFrom first drafts).map (·.number) = drafts.filterMap (·.number) := by
  induction drafts generalizing first with
  | nil => rfl
  | cons draft drafts ih => cases h : draft.number <;> simp [placedFrom_cons, h, ih]

/-- The queue has the positional arguments among the drafts. -/
theorem map_draft_placedFrom :
    (placedFrom first drafts).map (·.draft) = drafts.filter (·.isPositional) := by
  induction drafts generalizing first with
  | nil => rfl
  | cons draft drafts ih => cases h : draft.number <;> simp [placedFrom_cons, isPositional, h, ih]

/-- Every place is at least the first one. -/
theorem le_place_of_mem_placedFrom {positional : Positional}
    (h : positional ∈ placedFrom first drafts) : first ≤ positional.place := by
  obtain ⟨⟨draft, place⟩, hmem, he⟩ := List.mem_filterMap.mp h
  obtain ⟨number, _, rfl⟩ := Option.map_eq_some_iff.mp he
  exact (List.mem_zipIdx hmem).1

/-- Sorting does not move what is in ascending order. -/
theorem foldr_insert_of_pairwise {queue : List Positional}
    (h : queue.Pairwise fun a b => a.number < b.number) :
    queue.foldr Positional.insert [] = queue := by
  induction queue with
  | nil => rfl
  | cons positional queue ih =>
    obtain ⟨hfirst, hrest⟩ := List.pairwise_cons.mp h
    rw [List.foldr_cons, ih hrest]
    cases queue with
    | nil => rfl
    | cons next queue =>
      have hlt := hfirst next List.mem_cons_self
      rw [Positional.insert, if_pos hlt.le]

/-- The queue of drafts whose numbers ascend is the document order. -/
theorem positionals_eq_placedFrom {drafts : List Draft}
    (h : (drafts.filterMap (·.number)).Pairwise (· < ·)) :
    positionals drafts = placedFrom 0 drafts := by
  rw [← map_number_placedFrom 0, List.pairwise_map] at h
  exact foldr_insert_of_pairwise h

end Queue

section Writing

/-- Writing indices keeps whatever does not depend on the index. -/
theorem map_writeIndices {α : Type} (f : Draft → α)
    (hf : ∀ index draft, f (withIndex index draft) = f draft) (indices : List (Nat × Option Nat))
    (first : Nat) (drafts : List Draft) :
    (writeIndices indices first drafts).map f = drafts.map f := by
  induction drafts generalizing first with
  | nil => rfl
  | cons draft drafts ih =>
    rw [writeIndices, List.map_cons, List.map_cons, ih]
    split
    · rw [hf]
    · rfl

/-- Resolving indices keeps whatever does not depend on the index. -/
theorem map_resolveIndices {α : Type} (f : Draft → α)
    (hf : ∀ index draft, f (withIndex index draft) = f draft) {drafts result : List Draft}
    (h : resolveIndices drafts = .ok result) : result.map f = drafts.map f := by
  unfold resolveIndices at h
  dsimp only at h
  split at h
  · cases h
  · cases h
    exact map_writeIndices f hf _ _ _

/-- Naming drafts apart and resolving their indices keeps whatever depends on neither. -/
theorem map_settled {α : Type} (f : Draft → α) (hn : ∀ taken draft, f (rename taken draft) = f draft)
    (hi : ∀ index draft, f (withIndex index draft) = f draft) {drafts result : List Draft}
    (h : resolveIndices (uniqueNames drafts) = .ok result) : result.map f = drafts.map f :=
  (map_resolveIndices f hi h).trans (map_uniqueNamesFrom f hn [] drafts)

/-- Drafts behind a place do not see the index for that place. -/
theorem writeIndices_cons_of_lt {place first : Nat} (h : place < first) (index : Option Nat)
    (indices : List (Nat × Option Nat)) (drafts : List Draft) :
    writeIndices ((place, index) :: indices) first drafts = writeIndices indices first drafts := by
  induction drafts generalizing first with
  | nil => rfl
  | cons draft drafts ih =>
    have hne : (first == place) = false := by simpa using h.ne'
    rw [writeIndices, writeIndices, ih (by omega), List.lookup_cons, hne]

/-- The drafts from the place `first` on, whose positional arguments get the given indices in
document order. -/
def writeInOrder (first : Nat) (indices : List (Option Nat)) (drafts : List Draft) : List Draft :=
  writeIndices (((placedFrom first drafts).map (·.place)).zip indices) first drafts

/-- An option takes no index. -/
theorem writeInOrder_cons_option {draft : Draft} (h : draft.isPositional = false) (first : Nat)
    (indices : List (Option Nat)) (drafts : List Draft) :
    writeInOrder first indices (draft :: drafts) =
      draft :: writeInOrder (first + 1) indices drafts := by
  have hn : draft.number = none := by simpa [isPositional] using h
  have hl : (((placedFrom (first + 1) drafts).map (·.place)).zip indices).lookup first = none := by
    rw [List.lookup_eq_none_iff]
    rintro ⟨place, index⟩ hmem
    obtain ⟨positional, hpos, rfl⟩ := List.mem_map.mp (List.of_mem_zip hmem).1
    have := le_place_of_mem_placedFrom _ _ hpos
    rw [bne_iff_ne]
    omega
  simp [writeInOrder, writeIndices, placedFrom_cons, hn, hl]

/-- A positional argument takes the first index. -/
theorem writeInOrder_cons_positional {draft : Draft} (h : draft.isPositional = true) (first : Nat)
    (index : Option Nat) (indices : List (Option Nat)) (drafts : List Draft) :
    writeInOrder first (index :: indices) (draft :: drafts) =
      draft.withIndex index :: writeInOrder (first + 1) indices drafts := by
  obtain ⟨number, hn⟩ := Option.isSome_iff_exists.mp h
  rw [writeInOrder, writeInOrder, ← writeIndices_cons_of_lt (Nat.lt_succ_self first) index]
  simp [writeIndices, placedFrom_cons, hn]

/-- The positional arguments have got the given indices, one after another. -/
theorem filter_writeInOrder (first : Nat) (indices : List (Option Nat)) (drafts : List Draft)
    (h : indices.length = (drafts.filter (·.isPositional)).length) :
    (writeInOrder first indices drafts).filter (·.isPositional) =
      List.zipWith withIndex indices (drafts.filter (·.isPositional)) := by
  induction drafts generalizing first indices with
  | nil => simp [writeInOrder, writeIndices]
  | cons draft drafts ih =>
    cases hp : draft.isPositional with
    | false =>
      rw [writeInOrder_cons_option hp]
      simpa [hp] using ih (first + 1) indices (by simpa [hp] using h)
    | true =>
      obtain _ | ⟨index, indices⟩ := indices
      · simp [hp] at h
      rw [writeInOrder_cons_positional hp]
      have hi : (draft.withIndex index).isPositional = true := hp
      simpa [hp, hi] using ih (first + 1) indices (by simpa [hp] using h)

/-- Options are left alone. -/
theorem mem_of_mem_writeInOrder (first : Nat) (indices : List (Option Nat)) (drafts : List Draft)
    (h : indices.length = (drafts.filter (·.isPositional)).length) {draft : Draft}
    (hm : draft ∈ writeInOrder first indices drafts) (ho : draft.isPositional = false) :
    draft ∈ drafts := by
  induction drafts generalizing first indices with
  | nil => simp [writeInOrder, writeIndices] at hm
  | cons head drafts ih =>
    cases hp : head.isPositional with
    | false =>
      rw [writeInOrder_cons_option hp] at hm
      rcases List.mem_cons.mp hm with rfl | hm
      · exact List.mem_cons_self
      · exact List.mem_cons_of_mem _ (ih (first + 1) indices (by simpa [hp] using h) hm)
    | true =>
      obtain _ | ⟨index, indices⟩ := indices
      · simp [hp] at h
      rw [writeInOrder_cons_positional hp] at hm
      have hi : (head.withIndex index).isPositional = true := hp
      rcases List.mem_cons.mp hm with rfl | hm
      · rw [hi] at ho
        cases ho
      · exact List.mem_cons_of_mem _ (ih (first + 1) indices (by simpa [hp] using h) hm)

end Writing

section Claiming

variable {total : Nat} {earlier : List Draft} {draft : Draft}

/-- The declared indices of drafts with their lines, latest first. -/
def claimsOf (drafts : List Draft) : List (Nat × Nat) :=
  (drafts.filterMap fun draft =>
    draft.declared?.map fun index => (index.toNat, draft.argument.lineNumber)).reverse

/-- A further draft claims its index before all others. -/
theorem claimsOf_append_singleton (earlier : List Draft) (draft : Draft) :
    claimsOf (earlier ++ [draft]) =
      (draft.declared?.map fun index => (index.toNat, draft.argument.lineNumber)).toList ++
        claimsOf earlier := by
  cases h : draft.declared? <;> simp [claimsOf, h]

/-- One more draft keeps a list without fault exactly when its own index is admitted and new. -/
theorem faultless_append_singleton : Faultless total (earlier ++ [draft]) ↔
    Faultless total earlier ∧
      (draft.isPositional → draft.declaredIndex ≠ none →
        ∃ index : Int, draft.declared? = some index ∧ 0 ≤ index ∧ index < total) ∧
      ∀ index, draft.declared? = some index → index ∉ earlier.filterMap declared? := by
  constructor
  · rintro ⟨readable, distinct⟩
    rw [List.filterMap_append, List.nodup_append] at distinct
    refine ⟨⟨fun d hd => readable d (by simp [hd]), distinct.1⟩, readable draft (by simp), ?_⟩
    intro index hi hmem
    exact distinct.2.2 index hmem index (by simp [hi]) rfl
  · rintro ⟨⟨readable, distinct⟩, hr, hd⟩
    refine ⟨?_, ?_⟩
    · intro d hmem
      rcases List.mem_append.mp hmem with hmem | hmem
      · exact readable d hmem
      · rw [List.mem_singleton.mp hmem]
        exact hr
    · rw [List.filterMap_append, List.nodup_append]
      refine ⟨distinct, ?_, ?_⟩
      · cases h : draft.declared? <;> simp [h]
      · intro index hmem other ho he
        have : draft.declared? = some other := by simpa using ho
        exact hd other this (he ▸ hmem)

/-- What is declared without fault is in range. -/
theorem Faultless.range (h : Faultless total earlier) (hm : draft ∈ earlier) {index : Int}
    (hi : draft.declared? = some index) : 0 ≤ index ∧ index < total := by
  obtain ⟨hp, text, hd, _⟩ := declared?_eq_some_iff.mp hi
  obtain ⟨other, ho, hrange⟩ := h.readable draft hm hp (by simp [hd])
  rw [hi] at ho
  cases ho
  exact hrange

/-- A claim on an index is that of an earlier draft. -/
theorem Faultless.lookup_eq_some (h : Faultless total earlier) {index : Int} {line : Nat}
    (h0 : 0 ≤ index) (hl : (claimsOf earlier).lookup index.toNat = some line) :
    ∃ other ∈ earlier, other.declared? = some index ∧ other.argument.lineNumber = line := by
  obtain ⟨before, after, he, _⟩ := List.lookup_eq_some_iff.mp hl
  have hm : (index.toNat, line) ∈ claimsOf earlier := by simp [he]
  rw [claimsOf, List.mem_reverse, List.mem_filterMap] at hm
  obtain ⟨other, hother, hmap⟩ := hm
  obtain ⟨found, hf, hpair⟩ := Option.map_eq_some_iff.mp hmap
  obtain ⟨hn, rfl⟩ := Prod.mk.inj hpair
  have hnonneg := (h.range hother hf).1
  have heq : found = index := by omega
  exact ⟨other, hother, heq ▸ hf, rfl⟩

/-- An index without a claim is declared by no earlier draft. -/
theorem not_mem_of_lookup_eq_none {index : Int}
    (hl : (claimsOf earlier).lookup index.toNat = none) :
    index ∉ earlier.filterMap declared? := by
  intro hm
  obtain ⟨other, hother, ho⟩ := List.mem_filterMap.mp hm
  have hmem : (index.toNat, other.argument.lineNumber) ∈ claimsOf earlier := by
    rw [claimsOf, List.mem_reverse, List.mem_filterMap]
    exact ⟨other, hother, by simp [ho]⟩
  have := List.lookup_eq_none_iff.mp hl _ hmem
  simp at this

/-- A list of drafts without fault begins with lists without fault. -/
theorem Faultless.of_append {drafts : List Draft} (h : Faultless total (earlier ++ drafts)) :
    Faultless total earlier := by
  refine ⟨fun d hd => h.readable d (List.mem_append_left _ hd), ?_⟩
  have := h.distinct
  rw [List.filterMap_append, List.nodup_append] at this
  exact this.1

/-- A draft at fault is not part of a list without fault. -/
theorem Offence.not_faultless {diagnostic : Diagnostic} (h : Offence total earlier draft diagnostic)
    (later : List Draft) : ¬Faultless total (earlier ++ draft :: later) := by
  intro hall
  rw [List.append_cons] at hall
  have hhere := hall.of_append
  obtain ⟨_, readable, distinct⟩ := faultless_append_singleton.mp hhere
  cases h with
  | unreadable hp hd hn =>
    obtain ⟨index, hi, _⟩ := readable hp (by simp [hd])
    simp [declared?, hp, hd, hn] at hi
  | outOfRange hi hr => exact hr (hhere.range (by simp) hi)
  | repeated hm ho hi =>
    exact distinct _ hi (List.mem_filterMap.mpr ⟨_, hm, ho⟩)

/-- What collecting the declared indices of the drafts behind `earlier` may come to: all claims, if
no draft is at fault, or the diagnostic of the first one that is. -/
def Claimed (total : Nat) (earlier drafts : List Draft) :
    Except Diagnostic (List (Nat × Nat)) → Prop
  | .ok claims => Faultless total (earlier ++ drafts) ∧ claims = claimsOf (earlier ++ drafts)
  | .error diagnostic => ∃ before draft after, drafts = before ++ draft :: after ∧
      Faultless total (earlier ++ before) ∧ Offence total (earlier ++ before) draft diagnostic

/-- The first draft may as well count as an earlier one. -/
theorem Claimed.cons {drafts : List Draft} {result : Except Diagnostic (List (Nat × Nat))}
    (h : Claimed total (earlier ++ [draft]) drafts result) :
    Claimed total earlier (draft :: drafts) result := by
  cases result with
  | ok claims => simpa [Claimed] using h
  | error diagnostic =>
    obtain ⟨before, other, after, rfl, hf, ho⟩ := h
    exact ⟨draft :: before, other, after, rfl, by simpa using hf, by simpa using ho⟩

/-- A first draft at fault is the first one at fault. -/
theorem Claimed.here {drafts : List Draft} {diagnostic : Diagnostic} (h : Faultless total earlier)
    (ho : Offence total earlier draft diagnostic) :
    Claimed total earlier (draft :: drafts) (.error diagnostic) :=
  ⟨[], draft, drafts, rfl, by simpa using h, by simpa using ho⟩

/-- Collecting the declared indices reports the first fault in document order. -/
theorem claimIndices_claimed (h : Faultless total earlier) (drafts : List Draft) :
    Claimed total earlier drafts
      (claimIndices total (claimsOf earlier) (drafts.filter (·.isPositional))) := by
  induction drafts generalizing earlier with
  | nil => exact ⟨by simpa using h, by simp⟩
  | cons draft drafts ih =>
    -- A draft that declares no index adds no claim and cannot be at fault.
    have hskip : draft.declared? = none → (draft.isPositional → draft.declaredIndex = none) →
        Claimed total earlier (draft :: drafts)
          (claimIndices total (claimsOf earlier) (drafts.filter (·.isPositional))) := by
      intro hnone hindex
      have hf : Faultless total (earlier ++ [draft]) := by
        rw [faultless_append_singleton]
        exact ⟨h, fun hp hd => absurd (hindex hp) hd, fun index hi => by simp [hnone] at hi⟩
      have := (ih hf).cons
      rwa [claimsOf_append_singleton, hnone] at this
    cases hp : draft.isPositional with
    | false =>
      rw [List.filter_cons_of_neg (by simp [hp])]
      exact hskip (by simp [declared?, hp]) (by simp [hp])
    | true =>
      rw [List.filter_cons_of_pos hp, claimIndices]
      cases hd : draft.declaredIndex with
      | none => exact hskip (by simp [declared?, hd]) fun _ => hd
      | some text =>
        dsimp only
        unfold readIndex
        cases hi : integer64? (trim text.toList) with
        | none => exact .here h (.unreadable hp hd hi)
        | some index =>
          have hdecl : draft.declared? = some index := by simp [declared?, hp, hd, hi]
          by_cases hr : 0 ≤ index ∧ index < total
          · dsimp only
            rw [if_pos hr]
            dsimp only
            cases hl : (claimsOf earlier).lookup index.toNat with
            | some line =>
              obtain ⟨other, hm, ho, rfl⟩ := h.lookup_eq_some hr.1 hl
              exact .here h (.repeated hm ho hdecl)
            | none =>
              have hf : Faultless total (earlier ++ [draft]) := by
                rw [faultless_append_singleton]
                refine ⟨h, fun _ _ => ⟨index, hdecl, hr⟩, ?_⟩
                intro found hfound
                rw [hdecl] at hfound
                cases hfound
                exact not_mem_of_lookup_eq_none hl
              have := (ih hf).cons
              rwa [claimsOf_append_singleton, hdecl] at this
          · dsimp only
            rw [if_neg hr]
            exact .here h (.outOfRange hdecl hr)

end Claiming

section Assigning

variable {total : Nat} {free : List Nat} {drafts : List Draft}

/-- Every argument is assigned an index or none. -/
theorem length_assignIndices (total : Nat) (free : List Nat) (drafts : List Draft) :
    (assignIndices total free drafts).length = drafts.length := by
  induction drafts generalizing free with
  | nil => rfl
  | cons draft drafts ih => cases h : draft.declaredIndex <;> simp [assignIndices, h, ih]

/-- Positional arguments with the indices that they are assigned. -/
def assigned (total : Nat) (free : List Nat) (drafts : List Draft) : List Draft :=
  List.zipWith withIndex (assignIndices total free drafts) drafts

/-- The free indices go to the arguments that declare none, in order. -/
theorem map_index_automatic (total : Nat)
    (h : free.length = (drafts.filter (·.declaredIndex.isNone)).length) :
    ((assigned total free drafts).filter (·.declaredIndex.isNone)).map (·.argument.index) =
      free.map some := by
  induction drafts generalizing free with
  | nil => simpa [assigned] using List.length_eq_zero_iff.mp h
  | cons draft drafts ih =>
    cases hd : draft.declaredIndex with
    | some text =>
      have := @ih free (by simpa [hd] using h)
      simpa [assigned, assignIndices, hd, withIndex] using this
    | none =>
      obtain _ | ⟨index, free⟩ := free
      · simp [hd] at h
      have := @ih free (by simpa [hd] using h)
      simpa [assigned, assignIndices, hd, withIndex] using this

/-- Every argument that declares an index can have it. -/
def Readable (total : Nat) (drafts : List Draft) : Prop :=
  ∀ draft ∈ drafts, ∀ text, draft.declaredIndex = some text →
    ∃ index : Nat, draft.declared? = some (index : Int) ∧ readIndex total text = .ok index

/-- Positional arguments without fault can have what they declare. -/
theorem Faultless.readable_filter (h : Faultless total drafts) :
    Readable total (drafts.filter (·.isPositional)) := by
  intro draft hm text ht
  obtain ⟨hm, hp⟩ := List.mem_filter.mp hm
  obtain ⟨index, hi, h0, hlt⟩ := h.readable draft hm hp (by simp [ht])
  obtain ⟨place, rfl⟩ := Int.eq_ofNat_of_zero_le h0
  refine ⟨place, hi, ?_⟩
  have hread : integer64? (trim text.toList) = some (place : Int) := by
    simpa [declared?, hp, ht] using hi
  simp [readIndex, hread, hlt]

/-- Declared indices are kept. -/
theorem index_of_declared (h : Readable total drafts) :
    ∀ draft ∈ assigned total free drafts, ∀ index, draft.declared? = some index →
      ∃ place : Nat, draft.argument.index = some place ∧ index = place := by
  induction drafts generalizing free with
  | nil => simp [assigned]
  | cons draft drafts ih =>
    have hrest : Readable total drafts := fun d hm => h d (List.mem_cons_of_mem _ hm)
    intro other hm index hi
    cases hd : draft.declaredIndex with
    | none =>
      simp only [assigned, assignIndices, hd, List.zipWith_cons_cons] at hm
      rcases List.mem_cons.mp hm with rfl | hm
      · simp [declared?, withIndex, hd] at hi
      · exact ih hrest other hm index hi
    | some text =>
      simp only [assigned, assignIndices, hd, List.zipWith_cons_cons] at hm
      rcases List.mem_cons.mp hm with rfl | hm
      · obtain ⟨place, hp, hread⟩ := h draft List.mem_cons_self text hd
        have : index = place := by
          change draft.declared? = some index at hi
          rw [hp] at hi
          exact (Option.some.inj hi).symm
        exact ⟨place, by simp [withIndex, hread, Except.toOption], this⟩
      · exact ih hrest other hm index hi

/-- The indices of the arguments that declare one are the declared ones. -/
theorem map_index_declared (h : Readable total drafts) :
    ((assigned total free drafts).filter (!·.declaredIndex.isNone)).map (·.argument.index) =
      ((drafts.filterMap declared?).map (·.toNat)).map some := by
  induction drafts generalizing free with
  | nil => simp [assigned]
  | cons draft drafts ih =>
    have hrest : Readable total drafts := fun d hm => h d (List.mem_cons_of_mem _ hm)
    cases hd : draft.declaredIndex with
    | none =>
      have hn : draft.declared? = none := by simp [declared?, hd]
      have := @ih free.tail hrest
      simpa [assigned, assignIndices, hd, withIndex, hn] using this
    | some text =>
      obtain ⟨place, hp, hread⟩ := h draft List.mem_cons_self text hd
      have := @ih free hrest
      simpa [assigned, assignIndices, hd, withIndex, hp, hread, Except.toOption] using this

/-- There are as many declared indices as arguments that declare one. -/
theorem length_filter_declared (h : Readable total drafts) :
    (drafts.filter (!·.declaredIndex.isNone)).length = (drafts.filterMap declared?).length := by
  induction drafts with
  | nil => rfl
  | cons draft drafts ih =>
    have := ih fun d hm => h d (List.mem_cons_of_mem _ hm)
    cases hd : draft.declaredIndex with
    | none => simpa [declared?, hd] using this
    | some text =>
      obtain ⟨place, hp, _⟩ := h draft List.mem_cons_self text hd
      simpa [hd, hp] using this

end Assigning

section Counting

variable {total : Nat} {drafts : List Draft}

/-- Options declare no index. -/
theorem filterMap_declared_filter (drafts : List Draft) :
    (drafts.filter (·.isPositional)).filterMap declared? = drafts.filterMap declared? := by
  induction drafts with
  | nil => rfl
  | cons draft drafts ih =>
    cases hp : draft.isPositional with
    | false =>
      have : draft.declared? = none := by simp [declared?, hp]
      simpa [hp, this] using ih
    | true => simp [hp, List.filterMap_cons, ih]

/-- The free indices are those that no positional argument declares. -/
theorem freeIndices_claimsOf (h : Faultless total drafts) :
    freeIndices total (claimsOf drafts) = (List.range total).filter fun place : Nat =>
      !(drafts.filterMap declared?).contains (place : Int) := by
  have hmem : ∀ place : Nat, place ∈ (claimsOf drafts).map (·.1) ↔
      (place : Int) ∈ drafts.filterMap declared? := by
    intro place
    simp only [claimsOf, List.mem_map, List.mem_reverse, List.mem_filterMap,
      Option.map_eq_some_iff]
    constructor
    · rintro ⟨_, ⟨draft, hm, index, hi, rfl⟩, rfl⟩
      have hnonneg := (h.range hm hi).1
      refine ⟨draft, hm, ?_⟩
      rw [hi, Int.toNat_of_nonneg hnonneg]
    · rintro ⟨draft, hm, hi⟩
      exact ⟨_, ⟨draft, hm, _, hi, rfl⟩, by simp⟩
  apply List.filter_congr
  intro place _
  simp only [List.contains_eq_mem, hmem]

/-- The declared indices are the numbers below the total that are declared, each once. -/
theorem declared_perm (h : Faultless total drafts) :
    ((drafts.filterMap declared?).map (·.toNat)).Perm ((List.range total).filter fun place : Nat =>
      (drafts.filterMap declared?).contains (place : Int)) := by
  have hbound : ∀ index ∈ drafts.filterMap declared?, 0 ≤ index ∧ index < total := by
    intro index hm
    obtain ⟨draft, hd, hi⟩ := List.mem_filterMap.mp hm
    exact h.range hd hi
  rw [List.perm_ext_iff_of_nodup]
  · intro place
    simp only [List.mem_map, List.mem_filter, List.mem_range, List.contains_eq_mem,
      decide_eq_true_eq]
    constructor
    · rintro ⟨index, hm, rfl⟩
      obtain ⟨h0, hlt⟩ := hbound index hm
      exact ⟨by omega, by rwa [Int.toNat_of_nonneg h0]⟩
    · rintro ⟨_, hm⟩
      exact ⟨_, hm, by simp⟩
  · refine (List.nodup_map_iff_inj_on h.distinct).mpr ?_
    intro a ha b hb hab
    have := (hbound a ha).1
    have := (hbound b hb).1
    omega
  · exact List.nodup_range.filter _

/-- As many indices are free as positional arguments declare none. -/
theorem length_freeIndices (h : Faultless (positionalCount drafts) drafts) :
    (freeIndices (positionalCount drafts) (claimsOf drafts)).length =
      ((drafts.filter (·.isPositional)).filter (·.declaredIndex.isNone)).length := by
  have hcount : positionalCount drafts = (drafts.filter (·.isPositional)).length :=
    List.countP_eq_length_filter
  have hsplit := (List.filter_append_perm (·.declaredIndex.isNone)
    (drafts.filter (·.isPositional))).length_eq
  have hdeclared := length_filter_declared h.readable_filter
  rw [filterMap_declared_filter] at hdeclared
  have hrange := (List.filter_append_perm (fun place : Nat =>
    (drafts.filterMap declared?).contains (place : Int))
      (List.range (positionalCount drafts))).length_eq
  have hused := (declared_perm h).length_eq
  rw [freeIndices_claimsOf h]
  simp only [List.length_append, List.length_range, List.length_map] at *
  omega

end Counting

/-- Drafts whose declared indices are without fault get their indices. -/
theorem Faultless.resolved {drafts : List Draft} (h : Faultless (positionalCount drafts) drafts)
    (hu : ∀ draft ∈ drafts, draft.argument.index = none) :
    Resolved drafts (writeInOrder 0 (assignIndices (positionalCount drafts)
      (freeIndices (positionalCount drafts) (claimsOf drafts))
      (drafts.filter (·.isPositional))) drafts) := by
  have hlength := length_assignIndices (positionalCount drafts)
    (freeIndices (positionalCount drafts) (claimsOf drafts)) (drafts.filter (·.isPositional))
  have hfilter := filter_writeInOrder 0 _ drafts hlength
  have hautomatic := map_index_automatic (positionalCount drafts) (length_freeIndices h)
  refine ⟨?_, ?_, ?_, ?_, ?_⟩
  · exact map_writeIndices (withIndex none) (fun _ _ => rfl) _ _ _
  · rw [hfilter]
    have hparts := (List.filter_append_perm (·.declaredIndex.isNone)
      (assigned (positionalCount drafts) (freeIndices (positionalCount drafts) (claimsOf drafts))
        (drafts.filter (·.isPositional)))).map (·.argument.index)
    rw [List.map_append, hautomatic, map_index_declared h.readable_filter,
      filterMap_declared_filter, ← List.map_append] at hparts
    refine hparts.symm.trans (List.Perm.map some ?_)
    rw [freeIndices_claimsOf h]
    refine ((declared_perm h).append_left _).trans ?_
    exact List.perm_append_comm.trans (List.filter_append_perm _ _)
  · intro draft hm index hi
    have hp := (declared?_eq_some_iff.mp hi).1
    have hassigned : draft ∈ assigned _ _ (drafts.filter (·.isPositional)) :=
      hfilter ▸ List.mem_filter.mpr ⟨hm, hp⟩
    exact index_of_declared h.readable_filter draft hassigned index hi
  · have hand : ∀ draft : Draft, (draft.isPositional && draft.declaredIndex.isNone) =
        (draft.declaredIndex.isNone && draft.isPositional) := fun draft => Bool.and_comm _ _
    simp only [hand]
    rw [← List.filter_filter, hfilter, ← freeIndices_claimsOf h]
    exact hautomatic
  · intro draft hm ho
    exact hu draft (mem_of_mem_writeInOrder 0 _ drafts hlength hm ho)

/-- In document order the queue may be left out: the drafts are gone through as they stand. -/
theorem resolveIndices_eq {drafts : List Draft}
    (h : (drafts.filterMap (·.number)).Pairwise (· < ·)) :
    resolveIndices drafts =
      match claimIndices (positionalCount drafts) [] (drafts.filter (·.isPositional)) with
      | .error diagnostic => .error diagnostic
      | .ok claims => .ok (writeInOrder 0 (assignIndices (positionalCount drafts)
          (freeIndices (positionalCount drafts) claims) (drafts.filter (·.isPositional))) drafts) := by
  have hcount : (placedFrom 0 drafts).length = positionalCount drafts := by
    rw [positionalCount, List.countP_eq_length_filter, ← map_draft_placedFrom 0, List.length_map]
  rw [resolveIndices, positionals_eq_placedFrom h]
  simp only [map_draft_placedFrom, hcount]
  rfl

/-- For drafts in document order either no declared index is at fault and all indices are resolved,
or the first fault is reported. -/
theorem resolveIndices_cases {drafts : List Draft} (h : InDocumentOrder drafts) :
    (∃ result, resolveIndices drafts = .ok result ∧ Faultless (positionalCount drafts) drafts ∧
        Resolved drafts result) ∨
      ∃ diagnostic, resolveIndices drafts = .error diagnostic ∧
        FirstOffence (positionalCount drafts) drafts diagnostic := by
  have hnil : Faultless (positionalCount drafts) [] := ⟨by simp, by simp⟩
  have hclaimed := claimIndices_claimed hnil drafts
  rw [resolveIndices_eq h.numbered]
  change Claimed _ [] drafts (claimIndices _ [] _) at hclaimed
  cases hc : claimIndices (positionalCount drafts) [] (drafts.filter (·.isPositional)) with
  | ok claims =>
    rw [hc] at hclaimed
    obtain ⟨hf, rfl⟩ := hclaimed
    exact .inl ⟨_, rfl, hf, hf.resolved h.unplaced⟩
  | error diagnostic =>
    rw [hc] at hclaimed
    exact .inr ⟨diagnostic, rfl, hclaimed⟩

/-- Indices that are found for drafts in document order are those below the number of positional
arguments. -/
theorem resolveIndices_ok {drafts result : List Draft} (h : InDocumentOrder drafts)
    (hr : resolveIndices drafts = .ok result) : Resolved drafts result := by
  rcases resolveIndices_cases h with ⟨found, hfound, -, hresolved⟩ | ⟨diagnostic, hfault, -⟩
  · cases hfound.symm.trans hr
    exact hresolved
  · cases hfault.symm.trans hr

/-- Where indices are not found for drafts in document order, the first fault is reported. -/
theorem resolveIndices_error {drafts : List Draft} {diagnostic : Diagnostic}
    (h : InDocumentOrder drafts) (hr : resolveIndices drafts = .error diagnostic) :
    FirstOffence (positionalCount drafts) drafts diagnostic := by
  rcases resolveIndices_cases h with ⟨found, hfound, -⟩ | ⟨other, hfault, hfirst⟩
  · cases hfound.symm.trans hr
  · cases hfault.symm.trans hr
    exact hfirst

/-- Whatever the counters were, the drafts of a document are in document order; and for drafts in
document order, indices are found exactly when no declared index is at fault. They are then the
numbers below the count of positional arguments, each once; otherwise the first fault is
reported. -/
theorem resolveIndices_bijective :
    (∀ marks dialect counters after ordinal blocks drafts,
      ofBlocks marks dialect counters ordinal blocks = (.ok drafts, after) →
        InDocumentOrder (uniqueNames drafts)) ∧
    ∀ drafts, InDocumentOrder drafts →
      ((∃ result, resolveIndices drafts = .ok result) ↔
        Faultless (positionalCount drafts) drafts) ∧
      (∀ result, resolveIndices drafts = .ok result → Resolved drafts result) ∧
      ∀ diagnostic, resolveIndices drafts = .error diagnostic →
        FirstOffence (positionalCount drafts) drafts diagnostic := by
  refine ⟨fun _ _ _ _ _ _ _ h => (ofBlocks_ok h).uniqueNames.inDocumentOrder, ?_⟩
  intro drafts h
  refine ⟨?_, fun _ hr => resolveIndices_ok h hr, fun _ hr => resolveIndices_error h hr⟩
  rcases resolveIndices_cases h with ⟨result, hresult, hfaultless, -⟩ | ⟨diagnostic, hfault, hfirst⟩
  · exact ⟨fun _ => hfaultless, fun _ => ⟨result, hresult⟩⟩
  · obtain ⟨before, draft, after, rfl, -, hoffence⟩ := hfirst
    constructor
    · rintro ⟨result, hresult⟩
      cases hfault.symm.trans hresult
    · intro hall
      exact absurd hall (hoffence.not_faultless after)

/-- Tokens of one character each. -/
def shortMarks : Marks :=
  ⟨⟨['<'], List.cons_ne_nil _ _⟩, ⟨['>'], List.cons_ne_nil _ _⟩, ⟨['|'], List.cons_ne_nil _ _⟩⟩

/-- Three positional arguments and an option, read in a session that has counted before; the second
positional argument declares the first index. -/
def interleaved : List Draft :=
  (ofBlocks shortMarks .classic ⟨7, 3⟩ 0 [⟨1, "A".toList⟩, ⟨2, "-v".toList⟩,
    ⟨3, "B | Index: 0".toList⟩, ⟨4, "C".toList⟩]).1.toOption.getD []

/-- The declared first index is kept, the other two arguments take the free ones in order, and the
option has none; numbers counted before play no part. -/
theorem resolveIndices_bijective_interleaved :
    ofBlocks shortMarks .classic ⟨7, 3⟩ 0 [⟨1, "A".toList⟩, ⟨2, "-v".toList⟩,
        ⟨3, "B | Index: 0".toList⟩, ⟨4, "C".toList⟩] = (.ok interleaved, ⟨10, 4⟩) ∧
      InDocumentOrder (uniqueNames interleaved) ∧
      ∃ result, resolveIndices (uniqueNames interleaved) = .ok result ∧
        result.map (·.argument.index) = [some 1, none, some 0, some 2] ∧
        Resolved (uniqueNames interleaved) result := by
  have hread : ofBlocks shortMarks .classic ⟨7, 3⟩ 0 [⟨1, "A".toList⟩, ⟨2, "-v".toList⟩,
      ⟨3, "B | Index: 0".toList⟩, ⟨4, "C".toList⟩] = (.ok interleaved, ⟨10, 4⟩) := by
    decide +kernel
  have horder := resolveIndices_bijective.1 _ _ _ _ _ _ _ hread
  have hindices : (resolveIndices (uniqueNames interleaved)).map
      (·.map (·.argument.index)) = .ok [some 1, none, some 0, some 2] := by
    decide +kernel
  refine ⟨hread, horder, ?_⟩
  cases hr : resolveIndices (uniqueNames interleaved) with
  | error diagnostic =>
    rw [hr] at hindices
    cases hindices
  | ok result =>
    rw [hr] at hindices
    exact ⟨result, rfl, Except.ok.inj hindices,
      (resolveIndices_bijective.2 _ horder).2.1 result hr⟩

end AnnotatedHelp.Draft
