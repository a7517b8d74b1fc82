import Mathlib
import AnnotatedHelp.Deduction.Members
import AnnotatedHelp.Proofs.Outcome

/-!
# Groups as a partition of the arguments

Drafts are put one by one into the group of their member name. However the names alternate, each
group then holds exactly the arguments of its name, in document order, and no two groups have one
name; so the groups together are a rearrangement of all arguments. The invariant speaks of names and
arguments only, so that it holds of the members made from the groups as well.
-/

namespace AnnotatedHelp

open Outcome

/-- Shares of a list of arguments: every share holds the arguments of one member name. -/
structure Partition (arguments : List Argument) (shares : List (String × List Argument)) : Prop where
  /-- No two shares have one name. -/
  distinct : (shares.map (·.1)).Nodup
  /-- A share holds all arguments of its name, in order. -/
  owned : ∀ share ∈ shares, share.2 = arguments.filter (·.memberName == share.1)
  /-- No share is empty. -/
  inhabited : ∀ share ∈ shares, share.2 ≠ []
  /-- Every argument has a share. -/
  covered : ∀ argument ∈ arguments, argument.memberName ∈ shares.map (·.1)
  /-- A share holds options only or positional arguments only. -/
  uniform : ∀ share ∈ shares, ∀ a ∈ share.2, ∀ b ∈ share.2, a.isOption = b.isOption

namespace Partition

variable {arguments : List Argument} {shares : List (String × List Argument)}

/-- The order of the shares does not matter. -/
theorem perm (h : Partition arguments shares) {others : List (String × List Argument)}
    (hp : shares.Perm others) : Partition arguments others := by
  refine ⟨(hp.map _).nodup_iff.mp h.distinct, ?_, ?_, ?_, ?_⟩
  · exact fun share hm => h.owned share (hp.mem_iff.mpr hm)
  · exact fun share hm => h.inhabited share (hp.mem_iff.mpr hm)
  · exact fun argument hm => (hp.map _).mem_iff.mp (h.covered argument hm)
  · exact fun share hm => h.uniform share (hp.mem_iff.mpr hm)

/-- Arguments cut by distinct names that cover them are rearranged, none lost and none doubled. -/
theorem flatMap_filter_perm {names : List String} (hn : names.Nodup)
    (hc : ∀ argument ∈ arguments, argument.memberName ∈ names) :
    (names.flatMap fun name => arguments.filter (·.memberName == name)).Perm arguments := by
  induction arguments with
  | nil => simp
  | cons argument arguments ih =>
    have ih := ih fun other hm => hc other (List.mem_cons_of_mem _ hm)
    obtain ⟨before, after, rfl⟩ := List.append_of_mem (hc argument List.mem_cons_self)
    have hsplit := List.nodup_append.mp hn
    have hskip : ∀ names : List String, argument.memberName ∉ names →
        (names.flatMap fun name => (argument :: arguments).filter (·.memberName == name)) =
          names.flatMap fun name => arguments.filter (·.memberName == name) := by
      intro names hnot
      apply List.flatMap_congr
      intro name hm
      rw [List.filter_cons_of_neg]
      rw [beq_iff_eq]
      rintro rfl
      exact hnot hm
    have hbefore : argument.memberName ∉ before := fun hm =>
      hsplit.2.2 _ hm _ List.mem_cons_self rfl
    have hafter : argument.memberName ∉ after := (List.nodup_cons.mp hsplit.2.1).1
    rw [List.flatMap_append, List.flatMap_cons] at ih ⊢
    rw [hskip before hbefore, hskip after hafter, List.filter_cons_of_pos (by simp),
      List.cons_append]
    exact List.perm_middle.trans (ih.cons argument)

/-- The shares together are a rearrangement of the arguments. -/
theorem flatMap_perm (h : Partition arguments shares) :
    (shares.flatMap (·.2)).Perm arguments := by
  have hcut : shares.flatMap (·.2) =
      (shares.map (·.1)).flatMap fun name => arguments.filter (·.memberName == name) := by
    rw [List.flatMap_map]
    exact List.flatMap_congr h.owned
  rw [hcut]
  exact flatMap_filter_perm h.distinct h.covered

/-- An argument of another name leaves a share as it is. -/
theorem owned_append_of_ne {share : String × List Argument} {argument : Argument}
    (ho : share.2 = arguments.filter (·.memberName == share.1)) (hn : share.1 ≠ argument.memberName) :
    share.2 = (arguments ++ [argument]).filter (·.memberName == share.1) := by
  rw [List.filter_append, ← ho, List.filter_cons_of_neg (by simpa using hn.symm)]
  simp

/-- A further argument joins the share of its name. -/
theorem join {before after : List (String × List Argument)} {own : List Argument}
    {argument : Argument}
    (h : Partition arguments (before ++ (argument.memberName, own) :: after))
    (hu : ∀ a ∈ own, a.isOption = argument.isOption) :
    Partition (arguments ++ [argument])
      (before ++ (argument.memberName, own ++ [argument]) :: after) := by
  have hnames : (before ++ (argument.memberName, own ++ [argument]) :: after).map (·.1) =
      (before ++ (argument.memberName, own) :: after).map (·.1) := by simp
  have hdistinct := h.distinct
  rw [List.map_append, List.map_cons, List.nodup_append, List.nodup_cons] at hdistinct
  obtain ⟨_, ⟨hafter, _⟩, hbefore⟩ := hdistinct
  -- Every other share keeps its name apart from that of the argument.
  have hother : ∀ share ∈ before ++ after, share.1 ≠ argument.memberName := by
    intro share hm he
    rcases List.mem_append.mp hm with hm | hm
    · exact hbefore _ (List.mem_map_of_mem hm) _ List.mem_cons_self he
    · exact hafter (List.mem_map.mpr ⟨share, hm, he⟩)
  have hcases : ∀ share ∈ before ++ (argument.memberName, own ++ [argument]) :: after,
      share = (argument.memberName, own ++ [argument]) ∨ share ∈ before ++ after := by
    intro share hm
    simp only [List.mem_append, List.mem_cons] at hm ⊢
    tauto
  have hold : ∀ share ∈ before ++ after,
      share ∈ before ++ (argument.memberName, own) :: after := by
    intro share hm
    simp only [List.mem_append, List.mem_cons] at hm ⊢
    tauto
  refine ⟨hnames ▸ h.distinct, ?_, ?_, ?_, ?_⟩
  · intro share hm
    rcases hcases share hm with rfl | hm
    · have : own = _ := h.owned (argument.memberName, own) (by simp)
      simp [List.filter_append, this]
    · exact owned_append_of_ne (h.owned share (hold share hm)) (hother share hm)
  · intro share hm
    rcases hcases share hm with rfl | hm
    · simp
    · exact h.inhabited share (hold share hm)
  · intro other hm
    rw [hnames]
    rcases List.mem_append.mp hm with hm | hm
    · exact h.covered other hm
    · simp [List.mem_singleton.mp hm]
  · intro share hm
    rcases hcases share hm with rfl | hm
    · intro a ha b hb
      have hall : ∀ c ∈ own ++ [argument], c.isOption = argument.isOption := by
        intro c hc
        rcases List.mem_append.mp hc with hc | hc
        · exact hu c hc
        · rw [List.mem_singleton.mp hc]
      rw [hall a ha, hall b hb]
    · exact h.uniform share (hold share hm)

/-- An argument of a new name begins a share behind the others. -/
theorem begin_share (h : Partition arguments shares) {argument : Argument}
    (hn : argument.memberName ∉ shares.map (·.1)) :
    Partition (arguments ++ [argument]) (shares ++ [(argument.memberName, [argument])]) := by
  have hother : ∀ share ∈ shares, share.1 ≠ argument.memberName := by
    intro share hm he
    exact hn (he ▸ List.mem_map_of_mem hm)
  refine ⟨?_, ?_, ?_, ?_, ?_⟩
  · rw [List.map_append, List.nodup_append]
    refine ⟨h.distinct, by simp, ?_⟩
    intro name hm other ho he
    obtain rfl : other = argument.memberName := by simpa using ho
    exact hn (he ▸ hm)
  · intro share hm
    rcases List.mem_append.mp hm with hm | hm
    · exact owned_append_of_ne (h.owned share hm) (hother share hm)
    · obtain rfl := List.mem_singleton.mp hm
      have : arguments.filter (·.memberName == argument.memberName) = [] := by
        rw [List.filter_eq_nil_iff]
        intro other ho he
        exact hn (beq_iff_eq.mp he ▸ h.covered other ho)
      simp [List.filter_append, this]
  · intro share hm
    rcases List.mem_append.mp hm with hm | hm
    · exact h.inhabited share hm
    · simp [List.mem_singleton.mp hm]
  · intro other hm
    rcases List.mem_append.mp hm with hm | hm
    · simp [h.covered other hm]
    · simp [List.mem_singleton.mp hm]
  · intro share hm
    rcases List.mem_append.mp hm with hm | hm
    · exact h.uniform share hm
    · obtain rfl := List.mem_singleton.mp hm
      intro a ha b hb
      rw [List.mem_singleton.mp ha, List.mem_singleton.mp hb]

end Partition

namespace Group

/-- The name and the arguments of a group. -/
def share (group : Group) : String × List Argument :=
  (group.name, group.arguments)

/-- A draft that joins a group comes behind its arguments and is an option if they are. -/
theorem add_ok {group added : Group} {draft : Draft} (h : group.add draft = .ok added) :
    added.share = (group.name, group.arguments ++ [draft.argument]) ∧
      ∀ first, group.arguments.head? = some first → first.isOption = draft.argument.isOption := by
  unfold add at h
  dsimp only at h
  split at h
  · cases h
  · next hmix =>
    split at h
    · cases h
    · cases h
      refine ⟨rfl, ?_⟩
      intro first hf
      simpa [hf] using hmix

/-- A draft joins the one group of its name, or begins a group behind all others. -/
theorem insert_ok {draft : Draft} {groups next : List Group} (h : insert draft groups = .ok next) :
    (∃ before group added after, groups = before ++ group :: after ∧
      group.name = draft.argument.memberName ∧ group.add draft = .ok added ∧
        next = before ++ added :: after) ∨
    (draft.argument.memberName ∉ groups.map (·.name) ∧ next = groups ++ [ofDraft draft]) := by
  induction groups generalizing next with
  | nil =>
    cases h
    exact .inr ⟨by simp, rfl⟩
  | cons group groups ih =>
    rw [insert] at h
    split at h
    · next hname =>
      obtain ⟨added, ha, he⟩ := bind_ok_iff.mp h
      cases he
      exact .inl ⟨[], group, added, groups, rfl, hname, ha, rfl⟩
    · next hname =>
      obtain ⟨rest, hr, he⟩ := bind_ok_iff.mp h
      cases he
      rcases ih hr with ⟨before, other, added, after, rfl, hn, ha, rfl⟩ | ⟨hn, rfl⟩
      · exact .inl ⟨group :: before, other, added, after, rfl, hn, ha, rfl⟩
      · refine .inr ⟨?_, rfl⟩
        rw [List.map_cons, List.mem_cons, not_or]
        exact ⟨fun he => hname he.symm, hn⟩

/-- Grouping one more draft keeps the groups a partition. -/
theorem insert_partition {arguments : List Argument} {draft : Draft} {groups next : List Group}
    (hp : Partition arguments (groups.map share)) (h : insert draft groups = .ok next) :
    Partition (arguments ++ [draft.argument]) (next.map share) := by
  rcases insert_ok h with ⟨before, group, added, after, rfl, hn, ha, rfl⟩ | ⟨hn, rfl⟩
  · obtain ⟨hshare, huniform⟩ := add_ok ha
    rw [List.map_append, List.map_cons] at hp ⊢
    rw [hshare, hn]
    have hg : group.share = (draft.argument.memberName, group.arguments) := by rw [share, hn]
    rw [hg] at hp
    refine hp.join ?_
    intro a hm
    have hfirst : ∃ first, group.arguments.head? = some first :=
      ⟨_, List.head?_eq_some_head (List.ne_nil_of_mem hm)⟩
    obtain ⟨first, hf⟩ := hfirst
    rw [← huniform first hf]
    exact hp.uniform (draft.argument.memberName, group.arguments) (by simp) a hm first
      (List.mem_of_mem_head? hf)
  · rw [List.map_append]
    refine hp.begin_share ?_
    rwa [List.map_map]

/-- Grouping drafts behind others keeps the groups a partition. -/
theorem foldlM_insert_partition {arguments : List Argument} {groups next : List Group}
    (hp : Partition arguments (groups.map share)) {drafts : List Draft}
    (h : drafts.foldlM (fun groups draft => insert draft groups) groups = .ok next) :
    Partition (arguments ++ drafts.map (·.argument)) (next.map share) := by
  induction drafts generalizing arguments groups with
  | nil =>
    cases h
    simpa using hp
  | cons draft drafts ih =>
    rw [List.foldlM_cons] at h
    obtain ⟨middle, hm, hrest⟩ := bind_ok_iff.mp h
    have := ih (insert_partition hp hm) hrest
    simpa using this

/-- The groups of drafts are a partition of their arguments. -/
theorem ofDrafts_partition {drafts : List Draft} {groups : List Group}
    (h : ofDrafts drafts = .ok groups) :
    Partition (drafts.map (·.argument)) (groups.map share) := by
  have hnil : Partition [] (([] : List Group).map share) :=
    ⟨by simp, by simp, by simp, by simp, by simp⟩
  simpa using foldlM_insert_partition hnil h

end Group

end AnnotatedHelp
