import Mathlib

/-!
# Results of computations that can fail

What a successful result says about the steps it was computed from. The facts hold for every type
of failure, so that each reader of the library can be opened one step at a time.
-/

namespace AnnotatedHelp.Outcome

variable {ε δ α β : Type}

/-- Two steps succeed exactly when each succeeds in turn. -/
theorem bind_ok_iff {x : Except ε α} {f : α → Except ε β} {b : β} :
    (x >>= f) = .ok b ↔ ∃ a, x = .ok a ∧ f a = .ok b := by
  cases x <;> simp [bind, Except.bind]

/-- Two steps fail where the first one fails, or the second one behind it. -/
theorem bind_error_iff {x : Except ε α} {f : α → Except ε β} {e : ε} :
    (x >>= f) = .error e ↔ x = .error e ∨ ∃ a, x = .ok a ∧ f a = .error e := by
  cases x <;> simp [bind, Except.bind]

/-- Two runs that begin alike and go on alike from what the first step gives are alike. -/
theorem bind_congr_ok {x y : Except ε α} {f g : α → Except ε β} (h : y = x)
    (hf : ∀ a, x = .ok a → g a = f a) : (y >>= g) = (x >>= f) := by
  subst h
  cases y with
  | error e => rfl
  | ok a => exact hf a rfl

/-- Rewording a failure changes no success. -/
theorem mapError_ok_iff {x : Except ε α} {f : ε → δ} {a : α} :
    x.mapError f = .ok a ↔ x = .ok a := by
  cases x <;> simp [Except.mapError]

/-- A failure that is reworded is the failure of a step. -/
theorem mapError_error_iff {x : Except ε α} {f : ε → δ} {e : δ} :
    x.mapError f = .error e ↔ ∃ cause, x = .error cause ∧ e = f cause := by
  cases x <;> simp [Except.mapError, eq_comm]

/-- What is done to a result succeeds where the result does. -/
theorem map_ok_iff {x : Except ε α} {f : α → β} {b : β} :
    x.map f = .ok b ↔ ∃ a, x = .ok a ∧ f a = b := by
  cases x <;> simp [Except.map]

/-- What is done to a result fails where the result does. -/
theorem map_error_iff {x : Except ε α} {f : α → β} {e : ε} :
    x.map f = .error e ↔ x = .error e := by
  cases x <;> simp [Except.map]

/-- What is done to the result of two steps is done to the result of the second. -/
theorem map_of_bind {γ : Type} {x : Except ε α} {f : α → Except ε β} {g : β → γ} :
    (x >>= f).map g = x >>= fun a => (f a).map g := by
  cases x <;> rfl

/-- What is done to the result of a step may be left to the next one. -/
theorem bind_of_map {γ : Type} {x : Except ε α} {g : α → β} {f : β → Except ε γ} :
    x.map g >>= f = x >>= fun a => f (g a) := by
  cases x <;> rfl

/-- What is done to a result leaves the rewording of failures as it is. -/
theorem map_mapError {x : Except ε α} {f : ε → δ} {g : α → β} :
    (x.mapError f).map g = (x.map g).mapError f := by
  cases x <;> rfl

/-- A result is there exactly if the step succeeds. -/
theorem toOption_eq_some_iff {x : Except ε α} {a : α} : x.toOption = some a ↔ x = .ok a := by
  cases x <;> simp [Except.toOption]

/-- A result of which something is known is a success. -/
theorem exists_ok_of_toOption {x : Except ε α} {f : α → β} {b : β}
    (h : x.toOption.map f = some b) : ∃ a, x = .ok a ∧ f a = b := by
  cases x with
  | error e => cases h
  | ok a => exact ⟨a, rfl, Option.some.inj h⟩

/-- A result that passes a test is a success. -/
theorem exists_ok_of_any {x : Except ε α} {p : α → Bool} (h : x.toOption.any p = true) :
    ∃ a, x = .ok a ∧ p a = true := by
  cases x with
  | error e => cases h
  | ok a => exact ⟨a, rfl, h⟩

/-- A step taken on every entry of a list succeeds exactly when it succeeds on each entry, and gives
the results in the order of the entries. -/
theorem mapM_ok_iff {f : α → Except ε β} {xs : List α} {ys : List β} :
    xs.mapM f = .ok ys ↔ List.Forall₂ (fun x y => f x = .ok y) xs ys := by
  induction xs generalizing ys with
  | nil => simp [pure, Except.pure, eq_comm]
  | cons x xs ih =>
    rw [List.mapM_cons, bind_ok_iff]
    constructor
    · rintro ⟨y, hy, h⟩
      obtain ⟨zs, hz, he⟩ := bind_ok_iff.mp h
      cases he
      exact .cons hy (ih.mp hz)
    · intro h
      cases h with
      | cons hy hz =>
        refine ⟨_, hy, ?_⟩
        rw [ih.mpr hz]
        rfl

/-- A step taken on every entry of a list succeeds if it succeeds on each entry. -/
theorem mapM_exists_iff {f : α → Except ε β} {xs : List α} :
    (∃ ys, xs.mapM f = .ok ys) ↔ ∀ x ∈ xs, ∃ y, f x = .ok y := by
  simp only [mapM_ok_iff]
  induction xs with
  | nil => simp
  | cons x xs ih =>
    rw [List.forall_mem_cons, ← ih]
    constructor
    · rintro ⟨ys, h⟩
      cases h with
      | cons hy hys => exact ⟨⟨_, hy⟩, _, hys⟩
    · rintro ⟨⟨y, hy⟩, ys, hys⟩
      exact ⟨y :: ys, .cons hy hys⟩

/-- The results of a step taken on every entry are those of the single entries. -/
theorem mem_of_mapM_ok {f : α → Except ε β} {xs : List α} {ys : List β}
    (h : xs.mapM f = .ok ys) {y : β} : y ∈ ys ↔ ∃ x ∈ xs, f x = .ok y := by
  have hall := mapM_ok_iff.mp h
  clear h
  induction hall with
  | nil => simp
  | cons hz _ ih => simp [ih, hz, eq_comm]

/-- A step taken on the entries of a list fails where it fails on an entry for the first time. -/
theorem mapM_error_iff {f : α → Except ε β} {xs : List α} {e : ε} :
    xs.mapM f = .error e ↔ ∃ before x after, xs = before ++ x :: after ∧
      (∀ y ∈ before, ∃ b, f y = .ok b) ∧ f x = .error e := by
  induction xs with
  | nil =>
    refine iff_of_false nofun ?_
    rintro ⟨before, x, after, hsplit, -⟩
    exact List.append_ne_nil_of_right_ne_nil before (List.cons_ne_nil x after) hsplit.symm
  | cons first xs ih =>
    rw [List.mapM_cons]
    cases hfirst : f first with
    | error cause =>
      constructor
      · rintro ⟨⟩
        exact ⟨[], first, xs, rfl, nofun, hfirst⟩
      · rintro ⟨before, x, after, hsplit, hbefore, hx⟩
        cases before with
        | nil =>
          obtain ⟨rfl, rfl⟩ := List.cons.inj hsplit
          cases hfirst.symm.trans hx
          rfl
        | cons y before =>
          obtain ⟨rfl, -⟩ := List.cons.inj hsplit
          obtain ⟨b, hb⟩ := hbefore first List.mem_cons_self
          cases hfirst.symm.trans hb
    | ok b =>
      have hrest : (Except.ok b >>= fun b => xs.mapM f >>= fun bs => pure (b :: bs)) = .error e ↔
          xs.mapM f = .error e := by
        cases xs.mapM f <;> simp [bind, Except.bind, pure, Except.pure]
      rw [hrest, ih]
      constructor
      · rintro ⟨before, x, after, rfl, hbefore, hx⟩
        exact ⟨first :: before, x, after, rfl, List.forall_mem_cons.mpr ⟨⟨b, hfirst⟩, hbefore⟩, hx⟩
      · rintro ⟨before, x, after, hsplit, hbefore, hx⟩
        cases before with
        | nil =>
          obtain ⟨rfl, rfl⟩ := List.cons.inj hsplit
          cases hfirst.symm.trans hx
        | cons y before =>
          obtain ⟨rfl, rfl⟩ := List.cons.inj hsplit
          exact ⟨before, x, after, rfl, (List.forall_mem_cons.mp hbefore).2, hx⟩

/-- A step that fails on a list fails on one of its entries. -/
theorem exists_of_mapM_error {f : α → Except ε β} {xs : List α} {e : ε}
    (h : xs.mapM f = .error e) : ∃ x ∈ xs, f x = .error e := by
  obtain ⟨before, x, after, rfl, -, hx⟩ := mapM_error_iff.mp h
  exact ⟨x, List.mem_append_right before List.mem_cons_self, hx⟩

/-- A check of every entry of a list is passed exactly if every entry passes it. -/
theorem forM_ok_iff {f : α → Except ε Unit} {xs : List α} :
    xs.forM f = .ok () ↔ ∀ x ∈ xs, f x = .ok () := by
  induction xs with
  | nil => exact iff_of_true rfl nofun
  | cons x xs ih =>
    have hstep : (x :: xs).forM f = f x >>= fun _ => xs.forM f := rfl
    rw [hstep, bind_ok_iff, List.forall_mem_cons, ← ih]
    exact ⟨fun ⟨_, hx, hxs⟩ => ⟨hx, hxs⟩, fun ⟨hx, hxs⟩ => ⟨(), hx, hxs⟩⟩

/-- A step taken on a value that is there succeeds as it does on the value. -/
theorem mapM_some_ok_iff {f : α → Except ε β} {a : α} {y : Option β} :
    (some a).mapM f = .ok y ↔ ∃ b, f a = .ok b ∧ y = some b := by
  rw [Option.mapM_some]
  cases f a <;> simp [Functor.map, Except.map, eq_comm]

/-- A result of a step that is taken on an optional value is that of a value which is there. -/
theorem mapM_ok_some_iff {f : α → Except ε β} {x : Option α} {b : β} :
    x.mapM f = .ok (some b) ↔ ∃ a, x = some a ∧ f a = .ok b := by
  cases x with
  | none => simp [pure, Except.pure]
  | some a =>
    rw [mapM_some_ok_iff]
    simp

section Reading

variable {read : α → Option β} {xs : List α}

/-- A reader of the entries of a list succeeds exactly when it succeeds on every entry. -/
theorem mapM_eq_some_iff {ys : List β} :
    xs.mapM read = some ys ↔ List.Forall₂ (fun x y => read x = some y) xs ys := by
  induction xs generalizing ys with
  | nil => simp [eq_comm]
  | cons x xs ih =>
    rw [List.mapM_cons]
    constructor
    · intro h
      obtain ⟨y, hy, hrest⟩ := Option.bind_eq_some_iff.mp h
      obtain ⟨others, hothers, hlist⟩ := Option.bind_eq_some_iff.mp hrest
      cases hlist
      exact .cons hy (ih.mp hothers)
    · intro h
      cases h with
      | cons hy hothers =>
        exact Option.bind_eq_some_iff.mpr ⟨_, hy,
          Option.bind_eq_some_iff.mpr ⟨_, ih.mpr hothers, rfl⟩⟩

/-- A reading of all entries succeeds on each, and gives what the single entries give. -/
theorem mem_of_mapM_some {ys : List β} (h : xs.mapM read = some ys) :
    (∀ x ∈ xs, read x ≠ none) ∧ ∀ y, y ∈ ys ↔ ∃ x ∈ xs, read x = some y := by
  have hall := mapM_eq_some_iff.mp h
  clear h
  induction hall with
  | nil => exact ⟨nofun, by simp⟩
  | cons hx _ ih =>
    refine ⟨List.forall_mem_cons.mpr ⟨by simp [hx], ih.1⟩, fun y => ?_⟩
    simp [ih.2, hx, eq_comm]

/-- A reading of all entries fails on one of them. -/
theorem exists_of_mapM_none (h : xs.mapM read = none) : ∃ x ∈ xs, read x = none := by
  induction xs with
  | nil => cases h
  | cons x xs ih =>
    cases hx : read x with
    | none => exact ⟨x, List.mem_cons_self, hx⟩
    | some y =>
      have hrest : xs.mapM read = none := by
        cases hxs : xs.mapM read with
        | none => rfl
        | some ys => simp [List.mapM_cons, hx, hxs] at h
      obtain ⟨other, hm, hother⟩ := ih hrest
      exact ⟨other, List.mem_cons_of_mem x hm, hother⟩

end Reading

/-- Two results are compatible if they are equal where both succeed. -/
def Compatible (x y : Except ε α) : Prop :=
  ∀ a b, x = .ok a → y = .ok b → a = b

namespace Compatible

variable {x y : Except ε α}

/-- Every result is compatible with itself. -/
theorem refl (x : Except ε α) : Compatible x x := by
  intro a b ha hb
  exact Except.ok.inj (ha.symm.trans hb)

/-- Compatible steps behind compatible steps are compatible. -/
theorem bind {f g : α → Except ε β} (h : Compatible x y) (hf : ∀ a, Compatible (f a) (g a)) :
    Compatible (x >>= f) (y >>= g) := by
  intro b b' hb hb'
  obtain ⟨a, hx, hb⟩ := bind_ok_iff.mp hb
  obtain ⟨a', hy, hb'⟩ := bind_ok_iff.mp hb'
  obtain rfl := h a a' hx hy
  exact hf a b b' hb hb'

/-- Rewording failures leaves results compatible. -/
theorem mapError {f g : ε → δ} (h : Compatible x y) :
    Compatible (x.mapError f) (y.mapError g) := by
  intro a a' ha ha'
  exact h a a' (mapError_ok_iff.mp ha) (mapError_ok_iff.mp ha')

/-- Runs whose steps are compatible are compatible. -/
theorem foldlM {f g : β → α → Except ε β} (h : ∀ state a, Compatible (f state a) (g state a))
    (state : β) (xs : List α) : Compatible (xs.foldlM f state) (xs.foldlM g state) := by
  induction xs generalizing state with
  | nil => exact refl _
  | cons a xs ih =>
    rw [List.foldlM_cons, List.foldlM_cons]
    exact (h state a).bind ih

/-- Steps taken on every entry of a list are compatible if they are on each entry. -/
theorem mapM {f g : α → Except ε β} (h : ∀ a, Compatible (f a) (g a)) (xs : List α) :
    Compatible (xs.mapM f) (xs.mapM g) := by
  induction xs with
  | nil => exact refl _
  | cons a xs ih =>
    rw [List.mapM_cons, List.mapM_cons]
    exact (h a).bind fun b => ih.bind fun bs => refl _

end Compatible

end AnnotatedHelp.Outcome
