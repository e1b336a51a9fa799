import Mathlib.Data.List.Forall2

/-!
Steps that may fail. Main statements: a chain of steps gives a value when each step does, and a
step for every item of a list gives the list of the steps' values.
-/

namespace CampusQuery

variable {ε : Type u} {α β γ : Type v}

theorem bind_eq_ok {x : Except ε α} {f : α → Except ε β} {b : β} :
    (x >>= f) = .ok b ↔ ∃ a, x = .ok a ∧ f a = .ok b := by
  cases x <;> simp [bind, Except.bind]

theorem check_bind_eq_ok {x : Except ε PUnit.{v + 1}} {f : PUnit → Except ε β} {b : β} :
    (x >>= f) = .ok b ↔ x = .ok ⟨⟩ ∧ f ⟨⟩ = .ok b := by
  cases x with
  | error e => simp [bind, Except.bind]
  | ok a => cases a; simp [bind, Except.bind]

/-- A refusal before the steps that follow it. -/
theorem guard_eq_ok {c : Prop} [Decidable c] {e : ε} {next : PUnit.{v + 1} → Except ε β} {b : β} :
    (if c then throw e >>= next else next ⟨⟩) = .ok b ↔ ¬c ∧ next ⟨⟩ = .ok b := by
  by_cases h : c <;> simp [h, bind, Except.bind, throw, throwThe, MonadExceptOf.throw]

@[simp] theorem ok_bind (a : α) (f : α → Except ε β) : (Except.ok a >>= f) = f a := rfl

@[simp] theorem error_bind (e : ε) (f : α → Except ε β) :
    (Except.error e >>= f) = .error e := rfl

@[simp] theorem pure_eq_ok (a : α) : (pure a : Except ε α) = .ok a := rfl

@[simp] theorem throw_eq_error (e : ε) : (throw e : Except ε α) = .error e := rfl

@[simp] theorem map_ok (f : α → β) (a : α) : (Except.ok a : Except ε α).map f = .ok (f a) := rfl

@[simp] theorem map_error (f : α → β) (e : ε) : (Except.error e).map f = .error e := rfl

theorem map_eq_ok {x : Except ε α} {f : α → β} {b : β} :
    x.map f = .ok b ↔ ∃ a, x = .ok a ∧ f a = b := by
  cases x <;> simp

/-- Later steps need to agree on the values that the first step gives. -/
theorem bind_congr_of_ok {x : Except ε α} {f g : α → Except ε β}
    (h : ∀ a, x = .ok a → f a = g a) : (x >>= f) = (x >>= g) := by
  cases x with
  | error e => rfl
  | ok a => exact h a rfl

theorem forM_eq_ok {α : Type u} {f : α → Except ε PUnit.{v + 1}} {xs : List α} :
    xs.forM f = .ok ⟨⟩ ↔ ∀ x ∈ xs, f x = .ok ⟨⟩ := by
  induction xs with
  | nil => simp
  | cons x xs ih =>
    simp only [List.forM_eq_forM, List.forM_cons] at ih ⊢
    rw [bind_eq_ok, List.forall_mem_cons, ← ih]
    constructor
    · rintro ⟨⟨⟩, head, tail⟩
      exact ⟨head, tail⟩
    · rintro ⟨head, tail⟩
      exact ⟨⟨⟩, head, tail⟩

/-- Checks of items fail by the check of one of them. -/
theorem exists_of_forM_eq_error {α : Type u} {f : α → Except ε PUnit.{v + 1}} {xs : List α} {e : ε}
    (h : xs.forM f = .error e) : ∃ x ∈ xs, f x = .error e := by
  induction xs with
  | nil => contradiction
  | cons x xs ih =>
    rw [List.forM_eq_forM, List.forM_cons] at h
    cases hx : f x with
    | error _ =>
      rw [hx] at h
      cases h
      exact ⟨x, List.mem_cons_self, hx⟩
    | ok _ =>
      rw [hx] at h
      obtain ⟨y, hy, hfail⟩ := ih h
      exact ⟨y, List.mem_cons_of_mem x hy, hfail⟩

theorem mapM_eq_ok_of_forall {α : Type u} {f : α → Except ε β} {g : α → β} {xs : List α}
    (h : ∀ x ∈ xs, f x = .ok (g x)) : xs.mapM f = .ok (xs.map g) := by
  induction xs with
  | nil => rfl
  | cons x xs ih =>
    have head := h x List.mem_cons_self
    have tail := ih fun y hy => h y (List.mem_cons_of_mem x hy)
    simp [List.mapM_cons, head, tail]

theorem mapM_eq_ok_iff {α : Type u} {f : α → Except ε β} {xs : List α} {ys : List β} :
    xs.mapM f = .ok ys ↔ List.Forall₂ (fun x y => f x = .ok y) xs ys := by
  induction xs generalizing ys with
  | nil => cases ys <;> simp
  | cons x xs ih =>
    rw [List.mapM_cons, bind_eq_ok]
    simp only [bind_eq_ok, pure_eq_ok, Except.ok.injEq, ih]
    constructor
    · rintro ⟨y, head, ys, tail, rfl⟩
      exact .cons head tail
    · intro h
      cases h with
      | cons head tail => exact ⟨_, head, _, tail, rfl⟩

theorem exists_mapM_eq_ok {α : Type u} {f : α → Except ε β} {xs : List α}
    (h : ∀ x ∈ xs, ∃ y, f x = .ok y) : ∃ ys, xs.mapM f = .ok ys := by
  induction xs with
  | nil => exact ⟨[], rfl⟩
  | cons x xs ih =>
    obtain ⟨⟨y, head⟩, rest⟩ := List.forall_mem_cons.1 h
    obtain ⟨ys, tail⟩ := ih rest
    exact ⟨y :: ys, by simp [List.mapM_cons, head, tail]⟩

theorem mapM_congr_of_forall₂ {α γ : Type u} {R : α → γ → Prop} {f : α → Except ε β}
    {g : γ → Except ε β} {xs : List α} {ys : List γ} (h : List.Forall₂ R xs ys)
    (hfg : ∀ x y, R x y → f x = g y) : xs.mapM f = ys.mapM g := by
  induction h with
  | nil => rfl
  | cons head _ ih => rw [List.mapM_cons, List.mapM_cons, hfg _ _ head, ih]

theorem mapM_congr_left {α : Type u} {f g : α → Except ε β} {xs : List α}
    (h : ∀ x ∈ xs, f x = g x) : xs.mapM f = xs.mapM g :=
  mapM_congr_of_forall₂ (R := fun x y => f x = g y) (List.forall₂_same.2 h) fun _ _ => id

theorem foldlM_congr {α : Type u} {f g : β → α → Except ε β} {xs : List α}
    (h : ∀ x ∈ xs, ∀ b, f b x = g b x) (b : β) : xs.foldlM f b = xs.foldlM g b := by
  induction xs generalizing b with
  | nil => rfl
  | cons x xs ih =>
    rw [List.foldlM_cons, List.foldlM_cons, h x List.mem_cons_self]
    refine bind_congr fun next => ih (fun y hy => h y (List.mem_cons_of_mem x hy)) next

/-- A loop that gives what another one gives at each step gives the same in the end. -/
theorem foldlM_eq_ok_of_forall {α : Type u} {f g : β → α → Except ε β} {xs : List α}
    (h : ∀ b x c, f b x = .ok c → g b x = .ok c) {b c : β} (hf : xs.foldlM f b = .ok c) :
    xs.foldlM g b = .ok c := by
  induction xs generalizing b with
  | nil => exact hf
  | cons x xs ih =>
    rw [List.foldlM_cons] at hf ⊢
    obtain ⟨next, hnext, hf⟩ := bind_eq_ok.1 hf
    rw [h b x next hnext, ok_bind, ih hf]

/-- What each step keeps holds in the end. -/
theorem foldlM_keeps {α : Type u} {p : β → Prop} {f : β → α → Except ε β} {xs : List α}
    (step : ∀ b x c, f b x = .ok c → p b → p c) {b c : β} (h : xs.foldlM f b = .ok c)
    (start : p b) : p c := by
  induction xs generalizing b with
  | nil =>
    cases h
    exact start
  | cons x xs ih =>
    rw [List.foldlM_cons] at h
    obtain ⟨next, hnext, h⟩ := bind_eq_ok.1 h
    exact ih h (step b x next hnext start)

/-- The first failure is the result. -/
theorem exists_mapM_eq_error {α : Type u} {f : α → Except ε β} {xs : List α}
    (h : ∃ x ∈ xs, ∃ e, f x = .error e) :
    ∃ x ∈ xs, ∃ e, f x = .error e ∧ xs.mapM f = .error e := by
  induction xs with
  | nil => simp at h
  | cons x xs ih =>
    cases head : f x with
    | error e => exact ⟨x, List.mem_cons_self, e, head, by simp [List.mapM_cons, head]⟩
    | ok y =>
      have later : ∃ x ∈ xs, ∃ e, f x = .error e := by
        obtain ⟨z, hz, e, he⟩ := h
        rcases List.mem_cons.1 hz with rfl | hz
        · rw [head] at he
          contradiction
        · exact ⟨z, hz, e, he⟩
      obtain ⟨z, hz, e, he, failed⟩ := ih later
      exact ⟨z, List.mem_cons_of_mem x hz, e, he, by simp [List.mapM_cons, head, failed]⟩

/-- Both fail for the same reason, or both give values that correspond. -/
inductive Agree {α β : Type v} (R : α → β → Prop) : Except ε α → Except ε β → Prop where
  | ok {a : α} {b : β} (h : R a b) : Agree R (.ok a) (.ok b)
  | error (e : ε) : Agree R (.error e) (.error e)

namespace Agree

variable {α β γ δ : Type v} {R : α → β → Prop} {S : γ → δ → Prop}

theorem refl {R : α → α → Prop} (hR : ∀ a, R a a) (x : Except ε α) : Agree R x x := by
  cases x with
  | ok a => exact .ok (hR a)
  | error e => exact .error e

theorem eq {x y : Except ε α} (h : Agree Eq x y) : x = y := by
  cases h with
  | ok h => rw [h]
  | error e => rfl

theorem bind {x : Except ε α} {y : Except ε β} {f : α → Except ε γ} {g : β → Except ε δ}
    (h : Agree R x y) (hfg : ∀ a b, R a b → Agree S (f a) (g b)) :
    Agree S (x >>= f) (y >>= g) := by
  cases h with
  | ok h => exact hfg _ _ h
  | error e => exact .error e

theorem bind_self {x : Except ε α} {f : α → Except ε γ} {g : α → Except ε δ}
    (h : ∀ a, Agree S (f a) (g a)) : Agree S (x >>= f) (x >>= g) := by
  cases x with
  | error e => exact .error e
  | ok a => exact h a

theorem imp {S : α → β → Prop} {x : Except ε α} {y : Except ε β} (h : Agree R x y)
    (hRS : ∀ a b, R a b → S a b) : Agree S x y := by
  cases h with
  | ok h => exact .ok (hRS _ _ h)
  | error e => exact .error e

theorem map {x : Except ε α} {y : Except ε β} {f : α → γ} {g : β → δ} (h : Agree R x y)
    (hfg : ∀ a b, R a b → S (f a) (g b)) : Agree S (x.map f) (y.map g) := by
  cases h with
  | ok h => exact .ok (hfg _ _ h)
  | error e => exact .error e

theorem mapM {α β : Type u} {R : α → β → Prop} {f : α → Except ε γ} {g : β → Except ε δ}
    {xs : List α} {ys : List β} (h : List.Forall₂ R xs ys)
    (hfg : ∀ a b, R a b → Agree S (f a) (g b)) :
    Agree (List.Forall₂ S) (xs.mapM f) (ys.mapM g) := by
  induction h with
  | nil => exact .ok .nil
  | cons head _ ih =>
    rw [List.mapM_cons, List.mapM_cons]
    exact (hfg _ _ head).bind fun _ _ hc => ih.bind fun _ _ hcs => .ok (.cons hc hcs)

end Agree

end CampusQuery
