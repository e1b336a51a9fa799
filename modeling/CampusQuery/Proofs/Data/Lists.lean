import Mathlib.Data.List.Forall2
import Mathlib.Data.List.Induction
import Mathlib.Data.List.Perm.Basic

/-!
Lists that correspond item by item, and lists without repeats. Main statement: the items without
repeats come in the order in which they are first seen, and the order of the list does not change
which of them are left.
-/

namespace CampusQuery

variable {α : Type u} {β : Type v} {r : α → β → Prop} {xs : List α} {ys : List β}

theorem exists_of_mem_left (h : List.Forall₂ r xs ys) {x : α} (hx : x ∈ xs) :
    ∃ y ∈ ys, r x y := by
  induction h with
  | nil => contradiction
  | cons head _ ih =>
    rcases List.mem_cons.1 hx with rfl | hx
    · exact ⟨_, List.mem_cons_self, head⟩
    · obtain ⟨y, hy, hr⟩ := ih hx
      exact ⟨y, List.mem_cons_of_mem _ hy, hr⟩

theorem exists_of_mem_right (h : List.Forall₂ r xs ys) {y : β} (hy : y ∈ ys) :
    ∃ x ∈ xs, r x y :=
  exists_of_mem_left h.flip hy

/-- Both are missing, or both are there and correspond. -/
theorem rel_cases {x : Option α} {y : Option β} (h : Option.Rel r x y) :
    (x = none ∧ y = none) ∨ ∃ a b, x = some a ∧ y = some b ∧ r a b := by
  cases h with
  | some hab => exact .inr ⟨_, _, rfl, rfl, hab⟩
  | none => exact .inl ⟨rfl, rfl⟩

theorem mapIdx_map {γ : Type w} (f : Nat → β → γ) (g : α → β) (xs : List α) :
    (xs.map g).mapIdx f = xs.mapIdx fun i x => f i (g x) := by
  rw [List.mapIdx_eq_iff]
  intro i
  rw [List.getElem?_mapIdx, List.getElem?_map, Option.map_map]
  rfl

theorem forall₂_filter {p : α → Bool} {q : β → Bool} (h : List.Forall₂ r xs ys)
    (hpq : ∀ a b, r a b → p a = q b) : List.Forall₂ r (xs.filter p) (ys.filter q) :=
  List.rel_filter (fun a b hab => by simp [hpq a b hab]) h

theorem mapM_eq_some_iff {f : α → Option β} :
    xs.mapM f = some ys ↔ List.Forall₂ (fun x y => f x = some y) xs ys := by
  induction xs generalizing ys with
  | nil => cases ys <;> simp
  | cons x xs ih =>
    rw [List.mapM_cons, Option.bind_eq_bind, Option.bind_eq_some_iff]
    simp only [Option.bind_eq_bind, Option.bind_eq_some_iff, ih, Option.pure_def,
      Option.some.injEq]
    constructor
    · rintro ⟨y, head, ys, tail, rfl⟩
      exact .cons head tail
    · intro h
      cases h with
      | cons head tail => exact ⟨_, head, _, tail, rfl⟩

/-- Each item has a value that corresponds to it, and so has the list. -/
theorem exists_mapM_eq_some {f : α → Option β} (h : ∀ x ∈ xs, ∃ y, f x = some y ∧ r x y) :
    ∃ ys, xs.mapM f = some ys ∧ List.Forall₂ r xs ys := by
  induction xs with
  | nil => exact ⟨[], rfl, .nil⟩
  | cons x xs ih =>
    rw [List.forall_mem_cons] at h
    obtain ⟨y, hy, hxy⟩ := h.1
    obtain ⟨ys, hys, hrest⟩ := ih h.2
    exact ⟨y :: ys, by rw [List.mapM_cons, hy, hys]; rfl, .cons hxy hrest⟩

/-- Each value comes from an item. -/
theorem exists_of_mem_mapM {f : α → Option β} (h : xs.mapM f = some ys) {y : β} (hy : y ∈ ys) :
    ∃ x ∈ xs, f x = some y :=
  exists_of_mem_right (mapM_eq_some_iff.1 h) hy

theorem forall₂_imp_of_mem {s : α → β → Prop} (h : List.Forall₂ r xs ys)
    (hrs : ∀ x ∈ xs, ∀ y ∈ ys, r x y → s x y) : List.Forall₂ s xs ys := by
  rw [List.forall₂_iff_zip] at h ⊢
  refine ⟨h.1, fun {x y} hmem => ?_⟩
  obtain ⟨hx, hy⟩ := List.of_mem_zip hmem
  exact hrs x hx y hy (h.2 hmem)

theorem beq_iff_forall₂ {α : Type u} [BEq α] {xs ys : List α} :
    (xs == ys) = true ↔ List.Forall₂ (fun x y => (x == y) = true) xs ys := by
  induction xs generalizing ys with
  | nil => cases ys <;> simp
  | cons x xs ih =>
    cases ys with
    | nil => simp
    | cons y ys => rw [List.cons_beq_cons, Bool.and_eq_true, ih, List.forall₂_cons]

theorem forall₂_trans {γ : Type w} {s : β → γ → Prop} {t : α → γ → Prop} {zs : List γ}
    (h : List.Forall₂ r xs ys) (h' : List.Forall₂ s ys zs)
    (hrs : ∀ x y z, r x y → s y z → t x z) : List.Forall₂ t xs zs := by
  induction h generalizing zs with
  | nil =>
    cases h'
    exact .nil
  | cons head _ ih =>
    cases h' with
    | cons head' tail' => exact .cons (hrs _ _ _ head head') (ih tail')

/-- Lists with the same keys in some order correspond in some order. -/
theorem exists_perm_of_map_perm {γ : Type w} {key : α → γ} {xs ys : List α}
    (h : (xs.map key).Perm (ys.map key)) :
    ∃ zs, xs.Perm zs ∧ List.Forall₂ (fun z y => key z = key y) zs ys := by
  have keyed : List.Forall₂ (fun x k => key x = k) xs (xs.map key) :=
    List.forall₂_map_right_iff.2 (List.forall₂_same.2 fun _ _ => rfl)
  have lifted : Relation.Comp (List.Forall₂ fun x k => key x = k) List.Perm xs (ys.map key) :=
    ⟨_, keyed, h⟩
  rw [List.forall₂_comp_perm_eq_perm_comp_forall₂] at lifted
  obtain ⟨zs, perm, hzs⟩ := lifted
  exact ⟨zs, perm, List.forall₂_map_right_iff.1 hzs⟩

theorem map_zip_map_self {γ : Type w} (xs : List α) (f : α → β) (g : α × β → γ) :
    (xs.zip (xs.map f)).map g = xs.map fun x => g (x, f x) := by
  induction xs with
  | nil => rfl
  | cons x xs ih => rw [List.map_cons, List.zip_cons_cons, List.map_cons, ih, List.map_cons]

section Distinct

variable {α : Type u} {r s : α → α → Bool} {xs : List α}

theorem eraseDupsBy_congr (h : ∀ a ∈ xs, ∀ b ∈ xs, r a b = s a b) :
    xs.eraseDupsBy r = xs.eraseDupsBy s := by
  induction length : xs.length using Nat.strongRecOn generalizing xs with
  | ind n ih =>
    cases xs with
    | nil => rfl
    | cons y ys =>
      have others : ∀ a ∈ ys, r a y = s a y := fun a ha =>
        h a (List.mem_cons_of_mem y ha) y List.mem_cons_self
      have rest : ys.filter (fun z => r z y = false) = ys.filter fun z => s z y = false :=
        List.filter_congr fun z hz => by rw [others z hz]
      have shorter : (ys.filter fun z => s z y = false).length < n := by
        have := List.length_filter_le (fun z => s z y = false) ys
        simp only [List.length_cons] at length
        omega
      rw [List.eraseDupsBy_cons, List.eraseDupsBy_cons, rest]
      rw [ih _ shorter (fun a ha b hb => ?_) rfl]
      exact h a (List.mem_cons_of_mem y (List.mem_filter.1 ha).1) b
        (List.mem_cons_of_mem y (List.mem_filter.1 hb).1)

/-- Lists that correspond keep corresponding items. -/
theorem forall₂_eraseDupsBy {β : Type v} {R : α → β → Prop} {s : β → β → Bool} {ys : List β}
    (h : List.Forall₂ R xs ys) (hrs : ∀ a a' b b', R a b → R a' b' → r a a' = s b b') :
    List.Forall₂ R (xs.eraseDupsBy r) (ys.eraseDupsBy s) := by
  induction length : xs.length using Nat.strongRecOn generalizing xs ys with
  | ind n ih =>
    cases h with
    | nil => exact .nil
    | @cons x y xs ys head tail =>
      have rest : List.Forall₂ R (xs.filter fun z => r z x = false)
          (ys.filter fun z => s z y = false) :=
        forall₂_filter tail fun a b hab => by rw [hrs a x b y hab head]
      have shorter : (xs.filter fun z => r z x = false).length < n := by
        have := List.length_filter_le (fun z => r z x = false) xs
        simp only [List.length_cons] at length
        omega
      rw [List.eraseDupsBy_cons, List.eraseDupsBy_cons]
      exact .cons head (ih _ shorter rest rfl)

variable (equiv : Equivalence fun a b => r a b = true)

include equiv

/-- A further item stays if nothing like it came before. -/
theorem eraseDupsBy_concat (x : α) : (xs ++ [x]).eraseDupsBy r =
    if xs.any (r x) then xs.eraseDupsBy r else xs.eraseDupsBy r ++ [x] := by
  induction length : xs.length using Nat.strongRecOn generalizing xs with
  | ind n ih =>
    cases xs with
    | nil => simp [List.eraseDupsBy_cons]
    | cons y ys =>
      rw [List.cons_append, List.eraseDupsBy_cons, List.eraseDupsBy_cons, List.filter_append,
        List.any_cons]
      by_cases hxy : r x y = true
      · simp [hxy]
      · have shorter : (ys.filter fun z => r z y = false).length < n := by
          have := List.length_filter_le (fun z => r z y = false) ys
          simp only [List.length_cons] at length
          omega
        have before : ((ys.filter fun z => r z y = false).any (r x)) = ys.any (r x) := by
          rw [Bool.eq_iff_iff, List.any_eq_true, List.any_eq_true]
          constructor
          · rintro ⟨z, hz, hxz⟩
            exact ⟨z, (List.mem_filter.1 hz).1, hxz⟩
          · rintro ⟨z, hz, hxz⟩
            refine ⟨z, List.mem_filter.2 ⟨hz, ?_⟩, hxz⟩
            rw [decide_eq_true_eq, ← Bool.not_eq_true]
            exact fun hzy => hxy (equiv.trans hxz hzy)
        have single : [x].filter (fun z => decide (r z y = false)) = [x] := by simp [hxy]
        rw [single, ih _ shorter rfl, before, Bool.eq_false_iff.2 hxy, Bool.false_or]
        split <;> rfl

theorem mem_of_mem_eraseDupsBy {x : α} (h : x ∈ xs.eraseDupsBy r) : x ∈ xs := by
  induction xs using List.reverseRecOn with
  | nil => simp at h
  | append_singleton xs y ih =>
    rw [eraseDupsBy_concat equiv] at h
    rw [List.mem_append]
    split at h
    · exact .inl (ih h)
    · rcases List.mem_append.1 h with h | h
      · exact .inl (ih h)
      · exact .inr h

theorem exists_mem_eraseDupsBy {x : α} (h : x ∈ xs) : ∃ y ∈ xs.eraseDupsBy r, r x y = true := by
  induction xs using List.reverseRecOn generalizing x with
  | nil => simp at h
  | append_singleton xs y ih =>
    rw [eraseDupsBy_concat equiv]
    rcases List.mem_append.1 h with h | h
    · obtain ⟨z, hz, hxz⟩ := ih h
      split
      · exact ⟨z, hz, hxz⟩
      · exact ⟨z, List.mem_append_left [y] hz, hxz⟩
    · obtain rfl := List.mem_singleton.1 h
      split
      · next seen =>
        obtain ⟨w, hw, hxw⟩ := List.any_eq_true.1 seen
        obtain ⟨z, hz, hwz⟩ := ih hw
        exact ⟨z, hz, equiv.trans hxw hwz⟩
      · exact ⟨x, List.mem_append_right _ h, equiv.refl x⟩

/-- Items stay in the order in which something like them is first seen. -/
theorem pairwise_findIdx_eraseDupsBy :
    (xs.eraseDupsBy r).Pairwise fun a b => xs.findIdx (r · a) < xs.findIdx (r · b) := by
  induction xs using List.reverseRecOn with
  | nil => simp
  | append_singleton xs y ih =>
    have found : ∀ a ∈ xs.eraseDupsBy r, xs.findIdx (r · a) < xs.length := fun a ha =>
      List.findIdx_lt_length_of_exists ⟨a, mem_of_mem_eraseDupsBy equiv ha, equiv.refl a⟩
    have unchanged : (xs.eraseDupsBy r).Pairwise fun a b =>
        (xs ++ [y]).findIdx (r · a) < (xs ++ [y]).findIdx (r · b) := by
      refine ih.imp_of_mem fun {a b} ha hb hlt => ?_
      rwa [List.findIdx_append, if_pos (found a ha), List.findIdx_append, if_pos (found b hb)]
    rw [eraseDupsBy_concat equiv]
    split
    · exact unchanged
    · next unseen =>
      refine List.pairwise_append.2 ⟨unchanged, List.pairwise_singleton _ _, fun a ha b hb => ?_⟩
      obtain rfl := List.mem_singleton.1 hb
      have missing : xs.findIdx (r · b) = xs.length := by
        rw [List.findIdx_eq_length]
        intro z hz
        rw [← Bool.not_eq_true]
        exact fun hzb => unseen (List.any_eq_true.2 ⟨z, hz, equiv.symm hzb⟩)
      rw [List.findIdx_append, if_pos (found a ha), List.findIdx_append, missing]
      have := found a ha
      simp only [Nat.lt_irrefl, if_false]
      omega

theorem pairwise_eraseDupsBy : (xs.eraseDupsBy r).Pairwise fun a b => r a b = false := by
  refine (pairwise_findIdx_eraseDupsBy equiv).imp fun {a b} hlt => ?_
  rw [← Bool.not_eq_true]
  intro hab
  have alike : (r · a) = (r · b) := by
    funext z
    rw [Bool.eq_iff_iff]
    exact ⟨fun hza => equiv.trans hza hab, fun hzb => equiv.trans hzb (equiv.symm hab)⟩
  rw [alike] at hlt
  exact Nat.lt_irrefl _ hlt

end Distinct

/-! Items that are told apart by a key. -/

section Keys

variable {α : Type u} {γ : Type w} {r : α → α → Bool} {key : α → γ} {xs ys : List α}

theorem equivalence_of_key (hkey : ∀ a b, r a b = true ↔ key a = key b) :
    Equivalence fun a b => r a b = true where
  refl a := (hkey a a).2 rfl
  symm h := (hkey _ _).2 ((hkey _ _).1 h).symm
  trans h h' := (hkey _ _).2 (((hkey _ _).1 h).trans ((hkey _ _).1 h'))

variable (hkey : ∀ a b, r a b = true ↔ key a = key b)

include hkey

theorem nodup_map_eraseDupsBy : ((xs.eraseDupsBy r).map key).Nodup := by
  rw [List.Nodup, List.pairwise_map]
  refine (pairwise_eraseDupsBy (equivalence_of_key hkey)).imp fun {a b} hne heq => ?_
  rw [(hkey a b).2 heq] at hne
  contradiction

theorem mem_map_eraseDupsBy {k : γ} : k ∈ (xs.eraseDupsBy r).map key ↔ k ∈ xs.map key := by
  have equiv := equivalence_of_key hkey
  simp only [List.mem_map]
  constructor
  · rintro ⟨x, hx, rfl⟩
    exact ⟨x, mem_of_mem_eraseDupsBy equiv hx, rfl⟩
  · rintro ⟨x, hx, rfl⟩
    obtain ⟨y, hy, hxy⟩ := exists_mem_eraseDupsBy equiv hx
    exact ⟨y, hy, ((hkey x y).1 hxy).symm⟩

/-- The order of the items does not change which keys are left. -/
theorem perm_map_eraseDupsBy (h : xs.Perm ys) :
    ((xs.eraseDupsBy r).map key).Perm ((ys.eraseDupsBy r).map key) := by
  apply (List.perm_ext_iff_of_nodup (nodup_map_eraseDupsBy hkey) (nodup_map_eraseDupsBy hkey)).2
  intro k
  rw [mem_map_eraseDupsBy hkey, mem_map_eraseDupsBy hkey, (h.map key).mem_iff]

end Keys

end CampusQuery
