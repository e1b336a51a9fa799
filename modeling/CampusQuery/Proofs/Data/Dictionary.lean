import CampusQuery.Proofs.Data.Record

/-!
Dictionaries as ascending lists. Main statements: ascending entries make up the dictionary of just
these entries, dictionaries whose lookups correspond have corresponding entries, and a change adds
or removes one name.
-/

namespace CampusQuery

variable {α : Type u} {β : Type v}

namespace Entries

/-- A name behind all others goes to the end. -/
theorem insert_of_forall_lt {name : String} {value : α} {entries : Entries α}
    (h : ∀ entry ∈ entries, entry.1 < name) :
    entries.insert name value = entries ++ [(name, value)] := by
  induction entries with
  | nil => rfl
  | cons entry rest ih =>
    obtain ⟨key, old⟩ := entry
    rw [List.forall_mem_cons] at h
    have hne : name ≠ key := by
      rintro rfl
      exact String.lt_irrefl _ h.1
    have hge : ¬name < key := fun hlt => String.lt_irrefl _ (String.lt_trans hlt h.1)
    rw [insert, if_neg hge, if_neg hne, ih h.2, List.cons_append]

theorem length_insert_congr (name : String) (value value' : α) (entries : Entries α) :
    (entries.insert name value).length = (entries.insert name value').length := by
  induction entries with
  | nil => rfl
  | cons entry rest ih => grind [insert]

theorem insert_map (f : α → β) (name : String) (value : α) (entries : Entries α) :
    insert name (f value) (entries.map fun entry => (entry.1, f entry.2)) =
      (entries.insert name value).map fun entry => (entry.1, f entry.2) := by
  induction entries with
  | nil => rfl
  | cons entry rest ih =>
    rw [List.map_cons, insert, insert, ih]
    split
    · rfl
    · split <;> rfl

/-- It does not matter which entry of a name counts, if they are all the same. -/
theorem find?_reverse {entries : Entries α}
    (single : ∀ a ∈ entries, ∀ b ∈ entries, a.1 = b.1 → a = b) (name : String) :
    find? name entries.reverse = find? name entries := by
  cases hvalue : find? name entries with
  | none =>
    rw [find?_eq_none] at hvalue ⊢
    exact fun entry hentry => hvalue entry (List.mem_reverse.1 hentry)
  | some value =>
    have first := mem_of_find? hvalue
    have found : (find? name entries.reverse).isSome := by
      rw [find?_isSome_iff, List.map_reverse, List.mem_reverse]
      exact List.mem_map_of_mem first
    obtain ⟨other, hother⟩ := Option.isSome_iff_exists.1 found
    have last := List.mem_reverse.1 (mem_of_find? hother)
    rw [hother, (Prod.mk.inj (single _ last _ first rfl)).2]

theorem Ascending.find?_head {name : String} {value : α} {rest : Entries α}
    (h : Ascending ((name, value) :: rest)) : find? name rest = none := by
  rw [find?_eq_none]
  intro entry hentry heq
  have hlt := (List.pairwise_cons.1 h).1 entry hentry
  rw [heq] at hlt
  exact String.lt_irrefl _ hlt

theorem Ascending.find?_of_lt {name key : String} {value : α} {rest : Entries α}
    (h : Ascending ((key, value) :: rest)) (hlt : name < key) :
    find? name ((key, value) :: rest) = none := by
  rw [find?_eq_none]
  intro entry hentry heq
  subst heq
  rcases List.mem_cons.1 hentry with rfl | hentry
  · exact String.lt_irrefl _ hlt
  · have := String.lt_trans hlt ((List.pairwise_cons.1 h).1 entry hentry)
    exact String.lt_irrefl _ this

theorem perm_insert {name : String} {value : α} {entries : Entries α}
    (h : entries.find? name = none) :
    (entries.insert name value).Perm ((name, value) :: entries) := by
  induction entries with
  | nil => rfl
  | cons entry rest ih =>
    obtain ⟨key, old⟩ := entry
    have hne : key ≠ name := find?_eq_none.1 h _ List.mem_cons_self
    rw [find?_cons, if_neg hne] at h
    rw [insert]
    split
    · rfl
    · rw [if_neg (Ne.symm hne)]
      exact ((ih h).cons _).trans (List.Perm.swap _ _ _)

theorem Ascending.perm_erase {name : String} {value : α} {entries : Entries α}
    (h : entries.Ascending) (found : entries.find? name = some value) :
    entries.Perm ((name, value) :: entries.erase name) := by
  induction entries with
  | nil => contradiction
  | cons entry rest ih =>
    obtain ⟨key, old⟩ := entry
    rw [find?_cons] at found
    rw [Entries.erase]
    split at found
    · next heq =>
      obtain rfl := Option.some.inj found
      subst heq
      have others : rest.filter (fun entry => entry.1 ≠ key) = rest :=
        List.filter_eq_self.2 fun entry hentry =>
          decide_eq_true (find?_eq_none.1 h.find?_head entry hentry)
      rw [List.filter_cons_of_neg (by simp), others]
    · next hne =>
      rw [List.filter_cons_of_pos (by simpa using hne)]
      exact ((ih (List.pairwise_cons.1 h).2 found).cons _).trans (List.Perm.swap _ _ _)

/-- Ascending entries whose lookups correspond are corresponding entries. -/
theorem Ascending.forall₂_of_rel {R : α → β → Prop} {xs : Entries α} {ys : Entries β}
    (hxs : xs.Ascending) (hys : ys.Ascending)
    (h : ∀ name, Option.Rel R (xs.find? name) (ys.find? name)) :
    List.Forall₂ (fun a b => a.1 = b.1 ∧ R a.2 b.2) xs ys := by
  induction xs generalizing ys with
  | nil =>
    cases ys with
    | nil => exact .nil
    | cons entry ys =>
      have head := h entry.1
      rw [find?_cons, if_pos rfl] at head
      cases head
  | cons entry xs ih =>
    obtain ⟨key, value⟩ := entry
    have head := h key
    rw [find?_cons, if_pos rfl] at head
    cases ys with
    | nil => cases head
    | cons entry' ys =>
      obtain ⟨key', value'⟩ := entry'
      have hkey : key = key' := by
        refine String.le_antisymm (String.not_lt.1 fun hgt => ?_) (String.not_lt.1 fun hlt => ?_)
        · have head' := h key'
          rw [hxs.find?_of_lt hgt, find?_cons, if_pos rfl] at head'
          cases head'
        · rw [hys.find?_of_lt hlt] at head
          cases head
      subst hkey
      rw [find?_cons, if_pos rfl] at head
      cases head with
      | some hvalue =>
        refine .cons ⟨rfl, hvalue⟩ (ih (List.pairwise_cons.1 hxs).2 (List.pairwise_cons.1 hys).2 ?_)
        intro name
        have tail := h name
        rw [find?_cons, find?_cons] at tail
        split at tail
        · next heq =>
          subst heq
          rw [hxs.find?_head, hys.find?_head]
          exact .none
        · exact tail

end Entries

namespace Dictionary

theorem perm_names_insert {d : Dictionary α} {name : String} (value : α)
    (h : d.find? name = none) : (d.insert name value).names.Perm (name :: d.names) :=
  (Entries.perm_insert h).map _

theorem perm_names_erase {d : Dictionary α} {name : String} {value : α}
    (h : d.find? name = some value) : d.names.Perm (name :: (d.erase name).names) :=
  (d.ascending.perm_erase h).map _

theorem foldl_insert (entries : Entries α) (d : Dictionary α)
    (h : Entries.Ascending (d.entries ++ entries)) :
    (entries.foldl (fun d entry => d.insert entry.1 entry.2) d).entries = d.entries ++ entries := by
  induction entries generalizing d with
  | nil => rw [List.foldl_nil, List.append_nil]
  | cons entry rest ih =>
    have below : ∀ other ∈ d.entries, other.1 < entry.1 := fun other hother =>
      (List.pairwise_append.1 h).2.2 other hother entry List.mem_cons_self
    have inserted : (d.insert entry.1 entry.2).entries = d.entries ++ [entry] :=
      Entries.insert_of_forall_lt below
    rw [List.foldl_cons, ih, inserted, List.append_assoc, List.singleton_append]
    rwa [inserted, List.append_assoc, List.singleton_append]

theorem find?_foldl_insert (entries : Entries α) (d : Dictionary α) (name : String) :
    (entries.foldl (fun d entry => d.insert entry.1 entry.2) d).find? name =
      (Entries.find? name entries.reverse).or (d.find? name) := by
  induction entries generalizing d with
  | nil => rfl
  | cons entry rest ih =>
    rw [List.foldl_cons, ih, List.reverse_cons, Entries.find?_append, Option.or_assoc, find?_insert,
      Entries.find?_cons]
    split <;> rfl

/-- The last entry of a name is the one that counts. -/
theorem find?_ofList (entries : Entries α) (name : String) :
    (ofList entries).find? name = Entries.find? name entries.reverse := by
  rw [ofList, find?_foldl_insert, find?_empty, Option.or_none]

theorem entries_ofList {entries : Entries α} (h : entries.Ascending) :
    (ofList entries).entries = entries :=
  foldl_insert entries empty h

theorem foldl_insert_map (f : α → β) (entries : Entries α) {d : Dictionary α} {e : Dictionary β}
    (h : e.entries = d.entries.map fun entry => (entry.1, f entry.2)) :
    ((entries.map fun entry => (entry.1, f entry.2)).foldl
        (fun d entry => d.insert entry.1 entry.2) e).entries =
      (entries.foldl (fun d entry => d.insert entry.1 entry.2) d).entries.map
        fun entry => (entry.1, f entry.2) := by
  induction entries generalizing d e with
  | nil => exact h
  | cons entry rest ih =>
    apply ih
    change e.entries.insert entry.1 (f entry.2) = (d.entries.insert entry.1 entry.2).map _
    rw [h, Entries.insert_map]

/-- Values can be changed before or after the entries are put in order. -/
theorem entries_ofList_map (f : α → β) (entries : Entries α) :
    (ofList (entries.map fun entry => (entry.1, f entry.2))).entries =
      (ofList entries).entries.map fun entry => (entry.1, f entry.2) :=
  foldl_insert_map f entries rfl

end Dictionary

end CampusQuery
