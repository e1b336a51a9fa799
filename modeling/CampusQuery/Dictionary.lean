/-!
Finite maps from names to values, kept in ascending order of the names. Main statements: a lookup
after `insert` or `erase` sees exactly that change.
-/

namespace CampusQuery

/-- A list of named values: the first entry of a name is the one that counts. -/
abbrev Entries (α : Type u) := List (String × α)

namespace Entries

variable {α : Type u}

/-- The value of the first entry called `name`. -/
def find? (name : String) : Entries α → Option α
  | [] => none
  | (key, value) :: rest => if key = name then some value else find? name rest

/-- Puts a value at its place in an ascending list, over an entry of the same name. -/
def insert (name : String) (value : α) : Entries α → Entries α
  | [] => [(name, value)]
  | (key, old) :: rest =>
    if name < key then (name, value) :: (key, old) :: rest
    else if name = key then (name, value) :: rest
    else (key, old) :: insert name value rest

/-- The entries that have another name. -/
def erase (name : String) (entries : Entries α) : Entries α :=
  entries.filter (fun entry => entry.1 ≠ name)

/-- Names go up strictly, so each occurs once. -/
def Ascending (entries : Entries α) : Prop :=
  entries.Pairwise (fun a b => a.1 < b.1)

@[simp] theorem find?_nil (name : String) : find? name ([] : Entries α) = none := rfl

theorem find?_cons (name key : String) (value : α) (rest : Entries α) :
    find? name ((key, value) :: rest) = if key = name then some value else find? name rest := rfl

theorem find?_eq_none {name : String} {entries : Entries α} :
    find? name entries = none ↔ ∀ entry ∈ entries, entry.1 ≠ name := by
  induction entries with
  | nil => simp
  | cons entry rest ih =>
    obtain ⟨key, value⟩ := entry
    by_cases h : key = name <;> simp [find?_cons, h, ih]

theorem find?_insert (name other : String) (value : α) (entries : Entries α) :
    find? other (insert name value entries) =
      if name = other then some value else find? other entries := by
  induction entries with
  | nil => rfl
  | cons entry rest ih => grind [insert, find?]

theorem find?_erase (name other : String) (entries : Entries α) :
    find? other (erase name entries) = if name = other then none else find? other entries := by
  induction entries with
  | nil => simp [erase]
  | cons entry rest ih =>
    obtain ⟨key, value⟩ := entry
    simp only [erase, List.filter_cons] at ih ⊢
    grind [find?]

private theorem mem_insert {name : String} {value : α} {entries : Entries α} {entry : String × α}
    (h : entry ∈ insert name value entries) : entry = (name, value) ∨ entry ∈ entries := by
  induction entries with
  | nil => simpa [insert] using h
  | cons head rest ih => grind [insert]

theorem Ascending.insert {entries : Entries α} (h : entries.Ascending) (name : String)
    (value : α) : (entries.insert name value).Ascending := by
  induction entries with
  | nil => simp [Entries.insert, Ascending]
  | cons head rest ih =>
    have tail : Ascending rest := (List.pairwise_cons.1 h).2
    have below := (List.pairwise_cons.1 h).1
    unfold Entries.insert
    split
    · next hlt =>
      refine List.pairwise_cons.2 ⟨fun entry hmem => ?_, h⟩
      rcases List.mem_cons.1 hmem with rfl | hmem
      · exact hlt
      · exact String.lt_trans hlt (below entry hmem)
    · next hge =>
      split
      · next heq => exact List.pairwise_cons.2 ⟨fun entry hmem => heq ▸ below entry hmem, tail⟩
      · next hne =>
        refine List.pairwise_cons.2 ⟨fun entry hmem => ?_, ih tail⟩
        rcases mem_insert hmem with rfl | hmem
        · grind
        · exact below entry hmem

theorem Ascending.erase {entries : Entries α} (h : entries.Ascending) (name : String) :
    (entries.erase name).Ascending :=
  h.filter _

end Entries

/-- A finite map from names to values. -/
structure Dictionary (α : Type u) where
  entries : Entries α
  ascending : entries.Ascending

namespace Dictionary

variable {α : Type u}

def empty : Dictionary α := ⟨[], List.Pairwise.nil⟩

instance : Inhabited (Dictionary α) := ⟨empty⟩

/-- Sets the value of `name`, whether or not it had one. -/
def insert (name : String) (value : α) (d : Dictionary α) : Dictionary α :=
  ⟨d.entries.insert name value, d.ascending.insert name value⟩

def erase (name : String) (d : Dictionary α) : Dictionary α :=
  ⟨d.entries.erase name, d.ascending.erase name⟩

def find? (name : String) (d : Dictionary α) : Option α :=
  d.entries.find? name

def contains (name : String) (d : Dictionary α) : Bool :=
  (d.find? name).isSome

/-- The names, ascending. -/
def names (d : Dictionary α) : List String :=
  d.entries.map (·.1)

/-- The values in the order of their names. -/
def values (d : Dictionary α) : List α :=
  d.entries.map (·.2)

def size (d : Dictionary α) : Nat :=
  d.entries.length

def isEmpty (d : Dictionary α) : Bool :=
  d.entries.isEmpty

/-- Of several entries with one name the last wins. -/
def ofList (entries : List (String × α)) : Dictionary α :=
  entries.foldl (fun d entry => d.insert entry.1 entry.2) empty

@[simp] theorem find?_empty (name : String) : (empty : Dictionary α).find? name = none := rfl

@[simp] theorem find?_insert (d : Dictionary α) (name other : String) (value : α) :
    (d.insert name value).find? other = if name = other then some value else d.find? other :=
  Entries.find?_insert name other value d.entries

@[simp] theorem find?_erase (d : Dictionary α) (name other : String) :
    (d.erase name).find? other = if name = other then none else d.find? other :=
  Entries.find?_erase name other d.entries

end Dictionary

end CampusQuery
