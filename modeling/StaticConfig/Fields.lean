/-!
Maps from names, kept as lists of entries in ascending order of name. `insert` keeps the order,
so two maps with the same entries are the same list.
-/
namespace StaticConfig

abbrev Fields (α : Type) := List (String × α)

namespace Fields

variable {α β : Type}

def get? (name : String) : Fields α → Option α
  | [] => none
  | (k, a) :: rest => if k = name then some a else get? name rest

def contains (name : String) (fields : Fields α) : Bool :=
  (get? name fields).isSome

/-- Adds an entry, or replaces the entry of the same name. -/
def insert (name : String) (a : α) : Fields α → Fields α
  | [] => [(name, a)]
  | (k, b) :: rest =>
    if name = k then (name, a) :: rest
    else if name < k then (name, a) :: (k, b) :: rest
    else (k, b) :: insert name a rest

/-- The fields without the entry of the name. -/
def erase (name : String) : Fields α → Fields α
  | [] => []
  | (k, a) :: rest => if k = name then rest else (k, a) :: erase name rest

/-- Entries added one after the other; of two entries of one name the later stays. -/
def ofList (entries : List (String × α)) : Fields α :=
  entries.foldl (fun acc e => insert e.1 e.2 acc) []

/-- Adds the entries of `new`, which replace those of the same name. -/
def insertAll (new : Fields α) (fields : Fields α) : Fields α :=
  new.foldl (fun acc e => insert e.1 e.2 acc) fields

def keys (fields : Fields α) : List String :=
  fields.map Prod.fst

def values (fields : Fields α) : List α :=
  fields.map Prod.snd

def mapValues (f : α → β) (fields : Fields α) : Fields β :=
  fields.map fun e => (e.1, f e.2)

/-- The names stand in strictly ascending order. -/
def Sorted (fields : Fields α) : Prop :=
  fields.Pairwise fun a b => a.1 < b.1

instance (fields : Fields α) : Decidable (Sorted fields) :=
  inferInstanceAs (Decidable (fields.Pairwise fun a b => a.1 < b.1))

theorem get?_nil (name : String) : get? name ([] : Fields α) = none := rfl

theorem get?_insert_self (name : String) (a : α) (fields : Fields α) :
    get? name (insert name a fields) = some a := by
  induction fields with
  | nil => simp [insert, get?]
  | cons e rest ih =>
    obtain ⟨k, b⟩ := e
    simp only [insert]
    by_cases h : name = k
    · simp [h, get?]
    · by_cases hlt : name < k
      · simp [h, hlt, get?]
      · simp [h, hlt, get?, Ne.symm h, ih]

theorem get?_insert_of_ne {name other : String} (hne : other ≠ name) (a : α) (fields : Fields α) :
    get? other (insert name a fields) = get? other fields := by
  induction fields with
  | nil => simp [insert, get?, Ne.symm hne]
  | cons e rest ih =>
    obtain ⟨k, b⟩ := e
    simp only [insert]
    by_cases h : name = k
    · subst h; simp [get?, Ne.symm hne]
    · by_cases hlt : name < k
      · simp [h, hlt, get?, Ne.symm hne]
      · simp [h, hlt, get?, ih]

theorem contains_insert (name : String) (a : α) (fields : Fields α) (other : String) :
    (insert name a fields).contains other = (other == name || fields.contains other) := by
  by_cases h : other = name
  · subst h
    simp [contains, get?_insert_self]
  · simp [contains, get?_insert_of_ne h, h]

/-- Taking away what was added leaves what there was. -/
theorem erase_insert {name : String} {a : α} {fields : Fields α}
    (h : get? name fields = none) : erase name (insert name a fields) = fields := by
  induction fields with
  | nil => simp [insert, erase]
  | cons e rest ih =>
    obtain ⟨k, b⟩ := e
    rw [get?] at h
    split at h
    · cases h
    · next hk =>
      simp only [insert, if_neg (Ne.symm hk)]
      split
      · simp [erase]
      · rw [erase, if_neg hk, ih h]

end Fields

/-- Sets of names, as ascending lists. -/
abbrev Names := List String

namespace Names

def insert (name : String) : Names → Names
  | [] => [name]
  | k :: rest =>
    if name = k then k :: rest
    else if name < k then name :: k :: rest
    else k :: insert name rest

theorem mem_insert (name other : String) (names : Names) :
    other ∈ insert name names ↔ other = name ∨ other ∈ names := by
  induction names with
  | nil => simp [insert]
  | cons k rest ih =>
    simp only [insert]
    by_cases h : name = k
    · subst h; simp
    · by_cases hlt : name < k
      · simp [h, hlt]
      · simp only [h, hlt, if_false, List.mem_cons, ih]
        constructor
        · rintro (h1 | h1 | h1) <;> simp [h1]
        · rintro (h1 | h1 | h1) <;> simp [h1]

end Names

end StaticConfig
