import Formula.Text.Names

/-!
Tables of named values in the order of their first insertion. Writing to a name that is there
keeps its place. The functions of a table may refer to tables again, so that a table cannot carry
a proof about its entries.
-/

set_option autoImplicit false

namespace Formula

/-- Named values in insertion order. -/
structure Table (α : Type) where
  entries : List (String × α) := []

namespace Table

variable {α : Type}

def empty : Table α := {}

instance : Inhabited (Table α) := ⟨empty⟩

/-- Replace the first value under a name, or add the name at the end. -/
def put : List (String × α) → String → α → List (String × α)
  | [], name, value => [(name, value)]
  | (other, old) :: rest, name, value =>
    if other = name then (other, value) :: rest else (other, old) :: put rest name value

theorem lookup_cons (entry : String × α) (rest : List (String × α)) (name : String) :
    (entry :: rest).lookup name = if entry.1 = name then some entry.2 else rest.lookup name := by
  obtain ⟨other, value⟩ := entry
  by_cases same : other = name
  · simp [same]
  · simp [List.lookup_cons, same, beq_eq_false_iff_ne.2 (Ne.symm same)]

theorem lookup_put (entries : List (String × α)) (name other : String) (value : α) :
    (put entries name value).lookup other =
      if name = other then some value else entries.lookup other := by
  induction entries with
  | nil => rw [put, lookup_cons]
  | cons entry rest ih =>
    rw [put]
    split
    · next same => simp only [lookup_cons, same]; split <;> rfl
    · next apart =>
      rw [lookup_cons, lookup_cons, ih]
      split
      · next same => rw [if_neg fun again => apart (same.trans again.symm)]
      · rfl

def get? (t : Table α) (name : String) : Option α := t.entries.lookup name

def insert (t : Table α) (name : String) (value : α) : Table α := ⟨put t.entries name value⟩

/-- Write the entries of another table, in its order. -/
def insertAll (t other : Table α) : Table α :=
  other.entries.foldl (fun t entry => t.insert entry.1 entry.2) t

/-- The table of a list of entries; the last value under a name counts. -/
def ofList (entries : List (String × α)) : Table α :=
  entries.foldl (fun t entry => t.insert entry.1 entry.2) empty

def names (t : Table α) : List String := t.entries.map Prod.fst

def size (t : Table α) : Nat := t.entries.length

@[simp] theorem get?_insert (t : Table α) (name other : String) (value : α) :
    (t.insert name value).get? other = if name = other then some value else t.get? other :=
  lookup_put t.entries name other value

@[simp] theorem get?_empty (name : String) : (empty : Table α).get? name = none := rfl

def sortedNames (t : Table α) : List String := Text.sortedNames t.names

end Table

end Formula
