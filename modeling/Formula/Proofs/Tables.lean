import Formula.Table

/-!
What tables hold. A table that entries were written to one after the other holds the latest value of
each name; the list of entries that it is compared with has the latest one first.
-/

set_option autoImplicit false

namespace Formula.Table

variable {α : Type}

theorem names_insert (t : Table α) (name : String) (value : α) :
    (t.insert name value).names = if name ∈ t.names then t.names else t.names ++ [name] := by
  obtain ⟨entries⟩ := t
  simp only [insert, names]
  induction entries with
  | nil => rfl
  | cons entry rest ih =>
      rw [put]
      split
      · next same => simp [same]
      · next other =>
          rw [List.map_cons, ih]
          by_cases inside : name ∈ rest.map Prod.fst
          · simp [inside]
          · simp [inside, Ne.symm other]

theorem nodup_insert {t : Table α} (unique : t.names.Nodup) (name : String) (value : α) :
    (t.insert name value).names.Nodup := by
  rw [names_insert]
  split
  · exact unique
  · next absent =>
      rw [List.nodup_append]
      refine ⟨unique, List.pairwise_singleton _ name, fun other inside new added same => ?_⟩
      rw [List.mem_singleton] at added
      exact absent (added ▸ same ▸ inside)

/-- A table holds the latest value of each name, where entries were written to it whose list has the
latest first. -/
structure Holds (t : Table α) (written : List (String × α)) : Prop where
  unique : t.names.Nodup
  latest : ∀ name, t.get? name = written.lookup name

namespace Holds

variable {t other : Table α} {written more : List (String × α)}

theorem empty : (Table.empty : Table α).Holds [] := ⟨List.nodup_nil, fun _ => rfl⟩

theorem insert (holds : t.Holds written) (name : String) (value : α) :
    (t.insert name value).Holds ((name, value) :: written) := by
  refine ⟨nodup_insert holds.unique name value, fun asked => ?_⟩
  rw [get?_insert, holds.latest, lookup_cons]

/-- Entries that are written one after the other end up in front, the last one first. -/
theorem insertEach (holds : t.Holds written) (entries : List (String × α)) :
    (entries.foldl (fun t entry => t.insert entry.1 entry.2) t).Holds
      (entries.reverse ++ written) := by
  induction entries generalizing t written with
  | nil => exact holds
  | cons entry rest ih =>
      rw [List.reverse_cons, List.append_assoc]
      exact ih (holds.insert entry.1 entry.2)

theorem ofList (entries : List (String × α)) : (Table.ofList entries).Holds entries.reverse := by
  have holds := insertEach empty entries
  rwa [List.append_nil] at holds

end Holds

theorem get?_insertEach (entries : List (String × α)) (unique : (entries.map Prod.fst).Nodup)
    (t : Table α) (name : String) :
    (entries.foldl (fun t entry => t.insert entry.1 entry.2) t).get? name =
      (entries.lookup name).or (t.get? name) := by
  induction entries generalizing t with
  | nil => rfl
  | cons entry rest ih =>
      rw [List.map_cons, List.nodup_cons] at unique
      rw [List.foldl_cons, ih unique.2, get?_insert, lookup_cons]
      by_cases same : entry.1 = name
      · have absent : rest.lookup name = none := by
          refine List.lookup_eq_none_iff.2 fun p inside => bne_iff_ne.2 fun again => ?_
          exact unique.1 (List.mem_map.2 ⟨p, inside, again.symm.trans same.symm⟩)
        simp [same, absent]
      · simp [same]

/-- Of two tables with the latest values, what is written from one to the other comes later. -/
theorem Holds.insertAll {t other : Table α} {written more : List (String × α)}
    (holds : t.Holds written) (holds' : other.Holds more) :
    (t.insertAll other).Holds (more ++ written) := by
  refine ⟨(insertEach holds other.entries).unique, fun name => ?_⟩
  have later : other.entries.lookup name = more.lookup name := holds'.latest name
  rw [Table.insertAll, get?_insertEach _ holds'.unique, holds.latest, later, List.lookup_append]

end Formula.Table
