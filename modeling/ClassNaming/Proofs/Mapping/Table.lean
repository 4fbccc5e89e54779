import ClassNaming.Mapping.Table

/-!
# What a mapping table answers

The index of a column is a hash map, filled row by row.  For reasoning it is the list of rows
itself: a name leads to the *first* row that bears it, and the empty name leads nowhere.

## Main Results

* `MappingTable.indexColumn_getElem?` - an index answers with the first row of that name
* `MappingTable.lookup?_ofRows` - a look-up in a table of given rows
-/

namespace ClassNaming.MappingTable

variable {rows : List (List String)} {column : Nat} {name : String}

/-- The row that an index should lead to: the first one with this name in its column. -/
def firstRow? (rows : List (List String)) (column : Nat) (name : String) : Option (List String) :=
  if name.isEmpty then none else rows.find? fun row => row[column]? == some name

/-- Rows already in an index win over those that are added to it. -/
theorem foldl_indexRow_getElem? (rows : List (List String)) (column : Nat) (index : NameIndex)
    (name : String) : (rows.foldl (indexRow column) index)[name]? =
      (index[name]?).or (firstRow? rows column name) := by
  induction rows generalizing index with
  | nil => by_cases empty : name = "" <;> simp [firstRow?, empty]
  | cons row rest ih =>
    rw [List.foldl_cons, ih]
    unfold indexRow firstRow?
    cases cell : row[column]? with
    | none => simp [cell]
    | some own =>
      by_cases empty : own = ""
      · subst empty
        by_cases same : "" = name
        · simp [← same]
        · simp [cell, same]
      · by_cases same : own = name
        · subst same
          have answer : (index.insertIfNew own row)[own]? = (index[own]?).or (some row) := by
            rw [Std.HashMap.getElem?_insertIfNew]
            by_cases taken : own ∈ index
            · rw [if_neg (by simp [taken]), Std.HashMap.getElem?_eq_some_getElem taken]
              rfl
            · rw [if_pos (by simp [taken]), Std.HashMap.getElem?_eq_none taken]
              rfl
          simp only [String.isEmpty_iff, empty, if_false, answer, Option.or_assoc]
          simp [cell]
        · simp [Std.HashMap.getElem?_insertIfNew, empty, same, cell]

/-- An index answers with the first row of that name. -/
theorem indexColumn_getElem? (rows : List (List String)) (column : Nat) (name : String) :
    (indexColumn rows column)[name]? = firstRow? rows column name := by
  rw [indexColumn, foldl_indexRow_getElem?]
  simp

/-- A look-up in a table of given rows goes through the first row of that name. -/
theorem lookup?_ofRows {namespaces : List String} {source : Nat}
    (known : source < namespaces.length) (rows : List (List String)) (target : Nat)
    (name : String) : (ofRows namespaces rows).lookup? source target name =
      (firstRow? (rows.map (fitRow namespaces.length)) source name).bind (·[target]?) := by
  simp [lookup?, ofRows, known, indexColumn_getElem?]

/-- What a look-up answers stands in one of the rows. -/
theorem mem_of_lookup?_ofRows {namespaces : List String} {source target : Nat}
    (known : source < namespaces.length) {new : String}
    (found : (ofRows namespaces rows).lookup? source target name = some new) :
    ∃ row ∈ rows.map (fitRow namespaces.length), row[target]? = some new := by
  rw [lookup?_ofRows known, firstRow?] at found
  obtain ⟨row, first, cell⟩ := Option.bind_eq_some_iff.mp found
  split at first
  · cases first
  · exact ⟨row, List.mem_of_find?_eq_some first, cell⟩

end ClassNaming.MappingTable
