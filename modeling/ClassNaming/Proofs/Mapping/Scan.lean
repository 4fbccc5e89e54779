import ClassNaming.Proofs.Mapping.Table

/-!
# A look-up is a scan

An index answers at once what could also be found by going through the rows from the top: the first
row that bears the name counts, and no other.  Said in this way, a table needs neither indices nor
rows of one length.  A name that a row does not reach is empty, and a namespace that is listed twice
stands where it is listed first.

A resolver answers the same, but for an empty name, which it takes for no answer.  It does not look
for a later row with a better one.

## Main Definitions

* `cell` - the name in a column of a row, however short that is
* `scan?` - the answer that the first row of a name gives

## Main Results

* `resolve?_ofRows` - a table of given rows answers what a scan of them does
* `resolver_eq_ok_iff` - tables that can be bound to a namespace
* `lookups_are_scans` - tables and resolvers, for any rows
-/

namespace ClassNaming.MappingTable

variable {namespaces row : List String} {rows : List (List String)} {space name : String}
  {column : Nat} {table : MappingTable} {resolver : Resolver}

/-- The name in a column of a row, which is empty where the row ends before it. -/
def cell (row : List String) (column : Nat) : String := row[column]?.getD ""

/-- What a scan of the rows from the top answers: the `named` name in the first row that bears the
name in the namespace.  Names that are empty are looked for nowhere. -/
def scan? (namespaces : List String) (rows : List (List String)) (space name : String) :
    Option String :=
  if space ∈ namespaces ∧ targetNamespace ∈ namespaces ∧ name ≠ "" then
    (rows.find? fun row => cell row (namespaces.idxOf space) = name).map fun row =>
      cell row (namespaces.idxOf targetNamespace)
  else none

/-! ### Rows and columns -/

/-- A row that was fitted has a name in every column. -/
theorem getElem?_fitRow {width : Nat} (inside : column < width) (row : List String) :
    (fitRow width row)[column]? = some (cell row column) := by
  unfold fitRow cell
  rcases Nat.lt_or_ge column row.length with within | beyond
  · have taken : column < (row.take width).length := by
      rw [List.length_take]
      omega
    rw [List.getElem?_append_left taken, List.getElem?_take_of_lt inside,
      List.getElem?_eq_getElem within]
    rfl
  · have whole : row.take width = row := List.take_of_length_le (by omega)
    rw [whole, List.getElem?_append_right beyond, List.getElem?_eq_none beyond,
      List.getElem?_replicate_of_lt (by omega)]
    rfl

/-- A namespace stands in the column where it is listed first. -/
theorem column?_eq (table : MappingTable) (space : String) : table.column? space =
    if space ∈ table.namespaces then some (table.namespaces.idxOf space) else none := by
  rw [column?, List.findIdx?_eq_guard_findIdx_lt]
  show Option.guard _ (table.namespaces.idxOf space) = _
  simp only [Option.guard, decide_eq_true_eq, List.idxOf_lt_length_iff]

/-! ### Look-ups -/

/-- **A table of given rows answers what a scan of them does.** -/
theorem resolve?_ofRows (namespaces : List String) (rows : List (List String))
    (space name : String) :
    (ofRows namespaces rows).resolve? space name = scan? namespaces rows space name := by
  rw [resolve?, column?_eq, column?_eq, scan?]
  show (if space ∈ namespaces then _ else _ : Option Nat).bind (fun source =>
    (if targetNamespace ∈ namespaces then _ else _ : Option Nat).bind _) = _
  by_cases known : space ∈ namespaces
  case neg =>
    have nowhere : ¬(space ∈ namespaces ∧ targetNamespace ∈ namespaces ∧ name ≠ "") :=
      fun all => known all.1
    rw [if_neg known, if_neg nowhere]
    rfl
  by_cases target : targetNamespace ∈ namespaces
  case neg =>
    have nowhere : ¬(space ∈ namespaces ∧ targetNamespace ∈ namespaces ∧ name ≠ "") :=
      fun all => target all.2.1
    rw [if_pos known, if_neg target, if_neg nowhere]
    rfl
  rw [if_pos known, if_pos target]
  show (ofRows namespaces rows).lookup? (namespaces.idxOf space)
    (namespaces.idxOf targetNamespace) name = _
  have sourceInside := List.idxOf_lt_length_iff.mpr known
  have targetInside := List.idxOf_lt_length_iff.mpr target
  rw [lookup?_ofRows sourceInside, firstRow?]
  by_cases empty : name = ""
  case pos => simp [empty]
  have bears : (fun row => row[namespaces.idxOf space]? == some name) ∘ fitRow namespaces.length =
      fun row => decide (cell row (namespaces.idxOf space) = name) := by
    funext row
    rw [Function.comp_apply, getElem?_fitRow sourceInside]
    rfl
  have answers (row : List String) :
      (fitRow namespaces.length row)[namespaces.idxOf targetNamespace]? =
        some (cell row (namespaces.idxOf targetNamespace)) := getElem?_fitRow targetInside row
  rw [if_neg (by simpa using empty), if_pos ⟨known, target, empty⟩, List.find?_map, bears,
    Option.bind_map]
  simp only [Function.comp_def, answers]
  exact (Option.map_eq_bind ..).symm

/-- A table can be bound to a namespace if it has this one and `named`. -/
theorem resolver_eq_ok_iff : table.resolver space = .ok resolver ↔
    space ∈ table.namespaces ∧ targetNamespace ∈ table.namespaces ∧ resolver =
      { table, space, source := table.namespaces.idxOf space
        target := table.namespaces.idxOf targetNamespace } := by
  rw [MappingTable.resolver, column?_eq, column?_eq]
  by_cases known : space ∈ table.namespaces
  case neg => simp [known]
  by_cases target : targetNamespace ∈ table.namespaces
  case neg => simp [known, target]
  simp [known, target, eq_comm]

/-- A resolver answers what its table does, but for empty names. -/
theorem resolver_resolve? (bound : table.resolver space = .ok resolver) (name : String) :
    resolver.resolve? name = (table.resolve? space name).filter (· ≠ "") := by
  obtain ⟨known, target, rfl⟩ := resolver_eq_ok_iff.mp bound
  have answer : table.resolve? space name = table.lookup? (table.namespaces.idxOf space)
      (table.namespaces.idxOf targetNamespace) name := by
    rw [resolve?, column?_eq, column?_eq, if_pos known, if_pos target]
    rfl
  have nonempty : (fun named : String => !named.isEmpty) = fun named => decide (named ≠ "") := by
    funext named
    by_cases empty : named = "" <;> simp [empty]
  rw [Resolver.resolve?, answer, nonempty]

/-- **Look-ups are scans**, whatever the namespaces and the rows are.  A resolver is there just if
both of its namespaces are, and takes the answer of a scan unless that is empty. -/
theorem lookups_are_scans (namespaces : List String) (rows : List (List String)) (space : String) :
    (∀ name, (ofRows namespaces rows).resolve? space name = scan? namespaces rows space name) ∧
    ((∃ resolver, (ofRows namespaces rows).resolver space = .ok resolver) ↔
      space ∈ namespaces ∧ targetNamespace ∈ namespaces) ∧
    ∀ resolver, (ofRows namespaces rows).resolver space = .ok resolver → ∀ name,
      resolver.resolve? name = (scan? namespaces rows space name).filter (· ≠ "") := by
  refine ⟨resolve?_ofRows namespaces rows space, ?_, fun resolver bound name => ?_⟩
  · constructor
    · rintro ⟨resolver, bound⟩
      obtain ⟨known, target, -⟩ := resolver_eq_ok_iff.mp bound
      exact ⟨known, target⟩
    · rintro ⟨known, target⟩
      exact ⟨_, resolver_eq_ok_iff.mpr ⟨known, target, rfl⟩⟩
  · rw [resolver_resolve? bound, resolve?_ofRows]

/-- Namespaces that are listed twice. -/
def repeatedSpaces : List String := ["intermediary", "named", "intermediary", "named"]

/-- A row without a `named` name, one with the same name and with an answer, and one that is longer
than there are namespaces. -/
def unevenRows : List (List String) := [["a"], ["a", "A"], ["b", "B", "c", "C", "d"]]

theorem lookups_uneven : ∃ resolver,
    (ofRows repeatedSpaces unevenRows).resolver "intermediary" = .ok resolver ∧
    resolver.resolve? "a" = none ∧ resolver.resolve? "b" = some "B" ∧
    resolver.resolve? "c" = none ∧
    (ofRows repeatedSpaces unevenRows).resolve? "intermediary" "a" = some "" := by
  obtain ⟨answers, bound, same⟩ := lookups_are_scans repeatedSpaces unevenRows "intermediary"
  obtain ⟨resolver, bound⟩ := bound.mpr (by decide)
  refine ⟨resolver, bound, ?_, ?_, ?_, ?_⟩
  · rw [same resolver bound]
    decide
  · rw [same resolver bound]
    decide
  · rw [same resolver bound]
    decide
  · rw [answers]
    decide

end ClassNaming.MappingTable
