import Std.Data.HashMap
import ClassNaming.Mapping.File

/-!
# Mapping tables

A table holds one row per class, with one name per namespace.  For each namespace an index leads
from a name to the row of the *first* class that bears it; empty names are not indexed.  A resolver
is a table bound to a source namespace, and always leads into `named`.

Where a namespace is listed twice its first column counts.

## Main Definitions

* `MappingTable` - namespaces, rows and one index per namespace
* `MappingTable.ofRows` - the table of a list of rows of any length
* `MappingTable.resolve?` - the `named` name of a class
* `Resolver` - a table bound to one source namespace
-/

namespace ClassNaming

/-- The namespace that every name is resolved into. -/
def targetNamespace : String := "named"

/-- From the names of one namespace to the rows that bear them. -/
abbrev NameIndex := Std.HashMap String (List String)

/-- A table of class names: one row per class, one name per namespace. -/
structure MappingTable where
  namespaces : List String
  rows : List (List String)
  index : List NameIndex

namespace MappingTable

/-- A row filled up with empty names, or cut, to the given number of names. -/
def fitRow (width : Nat) (row : List String) : List String :=
  row.take width ++ List.replicate (width - row.length) ""

/-- Adds a row under its name in one column, unless that name is empty or taken. -/
def indexRow (column : Nat) (index : NameIndex) (row : List String) : NameIndex :=
  match row[column]? with
  | none => index
  | some name => if name.isEmpty then index else index.insertIfNew name row

/-- The index of one column. -/
def indexColumn (rows : List (List String)) (column : Nat) : NameIndex :=
  rows.foldl (indexRow column) ∅

/-- The table of the given rows, each fitted to one name per namespace. -/
def ofRows (namespaces : List String) (rows : List (List String)) : MappingTable :=
  let fitted := rows.map (fitRow namespaces.length)
  { namespaces
    rows := fitted
    index := (List.range namespaces.length).map (indexColumn fitted) }

/-- The number of classes. -/
def size (table : MappingTable) : Nat := table.rows.length

/-- The column of a namespace. -/
def column? (table : MappingTable) (space : String) : Option Nat :=
  table.namespaces.findIdx? (· == space)

/-- The name in column `target` of the class called `name` in column `source`. -/
def lookup? (table : MappingTable) (source target : Nat) (name : String) : Option String := do
  let index ← table.index[source]?
  let row ← index[name]?
  row[target]?

/-- The `named` name of the class called `name` in a namespace.  It is empty where the table
leaves the class without one. -/
def resolve? (table : MappingTable) (space name : String) : Option String := do
  let source ← table.column? space
  let target ← table.column? targetNamespace
  table.lookup? source target name

end MappingTable

/-- A namespace that a table was asked for and does not have. -/
structure MissingNamespace where
  wanted : String
  found : List String
  deriving Repr, DecidableEq

/-- The wording of a missing namespace. -/
def MissingNamespace.message (missing : MissingNamespace) : String :=
  "Mapping has no " ++ Text.quoted missing.wanted ++ " namespace (found: "
    ++ String.intercalate ", " missing.found ++ ")"

/-- A table bound to a source namespace. -/
structure Resolver where
  table : MappingTable
  space : String
  source : Nat
  target : Nat

/-- Binds a table to a source namespace, which it must have beside `named`. -/
def MappingTable.resolver (table : MappingTable) (space : String) :
    Except MissingNamespace Resolver :=
  match table.column? space with
  | none => .error ⟨space, table.namespaces⟩
  | some source =>
    match table.column? targetNamespace with
    | none => .error ⟨targetNamespace, table.namespaces⟩
    | some target => .ok { table, space, source, target }

/-- The name that a class is renamed to: none if the table does not know the class or leaves it
without a name. -/
def Resolver.resolve? (resolver : Resolver) (name : String) : Option String :=
  (resolver.table.lookup? resolver.source resolver.target name).filter fun named => !named.isEmpty

end ClassNaming
