import ClassNaming.Mapping.File
import ClassNaming.Proofs.Text.Lines

/-!
# Mapping files that were written are read back

A mapping can be written in three dialects: the first version of the format, and the second one with
names as they are or with escapes in them.  The first two are for names that stay within a column.
Escapes make a column of any name, so the third is for all names.

Namespaces stand in the header, where no dialect has escapes.

## Main Definitions

* `Dialect` - the three ways to write a mapping
* `MappingFile.escape` - a name with escapes
* `MappingFile.render` - a mapping that is written out

## Main Results

* `MappingFile.unescape?_escape` - escapes are undone, whatever the name holds
* `MappingFile.parse_render` - a mapping that was written is read back, in every dialect
-/

namespace ClassNaming

/-- The ways to write a mapping. -/
inductive Dialect where
  /-- The first version. -/
  | first
  /-- The second version, with names as they are. -/
  | verbatim
  /-- The second version, with escapes in names. -/
  | escaped
  deriving Repr, DecidableEq

namespace Dialect

/-- The version of the format. -/
def version : Dialect → Version
  | first => .v1
  | verbatim | escaped => .v2

/-- The columns of the header before the namespaces. -/
def header : Dialect → List String
  | first => ["v1"]
  | verbatim | escaped => ["tiny", "2", "0"]

/-- The first column of a class record. -/
def kind : Dialect → String
  | first => "CLASS"
  | verbatim | escaped => "c"

/-- Whether names are written with escapes. -/
def escapes : Dialect → Bool
  | first | verbatim => false
  | escaped => true

/-- The lines of the header below the first: the property that turns escapes on. -/
def properties (dialect : Dialect) : List (List String) :=
  if dialect.escapes then [["", "escaped-names"]] else []

theorem kind_of_second (dialect : Dialect) (second : dialect.version = .v2) :
    dialect.kind = "c" := by
  cases dialect with
  | first => cases second
  | verbatim | escaped => rfl

end Dialect

namespace MappingFile

variable {dialect : Dialect} {namespaces row : List String} {rows : List (List String)}

/-- A character with the escape that it needs. -/
def escapeChar : Char → List Char
  | '\\' => ['\\', '\\']
  | '\n' => ['\\', 'n']
  | '\r' => ['\\', 'r']
  | '\t' => ['\\', 't']
  | '\x00' => ['\\', '0']
  | c => [c]

/-- A name with escapes. -/
def escape (name : String) : String := String.ofList (name.toList.flatMap escapeChar)

/-- A name as it is written. -/
def spelled (escaping : Bool) (name : String) : String := if escaping then escape name else name

/-- The columns of a class record. -/
def record (dialect : Dialect) (row : List String) : List String :=
  dialect.kind :: row.map (spelled dialect.escapes)

/-- A mapping that is written out. -/
def render (dialect : Dialect) (namespaces : List String) (rows : List (List String)) : String :=
  Text.ofLines (Text.ofColumns (dialect.header ++ namespaces) ::
    (dialect.properties ++ rows.map (record dialect)).map Text.ofColumns)

/-- A row filled up with empty names. -/
def filled (namespaces : Nat) (row : List String) : List String :=
  row ++ List.replicate (namespaces - row.length) ""

/-! ### Escapes -/

theorem unescapeFrom?_cons {c : Char} (plain : c ≠ '\\') (done rest : List Char) :
    unescapeFrom? done (c :: rest) = unescapeFrom? (c :: done) rest := by
  rw [unescapeFrom?]
  · exact fun same => absurd same plain
  · exact fun _ _ same => absurd same plain

/-- One character is read back from its escape. -/
theorem unescapeFrom?_escapeChar (c : Char) (done rest : List Char) :
    unescapeFrom? done (escapeChar c ++ rest) = unescapeFrom? (c :: done) rest := by
  unfold escapeChar
  split
  case h_6 plain _ _ _ _ => exact unescapeFrom?_cons plain done rest
  all_goals rfl

theorem unescapeFrom?_escape (done name : List Char) :
    unescapeFrom? done (name.flatMap escapeChar) = some (done.reverse ++ name) := by
  induction name generalizing done with
  | nil => simp [unescapeFrom?]
  | cons c name ih => simp [unescapeFrom?_escapeChar, ih]

/-- Escapes are undone, whatever the name holds. -/
theorem unescape?_escape (name : String) : unescape? (escape name) = some name := by
  rw [unescape?, escape, String.toList_ofList, unescapeFrom?_escape]
  simp

/-- A name with escapes stays within its column. -/
theorem flat_escape (name : String) : Text.Flat (escape name).toList := by
  intro c inside
  rw [escape, String.toList_ofList] at inside
  obtain ⟨plain, -, mem⟩ := List.mem_flatMap.mp inside
  unfold escapeChar at mem
  split at mem
  case h_6 =>
    obtain rfl := List.mem_singleton.mp mem
    simp_all
  all_goals
    rcases List.mem_pair.mp mem with rfl | rfl <;> decide

/-! ### Class records -/

theorem mapM_map_ok {α β ε : Type} {read : β → Except ε α} {write : α → β}
    (back : ∀ value, read (write value) = .ok value) (values : List α) :
    (values.map write).mapM read = .ok values := by
  induction values with
  | nil => rfl
  | cons value values ih =>
    rw [List.map_cons, List.mapM_cons, back, ih]
    rfl

/-- The names of a record are those that were written, and empty ones. -/
theorem classNames_spelled {count : Nat} (escaping : Bool) (fits : row.length ≤ count) :
    classNames count escaping (row.map (spelled escaping)) = .ok (filled count row) := by
  rw [classNames, mapM_map_ok]
  · exact if_neg (Nat.not_lt.mpr fits)
  · intro name
    cases escaping with
    | false => rfl
    | true => simp only [spelled, if_true, unescape?_escape]

/-- No column of a record leaves its place. -/
theorem flat_of_mem_record
    (names : dialect.escapes = false → ∀ name ∈ row, Text.Flat name.toList) :
    ∀ col ∈ record dialect row, Text.Flat col.toList := by
  intro col mem
  rcases List.mem_cons.mp mem with rfl | mem
  · cases dialect <;> decide
  · obtain ⟨name, member, rfl⟩ := List.mem_map.mp mem
    unfold spelled
    split
    case isTrue => exact flat_escape name
    case isFalse plain => exact names (by simpa using plain) name member

/-! ### Bodies -/

/-- A line of flat columns. -/
theorem flat_ofColumns {cols : List String} (flat : ∀ col ∈ cols, Text.Flat col.toList) :
    '\n' ∉ (Text.ofColumns cols).toList ∧ '\r' ∉ (Text.ofColumns cols).toList :=
  ⟨Text.notMem_ofColumns (by decide) fun col mem feed => flat col mem _ feed (by decide),
    Text.notMem_ofColumns (by decide) fun col mem feed => flat col mem _ feed (by decide)⟩

/-- What a record of the first version contributes. -/
theorem classOfLine1_record {count : Nat} (fits : row.length ≤ count)
    (flat : ∀ name ∈ row, Text.Flat name.toList) :
    classOfLine1 count (Text.ofColumns (record .first row)) = .ok (some (filled count row)) := by
  have columns : Text.columns (Text.ofColumns (record .first row)) = record .first row :=
    Text.columns_ofColumns (by simp [record]) (flat_of_mem_record fun _ => flat)
  obtain ⟨rest, whole⟩ := Text.exists_ofColumns_cons "CLASS" (row.map (spelled false))
  have some_line : (Text.ofColumns (record .first row)).isEmpty = false := by
    simp [← String.toList_eq_nil_iff, record, Dialect.kind, Dialect.escapes, whole]
  have no_comment : (Text.ofColumns (record .first row)).startsWith "#" = false := by
    simp [record, Dialect.kind, Dialect.escapes, whole]
  rw [classOfLine1, some_line, no_comment, columns]
  exact congrArg (Except.map some) (classNames_spelled false fits)

/-- Records of the first version give their rows, one after the other. -/
theorem body1_records {count : Nat} (number : Nat) (done : List (List String))
    (fits : ∀ row ∈ rows, row.length ≤ count)
    (flat : ∀ row ∈ rows, ∀ name ∈ row, Text.Flat name.toList) :
    body1 count number done (rows.map fun row => Text.ofColumns (record .first row)) =
      .ok (done.reverse ++ rows.map (filled count)) := by
  induction rows generalizing number done with
  | nil => simp [body1]
  | cons row later ih =>
    have ends : _ ∧ '\r' ∉ (Text.ofColumns (record .first row)).toList :=
      flat_ofColumns (flat_of_mem_record fun _ => flat row List.mem_cons_self)
    rw [List.map_cons, body1, Text.withoutReturns_of_notMem ends.2,
      classOfLine1_record (fits row List.mem_cons_self) (flat row List.mem_cons_self)]
    simp only
    rw [ih _ _ (fun other mem => fits other (List.mem_cons_of_mem _ mem))
      fun other mem => flat other (List.mem_cons_of_mem _ mem)]
    simp

/-- What a record of the second version contributes. -/
theorem classOfLine2_record {count : Nat} (second : dialect.version = .v2)
    (fits : row.length ≤ count)
    (flat : dialect.escapes = false → ∀ name ∈ row, Text.Flat name.toList) :
    classOfLine2 count dialect.escapes (Text.ofColumns (record dialect row)) =
      .ok (filled count row) := by
  have columns : Text.columns (Text.ofColumns (record dialect row)) = record dialect row :=
    Text.columns_ofColumns (by simp [record]) (flat_of_mem_record flat)
  rw [classOfLine2, columns, record, dialect.kind_of_second second]
  exact classNames_spelled dialect.escapes fits

/-- Records of the second version give their rows, whether the header is over or not. -/
theorem body2_records {count : Nat} (inHeader : Bool) (number : Nat) (done : List (List String))
    (second : dialect.version = .v2) (fits : ∀ row ∈ rows, row.length ≤ count)
    (flat : dialect.escapes = false → ∀ row ∈ rows, ∀ name ∈ row, Text.Flat name.toList) :
    body2 count ⟨inHeader, dialect.escapes⟩ number done
        (rows.map fun row => Text.ofColumns (record dialect row)) =
      .ok (done.reverse ++ rows.map (filled count)) := by
  induction rows generalizing inHeader number done with
  | nil => simp [body2]
  | cons row later ih =>
    have here : dialect.escapes = false → ∀ name ∈ row, Text.Flat name.toList :=
      fun plain => flat plain row List.mem_cons_self
    have ends := flat_ofColumns (flat_of_mem_record here)
    have kind := dialect.kind_of_second second
    obtain ⟨rest, whole⟩ := Text.exists_ofColumns_cons "c" (row.map (spelled dialect.escapes))
    have some_line : (Text.ofColumns (record dialect row)).isEmpty = false := by
      simp [← String.toList_eq_nil_iff, record, kind, whole]
    have unindented : (Text.ofColumns (record dialect row)).startsWith "\t" = false := by
      simp [record, kind, whole]
    rw [List.map_cons, body2]
    simp only [Text.withoutReturns_of_notMem ends.2, some_line, unindented,
      classOfLine2_record second (fits row List.mem_cons_self) here, Bool.false_eq_true, if_false]
    rw [ih false _ _ (fun other mem => fits other (List.mem_cons_of_mem _ mem))
      fun plain other mem => flat plain other (List.mem_cons_of_mem _ mem)]
    simp

/-- The property turns escapes on. -/
theorem body2_property (count : Nat) (rest : List String) :
    body2 count ⟨true, false⟩ 2 [] (Text.ofColumns ["", "escaped-names"] :: rest) =
      body2 count ⟨true, true⟩ 3 [] rest := by
  have line : Text.ofColumns ["", "escaped-names"] = "\tescaped-names" := by decide
  have ends : '\r' ∉ "\tescaped-names".toList := by decide
  have known : isEscapingProperty "\tescaped-names" = true := by decide
  rw [body2]
  simp [line, Text.withoutReturns_of_notMem ends, known]

/-! ### Whole files -/

theorem flat_header : ∀ col ∈ dialect.header, Text.Flat col.toList := by
  cases dialect <;> decide

theorem flat_properties : ∀ cols ∈ dialect.properties, ∀ col ∈ cols, Text.Flat col.toList := by
  cases dialect <;> decide

/-- The lines of a mapping that is written out. -/
theorem lines_render (spaces : ∀ space ∈ namespaces, Text.Flat space.toList)
    (names : dialect.escapes = false → ∀ row ∈ rows, ∀ name ∈ row, Text.Flat name.toList) :
    Text.lines (render dialect namespaces rows) =
      Text.ofColumns (dialect.header ++ namespaces) ::
        (dialect.properties ++ rows.map (record dialect)).map Text.ofColumns := by
  refine Text.lines_ofLines fun line mem => ?_
  rcases List.mem_cons.mp mem with rfl | mem
  · refine flat_ofColumns fun col inside => ?_
    exact (List.mem_append.mp inside).elim (flat_header col) (spaces col)
  · obtain ⟨cols, inside, rfl⟩ := List.mem_map.mp mem
    refine flat_ofColumns ?_
    rcases List.mem_append.mp inside with property | member
    · exact flat_properties cols property
    · obtain ⟨row, written, rfl⟩ := List.mem_map.mp member
      exact flat_of_mem_record fun plain => names plain row written

/-- The header of a mapping that is written out is read, and then the lines below it. -/
theorem parse_header (namespaces_ne : namespaces ≠ [])
    (spaces : ∀ space ∈ namespaces, Text.Flat space.toList)
    (names : dialect.escapes = false → ∀ row ∈ rows, ∀ name ∈ row, Text.Flat name.toList) :
    parse (render dialect namespaces rows) = MappingFile.mk dialect.version namespaces <$>
      match dialect.version with
      | .v1 => body1 namespaces.length 2 []
          ((dialect.properties ++ rows.map (record dialect)).map Text.ofColumns)
      | .v2 => body2 namespaces.length ⟨true, false⟩ 2 []
          ((dialect.properties ++ rows.map (record dialect)).map Text.ofColumns) := by
  have flat : ∀ col ∈ dialect.header ++ namespaces, Text.Flat col.toList := fun col mem =>
    (List.mem_append.mp mem).elim (flat_header col) (spaces col)
  have columns : Text.columns (Text.ofColumns (dialect.header ++ namespaces)) =
      dialect.header ++ namespaces := Text.columns_ofColumns (by simp [namespaces_ne]) flat
  have known : Version.ofHeader? (Text.ofColumns (dialect.header ++ namespaces)) =
      some dialect.version := by
    rw [Version.ofHeader?, columns]
    cases dialect <;> rfl
  have named : (dialect.header ++ namespaces).drop dialect.version.headerWidth = namespaces := by
    cases dialect <;> rfl
  have some_spaces : namespaces.isEmpty = false := by simpa using namespaces_ne
  rw [parse, lines_render spaces names]
  simp only [Text.withoutReturns_of_notMem (flat_ofColumns flat).2, known, columns, named,
    some_spaces, Bool.false_eq_true, if_false]
  cases dialect <;> rfl

/-- **A mapping that was written is read back**, in every dialect: the same namespaces and the same
rows, with empty names where a row was short. -/
theorem parse_render (namespaces_ne : namespaces ≠ [])
    (spaces : ∀ space ∈ namespaces, Text.Flat space.toList)
    (fits : ∀ row ∈ rows, row.length ≤ namespaces.length)
    (names : dialect.escapes = false → ∀ row ∈ rows, ∀ name ∈ row, Text.Flat name.toList) :
    parse (render dialect namespaces rows) =
      .ok { version := dialect.version, namespaces
            classes := rows.map (filled namespaces.length) } := by
  rw [parse_header namespaces_ne spaces names]
  simp only [List.map_append, List.map_map, Function.comp_def]
  cases dialect with
  | first =>
    have classes := body1_records 2 [] fits (names rfl)
    simp only [Dialect.version, Dialect.properties, Dialect.escapes, Bool.false_eq_true, if_false,
      List.map_nil, List.nil_append, classes]
    rfl
  | verbatim =>
    have classes := body2_records true 2 [] rfl fits names
    simp only [Dialect.version, Dialect.properties, Dialect.escapes, Bool.false_eq_true, if_false,
      List.map_nil, List.nil_append] at classes ⊢
    rw [classes]
    rfl
  | escaped =>
    have classes := body2_records true 3 [] rfl fits names
    simp only [Dialect.version, Dialect.properties, Dialect.escapes, if_true, List.map_nil,
      List.map_cons, List.cons_append, List.nil_append, body2_property] at classes ⊢
    rw [classes]
    rfl

/-- Names that stay within a column, of which some look like escapes, and short rows. -/
def plainRows : List (List String) := [["a", "b\\n"], ["#c\\"], []]

/-- Names that hold what ends columns and lines, and what starts an escape. -/
def oddRows : List (List String) := [["a\tb\\", "\r\n\x00"], ["\\\\n\r"], []]

theorem parse_samples :
    parse (render .first ["intermediary", "named"] plainRows) =
      .ok ⟨.v1, ["intermediary", "named"], [["a", "b\\n"], ["#c\\", ""], ["", ""]]⟩ ∧
    parse (render .verbatim ["intermediary", "named"] plainRows) =
      .ok ⟨.v2, ["intermediary", "named"], [["a", "b\\n"], ["#c\\", ""], ["", ""]]⟩ ∧
    parse (render .escaped ["intermediary", "named"] oddRows) =
      .ok ⟨.v2, ["intermediary", "named"], [["a\tb\\", "\r\n\x00"], ["\\\\n\r", ""], ["", ""]]⟩ :=
  ⟨parse_render (by decide) (by decide) (by decide) (by decide),
    parse_render (by decide) (by decide) (by decide) (by decide),
    parse_render (by decide) (by decide) (by decide) (by decide)⟩

end MappingFile

end ClassNaming
