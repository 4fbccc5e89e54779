import ClassNaming.Text.Quoted

/-!
# Why a mapping file is refused

## Main Definitions

* `Complaint` - what is wrong with one line
* `MappingError` - what is wrong with a mapping file
* `MappingError.message` - the wording of all of them
-/

namespace ClassNaming

/-- What is wrong with a line of a mapping file. -/
inductive Complaint where
  /-- The first column names no kind of record that the first version knows. -/
  | unknownKind (kind : String)
  /-- The first column of an unindented line is not the class record of the second version. -/
  | unexpectedRecord (kind : String)
  /-- A column holds a backslash that starts no escape. -/
  | badEscape (column : String)
  /-- A class record has more names than there are namespaces. -/
  | tooManyNames (names namespaces : Nat)
  deriving Repr, DecidableEq

/-- The wording of a complaint. -/
def Complaint.message : Complaint → String
  | .unknownKind kind => "unknown record kind " ++ Text.quoted kind
  | .unexpectedRecord kind => "unexpected top-level record " ++ Text.quoted kind
  | .badEscape column => "bad escape sequence in " ++ Text.quoted column
  | .tooManyNames names namespaces =>
    toString names ++ " names for " ++ toString namespaces ++ " namespaces"

/-- Why a text is no mapping file. -/
inductive MappingError where
  /-- There is not even a header line. -/
  | empty
  /-- The header belongs to no known version. -/
  | unsupportedFormat (header : String)
  /-- The header names no namespace. -/
  | noNamespaces
  /-- The line with this number, counted from one, is no record. -/
  | malformed (line : Nat) (complaint : Complaint)
  deriving Repr, DecidableEq

/-- The wording of a mapping error. -/
def MappingError.message : MappingError → String
  | .empty => "mapping file is empty"
  | .unsupportedFormat header =>
    "unsupported mapping format (header: " ++ Text.quoted header ++ ")"
  | .noNamespaces => "mapping header declares no namespaces"
  | .malformed line complaint => "line " ++ toString line ++ ": " ++ complaint.message

end ClassNaming
