import ClassNaming.Mapping.Error
import ClassNaming.Text.Lines

/-!
# Mapping files

A mapping file is a text of tab-separated lines.  The header tells the version and names the
namespaces; each class record then gives one name per namespace.  Records of members and comments
are skipped.

* In the *first version* the header starts with `v1`, a class record with `CLASS`, member records
  with `FIELD` or `METHOD`, and a line that starts with `#` is a comment.
* In the *second version* the header starts with `tiny` and `2`, a class record with `c`, and every
  indented line belongs to the header or to a class.  The header property `escaped-names` turns on
  backslash escapes in names; it counts only before the first unindented line.

A record with fewer names than namespaces is filled up with empty names, one with more is refused.
The first line that is no record decides the error.

## Main Definitions

* `MappingFile` - the parsed file
* `Version.ofHeader?` - the version that a header declares
* `MappingFile.parse` - the reader
-/

namespace ClassNaming

/-- The two versions of the format. -/
inductive Version where
  | v1
  | v2
  deriving Repr, DecidableEq

/-- The namespaces of a mapping file, and one name per namespace for each class. -/
structure MappingFile where
  version : Version
  namespaces : List String
  classes : List (List String)
  deriving Repr, DecidableEq

/-- The version that the columns of a header declare. -/
def Version.ofColumns? : List String → Option Version
  | "v1" :: _ => some .v1
  | "tiny" :: "2" :: _ => some .v2
  | _ => none

/-- The version that a header line declares. -/
def Version.ofHeader? (header : String) : Option Version :=
  Version.ofColumns? (Text.columns header)

/-- How many header columns stand before the namespaces. -/
def Version.headerWidth : Version → Nat
  | .v1 => 1
  | .v2 => 3

namespace MappingFile

/-- The character that a letter stands for behind a backslash. -/
def unescapedLetter? : Char → Option Char
  | '\\' => some '\\'
  | 'n' => some '\n'
  | 'r' => some '\r'
  | 't' => some '\t'
  | '0' => some '\x00'
  | _ => none

/-- A name without its escapes; `done` holds the output so far, in reverse. -/
def unescapeFrom? (done : List Char) : List Char → Option (List Char)
  | [] => some done.reverse
  | ['\\'] => none
  | '\\' :: letter :: rest =>
    match unescapedLetter? letter with
    | some c => unescapeFrom? (c :: done) rest
    | none => none
  | c :: rest => unescapeFrom? (c :: done) rest

/-- A name without its escapes; `none` if a backslash starts no escape. -/
def unescape? (name : String) : Option String :=
  (unescapeFrom? [] name.toList).map String.ofList

/-- The names in the columns of a class record: unescaped if escaping is on, and filled up with
empty names to one per namespace. -/
def classNames (namespaces : Nat) (escaping : Bool) (cols : List String) :
    Except Complaint (List String) := do
  let names ← cols.mapM fun column =>
    if escaping then
      match unescape? column with
      | some name => .ok name
      | none => .error (.badEscape column)
    else .ok column
  if names.length > namespaces then
    .error (.tooManyNames names.length namespaces)
  else
    .ok (names ++ List.replicate (namespaces - names.length) "")

/-- What one body line contributes: a class, or nothing. -/
def classOfLine1 (namespaces : Nat) (line : String) : Except Complaint (Option (List String)) :=
  if line.isEmpty || line.startsWith "#" then .ok none
  else
    match Text.columns line with
    | "CLASS" :: cols => some <$> classNames namespaces false cols
    | "FIELD" :: _ => .ok none
    | "METHOD" :: _ => .ok none
    | kind :: _ => .error (.unknownKind kind)
    | [] => .ok none

/-- What one unindented body line contributes in the second version. -/
def classOfLine2 (namespaces : Nat) (escaping : Bool) (line : String) :
    Except Complaint (List String) :=
  match Text.columns line with
  | "c" :: cols => classNames namespaces escaping cols
  | kind :: _ => .error (.unexpectedRecord kind)
  | [] => .error (.unexpectedRecord "")

/-- Whether an indented line is the property that turns escaping on. -/
def isEscapingProperty (line : String) : Bool :=
  match Text.columns line with
  | "" :: "escaped-names" :: _ => true
  | _ => false

/-- The classes of a first-version body.  `number` is the number of the first line, `done` holds
the classes so far, in reverse. -/
def body1 (namespaces : Nat) (number : Nat) (done : List (List String)) :
    List String → Except MappingError (List (List String))
  | [] => .ok done.reverse
  | line :: rest =>
    match classOfLine1 namespaces (Text.withoutReturns line) with
    | .ok (some names) => body1 namespaces (number + 1) (names :: done) rest
    | .ok none => body1 namespaces (number + 1) done rest
    | .error complaint => .error (.malformed number complaint)

/-- Where the reader of a second-version body stands: escaping can be turned on only before the
first unindented line. -/
structure BodyState where
  inHeader : Bool
  escaping : Bool
  deriving Repr, DecidableEq

/-- The classes of a second-version body, as `body1`. -/
def body2 (namespaces : Nat) (state : BodyState) (number : Nat) (done : List (List String)) :
    List String → Except MappingError (List (List String))
  | [] => .ok done.reverse
  | ended :: rest =>
    let line := Text.withoutReturns ended
    if line.isEmpty then body2 namespaces state (number + 1) done rest
    else if line.startsWith "\t" then
      let turnsOn := state.inHeader && isEscapingProperty line
      body2 namespaces ⟨state.inHeader, state.escaping || turnsOn⟩ (number + 1) done rest
    else
      match classOfLine2 namespaces state.escaping line with
      | .ok names =>
        body2 namespaces ⟨false, state.escaping⟩ (number + 1) (names :: done) rest
      | .error complaint => .error (.malformed number complaint)

/-- Reads a mapping file. -/
def parse (text : String) : Except MappingError MappingFile :=
  match Text.lines text with
  | [] => .error .empty
  | first :: rest =>
    let header := Text.withoutReturns first
    match Version.ofHeader? header with
    | none => .error (.unsupportedFormat header)
    | some version =>
      let namespaces := (Text.columns header).drop version.headerWidth
      if namespaces.isEmpty then .error .noNamespaces
      else do
        let classes ← match version with
          | .v1 => body1 namespaces.length 2 [] rest
          | .v2 => body2 namespaces.length ⟨true, false⟩ 2 [] rest
        .ok { version, namespaces, classes }

end MappingFile

end ClassNaming
