import ClassNaming.Detail.Renamer
import ClassNaming.Log.Level
import ClassNaming.Text.Quoted

/-!
# Log events

Whatever a run does that may be worth telling is an event.  An event has a level and is told in one
line: the level, a text, and fields of a name and a value.  It also has a *source*, the part of the
program that it comes from.

## Main Definitions

* `Place` - a file, or an entry of an archive
* `Tally` - how many classes and archives were seen and changed
* `Event` - the events
* `Event.source`, `Event.fieldNames` - what filters can ask for
* `Event.line` - how an event is told
-/

namespace ClassNaming

/-- Where a class or an archive was found. -/
inductive Place where
  /-- In a file of its own. -/
  | file (path : String)
  /-- In an archive, as the entry of a location. -/
  | entry (location : String)
  deriving Repr, DecidableEq

/-- How many classes and archives were seen, how many of the classes had details renamed, and how
many of the archives were rebuilt for that. -/
structure Tally where
  classesSeen : Nat
  classesRenamed : Nat
  archivesSeen : Nat
  archivesRebuilt : Nat
  deriving Repr, DecidableEq

namespace Tally

/-- Nothing was seen so far. -/
def zero : Tally := ⟨0, 0, 0, 0⟩

/-- Whether the details of any class were renamed. -/
def changed (t : Tally) : Bool := t.classesRenamed > 0

/-- One more class was seen. -/
def seeClass (t : Tally) : Tally := { t with classesSeen := t.classesSeen + 1 }

/-- The details of one more class were renamed. -/
def renameClass (t : Tally) : Tally := { t with classesRenamed := t.classesRenamed + 1 }

/-- One more archive was seen. -/
def seeArchive (t : Tally) : Tally := { t with archivesSeen := t.archivesSeen + 1 }

/-- One more archive was rebuilt. -/
def rebuildArchive (t : Tally) : Tally := { t with archivesRebuilt := t.archivesRebuilt + 1 }

end Tally

/-- Something that may be worth telling. -/
inductive Event where
  /-- The mapping was read, and bound to a namespace. -/
  | loaded (mapping : String) (classes : Nat) (space : String) (strategy : Strategy)
  /-- A class was looked at and kept for a reason worth telling. -/
  | remark (text : String)
  | classRenamed (place : Place)
  | archiveRebuilt (place : Place)
  | archiveUnchanged (path : String)
  /-- An entry was taken over as it is. -/
  | copied (location : String)
  /-- A listing begins, in a working directory. -/
  | listed (directory : String)
  /-- A file is neither a class nor an archive. -/
  | skipped (path : String)
  /-- All files of the target were looked at. -/
  | swept (tally : Tally)
  /-- The target was taken back from its snapshot. -/
  | restored (target : String)
  /-- The run ends without a change. -/
  | unchanged (target : String)
  deriving Repr, DecidableEq

/-- A field whose value is a place. -/
def Place.field : Place → String × String
  | file path => ("path", path)
  | entry location => ("entry", location)

/-- The name of a strategy in log lines. -/
def Strategy.label : Strategy → String
  | passes => "Legacy"
  | spans => "Spans"

namespace Event

/-- The level of an event. -/
def level : Event → Level
  | loaded .. | swept _ | restored _ | unchanged _ => .info
  | classRenamed _ | archiveRebuilt _ => .debug
  | remark _ | listed _ | archiveUnchanged _ | copied _ | skipped _ => .trace

/-- The source of the events of the program as a whole, which all of its parts start with. -/
def program : String := "metadata_remapper"

/-- Whether an event comes from the walker of folders, which knows nothing of this program. -/
def isForeign : Event → Bool
  | listed _ => true
  | _ => false

/-- The part of the program that an event comes from. -/
def source : Event → String
  | loaded .. | swept _ | unchanged _ => program
  | restored _ => program ++ "::backup"
  | remark _ => program ++ "::rewrite"
  | classRenamed _ | archiveRebuilt _ | archiveUnchanged _ | copied _ | skipped _ =>
    program ++ "::walk"
  | listed _ => "ignore::walk"

/-- The text of an event. -/
def text : Event → String
  | loaded .. => "loaded mappings"
  | remark text => text
  | classRenamed _ => "remapped class metadata"
  | archiveRebuilt (.file _) => "rewrote archive"
  | archiveRebuilt (.entry _) => "rewrote nested archive"
  | archiveUnchanged _ => "archive unchanged"
  | copied _ => "copied entry"
  | listed directory => "automatically discovered CWD: " ++ directory
  | skipped _ => "skipping"
  | swept _ => "walk finished"
  | restored _ => "restored from backup"
  | unchanged _ => "target left unchanged"

/-- The fields that an event is told with: names and values. -/
def fields : Event → List (String × String)
  | loaded mapping classes space strategy =>
    [("mapping", mapping), ("classes", toString classes), ("namespace", Text.quoted space),
      ("strategy", strategy.label)]
  | remark _ | listed _ => []
  | classRenamed place | archiveRebuilt place => [place.field]
  | archiveUnchanged path | skipped path => [("path", path)]
  | copied location => [("entry", location)]
  | swept tally =>
    [("classes", toString tally.classesSeen), ("remapped", toString tally.classesRenamed),
      ("archives", toString tally.archivesSeen), ("rebuilt", toString tally.archivesRebuilt)]
  | restored target | unchanged target => [("target", target)]

/-- The names of all fields of an event.  Its text counts as one; foreign events also have fields on
where they come from, which are not told. -/
def fieldNames (e : Event) : List String :=
  if e.isForeign then ["message", "log.target", "log.module_path", "log.file", "log.line"]
  else "message" :: e.fields.map Prod.fst

/-- A level in a column of five characters, aligned to the right. -/
def levelColumn (level : Level) : String :=
  String.ofList (List.replicate (5 - level.label.length) ' ') ++ level.label

/-- How an event is told, without the end of the line. -/
def line (e : Event) : String :=
  levelColumn e.level ++ " " ++ e.text
    ++ String.join (e.fields.map fun (name, value) => " " ++ name ++ "=" ++ value)

end Event

end ClassNaming
