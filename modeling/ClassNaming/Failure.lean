import ClassNaming.Archive.Error
import ClassNaming.ClassFile.Error
import ClassNaming.Mapping.Error
import ClassNaming.Mapping.Table

/-!
# Failures

A failure has one cause, and a *trail* of the actions that were going on when it arose, the
outermost first.  It is told as a chain of texts: the actions in their order, and then the cause.

## Main Definitions

* `Action` - what was being done
* `Cause` - what went wrong
* `Failure` - a cause with its trail
* `Failure.chain`, `Failure.message` - how a failure is told

## Design Notes

An archive error that only passes on a failure of the data underneath is told twice, once for itself
and once for that failure.
-/

namespace ClassNaming

/-- What was being done when a failure arose.  Places are paths, or locations inside archives. -/
inductive Action where
  | readClass (path : String)
  | renameClass (place : String)
  | writeClass (path : String)
  | openJar (path : String)
  | readStructure (place : String)
  | openEntry (place : String)
  | readEntry (place : String)
  | createStaging (path : String)
  | replaceArchive (staging path : String)
  | removeStaging (path : String)
  | createSnapshot (path : String)
  | restoreSnapshot (path : String)
  | removeDirectory (path : String)
  | removeFile (path : String)
  | inspect (path : String)
  | copyFile (source destination : String)
  | readLink (path : String)
  | createLink (path target : String)
  | createDirectory (path : String)
  | readMapping (path : String)
  | parseMapping
  | loadMapping (path : String)
  deriving Repr, DecidableEq

/-- The wording of an action that failed. -/
def Action.message : Action → String
  | readClass path => "Failed to read class: " ++ path
  | renameClass place => "Failed to remap class: " ++ place
  | writeClass path => "Failed to write class: " ++ path
  | openJar path => "Failed to open jar: " ++ path
  | readStructure place => "Failed to read zip structure: " ++ place
  | openEntry place => "Failed to open entry: " ++ place
  | readEntry place => "Failed to read entry: " ++ place
  | createStaging path => "Failed to create staging file: " ++ path
  | replaceArchive staging path => "Failed to replace archive: " ++ staging ++ " -> " ++ path
  | removeStaging path => "Failed to remove staging file: " ++ path
  | createSnapshot path => "Failed to create backup: " ++ path
  | restoreSnapshot path => "Failed to restore backup: " ++ path
  | removeDirectory path => "Failed to remove directory: " ++ path
  | removeFile path => "Failed to remove file: " ++ path
  | inspect path => "Failed to stat " ++ path
  | copyFile source destination => "Failed to copy " ++ source ++ " -> " ++ destination
  | readLink path => "Failed to read link: " ++ path
  | createLink path target => "Failed to create link " ++ path ++ " -> " ++ target
  | createDirectory path => "Failed to create directory: " ++ path
  | readMapping path => "Failed to read mapping file: " ++ path
  | parseMapping => "Failed to parse mapping file"
  | loadMapping path => "Invalid mapping file: " ++ path

/-- What went wrong. -/
inductive Cause where
  | classFile (e : ClassFileError)
  | mapping (e : MappingError)
  | archive (e : ArchiveError)
  | io (e : IoError)
  /-- The mapping lacks a namespace. -/
  | missingNamespace (missing : MissingNamespace)
  /-- There is nothing at the path that a run was asked to work on. -/
  | missingPath (path : String)
  /-- The mapping file at the path has no line. -/
  | emptyMapping (path : String)
  /-- Something exists where a copy was to be made. -/
  | copyTargetExists (path : String)
  /-- A path at or below the root of a listing could not be looked at. -/
  | listing (root path : String) (e : IoError)
  /-- Archives lie within archives beyond the limit. -/
  | nestedTooDeep
  /-- A failure of whoever uses this library. -/
  | other (message : String)
  deriving Repr, DecidableEq

/-- The texts that tell a cause. -/
def Cause.chain : Cause → List String
  | classFile e => [e.message]
  | mapping e => [e.message]
  | archive (.io e) => [e.message, e.message]
  | archive e => [e.message]
  | io e => [e.message]
  | missingNamespace missing => [missing.message]
  | missingPath path => ["Path does not exist: " ++ path]
  | emptyMapping path => ["Mapping file is empty: " ++ path]
  | copyTargetExists path => ["Copy target already exists: " ++ path]
  | listing root path e =>
    ["Failed to walk " ++ root ++ ": " ++ path ++ ": IO error for operation on " ++ path ++ ": "
      ++ e.message]
  | nestedTooDeep => ["archives are nested too deeply"]
  | other message => [message]

/-- A cause, and the actions that were going on, the outermost first. -/
structure Failure where
  trail : List Action
  cause : Cause
  deriving Repr, DecidableEq

namespace Failure

/-- A failure without a trail. -/
def ofCause (cause : Cause) : Failure := ⟨[], cause⟩

/-- A failure as it is seen by whoever was doing the action. -/
def during (action : Action) (f : Failure) : Failure := { f with trail := action :: f.trail }

/-- The texts that tell a failure, the outermost action first. -/
def chain (f : Failure) : List String := f.trail.map Action.message ++ f.cause.chain

/-- A failure in one line. -/
def message (f : Failure) : String := String.intercalate ": " f.chain

end Failure

end ClassNaming
