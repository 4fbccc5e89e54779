import ClassNaming.Detail.Reference
import ClassNaming.Mapping.Mode
import ClassNaming.Mapping.Table

/-!
# Renaming the references of a detail

A renamer knows the sentinel of its mode and a resolver.  A reference whose name the resolver does
not know, or would rename to a text that holds the sentinel again, stays as it is.

There are two strategies.

* *Spans* renames each reference of the detail once, on its own.
* *Passes* is the default.  Each pass takes the first reference of the whole text and replaces its
  name *wherever* it occurs, also as the beginning of a longer name or behind an earlier
  replacement; it repeats this until no sentinel is left.  A name that stays as it is would be found
  again for ever, so it is defused: a NUL goes into every `net` of it, and at the end all NULs are
  removed, also those that the detail had from the start.

## Main Definitions

* `Strategy` - the two strategies
* `Renamer` - resolver, mode and strategy
* `Renamer.lookup?` - the usable new name of a reference
* `Renamer.pass?`, `Renamer.settle` - one pass, and passes until none is left to do
* `Renamer.rename` - the renamed detail

## Design Notes

A pass may make a text longer, and a replacement may complete a new sentinel together with its
neighbours, so the length of the text bounds nothing, and there are texts of which the passes never
come to an end.  `settle` is therefore a least fixed point: `none` means that it goes on for ever.
-/

namespace ClassNaming

/-- How the references of a detail are renamed. -/
inductive Strategy where
  /-- One name after the other is replaced in the whole text. -/
  | passes
  /-- Each reference is replaced once, on its own. -/
  | spans
  deriving Repr, DecidableEq

/-- What is needed to rename references. -/
structure Renamer where
  resolver : Resolver
  mode : NamingMode
  strategy : Strategy

namespace Renamer

/-- The text that starts a reference. -/
def sentinel (renamer : Renamer) : List Char := renamer.mode.sentinel.toList

/-- The references of a detail. -/
def references (renamer : Renamer) (detail : String) : List Detail.Reference :=
  Detail.references renamer.sentinel detail.toList

/-- The new name of a reference.  A new name that holds the sentinel is not usable. -/
def lookup? (renamer : Renamer) (name : List Char) : Option (List Char) :=
  match renamer.resolver.resolve? (String.ofList name) with
  | none => none
  | some named =>
    if Text.occursIn renamer.sentinel named.toList then none else some named.toList

/-! ### Spans -/

/-- A fragment with its reference renamed. -/
def renameFragment (renamer : Renamer) : Detail.Fragment → List Char
  | .plain text => text
  | .reference name => (renamer.lookup? name).getD name

/-- Every reference renamed on its own. -/
def renameSpans (renamer : Renamer) (detail : List Char) : List Char :=
  (Detail.fragments renamer.sentinel detail).flatMap renamer.renameFragment

/-! ### Passes -/

/-- The character that keeps a name from being found again. -/
def marker : Char := '\x00'

/-- A name that no longer holds the sentinel: a marker goes into every `net`. -/
def defuse (name : List Char) : List Char :=
  Text.replaceAll ['n', 'e', 't'] ['n', 'e', marker, 't'] name

/-- One pass: the name of the first reference is replaced wherever it occurs.  There is none to do
where the sentinel does not occur. -/
def pass? (renamer : Renamer) (text : List Char) : Option (List Char) :=
  match Detail.firstReference? renamer.sentinel text with
  | none => none
  | some (_, name, _) =>
    some (Text.replaceAll name ((renamer.lookup? name).getD (defuse name)) text)

/-- The text after all passes, if they come to an end. -/
def settle (renamer : Renamer) (text : List Char) : Option (List Char) :=
  match renamer.pass? text with
  | none => some text
  | some next => by
    -- The fixed point keeps the syntax of a call that is written as a term, with its place.
    apply settle
    · exact renamer
    · exact next
partial_fixpoint

/-- Every reference renamed by passes over the whole text, if they come to an end. -/
def renamePasses (renamer : Renamer) (detail : List Char) : Option (List Char) :=
  (renamer.settle detail).map (·.filter (· ≠ marker))

/-- A detail with its references renamed, if that comes to an end. -/
def rename (renamer : Renamer) (detail : String) : Option String :=
  match renamer.strategy with
  | .passes => (renamer.renamePasses detail.toList).map String.ofList
  | .spans => some (String.ofList (renamer.renameSpans detail.toList))

end Renamer

end ClassNaming
