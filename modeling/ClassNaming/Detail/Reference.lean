import ClassNaming.Text.Occurrence

/-!
# References in a detail

A *detail* is a text in which classes may be mentioned.  A *reference* starts at a sentinel and runs
up to the next semicolon, or to the end of the detail if none follows.  A sentinel inside a
reference starts no further one, so the references of a detail do not overlap.

The detail is cut into *fragments*, which put together give the detail again: references, and the
texts between them.  Positions are counted in bytes of UTF-8.

## Main Definitions

* `Fragment` - a piece of a detail
* `fragments` - the pieces of a detail, in order
* `Reference` - a reference with its position
* `references` - the references of a detail, in order
-/

namespace ClassNaming.Detail

/-- The character that ends a reference. -/
def terminator : Char := ';'

/-- A piece of a detail. -/
inductive Fragment where
  /-- Text that belongs to no reference. -/
  | plain (text : List Char)
  /-- The name of a class, from its sentinel on. -/
  | reference (name : List Char)
  deriving Repr, DecidableEq

/-- The text of a fragment. -/
def Fragment.text : Fragment → List Char
  | .plain text => text
  | .reference name => name

/-- The first reference of a text with the texts before and after it. -/
def firstReference? (sentinel text : List Char) :
    Option (List Char × List Char × List Char) :=
  match Text.cut? sentinel text with
  | none => none
  | some (before, found) =>
    some (before, found.takeWhile (· ≠ terminator), found.dropWhile (· ≠ terminator))

/-- The fragments from here on.  `fuel` bounds the number of references: each of them takes at
least one character, so the length of the text is enough.  `done` holds the fragments so far, in
reverse. -/
def fragmentsFrom (sentinel : List Char) (done : List Fragment) :
    Nat → List Char → List Fragment
  | 0, text => (.plain text :: done).reverse
  | fuel + 1, text =>
    match firstReference? sentinel text with
    | none => (.plain text :: done).reverse
    | some (before, name, after) =>
      fragmentsFrom sentinel (.reference name :: .plain before :: done) fuel after

/-- The fragments of a detail: plain texts, perhaps empty, with the references between them. -/
def fragments (sentinel detail : List Char) : List Fragment :=
  fragmentsFrom sentinel [] (detail.length + 1) detail

/-- The number of bytes that a text takes in UTF-8. -/
def byteLength (text : List Char) : Nat :=
  text.foldl (fun size c => size + c.utf8Size) 0

/-- A reference, and the bytes of the detail that it takes. -/
structure Reference where
  start : Nat
  stop : Nat
  name : List Char
  deriving Repr, DecidableEq

/-- The references among fragments of which the first starts at byte `offset`. -/
def referencesFrom (done : List Reference) (offset : Nat) : List Fragment → List Reference
  | [] => done.reverse
  | .plain text :: rest => referencesFrom done (offset + byteLength text) rest
  | .reference name :: rest =>
    let stop := offset + byteLength name
    referencesFrom (⟨offset, stop, name⟩ :: done) stop rest

/-- The references of a detail, in order. -/
def references (sentinel detail : List Char) : List Reference :=
  referencesFrom [] 0 (fragments sentinel detail)

end ClassNaming.Detail
