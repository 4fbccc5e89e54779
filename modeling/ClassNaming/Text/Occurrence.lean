/-!
# Occurrences of a word in a text

Texts are lists of characters here, so that a search is a recursion on the data.  All searches read
from left to right, and a replacement goes on behind the occurrence it replaced, so occurrences
never overlap.

## Main Definitions

* `cut?` - the text split where a word occurs first
* `occursIn` - whether a word occurs at all
* `replaceAll` - every occurrence of a word replaced by another text
* `splitAtEach` - the pieces between the occurrences of one character
-/

namespace ClassNaming.Text

/-- Splits off `text` where `word` occurs first, with the characters passed on the way (in
reverse) in front. -/
def cutFrom? (word : List Char) (passed : List Char) :
    List Char → Option (List Char × List Char)
  | [] => if word.isEmpty then some (passed.reverse, []) else none
  | c :: rest =>
    if word.isPrefixOf (c :: rest) then some (passed.reverse, c :: rest)
    else cutFrom? word (c :: passed) rest

/-- The text before the first occurrence of `word`, and the text from there on. -/
def cut? (word text : List Char) : Option (List Char × List Char) :=
  cutFrom? word [] text

/-- Whether `word` occurs somewhere in the text. -/
def occursIn (word : List Char) : List Char → Bool
  | [] => word.isEmpty
  | c :: rest => if word.isPrefixOf (c :: rest) then true else occursIn word rest

/-- Replaces `word` from here on.  The first `skip` characters belong to an occurrence that has
been replaced already; `done` holds the output so far, in reverse. -/
def replaceFrom (word new : List Char) (done : List Char) : Nat → List Char → List Char
  | _, [] => done.reverse
  | skip + 1, _ :: rest => replaceFrom word new done skip rest
  | 0, c :: rest =>
    if word.isPrefixOf (c :: rest) then
      replaceFrom word new (new.reverse ++ done) (word.length - 1) rest
    else replaceFrom word new (c :: done) 0 rest

/-- Every occurrence of the non-empty `word` replaced by `new`, from left to right. -/
def replaceAll (word new text : List Char) : List Char :=
  replaceFrom word new [] 0 text

/-- Collects the pieces from here on; `piece` holds the open piece and `done` the finished ones,
both in reverse. -/
def splitFrom (mark : Char) (piece : List Char) (done : List (List Char)) :
    List Char → List (List Char)
  | [] => (piece.reverse :: done).reverse
  | c :: rest =>
    if c = mark then splitFrom mark [] (piece.reverse :: done) rest
    else splitFrom mark (c :: piece) done rest

/-- The pieces between the occurrences of `mark`: always one more than there are occurrences. -/
def splitAtEach (mark : Char) (text : List Char) : List (List Char) :=
  splitFrom mark [] [] text

end ClassNaming.Text
