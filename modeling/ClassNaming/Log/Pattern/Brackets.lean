import ClassNaming.Log.Pattern.Basic

/-!
# Sets of characters in brackets

Brackets in a pattern hold characters, ranges of them, names of sets, and further brackets.  They
stand for all that they hold, or for all that they do not hold if they begin with a circumflex.  Two
ampersands, hyphens or tildes between two such lists stand for what both have in common, for what
only the first one has, and for what just one of them has.

A hyphen stands for itself at either end of the brackets, and so does a closing bracket at their
start.  Hence no list is empty, other than around an operator.

## Main Definitions

* `OpenSet` - brackets whose end was not read yet
* `Modes.brackets?` - brackets, of which the first one was read already
-/

namespace ClassNaming.Pattern

/-- Brackets whose end was not read yet: the depth of what stands before the last operator, if there
is one, and the parts behind it. -/
structure OpenSet where
  left : Option Nat
  parts : Parts
  deriving Repr, DecidableEq

namespace OpenSet

/-- One more part. -/
def add (s : OpenSet) (depth : Nat) : OpenSet := { s with parts := s.parts.add depth }

/-- The depth of all that was read.  An operator is one level above both its sides. -/
def depth (s : OpenSet) : Nat :=
  match s.left with
  | some left => max left s.parts.nesting + 1
  | none => s.parts.nesting

/-- An operator follows. -/
def operate (s : OpenSet) : OpenSet := ⟨some s.depth, Parts.empty⟩

end OpenSet

/-- The names of sets that can stand between colons. -/
def bracketedNames : List String :=
  ["alnum", "alpha", "ascii", "blank", "cntrl", "digit", "graph", "lower", "print", "punct",
    "space", "upper", "word", "xdigit"]

/-- The name of a set between colons and brackets, of which the first one was read already: whether
all that is not in the set is meant, and what follows. -/
def bracketedName? : List Char → Option (Bool × List Char)
  | ':' :: text =>
    let (negated, text) := match text with
      | '^' :: text => (true, text)
      | text => (false, text)
    match text.dropWhile (· ≠ ':') with
    | ':' :: ']' :: rest =>
      if bracketedNames.contains (String.ofList (text.takeWhile (· ≠ ':'))) then
        some (negated, rest)
      else none
    | _ => none
  | _ => none

namespace Modes

/-- A text without what stands for nothing at its start, if anything is left then. -/
def skipToSome (m : Modes) (text : List Char) : Option (List Char) :=
  match m.skip text with
  | [] => none
  | rest => some rest

/-- The hyphens at the start of brackets. -/
def hyphens? (m : Modes) : (fuel : Nat) → OpenSet → List Char → Option (OpenSet × List Char)
  | fuel + 1, s, '-' :: rest => do
    if m.allowsMember '-' then m.hyphens? fuel (s.add 0) (← m.skipToSome rest) else none
  | _, s, text => some (s, text)

/-- The start of brackets, of which the first one was read already. -/
def open? (m : Modes) (text : List Char) : Option (OpenSet × List Char) := do
  let text ← m.skipToSome text
  let text ← match text with
    | '^' :: rest => if m.allowsNegation then m.skipToSome rest else none
    | _ => some text
  let (s, text) ← m.hyphens? text.length ⟨none, Parts.empty⟩ text
  match s.parts.size, text with
  | 0, ']' :: rest => do
    if m.allowsMember ']' then return (s.add 0, ← m.skipToSome rest) else none
  | _, _ => return (s, text)

/-- An atom in brackets, where places mean nothing. -/
def memberAtom? (m : Modes) : List Char → Option (Atom × List Char)
  | [] => none
  | '\\' :: rest => m.escape? rest
  | c :: rest => some (.character c false, rest)

/-- Whether an atom is one for brackets. -/
def allowsInBrackets (m : Modes) : Atom → Bool
  | .character c _ => m.allowsMember c
  | .namedSet negated => m.allowsNamedSet negated
  | .place _ => false

/-- What follows an atom or a range.  A hyphen stands for itself before the end of the brackets, and
before another hyphen. -/
def member? (m : Modes) (text : List Char) : Option (List Char) := do
  let (first, rest) ← m.memberAtom? text
  if !m.allowsInBrackets first then none
  match ← m.skipToSome rest with
  | '-' :: rest =>
    if m.glance rest == some ']' || m.glance rest == some '-' then return '-' :: rest
    let (last, rest) ← m.memberAtom? (← m.skipToSome rest)
    match first, last with
    | .character a _, .character b _ => if a ≤ b && m.allowsMember b then return rest else none
    | _, _ => none
  | rest => return rest

/-- The rest of brackets, and of those around them. -/
def bracketsFrom? (m : Modes) :
    (fuel : Nat) → OpenSet → (outer : List OpenSet) → List Char → Option (Nat × List Char)
  | 0, _, _, _ => none
  | fuel + 1, s, outer, text =>
    match m.skip text with
    | [] => none
    | '[' :: rest =>
      match bracketedName? rest with
      | some (negated, rest) =>
        if m.allowsBracketedName negated then m.bracketsFrom? fuel (s.add 0) outer rest else none
      | none => do
        let (inner, rest) ← m.open? rest
        m.bracketsFrom? fuel inner (s :: outer) rest
    | ']' :: rest =>
      match outer with
      | [] => some (s.depth + 1, rest)
      | parent :: outer => m.bracketsFrom? fuel (parent.add (s.depth + 1)) outer rest
    | '&' :: '&' :: rest | '-' :: '-' :: rest | '~' :: '~' :: rest =>
      m.bracketsFrom? fuel s.operate outer rest
    | text => do m.bracketsFrom? fuel (s.add 0) outer (← m.member? text)

/-- Brackets, of which the first one was read already: their depth, and what follows. -/
def brackets? (m : Modes) (text : List Char) : Option (Nat × List Char) := do
  let (s, rest) ← m.open? text
  m.bracketsFrom? (rest.length + 1) s [] rest

end Modes

end ClassNaming.Pattern
