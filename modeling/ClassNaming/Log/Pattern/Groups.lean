import ClassNaming.Log.Pattern.Brackets
import ClassNaming.Text.Alphanumeric

/-!
# Whole patterns

Parts of a pattern can be put into groups, and a group consists of branches with bars between them.
Behind its opening parenthesis a group can have a name, or letters for modes.  Such letters can also
stand in parentheses on their own, and then count from there to the end of the group around them.  A
part can be repeated; the marks for that are the question mark, the asterisk and the plus, each
perhaps with a question mark behind it.

A pattern makes sense if all of it can be read, no two of its groups have the same name, and its
parts are not nested too deeply.

## Main Definitions

* `Reading` - a pattern that was read up to some place
* `makesSense` - whether a text is a pattern
-/

namespace ClassNaming.Pattern

/-- What is around a group: the modes in force, and what was read of the group that it stands in. -/
structure Outside where
  modes : Modes
  branches : Option Nat
  parts : Parts
  deriving Repr, DecidableEq

/-- A pattern that was read up to some place: the modes there, the names of its groups, the depth of
the finished branches of the innermost group if there are any, the parts of its last branch, and
what is around it. -/
structure Reading where
  modes : Modes
  names : List (List Char)
  branches : Option Nat
  parts : Parts
  outside : List Outside
  deriving Repr, DecidableEq

/-- How deeply the parts of a pattern may be nested. -/
def depthLimit : Nat := 250

/-! ### Modes and names of groups -/

/-- The letters for modes, and the hyphen after which modes are taken back. -/
def modeLetters : List Char := ['i', 'm', 's', 'u', 'x', 'R', 'U', '-']

/-- Whether letters for modes make sense.  None is given twice, and the hyphen is not the last. -/
def areModes (letters : List Char) : Bool :=
  letters.all modeLetters.contains && letters.Nodup && letters.getLast? ≠ some '-'

/-- What letters say about a mode that was set, or not, before them. -/
def modeGiven (letters : List Char) (letter : Char) (before : Bool) : Bool :=
  if !letters.contains letter then before
  else (letters.takeWhile (· ≠ '-')).contains letter

/-- The modes after letters for modes. -/
def Modes.change (m : Modes) (letters : List Char) : Modes :=
  ⟨modeGiven letters 'x' m.spaced, modeGiven letters 'i' m.caseless,
    modeGiven letters 'u' m.aboutCharacters⟩

/-- Whether a text can be the name of a group. -/
def isName : List Char → Bool
  | [] => false
  | first :: rest =>
    (first == '_' || Text.isAlphabetic first)
      && rest.all fun c => ['_', '.', '[', ']'].contains c || Text.isAlphanumeric c

namespace Reading

/-- Nothing was read so far. -/
def start : Reading := ⟨.atStart, [], none, .empty, []⟩

/-- The depth of the innermost group so far. -/
def depth (r : Reading) : Nat :=
  match r.branches with
  | some branches => max branches r.parts.nesting + 1
  | none => r.parts.nesting

/-- One more part was read. -/
def add (r : Reading) (depth : Nat) : Reading := { r with parts := r.parts.add depth }

/-- The last part is repeated. -/
def repeatLast? (r : Reading) : Option Reading :=
  r.parts.repeatLast?.map fun parts => { r with parts := parts }

/-- A branch ends, and another one begins. -/
def branch (r : Reading) : Reading :=
  { r with branches := some (max (r.branches.getD 0) r.parts.nesting), parts := .empty }

/-- A group begins, in which other modes may be in force. -/
def openGroup (r : Reading) (modes : Modes) : Reading :=
  ⟨modes, r.names, none, .empty, ⟨r.modes, r.branches, r.parts⟩ :: r.outside⟩

/-- A group ends. -/
def closeGroup? (r : Reading) : Option Reading :=
  match r.outside with
  | [] => none
  | o :: outside => some ⟨o.modes, r.names, o.branches, o.parts.add (r.depth + 1), outside⟩

/-! ### What is written -/

/-- A group with a name, which stands before an angle. -/
def namedGroup? (r : Reading) (text : List Char) : Option (Reading × List Char) :=
  let name := text.takeWhile (· ≠ '>')
  match text.dropWhile (· ≠ '>') with
  | '>' :: rest =>
    if isName name && !r.names.contains name then
      some ({ r with names := name :: r.names }.openGroup r.modes, rest)
    else none
  | _ => none

/-- Letters for modes, with or without a group. -/
def modes? (r : Reading) (text : List Char) : Option (Reading × List Char) :=
  let isEnd := fun c => c == ':' || c == ')'
  let letters := text.takeWhile fun c => !isEnd c
  if !areModes letters then none
  else
    match text.dropWhile fun c => !isEnd c with
    | ':' :: rest => some (r.openGroup (r.modes.change letters), rest)
    | ')' :: rest =>
      if letters.isEmpty then none
      else some ({ r with modes := r.modes.change letters, parts := r.parts.addSetting }, rest)
    | _ => none

/-- What an opening parenthesis begins.  It cannot be a look at the text around. -/
def parenthesis? (r : Reading) (text : List Char) : Option (Reading × List Char) :=
  match r.modes.skip text with
  | '?' :: '=' :: _ | '?' :: '!' :: _ | '?' :: '<' :: '=' :: _ | '?' :: '<' :: '!' :: _ => none
  | '?' :: 'P' :: '<' :: rest | '?' :: '<' :: rest => r.namedGroup? rest
  | '?' :: rest => r.modes? rest
  | rest => some (r.openGroup r.modes, rest)

/-- An atom. -/
def atom? (r : Reading) (a : Atom) : Option Reading :=
  if r.modes.allows a then some (r.add 0) else none

/-- The next part, which begins with a character. -/
def step? (r : Reading) : Char → List Char → Option (Reading × List Char)
  | '(', rest => r.parenthesis? rest
  | ')', rest => do return (← r.closeGroup?, rest)
  | '|', rest => some (r.branch, rest)
  | '[', rest => do
    let (depth, rest) ← r.modes.brackets? rest
    return (r.add depth, rest)
  | '?', rest | '*', rest | '+', rest => do
    let r ← r.repeatLast?
    match rest with
    | '?' :: rest => return (r, rest)
    | _ => return (r, rest)
  | '\x7b', _ => none
  | '\\', rest => do
    let (atom, rest) ← r.modes.escape? rest
    return (← r.atom? atom, rest)
  | '.', rest => if r.modes.allowsDot then some (r.add 0, rest) else none
  | '^', rest | '$', rest => some (r.add 0, rest)
  | c, rest => do return (← r.atom? (.character c false), rest)

/-- Whether the rest of a pattern makes sense. -/
def continues : (fuel : Nat) → Reading → List Char → Bool
  | 0, _, _ => false
  | fuel + 1, r, text =>
    match r.modes.skip text with
    | [] => r.outside.isEmpty && r.depth ≤ depthLimit
    | c :: rest =>
      match r.step? c rest with
      | some (r, rest) => continues fuel r rest
      | none => false

end Reading

/-- Whether a text is a pattern.  Each step takes at least one character. -/
def makesSense (text : List Char) : Bool := Reading.start.continues (text.length + 1) text

end ClassNaming.Pattern
