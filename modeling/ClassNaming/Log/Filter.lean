import ClassNaming.Log.Event
import ClassNaming.Log.Pattern.Groups
import ClassNaming.Text.Occurrence

/-!
# Which events are told

A filter is a list of directives.  A directive gives a threshold to the events it *covers*: those
whose source starts with a certain text, and that have a certain field, if it asks for either.  Of
several directives that cover an event the most specific one decides; a longer text is more specific
than a shorter one, and any text more than none.  Of two directives that ask for the same, the later
one counts.  An event that no directive covers is not told at all.

A filter can be written as directives between commas, as in `warn,walk=debug`.  A directive is a
level, a text, or both with an equals sign between them; a text alone lets everything through.
Behind the text there may be brackets.  A field that is asked for stands in braces between them.
Anything else that brackets can hold is about spans of time, of which there are none here, so such a
directive covers no event: the name of a span, or a value behind the field, which is a number or a
pattern.  It has to make sense all the same.

Levels are names in any case, or numbers up to five; `off` and zero let nothing through.

## Main Definitions

* `LogFilter` - directives
* `LogFilter.parse?` - a written filter
* `LogFilter.ofVerbosity` - the filter if none is written
* `LogFilter.tells` - whether a filter lets an event through

## Design Notes

Blanks around a directive do not count where the ends of its parts are looked for.  Its parts are
cut out at these places, counted from the very start of the directive, so that blanks at its start
shift all of them.
-/

namespace ClassNaming

/-- A threshold for the events with a field, from the sources whose names start with a text.
Without a threshold nothing is told. -/
structure Directive where
  source : Option String
  field : Option String
  threshold : Option Level
  deriving Repr, DecidableEq

namespace Directive

/-- Whether a directive counts for an event. -/
def covers (d : Directive) (e : Event) : Bool :=
  (match d.source with
    | some source => source.toList.isPrefixOf e.source.toList
    | none => true)
  && (match d.field with
    | some field => e.fieldNames.contains field
    | none => true)

/-- How much of a source a directive asks for. -/
def reach (d : Directive) : Nat :=
  match d.source with
  | some source => source.utf8ByteSize + 1
  | none => 0

/-- Whether a directive asks for less than another one that covers the same event.  Of two
different fields the greater name counts as more. -/
def asksLess (a b : Directive) : Bool :=
  a.reach < b.reach ||
    (a.reach == b.reach &&
      match a.field, b.field with
      | none, some _ => true
      | some x, some y => x < y
      | _, none => false)

end Directive

/-- Directives in the order in which they were given. -/
abbrev LogFilter := List Directive

namespace LogFilter

/-! ### Written filters -/

/-- A number without a sign, perhaps behind a plus. -/
def unsigned? (text : List Char) : Option Nat :=
  let digits := match text with
    | '+' :: digits => digits
    | digits => digits
  if digits.isEmpty || !digits.all Char.isDigit then none
  else some (digits.foldl (fun n digit => 10 * n + (digit.toNat - '0'.toNat)) 0)

/-- The name of a written threshold that may be a number. -/
def thresholdName (text : List Char) : String :=
  match unsigned? text with
  | some 0 => "off"
  | some 1 => "error"
  | some 2 => "warn"
  | some 3 => "info"
  | some 4 => "debug"
  | some 5 => "trace"
  | _ => (String.ofList text).toLower

/-- A written threshold. -/
def threshold? (text : List Char) : Option (Option Level) :=
  match thresholdName text with
  | "off" => some none
  | "error" => some (some .error)
  | "warn" => some (some .warn)
  | "info" => some (some .info)
  | "debug" => some (some .debug)
  | "trace" => some (some .trace)
  | _ => none

/-- The threshold behind an equals sign, where nothing means everything. -/
def givenThreshold? (text : List Char) : Option (Option Level) :=
  if text.isEmpty then some (some .trace) else threshold? text

/-- Whether a text is an exponent, or nothing. -/
def isExponent : List Char → Bool
  | [] => true
  | c :: rest =>
    let digits := match rest with
      | '+' :: digits | '-' :: digits => digits
      | digits => digits
    (c == 'e' || c == 'E') && !digits.isEmpty && digits.all Char.isDigit

/-- Whether a text is a number without a sign: digits, perhaps with a point and an exponent, or a
word for what is no finite number. -/
def isNumber (text : List Char) : Bool :=
  let whole := text.takeWhile Char.isDigit
  let (fraction, rest) := match text.dropWhile Char.isDigit with
    | '.' :: rest => (rest.takeWhile Char.isDigit, rest.dropWhile Char.isDigit)
    | rest => ([], rest)
  ["inf", "infinity", "nan"].contains (String.ofList text).toLower
    || (!(whole ++ fraction).isEmpty && isExponent rest)

/-- Whether a text makes sense as the value of a field.  A number behind a plus is no pattern, but
every other number is one. -/
def isValue : List Char → Bool
  | '+' :: text => isNumber text
  | text => Pattern.makesSense text

/-- Whether what stands in braces makes sense: a field, which may have a value behind an equals
sign.  A second equals sign ends the value. -/
def isField (text : List Char) : Bool :=
  match text, text.dropWhile (· ≠ '=') with
  | [], _ => false
  | _, [] => true
  | _, _ :: value => isValue (value.takeWhile (· ≠ '='))

/-- Whether a directive may start with a character, an opening bracket apart. -/
def canStart (c : Char) : Bool :=
  c == '-' || c == ':' || c == '_' || Text.isAlphanumeric c

/-- A directive as it is being read: its text as it was written, and without the blanks around it,
where the ends of its parts are. -/
structure Draft where
  text : List Char
  shape : List Char

namespace Draft

/-- The first place from `start` on where one of some characters stands. -/
def find? (d : Draft) (start : Nat) (marks : List Char) : Option Nat :=
  ((d.shape.drop start).findIdx? marks.contains).map (start + ·)

/-- The part between two places. -/
def part (d : Draft) (start stop : Nat) : List Char := (d.text.take stop).drop start

/-- The threshold behind the brackets, of which the last one stood before `place`. -/
def thresholdAt? (d : Draft) (place : Nat) : Option (Option Level) :=
  match d.shape.drop place with
  | [] => some (some .trace)
  | '=' :: _ => givenThreshold? (d.text.drop (place + 1))
  | _ => none

/-- What a directive says whose brackets begin before `start`.  It is no directive for events
if the brackets name a span, or a value for the field. -/
def bracketed? (d : Draft) (source : Option String) (start : Nat) : Option (Option Directive) := do
  let stop ← d.find? start [']', '\x7b']
  if d.shape[stop]? == some ']' then
    let _ ← d.thresholdAt? (stop + 1)
    return none
  else
    let close ← d.find? (stop + 1) ['\x7d']
    let field := d.part (stop + 1) close
    if !isField field || d.shape[close + 1]? != some ']' then none
    let threshold ← d.thresholdAt? (close + 2)
    if d.part start stop ≠ [] || field.contains '=' then return none
    return some ⟨source, some (String.ofList field), threshold⟩

end Draft

/-- A written directive.  One that can be read may cover no event at all. -/
def directive? (text : List Char) : Option (Option Directive) := do
  let d : Draft := ⟨text, Text.withoutBlanks text⟩
  let first ← d.shape.head?
  if first == '[' then d.bracketed? none 1
  else if !canStart first then none
  else
    match d.find? 0 ['=', '['] with
    | none =>
      match threshold? text with
      | some threshold => return some ⟨none, none, threshold⟩
      | none => return some ⟨some (String.ofList text), none, some .trace⟩
    | some stop =>
      let source := some (String.ofList (d.part 0 stop))
      if d.shape[stop]? == some '[' then d.bracketed? source (stop + 1)
      else return some ⟨source, none, ← givenThreshold? (text.drop (stop + 1))⟩

/-- A written filter.  It makes no sense unless all of its directives do. -/
def parse? (text : String) : Option LogFilter :=
  let pieces := (Text.splitAtEach ',' text.toList).filter fun piece => !piece.isEmpty
  (pieces.mapM directive?).map fun directives => directives.filterMap id

/-! ### Filters in use -/

/-- The filter for a number of requests for more: warnings of all sources, and more of this
program. -/
def ofVerbosity (verbosity : Nat) : LogFilter :=
  [⟨none, none, some .warn⟩, ⟨some Event.program, none, some (.ofVerbosity verbosity)⟩]

/-- The more specific of two directives that cover the same event, the second one if neither is. -/
def moreSpecific (a b : Directive) : Directive := if b.asksLess a then a else b

/-- The directive that decides on an event. -/
def deciding? (filter : LogFilter) (e : Event) : Option Directive :=
  match filter.filter fun d => d.covers e with
  | [] => none
  | d :: rest => some (rest.foldl moreSpecific d)

/-- Whether an event is told. -/
def tells (filter : LogFilter) (e : Event) : Bool :=
  match filter.deciding? e with
  | some ⟨_, _, some threshold⟩ => threshold.passes e.level
  | _ => false

end LogFilter

end ClassNaming
