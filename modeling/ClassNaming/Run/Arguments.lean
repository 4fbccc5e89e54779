import ClassNaming.Mapping.Mode

/-!
# Command line arguments

A run is given the path of its target and that of a mapping file, and options anywhere between them:

* `--source-namespace NS` - the namespace of the names to be renamed, `intermediary` or `hashed`
* `--span-replace` - rename each reference on its own
* `-v`, `--verbose` - more log events, each time it is given
* `-h`, `--help` and `-V`, `--version` - tell something instead of a run

The value of a long option may follow behind an equals sign.  Short options can be put together.  A
double dash ends the options, and a single dash is a path.

A value is checked only when the next known option or path is met, or at the end; if an unknown
argument is met before, that is what is wrong.  Missing paths are noticed last.

## Main Definitions

* `Arguments` - what a run is asked to do
* `ArgumentError` - why there is no run
* `Arguments.parse` - reads the arguments
-/

namespace ClassNaming

/-- What a run is asked to do. -/
structure Arguments where
  path : String
  mapping : String
  mode : Option NamingMode
  spanReplace : Bool
  verbosity : Nat
  deriving Repr, DecidableEq

/-- Why there is no run. -/
inductive ArgumentError where
  | missingArgument
  | unknownArgument
  | invalidValue
  /-- An option that counts once was given twice. -/
  | repeatedOption
  /-- An option without a value was given one. -/
  | needlessValue
  /-- Only the help is asked for. -/
  | helpWanted
  /-- Only the version is asked for. -/
  | versionWanted
  deriving Repr, DecidableEq

/-- A value that was given, or is still to be given, and was not checked. -/
inductive PendingValue where
  /-- The value of the namespace option, if there is any. -/
  | space (value : Option String)
  /-- The next path. -/
  | path (value : String)
  deriving Repr, DecidableEq

/-- What was read of the arguments so far. -/
structure ArgumentState where
  paths : List String
  mode : Option NamingMode
  spanReplace : Bool
  verbosity : Nat
  pending : Option PendingValue
  deriving Repr, DecidableEq

namespace ArgumentState

/-- Nothing was read so far. -/
def start : ArgumentState := ⟨[], none, false, 0, none⟩

/-- How often the number of requests for more events is counted at most. -/
def maxVerbosity : Nat := 255

/-- The mode that an option value names. -/
def modeOf? : String → Option NamingMode
  | "intermediary" => some .intermediary
  | "hashed" => some .hashed
  | _ => none

/-- Checks the value that was given last. -/
def settle (s : ArgumentState) : Except ArgumentError ArgumentState :=
  let s' := { s with pending := none }
  match s.pending with
  | none => .ok s
  | some (.space none) => .error .invalidValue
  | some (.space (some value)) =>
    if s.mode.isSome then .error .repeatedOption
    else
      match modeOf? value with
      | some mode => .ok { s' with mode := some mode }
      | none => .error .invalidValue
  | some (.path value) =>
    if value.isEmpty then .error .invalidValue else .ok { s' with paths := s.paths ++ [value] }

/-- How many paths were given, checked or not. -/
def pathCount (s : ArgumentState) : Nat :=
  match s.pending with
  | some (.path _) => s.paths.length + 1
  | _ => s.paths.length

/-- Takes a path, of which there may be two. -/
def takePath (s : ArgumentState) (value : String) : Except ArgumentError ArgumentState :=
  if s.pathCount < 2 then do return { ← s.settle with pending := some (.path value) }
  else .error .unknownArgument

/-- Takes a request for more events. -/
def takeVerbose (s : ArgumentState) : Except ArgumentError ArgumentState := do
  let s ← s.settle
  return { s with verbosity := min (s.verbosity + 1) maxVerbosity }

/-- Takes the option for references on their own. -/
def takeSpanReplace (s : ArgumentState) : Except ArgumentError ArgumentState := do
  let s ← s.settle
  if s.spanReplace then throw .repeatedOption
  return { s with spanReplace := true }

/-- Ends with something that is wanted instead of a run. -/
def interrupt (s : ArgumentState) (wanted : ArgumentError) :
    Except ArgumentError ArgumentState := do
  let _ ← s.settle
  throw wanted

/-- Takes a long option, given without its dashes, with the value behind its equals sign. -/
def takeLong (s : ArgumentState) (name : String) (value : Option String) :
    Except ArgumentError ArgumentState :=
  let plain (take : Except ArgumentError ArgumentState) :=
    if value.isSome then .error .needlessValue else take
  match name with
  | "source-namespace" => do
    let s ← s.settle
    let s := { s with pending := some (.space value) }
    if value.isSome then s.settle else return s
  | "span-replace" => plain s.takeSpanReplace
  | "verbose" => plain s.takeVerbose
  | "help" => plain (s.interrupt .helpWanted)
  | "version" => plain (s.interrupt .versionWanted)
  | _ => .error .unknownArgument

/-- Takes short options that were put together. -/
def takeShort (s : ArgumentState) : List Char → Except ArgumentError ArgumentState
  | [] => .ok s
  | 'v' :: rest => do takeShort (← s.takeVerbose) rest
  | 'h' :: _ => s.interrupt .helpWanted
  | 'V' :: _ => s.interrupt .versionWanted
  | _ :: _ => .error .unknownArgument

/-- A long option divided at its first equals sign. -/
def divideLong (option : List Char) : String × Option String :=
  match option.dropWhile (· ≠ '=') with
  | [] => (String.ofList option, none)
  | _ :: value => (String.ofList (option.takeWhile (· ≠ '=')), some (String.ofList value))

/-- Takes an argument that is no option: the value that an option waits for, or a path. -/
def takePlain (s : ArgumentState) (argument : String) : Except ArgumentError ArgumentState :=
  match s.pending with
  | some (.space none) => .ok { s with pending := some (.space (some argument)) }
  | _ => s.takePath argument

/-- Takes an argument.  After a double dash all arguments are paths. -/
def take (s : ArgumentState) (argument : String) : Except ArgumentError ArgumentState :=
  match argument.toList with
  | '-' :: '-' :: option =>
    let (name, value) := divideLong option
    s.takeLong name value
  | ['-'] => s.takePlain argument
  | '-' :: options => s.takeShort options
  | _ => s.takePlain argument

/-- Takes all arguments. -/
def takeAll (s : ArgumentState) : List String → Except ArgumentError ArgumentState
  | [] => .ok s
  | "--" :: paths => paths.foldlM takePath s
  | argument :: rest => do takeAll (← s.take argument) rest

end ArgumentState

/-- Reads the arguments of a run. -/
def Arguments.parse (arguments : List String) : Except ArgumentError Arguments := do
  let s ← ArgumentState.start.takeAll arguments
  let s ← s.settle
  match s.paths with
  | path :: mapping :: _ =>
    return { path, mapping, mode := s.mode, spanReplace := s.spanReplace, verbosity := s.verbosity }
  | _ => throw .missingArgument

end ClassNaming
