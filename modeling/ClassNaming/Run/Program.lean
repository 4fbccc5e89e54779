import ClassNaming.Log.Filter
import ClassNaming.Run.Settings
import ClassNaming.Run.Transaction
import ClassNaming.Run.Sweep

/-!
# The program

The program reads its arguments and the mapping, and sweeps its target in a transaction.  It prints
what becomes of the target; events and failures go to the error output.  If the sweep never ends,
neither does the program.

## Main Definitions

* `runWith` - what the program does for its arguments
* `Finish` - exit status and outputs
* `Failure.report` - how the program tells a failure
* `runProgram` - the program
-/

namespace ClassNaming

/-- Sweeps a target, tells the counters, and says whether anything changed. -/
def sweepAndTell (renamer : Renamer) (target : Path) : Job Option World Bool := do
  let tally ← sweep renamer target
  onProgress (tell (.swept tally))
  return tally.changed

/-- What the program does for its arguments. -/
def runWith (arguments : Arguments) : Job Option World Unit := do
  let settings ← onFiles (Settings.ofArguments (← get).directory arguments)
  let table ← onFiles (loadMapping settings.mapping)
  let renamer ← demand .missingNamespace (settings.renamer table)
  onProgress (tell (.loaded settings.mapping.text table.size settings.mode.namespaceName
    settings.strategy))
  let outcome ← transact settings.target (sweepAndTell renamer settings.target)
  if outcome = .restored then onProgress (tell (.unchanged settings.target.text))

/-! ### Telling -/

/-- A cause in the report of a failure.  The first of its lines follows its number, if there is one,
and the others are indented as far. -/
def causeLines (number : Option Nat) (text : String) : List String :=
  let lines := (Text.splitAtEach '\n' text.toList).map String.ofList
  let lead := match number with
    | some n =>
      let digits := toString n
      String.ofList (List.replicate (5 - digits.length) ' ') ++ digits ++ ": "
    | none => "    "
  let indent := match number with
    | some _ => "       "
    | none => "    "
  match lines with
  | [] => []
  | first :: others => (lead ++ first) :: others.map (indent ++ ·)

/-- The report of a failure: the outermost text, and then what it was caused by.  Causes are
numbered if there are several. -/
def Failure.report (f : Failure) : List String :=
  match f.chain with
  | [] => []
  | outermost :: causes =>
    let told := match causes with
      | [] => []
      | [cause] => causeLines none cause
      | _ => (causes.zipIdx.map fun (cause, n) => causeLines (some n) cause).flatten
    ("Error: " ++ outermost) :: if causes.isEmpty then [] else "" :: "Caused by:" :: told

/-- How the program ended: its exit status, and the lines of its two outputs. -/
structure Finish where
  status : Nat
  output : List String
  errors : List String
  deriving Repr, DecidableEq

/-- The name and the version of the program. -/
def versionLine : String := "metadata-remapper 0.0.1-beta"

/-- What the program prints if its arguments are wrong. -/
def usageLine : String := "Requires two args: file or dir, mapping file"

/-- What the program tells about itself.  An option without a description still fills its column. -/
def helpLines : List String :=
  ["Remap class names inside compiled class metadata annotations", "",
    "Usage: metadata-remapper [OPTIONS] <PATH> <MAPPING>", "",
    "Arguments:",
    "  <PATH>     File or directory to remap in place",
    "  <MAPPING>  Tiny mapping file (v1 or v2)", "",
    "Options:",
    "      --source-namespace <NS>  Source namespace; detected from the mapping header when "
      ++ "omitted [possible values: intermediary, hashed]",
    "      --span-replace           Rewrite each reference span once instead of running the "
      ++ "whole-string replace loop",
    "  -v, --verbose...             ",
    "  -h, --help                   Print help",
    "  -V, --version                Print version"]

/-- What is wrong with arguments, on the error output. -/
def ArgumentError.message : ArgumentError → String
  | missingArgument => "error: a required argument was not provided"
  | unknownArgument => "error: unexpected argument found"
  | invalidValue => "error: invalid or missing value"
  | repeatedOption => "error: an option cannot be used multiple times"
  | needlessValue => "error: unexpected value for an option"
  | helpWanted => "help was asked for"
  | versionWanted => "the version was asked for"

/-- How the program ends if its arguments do not lead to a run. -/
def ArgumentError.finish : ArgumentError → Finish
  | helpWanted => ⟨0, helpLines, []⟩
  | versionWanted => ⟨0, [versionLine], []⟩
  | e => ⟨1, [usageLine], [e.message]⟩

/-- The filter of a run.  A written filter that makes sense counts more than the arguments. -/
def filterOf (written : Option String) (verbosity : Nat) : LogFilter :=
  match written.bind LogFilter.parse? with
  | some filter => filter
  | none => .ofVerbosity verbosity

/-- How the program ends once a run is over. -/
def finishOf (filter : LogFilter) (result : Except Failure Unit) (w : World) : Finish :=
  let told := (w.events.filter filter.tells).map Event.line
  match result with
  | .ok _ => ⟨0, w.output, told⟩
  | .error f => ⟨1, w.output, told ++ f.report⟩

/-- The program: how it ends, if it does, and the files that it leaves behind. -/
def runProgram (directory : Path) (written : Option String) (arguments : List String)
    (files : FileTree) : Option (Finish × FileTree) :=
  match Arguments.parse arguments with
  | .error e => return (e.finish, files)
  | .ok parsed => do
    let (result, w) ← (runWith parsed).runOn (World.ofFiles directory files)
    return (finishOf (filterOf written parsed.verbosity) result w, w.files)

end ClassNaming
