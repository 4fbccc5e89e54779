import ClassNaming.Detail.Renamer
import ClassNaming.Run.Arguments
import ClassNaming.Run.World
import ClassNaming.Text.Lines

/-!
# What a run works with

The paths of the arguments are made absolute.  Unless the arguments name the mode, the first line of
the mapping file tells it.

## Main Definitions

* `Settings` - what the arguments come to
* `Settings.ofArguments` - looks at target and mapping file
* `loadMapping` - reads a mapping file
* `Settings.renamer` - the renamer of a run
-/

namespace ClassNaming

/-- What the arguments of a run come to. -/
structure Settings where
  target : Path
  mapping : Path
  mode : NamingMode
  strategy : Strategy
  deriving Repr, DecidableEq

/-- The first line of a mapping file, which must have one. -/
def firstLine (path : Path) : Job Id FileTree String := do
  let text ← filing (.readMapping path.text) (FileTree.readText path)
  match (Text.lines text).head? with
  | some line => return line
  | none => Job.fail (.emptyMapping path.text)

/-- What the arguments come to in a working directory. -/
def Settings.ofArguments (directory : Path) (arguments : Arguments) : Job Id FileTree Settings := do
  let target := Path.absolute directory ⟨arguments.path⟩
  if !(← get).exists? target then Job.fail (.missingPath target.text)
  let mapping := Path.absolute directory ⟨arguments.mapping⟩
  let mode ← match arguments.mode with
    | some mode => pure mode
    | none => NamingMode.ofHeader <$> firstLine mapping
  return { target, mapping, mode, strategy := if arguments.spanReplace then .spans else .passes }

/-- The table of a text. -/
def MappingTable.parse (text : String) : Except MappingError MappingTable := do
  let file ← MappingFile.parse text
  return .ofRows file.namespaces file.classes

/-- Reads a mapping file. -/
def loadMapping (path : Path) : Job Id FileTree MappingTable := do
  let text ← filing (.readMapping path.text) (FileTree.readText path)
  ((demand .mapping (MappingTable.parse text)).during .parseMapping).during
    (.loadMapping path.text)

/-- The renamer of a run with a mapping. -/
def Settings.renamer (settings : Settings) (table : MappingTable) :
    Except MissingNamespace Renamer := do
  let resolver ← table.resolver settings.mode.namespaceName
  return { resolver, mode := settings.mode, strategy := settings.strategy }

end ClassNaming
