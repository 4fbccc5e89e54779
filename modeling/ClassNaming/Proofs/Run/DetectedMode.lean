import ClassNaming.Proofs.Mapping.Grammar
import ClassNaming.Proofs.Mapping.Scan
import ClassNaming.Proofs.Run.Ending

/-!
# The mode that a mapping is taken for

The first line of a mapping is read twice.  The reader of the file takes it apart into columns, the
namespaces among them.  The mode is taken from the same line as it stands, before it is taken apart:
it is the hashed one if that word occurs anywhere.

A namespace of that name is a column, so a mapping that declares the hashed mode is taken for one.
The converse fails, since the word may also lie within another column: a longer name of a namespace,
or the minor version, which the reader passes over.  Such a mapping declares the intermediary mode
and cannot be used, unless the arguments of the run name the mode.

## Main Definitions

* `MappingFile.Declares` - the mode that the namespaces of a mapping tell
* `NamingMode.MentionsHashed` - a line with the word in one of its columns

## Main Results

* `NamingMode.ofHeader_eq_hashed_iff` - the mode of a line, told by its columns
* `exists_prepares_iff` - the mappings that a run can work with
* `detected_mode` - when the detected mode is the declared one, and the run has its renamer
-/

namespace ClassNaming

open FileTree

variable {t : FileTree} {directory : Path} {arguments : Arguments} {text line : String}
  {file : MappingFile} {mode : NamingMode} {renamer : Renamer}

/-- The mode that a mapping declares: of the namespaces of modes it has that of this one, beside
`named`. -/
def MappingFile.Declares (file : MappingFile) (mode : NamingMode) : Prop :=
  targetNamespace ∈ file.namespaces ∧
    ∀ other : NamingMode, other.namespaceName ∈ file.namespaces ↔ other = mode

/-! ### The word in a line -/

namespace NamingMode

/-- The word `hashed` lies within one of the columns of a line. -/
def MentionsHashed (line : String) : Prop :=
  ∃ column ∈ Text.columns line, "hashed".toList <:+: column.toList

/-- The word has no tab in it, so it does not reach over columns. -/
theorem mentionsHashed_iff : MentionsHashed line ↔ "hashed".toList <:+: line.toList :=
  (Text.infix_line_iff (by decide) (by decide)).symm

/-- The mode of a line, told by its columns. -/
theorem ofHeader_eq_hashed_iff : ofHeader line = hashed ↔ MentionsHashed line := by
  rw [ofHeader, mentionsHashed_iff, ← Text.occursIn_iff_infix]
  cases Text.occursIn "hashed".toList line.toList <;> decide

theorem ofHeader_eq_intermediary_iff :
    ofHeader line = intermediary ↔ ¬ MentionsHashed line := by
  rw [← ofHeader_eq_hashed_iff]
  cases ofHeader line <;> decide

end NamingMode

theorem Version.Heads.mem {version : Version} {header namespaces : List String} {space : String}
    (heads : version.Heads header namespaces) (mem : space ∈ namespaces) : space ∈ header := by
  cases heads with
  | v1 => exact List.mem_cons_of_mem _ mem
  | v2 => simp [mem]

/-- A namespace of that name is a column of the first line, carriage returns aside. -/
theorem mentionsHashed_of_mem {version : Version} {namespaces : List String}
    (heads : version.Heads (Text.columns (Text.withoutReturns line)) namespaces)
    (mem : NamingMode.hashed.namespaceName ∈ namespaces) : NamingMode.MentionsHashed line := by
  have trimmed : NamingMode.MentionsHashed (Text.withoutReturns line) :=
    ⟨_, heads.mem mem, List.infix_rfl⟩
  rw [NamingMode.mentionsHashed_iff] at trimmed ⊢
  exact trimmed.trans (Text.withoutReturns_prefix line).isInfix

/-! ### The renamer of a run -/

/-- A run has a renamer just if the mapping has the namespace of its mode and `named`. -/
theorem exists_prepares_iff
    (reads : Does (readText (Path.absolute directory ⟨arguments.mapping⟩)) t text t)
    (parsed : MappingFile.parse text = .ok file) :
    (∃ renamer, Prepares t directory arguments renamer) ↔
      (arguments.modeFor text).namespaceName ∈ file.namespaces ∧
        targetNamespace ∈ file.namespaces := by
  have whole : MappingTable.parse text = .ok (.ofRows file.namespaces file.classes) := by
    rw [MappingTable.parse, parsed]
    rfl
  constructor
  · rintro ⟨renamer, text', table, resolver, reads', parsed', bound, -⟩
    obtain rfl := (reads.unique reads').1
    cases whole.symm.trans parsed'
    obtain ⟨known, target, -⟩ := MappingTable.resolver_eq_ok_iff.mp bound
    exact ⟨known, target⟩
  · rintro ⟨known, target⟩
    exact ⟨_, text, _, _, reads, whole,
      MappingTable.resolver_eq_ok_iff.mpr ⟨known, target, rfl⟩, rfl⟩

/-- **The detected mode is the declared one** unless the mapping declares the intermediary mode and
the word lies within a column of its first line all the same.  The same holds for the renamer of a
run that is not told the mode: there is one unless that is so, and it is of the declared mode. -/
theorem detected_mode (parsed : MappingFile.parse text = .ok file) (declares : file.Declares mode) :
    ∃ line, (Text.lines text).head? = some line ∧
      (NamingMode.ofHeader line = mode ↔
        mode = .hashed ∨ ¬ NamingMode.MentionsHashed line) ∧
      ∀ t directory arguments, arguments.mode = none →
        Does (readText (Path.absolute directory ⟨arguments.mapping⟩)) t text t →
        ((∃ renamer, Prepares t directory arguments renamer) ↔
          mode = .hashed ∨ ¬ NamingMode.MentionsHashed line) ∧
        ∀ renamer, Prepares t directory arguments renamer →
          renamer.mode = mode ∧ renamer.resolver.space = mode.namespaceName := by
  obtain ⟨target, only⟩ := declares
  obtain ⟨body, first, rest, lines, heads, -⟩ := MappingFile.exists_headed_of_parse parsed
  have detected : NamingMode.ofHeader first = mode ↔
      mode = .hashed ∨ ¬ NamingMode.MentionsHashed first := by
    cases mode with
    | intermediary => simpa using NamingMode.ofHeader_eq_intermediary_iff
    | hashed =>
      have mentions := mentionsHashed_of_mem heads ((only .hashed).mpr rfl)
      simpa using NamingMode.ofHeader_eq_hashed_iff.mpr mentions
  refine ⟨first, by rw [lines]; rfl, detected, fun t directory arguments unnamed reads => ?_⟩
  have taken : arguments.modeFor text = NamingMode.ofHeader first := by
    rw [Arguments.modeFor, unnamed, lines]
    rfl
  have served : (∃ renamer, Prepares t directory arguments renamer) ↔
      NamingMode.ofHeader first = mode := by
    rw [exists_prepares_iff reads parsed, taken, only]
    exact and_iff_left target
  refine ⟨served.trans detected, fun renamer prepares => ?_⟩
  have same := served.mp ⟨renamer, prepares⟩
  obtain ⟨text', table, resolver, reads', -, bound, rfl⟩ := prepares
  obtain rfl := (reads.unique reads').1
  rw [taken, same] at bound ⊢
  obtain ⟨-, -, rfl⟩ := MappingTable.resolver_eq_ok_iff.mp bound
  exact ⟨rfl, rfl⟩

namespace MisreadMapping

/-- A mapping with one more namespace, which is that of no mode. -/
def official : String := "tiny\t2\t0\tofficial\tintermediary\tnamed\r\n"

/-- A mapping with one more namespace, whose name ends like that of the hashed mode. -/
def unhashed : String := "tiny\t2\t0\tintermediary\tnamed\tunhashed\n"

/-- The tree of a folder and a mapping. -/
def tree (text : String) : FileTree := MappedFolder.tree.put ["m"] (.file text.toUTF8)

/-- The word is in no column of the first line, so a run on the folder has a renamer. -/
theorem prepares_official : ∃ renamer, renamer.mode = .intermediary ∧
    Prepares (tree official) ⟨"/"⟩ (argumentsFor "w") renamer := by
  have parsed : MappingFile.parse official =
      .ok ⟨.v2, ["official", "intermediary", "named"], []⟩ := by decide
  have declares : MappingFile.Declares ⟨.v2, ["official", "intermediary", "named"], []⟩
      .intermediary := ⟨by decide, fun other => by cases other <;> decide⟩
  have found : (tree official).find .content (Path.absolute ⟨"/"⟩ ⟨"m"⟩) =
      .ok (["m"], .file official.toUTF8) := by decide
  have reads : Does (readText (Path.absolute ⟨"/"⟩ ⟨"m"⟩)) (tree official) official
      (tree official) :=
    does_readText.mpr ⟨_, does_readFile.mpr ⟨⟨_, found⟩, rfl⟩, fromUTF8?_toUTF8 _⟩
  obtain ⟨line, first, -, runs⟩ := detected_mode parsed declares
  have plain : ¬ NamingMode.MentionsHashed line := by
    rw [← NamingMode.ofHeader_eq_intermediary_iff]
    have known : (Text.lines official).head? =
        some "tiny\t2\t0\tofficial\tintermediary\tnamed" := by decide
    cases known.symm.trans first
    decide
  obtain ⟨exists_renamer, of_mode⟩ :=
    runs (tree official) ⟨"/"⟩ (argumentsFor "w") rfl reads
  obtain ⟨renamer, prepares⟩ := exists_renamer.mpr (.inr plain)
  exact ⟨renamer, (of_mode renamer prepares).1, prepares⟩

/-- The mapping declares the intermediary mode, and is taken for a hashed one.  The run fails, since
the mapping has no namespace of that name. -/
theorem fails_unhashed : ∃ file line, MappingFile.parse unhashed = .ok file ∧
    file.Declares .intermediary ∧ (Text.lines unhashed).head? = some line ∧
    NamingMode.ofHeader line = .hashed ∧
    (runProgram ⟨"/"⟩ none ["w", "m"] (tree unhashed)).map Prod.fst = some ⟨1, [],
      ["Error: Mapping has no \"hashed\" namespace (found: intermediary, named, unhashed)"]⟩ := by
  exact ⟨⟨.v2, ["intermediary", "named", "unhashed"], []⟩,
    "tiny\t2\t0\tintermediary\tnamed\tunhashed", by decide,
    ⟨by decide, fun other => by cases other <;> decide⟩, by decide, by decide,
    by decide +kernel⟩

end MisreadMapping

end ClassNaming
