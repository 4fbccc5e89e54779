import ClassNaming.Proofs.Files.Change
import ClassNaming.Proofs.Run.Printed

/-!
# What a run works with

Before a run touches anything it reads its mapping file: the first line for the mode, if the
arguments do not name it, and then all of it.  What it renames with depends on the arguments and the
text of the file alone.  If that text cannot be read, is no mapping, or lacks a namespace, the run
fails, has printed nothing, and has changed nothing.

## Main Definitions

* `Arguments.modeFor` - the mode of a run with a mapping text
* `Prepares` - the renamer of a run

## Main Results

* `runWith_unprepared` - a run without a renamer
* `runWith_of_prepares` - a run with a renamer is a transaction
-/

namespace ClassNaming

open FileTree

variable {t u : FileTree} {p directory : Path} {text line : String} {arguments : Arguments}
  {settings : Settings} {table : MappingTable} {renamer : Renamer} {w w' : World} {f : Failure}

/-! ### Reading the mapping file -/

theorem keeps_readText : Keeps id (readText p) := by
  refine .bind (.bind .get fun t => .bind .lift fun found => ?_) fun content => ?_
  · split
    · exact .pure
    · exact .throw
  · split
    · exact .pure
    · exact .throw

theorem keeps_filing {α : Type} {action : Action} {job : FileJob α} (keeps : Keeps id job) :
    Keeps id (filing action job) :=
  keeps.attempt.during

theorem keeps_firstLine : Keeps id (firstLine p) := by
  refine .bind (keeps_filing keeps_readText) fun text => ?_
  split
  · exact .pure
  · exact .fail

theorem keeps_loadMapping : Keeps id (loadMapping p) :=
  .bind (keeps_filing keeps_readText) fun _ => .during (.during .demand)

theorem keeps_mode {mode? : Option NamingMode} {next : NamingMode → Job Id FileTree Settings}
    (later : ∀ mode, Keeps id (next mode)) :
    Keeps id (match mode? with
      | some mode => do
        let mode ← pure mode
        next mode
      | none => do
        let mode ← NamingMode.ofHeader <$> firstLine p
        next mode : Job Id FileTree Settings) := by
  cases mode? with
  | some mode => exact .bind .pure later
  | none => exact .bind keeps_firstLine.map later

theorem keeps_ofArguments : Keeps id (Settings.ofArguments directory arguments) := by
  refine .bind .get fun t => ?_
  dsimp only
  split
  · exact .bind .fail fun _ => keeps_mode fun _ => .pure
  · exact keeps_mode fun _ => .pure

theorem does_firstLine : Does (firstLine p) t line t ↔
    ∃ text, Does (readText p) t text t ∧ (Text.lines text).head? = some line := by
  simp only [firstLine, does_bind]
  constructor
  · rintro ⟨text, v, reads, rest⟩
    obtain rfl : v = t := (keeps_filing keeps_readText).does reads
    refine ⟨text, ?_, ?_⟩
    · rw [filing, does_during, does_attempt] at reads
      exact reads
    · split at rest
      · rename_i line' first
        rw [first, (does_pure.mp rest).1]
      · exact absurd rest does_fail
  · rintro ⟨text, reads, first⟩
    refine ⟨text, t, does_during.mpr (does_attempt.mpr reads), ?_⟩
    rw [first]
    exact does_pure.mpr ⟨rfl, rfl⟩

theorem does_loadMapping : Does (loadMapping p) t table t ↔
    ∃ text, Does (readText p) t text t ∧ MappingTable.parse text = .ok table := by
  simp only [loadMapping, filing, does_bind, does_during, does_attempt, does_demand]
  constructor
  · rintro ⟨text, v, reads, parsed, rfl⟩
    exact ⟨text, reads, parsed⟩
  · rintro ⟨text, reads, parsed⟩
    exact ⟨text, t, reads, parsed, rfl⟩

/-! ### The renamer of a run -/

/-- The mode of a run with a mapping text: what the arguments name, or else what the first line
tells. -/
def Arguments.modeFor (arguments : Arguments) (text : String) : NamingMode :=
  arguments.mode.getD (.ofHeader ((Text.lines text).head?.getD ""))

/-- The mapping file of a run can be read, is a mapping, and has the namespaces that the run needs,
so that this is the renamer. -/
def Prepares (t : FileTree) (directory : Path) (arguments : Arguments) (renamer : Renamer) : Prop :=
  ∃ text table resolver,
    Does (readText (Path.absolute directory ⟨arguments.mapping⟩)) t text t ∧
    MappingTable.parse text = .ok table ∧
    table.resolver (arguments.modeFor text).namespaceName = .ok resolver ∧
    renamer = { resolver, mode := arguments.modeFor text
                strategy := if arguments.spanReplace then .spans else .passes }

/-- A mapping has a first line. -/
theorem exists_line_of_parse (parsed : MappingTable.parse text = .ok table) :
    ∃ line, (Text.lines text).head? = some line := by
  cases lines : Text.lines text with
  | nil =>
    simp only [MappingTable.parse, MappingFile.parse, lines] at parsed
    cases parsed
  | cons line rest => exact ⟨line, rfl⟩

theorem does_ofArguments
    (there : t.exists? (Path.absolute directory ⟨arguments.path⟩) = true) :
    Does (Settings.ofArguments directory arguments) t settings t ↔
      ∃ mode, (arguments.mode = some mode ∨ arguments.mode = none ∧
          ∃ line, Does (firstLine (Path.absolute directory ⟨arguments.mapping⟩)) t line t ∧
            NamingMode.ofHeader line = mode) ∧
        settings = { target := Path.absolute directory ⟨arguments.path⟩
                     mapping := Path.absolute directory ⟨arguments.mapping⟩, mode
                     strategy := if arguments.spanReplace then .spans else .passes } := by
  simp only [Settings.ofArguments, does_bind, does_get]
  constructor
  · rintro ⟨_, _, ⟨rfl, rfl⟩, does⟩
    rw [there, if_neg (by simp)] at does
    split at does
    · rename_i mode named
      obtain ⟨_, _, same, rest⟩ := does_bind.mp does
      obtain ⟨rfl, rfl⟩ := does_pure.mp same
      exact ⟨mode, .inl named, (does_pure.mp rest).1.symm⟩
    · rename_i unnamed
      obtain ⟨_, v, mapped, rest⟩ := does_bind.mp does
      obtain ⟨line, first, rfl⟩ := does_map.mp mapped
      obtain ⟨rfl, rfl⟩ := does_pure.mp rest
      exact ⟨_, .inr ⟨unnamed, line, first, rfl⟩, rfl⟩
  · rintro ⟨mode, how, rfl⟩
    refine ⟨t, t, ⟨rfl, rfl⟩, ?_⟩
    rw [there, if_neg (by simp)]
    rcases how with named | ⟨unnamed, line, first, rfl⟩
    · rw [named]
      exact .bind (does_pure.mpr ⟨rfl, rfl⟩) (does_pure.mpr ⟨rfl, rfl⟩)
    · rw [unnamed]
      exact .bind (does_map.mpr ⟨line, first, rfl⟩) (does_pure.mpr ⟨rfl, rfl⟩)

/-- A run has a renamer exactly if it gets to one. -/
theorem prepares_iff (there : t.exists? (Path.absolute directory ⟨arguments.path⟩) = true) :
    Prepares t directory arguments renamer ↔ ∃ settings table,
      Does (Settings.ofArguments directory arguments) t settings t ∧
      Does (loadMapping settings.mapping) t table t ∧ settings.renamer table = .ok renamer := by
  simp only [does_ofArguments there, does_loadMapping]
  constructor
  · rintro ⟨text, table, resolver, reads, parsed, resolved, rfl⟩
    refine ⟨_, table, ⟨arguments.modeFor text, ?_, rfl⟩, ⟨text, reads, parsed⟩, ?_⟩
    · cases named : arguments.mode with
      | some mode => exact .inl (by rw [Arguments.modeFor, named, Option.getD_some])
      | none =>
        obtain ⟨line, first⟩ := exists_line_of_parse parsed
        refine .inr ⟨rfl, line, does_firstLine.mpr ⟨text, reads, first⟩, ?_⟩
        rw [Arguments.modeFor, named, first]
        rfl
    · rw [Settings.renamer, resolved]
      rfl
  · rintro ⟨_, table, ⟨mode, how, rfl⟩, ⟨text, reads, parsed⟩, renamed⟩
    have same : mode = arguments.modeFor text := by
      rcases how with named | ⟨unnamed, line, first, rfl⟩
      · rw [Arguments.modeFor, named, Option.getD_some]
      · obtain ⟨text', reads', first⟩ := does_firstLine.mp first
        obtain rfl := (reads.unique reads').1
        rw [Arguments.modeFor, unnamed, first]
        rfl
    subst same
    rw [Settings.renamer] at renamed
    cases resolved : table.resolver (arguments.modeFor text).namespaceName with
    | error missing =>
      rw [resolved] at renamed
      cases renamed
    | ok resolver =>
      rw [resolved] at renamed
      exact ⟨text, table, resolver, reads, parsed, resolved, (Except.ok.inj renamed).symm⟩

/-! ### The beginning of a run -/

section Run

variable (there : w.files.exists? (Path.absolute w.directory ⟨arguments.path⟩) = true)

include there

/-- **A run without a renamer** fails, prints nothing and changes nothing. -/
theorem runWith_unprepared (unknown : ∀ renamer, ¬ Prepares w.files w.directory arguments renamer) :
    ∃ f w', Fails (runWith arguments) w f w' ∧ w'.files = w.files ∧ w'.printed = w.printed := by
  have begun : Does (get : Job Option World World) w w w := does_get.mpr ⟨rfl, rfl⟩
  rcases done_or_failed (Settings.ofArguments w.directory arguments) w.files with
    ⟨settings, t, looked⟩ | ⟨f, t, failed⟩
  swap
  · obtain rfl : t = w.files := keeps_ofArguments.fails failed
    exact ⟨f, _, begun.bind_fails (.bind (fails_onFiles.mpr ⟨_, failed, rfl⟩)), rfl, rfl⟩
  obtain rfl : t = w.files := keeps_ofArguments.does looked
  rcases done_or_failed (loadMapping settings.mapping) w.files with
    ⟨table, t, loaded⟩ | ⟨f, t, failed⟩
  swap
  · obtain rfl : t = w.files := keeps_loadMapping.fails failed
    exact ⟨f, _, begun.bind_fails (looked.onFiles.bind_fails
      (.bind (fails_onFiles.mpr ⟨_, failed, rfl⟩))), rfl, rfl⟩
  obtain rfl : t = w.files := keeps_loadMapping.does loaded
  cases renamed : settings.renamer table with
  | ok renamer =>
    exact absurd ((prepares_iff there).mpr ⟨settings, table, looked, loaded, renamed⟩)
      (unknown renamer)
  | error missing =>
    have refused : Fails (demand .missingNamespace (settings.renamer table) : Job Option World _) w
        (.ofCause (.missingNamespace missing)) w := fails_demand.mpr ⟨missing, renamed, rfl, rfl⟩
    exact ⟨_, w, begun.bind_fails (looked.onFiles.bind_fails (loaded.onFiles.bind_fails
      (.bind refused))), rfl, rfl⟩

/-- **A run with a renamer is a transaction**, and ends as that does, or goes on as that does. -/
theorem runWith_of_prepares (prepares : Prepares w.files w.directory arguments renamer) :
    ∃ v : World, v.files = w.files ∧ v.printed = w.printed ∧
      (GoesOn (transact (Path.absolute w.directory ⟨arguments.path⟩)
          (sweepAndTell renamer (Path.absolute w.directory ⟨arguments.path⟩))) v →
        GoesOn (runWith arguments) w) ∧
      (∀ f w', Fails (transact (Path.absolute w.directory ⟨arguments.path⟩)
          (sweepAndTell renamer (Path.absolute w.directory ⟨arguments.path⟩))) v f w' →
        Fails (runWith arguments) w f w') ∧
      ∀ outcome w', Does (transact (Path.absolute w.directory ⟨arguments.path⟩)
          (sweepAndTell renamer (Path.absolute w.directory ⟨arguments.path⟩))) v outcome w' →
        ∃ w'', Does (runWith arguments) w () w'' ∧ w''.files = w'.files ∧
          w''.printed = w'.printed := by
  obtain ⟨settings, table, looked, loaded, renamed⟩ := (prepares_iff there).mp prepares
  have target : settings.target = Path.absolute w.directory ⟨arguments.path⟩ := by
    obtain ⟨mode, -, rfl⟩ := (does_ofArguments there).mp looked
    rfl
  have begun : Does (get : Job Option World World) w w w := does_get.mpr ⟨rfl, rfl⟩
  have demanded : Does (demand .missingNamespace (settings.renamer table) : Job Option World _) w
      renamer w := does_demand.mpr ⟨renamed, rfl⟩
  rw [← target]
  refine ⟨{ w with progress := w.progress.tell (.loaded settings.mapping.text table.size
    settings.mode.namespaceName settings.strategy) }, rfl, rfl, fun forever => ?_,
    fun f w' failed => ?_, fun outcome w' done => ?_⟩
  · exact begun.bind_goesOn (looked.onFiles.bind_goesOn (loaded.onFiles.bind_goesOn
      (demanded.bind_goesOn (Does.tellNow.bind_goesOn (.bind forever)))))
  · exact begun.bind_fails (looked.onFiles.bind_fails (loaded.onFiles.bind_fails
      (demanded.bind_fails (Does.tellNow.bind_fails (.bind failed)))))
  · have ends : ∃ w'', Does (if outcome = .restored then
        onProgress (tell (.unchanged settings.target.text)) else pure ()) w' () w'' ∧
        w''.files = w'.files ∧ w''.printed = w'.printed := by
      split
      · exact ⟨_, Does.tellNow, rfl, rfl⟩
      · exact ⟨w', does_pure.mpr ⟨rfl, rfl⟩, rfl, rfl⟩
    obtain ⟨w'', told, same⟩ := ends
    exact ⟨w'', begun.bind (looked.onFiles.bind (loaded.onFiles.bind (demanded.bind
      (Does.tellNow.bind (done.bind told))))), same⟩

end Run

end ClassNaming
