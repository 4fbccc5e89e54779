import ClassNaming.Proofs.Detail.Pieces

/-!
# Renaming a detail twice

Renaming a detail a second time changes nothing, if every usable new name is isolated and no piece
of the detail holds the sentinel twice.

For spans that is a matter of one piece: either its reference has no usable new name, and will not
have one the next time, or the piece holds no sentinel any more.  For passes there is more to it,
since what becomes of a piece depends on the names of all others.  The second run looks for fewer
names.  Those that it still finds are the names of the pieces that *stay*, which are the pieces
whose reference begins with a name that has no usable new one; and the first name that begins a
reference like that is itself the reference of a piece that stays (`find?_filter_stays`).

## Main Definitions

* `Renamer.stays` - whether a reference is left as it is by the passes

## Main Results

* `Renamer.renameSpans_renameSpans`, `Renamer.renamePasses_renamePasses` - the second run
* `Renamer.rename_rename` - the same for both strategies
-/

namespace ClassNaming.Detail

variable {sentinel piece before found name : List Char} {names pieces : List (List Char)}

/-- The first name that begins a reference is the first one that begins itself. -/
theorem find?_prefix_of_find? (first : names.find? (·.isPrefixOf found) = some name) :
    names.find? (·.isPrefixOf name) = some name := by
  obtain ⟨begins, front, back, whole, misses⟩ := List.find?_eq_some_iff_append.mp first
  refine List.find?_eq_some_iff_append.mpr ⟨by simp, front, back, whole, fun other mem => ?_⟩
  have miss := misses other mem
  simp only [Bool.not_eq_true', Bool.eq_false_iff, List.isPrefixOf_iff_prefix, ne_eq] at miss ⊢
  exact fun inside => miss (inside.trans (List.isPrefixOf_iff_prefix.mp begins))

/-- The pieces of joined texts are theirs. -/
theorem splitOn_intercalate_flatMap (pieces_ne : pieces ≠ []) :
    ([terminator].intercalate pieces).splitOn terminator =
      pieces.flatMap (List.splitOn terminator) := by
  induction pieces with
  | nil => exact absurd rfl pieces_ne
  | cons piece later ih =>
    cases later with
    | nil => simp
    | cons next later =>
      rw [List.intercalate_cons_cons, List.append_assoc, List.singleton_append,
        List.splitOn_append_cons_self, ih (by simp)]
      rfl

/-- The pieces of a text without a sentinel have none. -/
theorem absent_of_mem_splitOn {text : List Char} (absent : ¬ sentinel <:+: text)
    (mem : piece ∈ text.splitOn terminator) : ¬ sentinel <:+: piece :=
  fun inside => absent (inside.trans (infix_of_mem_splitOn mem))

/-! ### The pieces of a renamed detail -/

section Again

variable {stays : List Char → Prop} {change : List Char → List Char} {detail : List Char}

/-- The pieces of a detail after a change of each of them. -/
theorem splitOn_changed (change : List Char → List Char) (detail : List Char) :
    ([terminator].intercalate ((detail.splitOn terminator).map change)).splitOn terminator =
      (detail.splitOn terminator).flatMap fun piece => (change piece).splitOn terminator := by
  rw [splitOn_intercalate_flatMap (by simp [List.splitOn_ne_nil]), List.flatMap_map]

/-- A change that leaves a piece as it is or free of sentinels makes no new pieces with them. -/
theorem stays_or_absent (settles : ∀ piece ∈ detail.splitOn terminator,
      change piece = piece ∧ stays piece ∨ ¬ sentinel <:+: change piece)
    (mem : piece ∈
      ([terminator].intercalate ((detail.splitOn terminator).map change)).splitOn terminator) :
    piece ∈ detail.splitOn terminator ∧ stays piece ∨ ¬ sentinel <:+: piece := by
  rw [splitOn_changed] at mem
  obtain ⟨old, listed, within⟩ := List.mem_flatMap.mp mem
  rcases settles old listed with ⟨same, kept⟩ | absent
  · have closed := Text.mark_notMem_of_mem_splitOn detail listed
    rw [same, List.splitOn_eq_singleton closed, List.mem_singleton] at within
    exact .inl ⟨within ▸ listed, within ▸ kept⟩
  · exact .inr (absent_of_mem_splitOn absent within)

end Again

end ClassNaming.Detail

namespace ClassNaming.Renamer

variable {renamer : Renamer} {piece before found name : List Char}
  {names : List (List Char)} {detail : List Char}

/-! ### Spans -/

/-- **Spans change nothing the second time.** -/
theorem renameSpans_renameSpans (tame : renamer.Tame)
    (single : ∀ piece ∈ detail.splitOn Detail.terminator,
      Text.occurrences renamer.sentinel piece ≤ 1) :
    renamer.renameSpans (renamer.renameSpans detail) = renamer.renameSpans detail := by
  have settles : ∀ piece ∈ detail.splitOn Detail.terminator,
      renamer.spanned piece = piece ∧ renamer.spanned piece = piece ∨
        ¬ renamer.sentinel <:+: renamer.spanned piece := by
    intro piece mem
    cases cut : Text.cut? renamer.sentinel piece with
    | none =>
      have same := spanned_of_absent (Text.cut?_eq_none_iff.mp cut)
      exact .inl ⟨same, same⟩
    | some parts =>
      obtain ⟨before, found⟩ := parts
      obtain ⟨whole, starts, -⟩ := Text.cut?_eq_some_iff.mp cut
      cases usable : renamer.lookup? found with
      | none =>
        have same : renamer.spanned piece = piece := by
          rw [spanned_of_cut cut, newName_of_missed usable, whole]
        exact .inl ⟨same, same⟩
      | some new =>
        have free := tame.not_infix_replaced (single piece mem) starts
          (cut.trans (by rw [List.append_nil]))
        rw [spanned_of_cut cut, newName_of_usable usable]
        exact .inr (by simpa using free)
  rw [renameSpans_pieces, renameSpans_pieces renamer detail]
  refine Detail.intercalate_map_eq_self fun piece mem => ?_
  rcases Detail.stays_or_absent settles mem with ⟨-, same⟩ | absent
  · exact same
  · exact spanned_of_absent absent

/-! ### Passes -/

/-- Whether the passes for some names leave a reference as it is: the first name that begins it has
no usable new one. -/
def stays (renamer : Renamer) (names : List (List Char)) (found : List Char) : Bool :=
  ((names.find? (·.isPrefixOf found)).bind renamer.lookup?).isNone

theorem substitute_of_stays (cut : Text.cut? renamer.sentinel piece = some (before, found))
    (stay : renamer.stays names found) :
    Detail.substitute renamer.sentinel renamer.newName names piece = piece := by
  cases first : names.find? (·.isPrefixOf found) with
  | none => exact Detail.substitute_of_none cut first
  | some name =>
    obtain ⟨-, rest, rfl⟩ := Detail.split_of_find? first
    have missed : renamer.lookup? name = none := by simpa [stays, first] using stay
    rw [Detail.substitute_of_some cut first, newName_of_missed missed,
      (Text.cut?_eq_some_iff.mp cut).1, List.append_assoc]

/-- A piece whose reference does not stay is free of sentinels afterwards. -/
theorem absent_of_not_stays (tame : renamer.Tame)
    (single : Text.occurrences renamer.sentinel piece ≤ 1)
    (starts : ∀ name ∈ names, renamer.sentinel <+: name)
    (cut : Text.cut? renamer.sentinel piece = some (before, found))
    (changes : renamer.stays names found = false) :
    ¬ renamer.sentinel <:+:
      Detail.substitute renamer.sentinel renamer.newName names piece := by
  obtain ⟨new, answer⟩ : ∃ new,
      (names.find? (·.isPrefixOf found)).bind renamer.lookup? = some new := by
    simpa [stays, Option.isSome_iff_exists] using changes
  obtain ⟨name, first, usable⟩ := Option.bind_eq_some_iff.mp answer
  obtain ⟨mem, rest, rfl⟩ := Detail.split_of_find? first
  rw [Detail.substitute_of_some cut first, newName_of_usable usable]
  exact tame.not_infix_replaced single (starts name mem) cut

/-- What the passes make of a piece: it stays as it is, or is free of sentinels. -/
theorem substitute_stays_or_absent (tame : renamer.Tame)
    (single : Text.occurrences renamer.sentinel piece ≤ 1)
    (starts : ∀ name ∈ names, renamer.sentinel <+: name) :
    (Detail.substitute renamer.sentinel renamer.newName names piece = piece ∧
      ∀ before found, Text.cut? renamer.sentinel piece = some (before, found) →
        renamer.stays names found) ∨
    ¬ renamer.sentinel <:+: Detail.substitute renamer.sentinel renamer.newName names piece := by
  cases cut : Text.cut? renamer.sentinel piece with
  | none => exact .inl ⟨Detail.substitute_of_absent (Text.cut?_eq_none_iff.mp cut), by simp⟩
  | some parts =>
    obtain ⟨before, found⟩ := parts
    cases stay : renamer.stays names found with
    | true =>
      refine .inl ⟨substitute_of_stays cut stay, fun _ _ same => ?_⟩
      obtain ⟨-, rfl⟩ := Prod.mk.inj (Option.some.inj same)
      exact stay
    | false => exact .inr (absent_of_not_stays tame single starts cut stay)

/-- The first name that begins a reference that stays begins a reference that stays. -/
theorem find?_filter_stays (stay : renamer.stays names found)
    (first : names.find? (·.isPrefixOf found) = some name) :
    (names.filter (renamer.stays names)).find? (·.isPrefixOf found) = some name := by
  have own : renamer.stays names name := by
    rw [stays, Detail.find?_prefix_of_find? first, ← first]
    exact stay
  obtain ⟨begins, front, back, whole, misses⟩ := List.find?_eq_some_iff_append.mp first
  rw [List.find?_filter]
  refine List.find?_eq_some_iff_append.mpr ⟨by simp [own, begins], front, back, whole, ?_⟩
  intro other mem
  have miss := misses other mem
  simp_all

/-- The names of what the passes make of a piece: its reference, if that stays. -/
theorem namesOf_splitOn_substitute (tame : renamer.Tame) (closed : Detail.terminator ∉ piece)
    (single : Text.occurrences renamer.sentinel piece ≤ 1)
    (starts : ∀ name ∈ names, renamer.sentinel <+: name) :
    Detail.namesOf renamer.sentinel
        ((Detail.substitute renamer.sentinel renamer.newName names piece).splitOn
          Detail.terminator) =
      ((Detail.nameOf? renamer.sentinel piece).filter (renamer.stays names)).toList := by
  cases cut : Text.cut? renamer.sentinel piece with
  | none =>
    have absent := Text.cut?_eq_none_iff.mp cut
    have none := Detail.nameOf?_eq_none_iff.mpr absent
    rw [Detail.substitute_of_absent absent, List.splitOn_eq_singleton closed, none,
      Detail.namesOf_cons_of_none none]
    rfl
  | some parts =>
    obtain ⟨before, found⟩ := parts
    have named := Detail.nameOf?_of_cut cut
    rw [named]
    cases stay : renamer.stays names found with
    | true =>
      rw [substitute_of_stays cut stay, List.splitOn_eq_singleton closed,
        Detail.namesOf_cons_of_some named, Option.filter_some, stay]
      rfl
    | false =>
      have absent := absent_of_not_stays tame single starts cut stay
      rw [Option.filter_some, stay, Detail.namesOf, List.filterMap_eq_nil_iff.mpr]
      · rfl
      · exact fun other mem =>
          Detail.nameOf?_eq_none_iff.mpr (Detail.absent_of_mem_splitOn absent mem)

/-- The names that the second run finds. -/
theorem namesOf_substituted (tame : renamer.Tame)
    (single : ∀ piece ∈ detail.splitOn Detail.terminator,
      Text.occurrences renamer.sentinel piece ≤ 1)
    (starts : ∀ name ∈ names, renamer.sentinel <+: name) :
    Detail.namesOf renamer.sentinel (([Detail.terminator].intercalate
        ((detail.splitOn Detail.terminator).map
          (Detail.substitute renamer.sentinel renamer.newName names))).splitOn Detail.terminator) =
      (Detail.namesOf renamer.sentinel (detail.splitOn Detail.terminator)).filter
        (renamer.stays names) := by
  rw [Detail.splitOn_changed, Detail.namesOf, List.filterMap_flatMap, Detail.namesOf,
    List.filter_filterMap, List.filterMap_eq_flatMap_toList]
  exact List.flatMap_congr fun piece mem => namesOf_splitOn_substitute tame
    (Text.mark_notMem_of_mem_splitOn detail mem) (single piece mem) starts

/-- A piece of the renamed detail is an old one that stays, or free of sentinels. -/
theorem old_or_absent (tame : renamer.Tame)
    (single : ∀ piece ∈ detail.splitOn Detail.terminator,
      Text.occurrences renamer.sentinel piece ≤ 1)
    (mem : piece ∈ ([Detail.terminator].intercalate ((detail.splitOn Detail.terminator).map
      (Detail.substitute renamer.sentinel renamer.newName (Detail.namesOf renamer.sentinel
        (detail.splitOn Detail.terminator))))).splitOn Detail.terminator) :
    (piece ∈ detail.splitOn Detail.terminator ∧ ∀ before found,
      Text.cut? renamer.sentinel piece = some (before, found) → renamer.stays
        (Detail.namesOf renamer.sentinel (detail.splitOn Detail.terminator)) found) ∨
    ¬ renamer.sentinel <:+: piece :=
  Detail.stays_or_absent (fun old mem => substitute_stays_or_absent tame (single old mem)
    fun _ => Detail.starts_of_mem_namesOf) mem

/-- The passes leave a piece alone that they left alone before. -/
theorem substitute_again {pieces : List (List Char)} (mem : piece ∈ pieces)
    (stay : ∀ before found, Text.cut? renamer.sentinel piece = some (before, found) →
      renamer.stays (Detail.namesOf renamer.sentinel pieces) found) :
    Detail.substitute renamer.sentinel renamer.newName ((Detail.namesOf renamer.sentinel
      pieces).filter (renamer.stays (Detail.namesOf renamer.sentinel pieces))) piece = piece := by
  cases cut : Text.cut? renamer.sentinel piece with
  | none => exact Detail.substitute_of_absent (Text.cut?_eq_none_iff.mp cut)
  | some parts =>
    obtain ⟨before, found⟩ := parts
    have stay := stay before found cut
    obtain ⟨name, first⟩ := Option.isSome_iff_exists.mp (Detail.find?_namesOf_isSome mem cut)
    refine substitute_of_stays cut ?_
    rw [stays, find?_filter_stays stay first, ← first]
    exact stay

/-- **Passes change nothing the second time**, and come to an end again. -/
theorem renamePasses_renamePasses (tame : renamer.Tame) (free : marker ∉ detail)
    (single : ∀ piece ∈ detail.splitOn Detail.terminator,
      Text.occurrences renamer.sentinel piece ≤ 1) :
    ∃ new, renamer.renamePasses detail = some new ∧ renamer.renamePasses new = some new := by
  have unmarked : ∀ {pieces}, ∀ name ∈ Detail.namesOf renamer.sentinel pieces, ∀ new,
      renamer.lookup? name = some new → marker ∉ new :=
    fun name _ new usable => (tame name new usable).2
  have passes := renamePasses_of_orderly (tame.orderly single) free unmarked
  refine ⟨_, passes, ?_⟩
  have single_again : ∀ piece ∈ ([Detail.terminator].intercalate
      ((detail.splitOn Detail.terminator).map (Detail.substitute renamer.sentinel renamer.newName
        (Detail.namesOf renamer.sentinel (detail.splitOn Detail.terminator))))).splitOn
          Detail.terminator, Text.occurrences renamer.sentinel piece ≤ 1 := by
    intro piece mem
    rcases old_or_absent tame single mem with ⟨old, -⟩ | absent
    · exact single piece old
    · exact ((Text.occurrences_eq_zero_iff renamer.mode.sentinel_ne_nil).mpr absent).le.trans
        (Nat.zero_le 1)
  have passes_again := renamePasses_of_orderly (tame.orderly single_again)
    (marker_notMem_of_renamePasses passes) unmarked
  have starts : ∀ name ∈ Detail.namesOf renamer.sentinel (detail.splitOn Detail.terminator),
      renamer.sentinel <+: name := fun _ => Detail.starts_of_mem_namesOf
  have names_again := namesOf_substituted tame single starts
  refine passes_again.trans (congrArg some (Detail.intercalate_map_eq_self ?_))
  intro piece mem
  rcases old_or_absent tame single mem with ⟨old, stay⟩ | absent
  · rw [names_again]
    exact substitute_again old stay
  · exact Detail.substitute_of_absent absent

/-- **Renaming a detail twice** is renaming it once, with either strategy, and it comes to an end
both times. -/
theorem rename_rename (renamer : Renamer) (tame : renamer.Tame) (detail : String)
    (free : marker ∉ detail.toList)
    (single : ∀ piece ∈ detail.toList.splitOn Detail.terminator,
      Text.occurrences renamer.sentinel piece ≤ 1) :
    ∃ new, renamer.rename detail = some new ∧ renamer.rename new = some new := by
  cases strategy : renamer.strategy with
  | spans =>
    refine ⟨_, rename_of_spans strategy, ?_⟩
    rw [rename_of_spans strategy, String.toList_ofList, renameSpans_renameSpans tame single]
  | passes =>
    obtain ⟨new, passes, passes_again⟩ := renamePasses_renamePasses tame free single
    refine ⟨String.ofList new, ?_, ?_⟩
    · rw [rename_of_passes strategy, passes, Option.map_some]
    · rw [rename_of_passes strategy, String.toList_ofList, passes_again, Option.map_some]

/-- Four references, of which the second begins with the first, and the last with the third.  The
first two make way for new names, the others are not known to `collision`. -/
def crowded : String :=
  "net/minecraft/class_1;net/minecraft/class_12;Lnet/minecraft/class_6;[net/minecraft/class_61"

theorem rename_rename_crowded :
    ∃ new, collision.rename crowded = some new ∧ collision.rename new = some new := by
  have free : marker ∉ crowded.toList := by decide +kernel
  have single : ∀ piece ∈ crowded.toList.splitOn Detail.terminator,
      Text.occurrences collision.sentinel piece ≤ 1 := by decide +kernel
  exact rename_rename collision tame_collision crowded free single

end ClassNaming.Renamer
