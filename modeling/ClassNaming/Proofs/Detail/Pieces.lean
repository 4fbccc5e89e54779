import ClassNaming.Proofs.Detail.Fragments
import ClassNaming.Proofs.Detail.Settling
import ClassNaming.Proofs.Mapping.Table

/-!
# What the passes make of a detail, piece by piece

A pass works on the whole text, and what one pass does another may undo.  Where the pieces of a
detail are *orderly* it does not: a name occurs in a piece nowhere but where the reference of the
piece starts, and a piece of which a name was replaced is free of sentinels.  The passes together
then do one thing to each piece: the first name of the detail that begins the reference of the piece
makes way for its new name, and what the name leaves of the reference stays as it is.

The first name need not be the whole reference.  Where one name begins a longer one, and comes first
in the detail, the longer one is never looked up.

A pass over orderly pieces is a substitution of one name in every piece at once
(`replaceAll_substitute`), and what carries the induction over the pieces is that all pieces up to
some place are free of sentinels after the names up to that place are substituted.

Pieces are orderly under two conditions (`Tame.orderly`):

* *Every usable new name is isolated*: no sentinel overlaps it, whatever text stands around it.
* *No piece holds the sentinel twice.*

## Main Definitions

* `Detail.Isolated` - a text that no sentinel overlaps
* `Detail.substitute` - a piece with one of some names substituted
* `Renamer.Orderly` - pieces whose names the passes take one after the other
* `Renamer.Tame` - a renamer of which every usable new name is isolated

## Main Results

* `Renamer.Orderly.settle?_eq` - the text after all passes
* `Renamer.renamePasses_of_orderly` - the renamed detail
* `Renamer.renamePasses_eq_pieces` - the same for a tame renamer and pieces with one sentinel
-/

namespace ClassNaming.Detail

variable {sentinel piece before found name rest front core text : List Char}
  {names pieces : List (List Char)} {new : List Char → List Char}

/-! ### Isolated texts -/

/-- A text that no sentinel overlaps, whatever text stands around it: a sentinel ends before it or
begins behind it. -/
def Isolated (sentinel new : List Char) : Prop :=
  ∀ before after front back, before ++ new ++ after = front ++ sentinel ++ back →
    (front ++ sentinel).length ≤ before.length ∨ (before ++ new).length ≤ front.length

/-- A sentinel that overlaps a text lines up an ending of the one with a beginning of the other. -/
theorem isolated_of_tails {new : List Char}
    (inner : ∀ ending ∈ new.tails, ending ≠ [] → ¬ ending <+: sentinel ∧ ¬ sentinel <+: ending)
    (outer : ∀ ending ∈ sentinel.tails, ending ≠ [] → ¬ ending <+: new ∧ ¬ new <+: ending) :
    Isolated sentinel new := by
  have apart : ∀ {front word back other after : List Char},
      (∀ ending ∈ word.tails, ending ≠ [] → ¬ ending <+: other ∧ ¬ other <+: ending) →
      word ++ after = front ++ (other ++ back) → word.length ≤ front.length := by
    intro front word back other after misses whole
    rcases List.append_eq_append_iff.mp whole with ⟨middle, rfl, -⟩ | ⟨ending, rfl, aligned⟩
    · simp
    · rcases List.eq_nil_or_concat' ending with rfl | ⟨_, _, ending_eq⟩
      · simp
      have fits : ending ∈ (front ++ ending).tails :=
        (List.mem_tails _ _).mpr (List.suffix_append _ _)
      obtain ⟨less, more⟩ := misses ending fits (by simp [ending_eq])
      rcases List.prefix_or_prefix_of_prefix (List.prefix_append other back)
        (aligned ▸ List.prefix_append ending after) with begins | begins
      · exact absurd begins more
      · exact absurd begins less
  intro before after front back whole
  rw [List.append_assoc, List.append_assoc] at whole
  rcases List.append_eq_append_iff.mp whole with ⟨middle, rfl, split⟩ | ⟨middle, rfl, split⟩
  · have bound := apart inner split
    exact .inr (by simpa using bound)
  · have bound := apart outer split
    exact .inl (by simpa using bound)

/-- An isolated text between two texts without a sentinel completes none with them. -/
theorem Isolated.not_infix_append {new : List Char} (isolated : Isolated sentinel new)
    (ahead : ¬ sentinel <:+: before) (behind : ¬ sentinel <:+: rest) :
    ¬ sentinel <:+: before ++ new ++ rest := by
  rintro ⟨front, back, whole⟩
  rcases isolated before rest front back whole.symm with left | right
  · -- The sentinel would lie before the text.
    have inside : front ++ sentinel <+: before := by
      refine List.prefix_of_prefix_length_le ?_ (List.prefix_append before (new ++ rest)) left
      rw [← List.append_assoc, ← whole]
      exact List.prefix_append _ _
    exact ahead ((List.suffix_append front sentinel).isInfix.trans inside.isInfix)
  · -- The sentinel would lie behind it.
    rw [List.append_assoc front] at whole
    obtain ⟨middle, rfl⟩ : before ++ new <+: front :=
      List.prefix_of_prefix_length_le ⟨rest, rfl⟩ ⟨sentinel ++ back, whole⟩ right
    exact behind ⟨middle, back, by simpa using whole⟩

/-! ### Substituting names in a piece -/

/-- A piece in which the first of the names that begins its reference makes way for another text.
The rest of the reference stays. -/
def substitute (sentinel : List Char) (new : List Char → List Char) (names : List (List Char))
    (piece : List Char) : List Char :=
  match Text.cut? sentinel piece with
  | none => piece
  | some (before, found) =>
    match names.find? (·.isPrefixOf found) with
    | none => piece
    | some name => before ++ new name ++ found.drop name.length

theorem substitute_of_absent (absent : ¬ sentinel <:+: piece) :
    substitute sentinel new names piece = piece := by
  rw [substitute, Text.cut?_eq_none_iff.mpr absent]

theorem substitute_of_none (cut : Text.cut? sentinel piece = some (before, found))
    (none : names.find? (·.isPrefixOf found) = none) :
    substitute sentinel new names piece = piece := by
  rw [substitute, cut]
  simp only
  rw [none]

theorem substitute_of_some (cut : Text.cut? sentinel piece = some (before, name ++ rest))
    (first : names.find? (·.isPrefixOf (name ++ rest)) = some name) :
    substitute sentinel new names piece = before ++ new name ++ rest := by
  rw [substitute, cut]
  simp only
  rw [first]
  simp

/-- The first name that begins a reference begins it. -/
theorem split_of_find? (first : names.find? (·.isPrefixOf found) = some name) :
    name ∈ names ∧ ∃ rest, found = name ++ rest := by
  have begins := List.find?_some (p := fun name : List Char => name.isPrefixOf found) first
  obtain ⟨rest, whole⟩ := List.isPrefixOf_iff_prefix.mp begins
  exact ⟨List.mem_of_find?_eq_some first, rest, whole.symm⟩

/-- No sentinel lies before the first one. -/
theorem absent_before (sentinel_ne : sentinel ≠ [])
    (cut : Text.cut? sentinel piece = some (before, found)) : ¬ sentinel <:+: before := by
  obtain ⟨rfl, -, first⟩ := Text.cut?_eq_some_iff.mp cut
  exact Text.not_infix_of_first sentinel_ne first

/-- A piece with one sentinel has none behind the name that its reference begins with. -/
theorem absent_behind (single : Text.occurrences sentinel piece ≤ 1) (sentinel_ne : sentinel ≠ [])
    (cut : Text.cut? sentinel piece = some (before, name ++ rest)) (name_ne : name ≠ []) :
    ¬ sentinel <:+: rest := by
  obtain ⟨rfl, starts, -⟩ := Text.cut?_eq_some_iff.mp cut
  obtain ⟨c, tail, rfl⟩ := List.exists_cons_of_ne_nil name_ne
  have once : Text.occurrences sentinel (tail ++ rest) + 1 ≤ 1 := by
    rw [List.cons_append] at starts single
    rw [← Text.occurrences_cons_pos starts]
    exact (Text.occurrences_le_append before).trans single
  have none : Text.occurrences sentinel (tail ++ rest) = 0 :=
    Nat.le_zero.mp (Nat.le_of_succ_le_succ once)
  rw [Text.occurrences_eq_zero_iff sentinel_ne] at none
  exact fun inside => none (inside.trans (List.suffix_append tail rest).isInfix)

/-- A name that occurs in a piece nowhere but where the reference of the piece starts. -/
def Lone (sentinel name piece : List Char) : Prop :=
  ∀ front back, piece = front ++ name ++ back →
    ∃ found, Text.cut? sentinel piece = some (front, found)

/-- What starts with a sentinel occurs only at a sentinel, of which a piece may have just one. -/
theorem lone_of_single (single : Text.occurrences sentinel piece ≤ 1) (sentinel_ne : sentinel ≠ [])
    (starts : sentinel <+: name) : Lone sentinel name piece := by
  intro front back whole
  have begins : sentinel <+: name ++ back := starts.trans (List.prefix_append _ _)
  rw [List.append_assoc] at whole
  cases cut : Text.cut? sentinel piece with
  | none =>
    have inside : name ++ back <:+: piece := ⟨front, [], by simp [whole]⟩
    exact absurd (begins.isInfix.trans inside) (Text.cut?_eq_none_iff.mp cut)
  | some parts =>
    obtain ⟨before, found⟩ := parts
    obtain ⟨rfl, -, first⟩ := Text.cut?_eq_some_iff.mp cut
    obtain ⟨middle, rfl⟩ : before <+: front := List.prefix_of_prefix_length_le ⟨found, rfl⟩
      ⟨name ++ back, whole.symm⟩ (first front (name ++ back) whole begins)
    obtain rfl : found = middle ++ (name ++ back) := by simpa using whole
    by_cases middle_ne : middle = []
    · exact ⟨_, by rw [middle_ne, List.append_nil]⟩
    · exact absurd begins.isInfix (absent_behind single sentinel_ne cut middle_ne)

/-- **Replacing a name in a piece** substitutes it, if no name before it has been. -/
theorem replaceAll_substitute (lone : Lone sentinel name piece) (sentinel_ne : sentinel ≠ [])
    (starts : sentinel <+: name)
    (done : ∀ before found, Text.cut? sentinel piece = some (before, found) →
      (names.find? (·.isPrefixOf found)).isSome →
      ¬ sentinel <:+: substitute sentinel new names piece) :
    Text.replaceAll name (new name) (substitute sentinel new names piece) =
      substitute sentinel new (names ++ [name]) piece := by
  have name_ne : name ≠ [] := fun none => sentinel_ne (List.prefix_nil.mp (none ▸ starts))
  cases cut : Text.cut? sentinel piece with
  | none =>
    have absent := Text.cut?_eq_none_iff.mp cut
    rw [substitute_of_absent absent, substitute_of_absent absent]
    exact Text.replaceAll_of_not_infix fun inside => absent (starts.isInfix.trans inside)
  | some parts =>
    obtain ⟨before, found⟩ := parts
    cases first : names.find? (·.isPrefixOf found) with
    | some earlier =>
      have free := done before found cut (by rw [first]; rfl)
      rw [Text.replaceAll_of_not_infix fun inside => free (starts.isInfix.trans inside)]
      obtain ⟨-, rest, rfl⟩ := split_of_find? first
      rw [substitute_of_some cut first, substitute_of_some cut]
      rw [List.find?_append, first, Option.some_or]
    | none =>
      rw [substitute_of_none cut first]
      obtain ⟨rfl, -, early⟩ := Text.cut?_eq_some_iff.mp cut
      by_cases begins : name <+: found
      · obtain ⟨rest, rfl⟩ := begins
        rw [substitute_of_some cut (by simp [List.find?_append, first]), ← List.append_assoc,
          Text.replaceAll_first name_ne, Text.replaceAll_of_not_infix]
        · rintro ⟨front, back, rfl⟩
          obtain ⟨_, cut'⟩ := lone (before ++ name ++ front) back (by simp)
          obtain ⟨same, -⟩ := Prod.mk.inj (Option.some.inj (cut.symm.trans cut'))
          simp [name_ne] at same
        · exact fun front back whole begins =>
            early front back (by simpa using whole) (starts.trans begins)
      · rw [substitute_of_none cut (by simpa [List.find?_append, first] using begins)]
        refine Text.replaceAll_of_not_infix ?_
        rintro ⟨front, back, whole⟩
        obtain ⟨_, cut'⟩ := lone front back whole.symm
        obtain ⟨rfl, -⟩ := Prod.mk.inj (Option.some.inj (cut.symm.trans cut'))
        exact begins ⟨back, by simpa using whole⟩

/-- A name that an earlier one begins is never substituted. -/
theorem substitute_append_of_some (shadowed : (names.find? (·.isPrefixOf name)).isSome)
    (piece : List Char) :
    substitute sentinel new (names ++ [name]) piece = substitute sentinel new names piece := by
  obtain ⟨earlier, first⟩ := Option.isSome_iff_exists.mp shadowed
  obtain ⟨mem, tail, rfl⟩ := split_of_find? first
  unfold substitute
  cases cut : Text.cut? sentinel piece with
  | none => rfl
  | some parts =>
    obtain ⟨before, found⟩ := parts
    have same : (names ++ [earlier ++ tail]).find? (·.isPrefixOf found) =
        names.find? (·.isPrefixOf found) := by
      cases here : names.find? (·.isPrefixOf found) with
      | some other => rw [List.find?_append, here, Option.some_or]
      | none =>
        have misses : ¬ earlier <+: found := by
          simpa using List.find?_eq_none.mp here earlier mem
        have longer : ¬ earlier ++ tail <+: found := fun begins =>
          misses ((List.prefix_append _ _).trans begins)
        simp [List.find?_append, here, longer]
    simp only
    rw [same]

end ClassNaming.Detail

namespace ClassNaming.Renamer

variable {renamer : Renamer} {piece before found name : List Char}
  {names pieces : List (List Char)}

/-- A piece in the text after the passes for some names. -/
def passed (renamer : Renamer) (names : List (List Char)) (piece : List Char) : List Char :=
  Detail.substitute renamer.sentinel renamer.replacement names piece

/-- Pieces whose names the passes take one after the other. -/
structure Orderly (renamer : Renamer) (pieces : List (List Char)) : Prop where
  /-- A name occurs in a piece nowhere but where the reference of the piece starts. -/
  lone : ∀ name ∈ Detail.namesOf renamer.sentinel pieces, ∀ piece ∈ pieces,
    Detail.Lone renamer.sentinel name piece
  /-- A piece with a name replaced is free of sentinels. -/
  clean : ∀ name ∈ Detail.namesOf renamer.sentinel pieces, ∀ piece ∈ pieces, ∀ before rest,
    Text.cut? renamer.sentinel piece = some (before, name ++ rest) →
    ¬ renamer.sentinel <:+: before ++ renamer.replacement name ++ rest

namespace Orderly

/-- A piece is done once some name begins its reference. -/
theorem not_infix_passed (orderly : renamer.Orderly pieces)
    (known : names ⊆ Detail.namesOf renamer.sentinel pieces) (mem : piece ∈ pieces)
    (finished : ∀ before found, Text.cut? renamer.sentinel piece = some (before, found) →
      (names.find? (·.isPrefixOf found)).isSome) :
    ¬ renamer.sentinel <:+: renamer.passed names piece := by
  cases cut : Text.cut? renamer.sentinel piece with
  | none =>
    have absent := Text.cut?_eq_none_iff.mp cut
    rwa [passed, Detail.substitute_of_absent absent]
  | some parts =>
    obtain ⟨before, found⟩ := parts
    obtain ⟨name, first⟩ := Option.isSome_iff_exists.mp (finished before found cut)
    obtain ⟨named, rest, rfl⟩ := Detail.split_of_find? first
    rw [passed, Detail.substitute_of_some cut first]
    exact orderly.clean name (known named) piece mem before rest cut

/-- A pass is for the reference of the first piece that is not done. -/
theorem pass?_passed {done ahead : List (List Char)}
    (orderly : renamer.Orderly (done ++ piece :: ahead))
    (known : names ⊆ Detail.namesOf renamer.sentinel (done ++ piece :: ahead))
    (closed : Detail.terminator ∉ piece)
    (finished : ∀ other ∈ done, ∀ before found,
      Text.cut? renamer.sentinel other = some (before, found) →
      (names.find? (·.isPrefixOf found)).isSome)
    (cut : Text.cut? renamer.sentinel piece = some (before, found))
    (left : names.find? (·.isPrefixOf found) = none) :
    renamer.pass? ([Detail.terminator].intercalate
        ((done ++ piece :: ahead).map (renamer.passed names))) =
      some ([Detail.terminator].intercalate
        ((done ++ piece :: ahead).map (renamer.passed (names ++ [found])))) := by
  have fresh := renamer.mode.terminator_notMem_sentinel
  have sentinel_ne := renamer.mode.sentinel_ne_nil
  have absent : ∀ other ∈ done.map (renamer.passed names), ¬ renamer.sentinel <:+: other := by
    intro other mem
    obtain ⟨old, within, rfl⟩ := List.mem_map.mp mem
    exact orderly.not_infix_passed known (List.mem_append_left _ within) (finished old within)
  have reference := Detail.firstReference_of_cut? closed cut
  have whole := reference.frame fresh (Detail.inert_flatMap fresh absent)
    (Detail.apart_flatMap (ahead.map (renamer.passed names)))
  have untouched : renamer.passed names piece = piece := Detail.substitute_of_none cut left
  rw [← Detail.intercalate_append_cons] at whole
  nth_rewrite 1 [← untouched] at whole
  rw [← List.map_cons, ← List.map_append] at whole
  have pass := pass?_eq_some whole
  rw [← whole.replaceAll_eq sentinel_ne, Text.replaceAll_intercalate
    (reference.name_ne_nil sentinel_ne) reference.closed, List.map_map] at pass
  rw [pass]
  refine congrArg (fun pieces => some ([Detail.terminator].intercalate pieces))
    (List.map_congr_left fun other mem => ?_)
  have here : piece ∈ done ++ piece :: ahead := by simp
  refine Detail.replaceAll_substitute (orderly.lone found (Detail.mem_namesOf here cut) other mem)
    sentinel_ne reference.starts fun front back cut first => ?_
  refine orderly.not_infix_passed known mem fun front' back' cut' => ?_
  obtain ⟨-, rfl⟩ := Prod.mk.inj (Option.some.inj (cut.symm.trans cut'))
  exact first

/-- One piece further the text is the same, or a pass makes it so. -/
theorem pass?_onward {done ahead : List (List Char)}
    (orderly : renamer.Orderly (done ++ piece :: ahead)) (closed : Detail.terminator ∉ piece) :
    renamer.passed (Detail.namesOf renamer.sentinel (done ++ [piece])) =
        renamer.passed (Detail.namesOf renamer.sentinel done) ∨
      renamer.pass? ([Detail.terminator].intercalate ((done ++ piece :: ahead).map
          (renamer.passed (Detail.namesOf renamer.sentinel done)))) =
        some ([Detail.terminator].intercalate ((done ++ piece :: ahead).map
          (renamer.passed (Detail.namesOf renamer.sentinel (done ++ [piece]))))) := by
  have known : Detail.namesOf renamer.sentinel done ⊆
      Detail.namesOf renamer.sentinel (done ++ piece :: ahead) := by
    rw [Detail.namesOf_append]
    exact List.subset_append_left _ _
  rw [Detail.namesOf_append]
  cases cut : Text.cut? renamer.sentinel piece with
  | none =>
    have absent := Text.cut?_eq_none_iff.mp cut
    rw [Detail.namesOf_cons_of_none (Detail.nameOf?_eq_none_iff.mpr absent), Detail.namesOf_nil,
      List.append_nil]
    exact .inl rfl
  | some parts =>
    obtain ⟨before, found⟩ := parts
    rw [Detail.namesOf_cons_of_some (Detail.nameOf?_of_cut cut), Detail.namesOf_nil]
    cases left : (Detail.namesOf renamer.sentinel done).find? (·.isPrefixOf found) with
    | some earlier =>
      exact .inl (funext (Detail.substitute_append_of_some (by rw [left]; rfl)))
    | none =>
      exact .inr (orderly.pass?_passed known closed
        (fun _ mem _ _ => Detail.find?_namesOf_isSome mem) cut left)

/-- Where all pieces are done no pass is left to do. -/
theorem pass?_eq_none (orderly : renamer.Orderly pieces) :
    renamer.pass? ([Detail.terminator].intercalate
      (pieces.map (renamer.passed (Detail.namesOf renamer.sentinel pieces)))) = none := by
  have sentinel_ne : renamer.sentinel ≠ [] := renamer.mode.sentinel_ne_nil
  rw [pass?_eq_none_iff,
    Text.infix_intercalate_iff sentinel_ne renamer.mode.terminator_notMem_sentinel]
  rintro ⟨other, mem, within⟩
  obtain ⟨old, member, rfl⟩ := List.mem_map.mp mem
  exact orderly.not_infix_passed (List.Subset.refl _) member
    (fun _ _ => Detail.find?_namesOf_isSome member) within

/-- Passes over pieces of which the first ones are done. -/
theorem settle?_passed {done ahead : List (List Char)} (orderly : renamer.Orderly (done ++ ahead))
    (closed : ∀ piece ∈ ahead, Detail.terminator ∉ piece) {limit : Nat}
    (enough : ahead.length < limit) :
    renamer.settle? limit ([Detail.terminator].intercalate
        ((done ++ ahead).map (renamer.passed (Detail.namesOf renamer.sentinel done)))) =
      some ([Detail.terminator].intercalate ((done ++ ahead).map
        (renamer.passed (Detail.namesOf renamer.sentinel (done ++ ahead))))) := by
  induction ahead generalizing done limit with
  | nil =>
    obtain ⟨limit, rfl⟩ : ∃ less, limit = less + 1 := ⟨limit - 1, by omega⟩
    rw [List.append_nil] at orderly ⊢
    rw [settle?, orderly.pass?_eq_none]
  | cons piece ahead ih =>
    have onward : ∀ {limit : Nat}, ahead.length < limit →
        renamer.settle? limit ([Detail.terminator].intercalate ((done ++ piece :: ahead).map
          (renamer.passed (Detail.namesOf renamer.sentinel (done ++ [piece]))))) =
        some ([Detail.terminator].intercalate ((done ++ piece :: ahead).map
          (renamer.passed (Detail.namesOf renamer.sentinel (done ++ piece :: ahead))))) := by
      intro limit enough
      have ordered : done ++ piece :: ahead = done ++ [piece] ++ ahead := by simp
      rw [ordered] at orderly ⊢
      exact ih orderly (fun other mem => closed other (List.mem_cons_of_mem _ mem)) enough
    rcases orderly.pass?_onward (closed piece List.mem_cons_self) with same | pass
    · rw [same] at onward
      exact onward (Nat.lt_of_succ_lt enough)
    · obtain ⟨limit, rfl⟩ : ∃ less, limit = less + 1 := ⟨limit - 1, by omega⟩
      rw [settle?, pass]
      exact onward (Nat.lt_of_succ_lt_succ enough)

/-- **The text after all passes** over orderly pieces: in every piece the first name that begins its
reference is replaced. -/
theorem settle?_eq (orderly : renamer.Orderly pieces)
    (closed : ∀ piece ∈ pieces, Detail.terminator ∉ piece) {limit : Nat}
    (enough : pieces.length < limit) :
    renamer.settle? limit ([Detail.terminator].intercalate pieces) =
      some ([Detail.terminator].intercalate
        (pieces.map (renamer.passed (Detail.namesOf renamer.sentinel pieces)))) := by
  have untouched : ∀ piece, renamer.passed [] piece = piece := fun piece => by
    cases cut : Text.cut? renamer.sentinel piece with
    | none => exact Detail.substitute_of_absent (Text.cut?_eq_none_iff.mp cut)
    | some parts => exact Detail.substitute_of_none cut rfl
  have start : renamer.settle? limit ([Detail.terminator].intercalate
      (([] ++ pieces).map (renamer.passed (Detail.namesOf renamer.sentinel [])))) = _ :=
    settle?_passed orderly closed enough
  rwa [List.nil_append, Detail.namesOf_nil, List.map_congr_left fun piece _ => untouched piece,
    List.map_id'] at start

end Orderly

/-- Without markers a defused name is the old one. -/
theorem filter_substitute (tame : ∀ name ∈ names, ∀ new, renamer.lookup? name = some new →
      marker ∉ new) (free : marker ∉ piece) :
    (renamer.passed names piece).filter (· ≠ marker) =
      Detail.substitute renamer.sentinel renamer.newName names piece := by
  unfold passed
  have keeps : ∀ {text : List Char}, marker ∉ text → text.filter (· ≠ marker) = text :=
    filter_marker_eq_self_iff.mpr
  cases cut : Text.cut? renamer.sentinel piece with
  | none =>
    have absent := Text.cut?_eq_none_iff.mp cut
    rw [Detail.substitute_of_absent absent, Detail.substitute_of_absent absent, keeps free]
  | some parts =>
    obtain ⟨before, found⟩ := parts
    cases first : names.find? (·.isPrefixOf found) with
    | none =>
      rw [Detail.substitute_of_none cut first, Detail.substitute_of_none cut first, keeps free]
    | some name =>
      obtain ⟨named, rest, rfl⟩ := Detail.split_of_find? first
      rw [Detail.substitute_of_some cut first, Detail.substitute_of_some cut first]
      obtain ⟨rfl, -, -⟩ := Text.cut?_eq_some_iff.mp cut
      simp only [List.mem_append, not_or] at free
      have renamed : (renamer.replacement name).filter (· ≠ marker) = renamer.newName name := by
        rw [replacement, newName]
        cases usable : renamer.lookup? name with
        | some new => exact keeps (tame name named new usable)
        | none =>
          rw [Option.getD_none, Option.getD_none, (Detail.Marked.defuse name).filter_eq,
            keeps free.2.1]
      rw [List.filter_append, List.filter_append, keeps free.1, renamed, keeps free.2.2]

/-- The passes over an orderly detail that holds no marker. -/
theorem renamePasses_of_orderly {detail : List Char}
    (orderly : renamer.Orderly (detail.splitOn Detail.terminator)) (free : marker ∉ detail)
    (unmarked : ∀ name ∈ Detail.namesOf renamer.sentinel (detail.splitOn Detail.terminator),
      ∀ new, renamer.lookup? name = some new → marker ∉ new) :
    renamer.renamePasses detail = some ([Detail.terminator].intercalate
      ((detail.splitOn Detail.terminator).map (Detail.substitute renamer.sentinel renamer.newName
        (Detail.namesOf renamer.sentinel (detail.splitOn Detail.terminator))))) := by
  have joined : [Detail.terminator].intercalate (detail.splitOn Detail.terminator) = detail :=
    List.intercalate_splitOn Detail.terminator
  have settled := orderly.settle?_eq
    (fun _ mem => Text.mark_notMem_of_mem_splitOn detail mem) (Nat.lt_succ_self _)
  rw [joined] at settled
  rw [renamePasses_of_settle? settled, Detail.filter_intercalate (by decide), List.map_map]
  refine congrArg (some <| [Detail.terminator].intercalate ·) ?_
  refine List.map_congr_left fun piece mem => ?_
  refine filter_substitute unmarked fun inside => free ?_
  rw [← joined]
  exact Detail.mem_intercalate mem inside

/-! ### Isolated new names -/

/-- A renamer whose usable new names are isolated and free of markers. -/
def Tame (renamer : Renamer) : Prop :=
  ∀ name new, renamer.lookup? name = some new →
    Detail.Isolated renamer.sentinel new ∧ marker ∉ new

/-- The usable new names of a table of given rows stand in its target column. -/
theorem exists_row_of_lookup? {namespaces : List String} {rows : List (List String)}
    {new : List Char} (table : renamer.resolver.table = .ofRows namespaces rows)
    (known : renamer.resolver.source < namespaces.length)
    (usable : renamer.lookup? name = some new) :
    ∃ row ∈ rows.map (MappingTable.fitRow namespaces.length),
      row[renamer.resolver.target]? = some (String.ofList new) := by
  unfold lookup? Resolver.resolve? at usable
  split at usable
  · cases usable
  case h_2 named resolved =>
    rw [table] at resolved
    obtain ⟨row, listed, cell⟩ := MappingTable.mem_of_lookup?_ofRows known
      (Option.filter_eq_some_iff.mp resolved).1
    split at usable
    · cases usable
    obtain rfl := Option.some.inj usable
    exact ⟨row, listed, by rw [cell, String.ofList_toList]⟩

/-- A piece with one sentinel is free of sentinels once its name is defused. -/
theorem not_infix_defused (single : Text.occurrences renamer.sentinel piece ≤ 1)
    (named : renamer.sentinel <+: name) {rest : List Char}
    (cut : Text.cut? renamer.sentinel piece = some (before, name ++ rest)) :
    ¬ renamer.sentinel <:+: before ++ defuse name ++ rest := by
  have free := renamer.mode.marker_notMem_sentinel
  have sentinel_ne : renamer.sentinel ≠ [] := renamer.mode.sentinel_ne_nil
  obtain ⟨rfl, -, early⟩ := Text.cut?_eq_some_iff.mp cut
  have count : Text.occurrences renamer.sentinel (name ++ rest) ≤ 1 :=
    (Text.occurrences_le_append before).trans single
  have less := Detail.occurrences_defuse_lt renamer.mode.net_prefix_sentinel free named
    (Detail.Marked.refl rest)
  have misses : ∀ inner tail, before = inner ++ tail → tail ≠ [] →
      ¬ renamer.sentinel <+: tail ++ (defuse name ++ rest) := by
    rintro inner tail rfl tail_ne begins
    have put : Detail.Marked (tail ++ (name ++ rest)) (tail ++ (defuse name ++ rest)) :=
      (Detail.Marked.refl tail).append
        ((Detail.Marked.defuse name).append (Detail.Marked.refl rest))
    have bound := early inner (tail ++ (name ++ rest)) (by simp) (put.begins free begins)
    have longer := List.length_pos_iff.mpr tail_ne
    rw [List.length_append] at bound
    omega
  rw [← Text.occurrences_eq_zero_iff sentinel_ne, List.append_assoc,
    Text.occurrences_append_neg misses]
  exact Nat.lt_one_iff.mp (less.trans_le count)

/-- A piece with one sentinel is free of sentinels once its name is replaced. -/
theorem Tame.not_infix_replaced (tame : renamer.Tame)
    (single : Text.occurrences renamer.sentinel piece ≤ 1) (named : renamer.sentinel <+: name)
    {rest : List Char} (cut : Text.cut? renamer.sentinel piece = some (before, name ++ rest)) :
    ¬ renamer.sentinel <:+: before ++ renamer.replacement name ++ rest := by
  have sentinel_ne : renamer.sentinel ≠ [] := renamer.mode.sentinel_ne_nil
  have name_ne : name ≠ [] := fun none => sentinel_ne (List.prefix_nil.mp (none ▸ named))
  cases usable : renamer.lookup? name with
  | some new =>
    rw [replacement, usable, Option.getD_some]
    exact (tame name new usable).1.not_infix_append (Detail.absent_before sentinel_ne cut)
      (Detail.absent_behind single sentinel_ne cut name_ne)
  | none =>
    rw [replacement, usable, Option.getD_none]
    exact not_infix_defused single named cut

/-- Pieces with one sentinel each are orderly. -/
theorem Tame.orderly (tame : renamer.Tame)
    (single : ∀ piece ∈ pieces, Text.occurrences renamer.sentinel piece ≤ 1) :
    renamer.Orderly pieces where
  lone _ named piece mem := Detail.lone_of_single (single piece mem) renamer.mode.sentinel_ne_nil
    (Detail.starts_of_mem_namesOf named)
  clean _ named piece mem _ _ cut :=
    tame.not_infix_replaced (single piece mem) (Detail.starts_of_mem_namesOf named) cut

/-- **What the passes make of a detail**: they come to an end, and in every piece the first name of
the detail that begins its reference is renamed. -/
theorem renamePasses_eq_pieces (tame : renamer.Tame) (detail : String)
    (free : marker ∉ detail.toList)
    (single : ∀ piece ∈ detail.toList.splitOn Detail.terminator,
      Text.occurrences renamer.sentinel piece ≤ 1) :
    renamer.renamePasses detail.toList =
      some ([Detail.terminator].intercalate ((detail.toList.splitOn Detail.terminator).map
        (Detail.substitute renamer.sentinel renamer.newName
          ((renamer.references detail).map Detail.Reference.name)))) ∧
    ∀ piece ∈ detail.toList.splitOn Detail.terminator, ∀ before found,
      Text.cut? renamer.sentinel piece = some (before, found) →
      (((renamer.references detail).map Detail.Reference.name).find?
        (·.isPrefixOf found)).isSome := by
  have fresh : Detail.terminator ∉ renamer.sentinel := renamer.mode.terminator_notMem_sentinel
  have sentinel_ne : renamer.sentinel ≠ [] := renamer.mode.sentinel_ne_nil
  have names := Detail.names_references fresh sentinel_ne detail.toList
  rw [references, names]
  refine ⟨?_, fun piece mem _ _ => Detail.find?_namesOf_isSome mem⟩
  exact renamePasses_of_orderly (tame.orderly single) free
    fun name _ new usable => (tame name new usable).2

/-- A renamer that knows a name and a longer one that begins with it. -/
def collision : Renamer :=
  { resolver :=
      { table := .ofRows ["intermediary", "named"]
          [["net/minecraft/class_1", "named/First"], ["net/minecraft/class_12", "named/Twelfth"]]
        space := "intermediary", source := 0, target := 1 }
    mode := .intermediary
    strategy := .passes }

theorem tame_collision : collision.Tame := by
  intro name new usable
  obtain ⟨row, listed, cell⟩ := exists_row_of_lookup? rfl (by decide) usable
  have rows : row = ["net/minecraft/class_1", "named/First"] ∨
      row = ["net/minecraft/class_12", "named/Twelfth"] := by
    simpa [MappingTable.fitRow] using listed
  rcases rows with rfl | rfl
  · obtain rfl : "named/First".toList = new := by
      simpa using congrArg String.toList (Option.some.inj cell)
    exact ⟨Detail.isolated_of_tails (by decide) (by decide), by decide⟩
  · obtain rfl : "named/Twelfth".toList = new := by
      simpa using congrArg String.toList (Option.some.inj cell)
    exact ⟨Detail.isolated_of_tails (by decide) (by decide), by decide⟩

theorem renamePasses_collision : collision.Tame ∧
    collision.renamePasses
        "Lnet/minecraft/class_1;Lnet/minecraft/class_12;net/minecraft/class_6".toList =
      some "Lnamed/First;Lnamed/First2;net/minecraft/class_6".toList := by
  refine ⟨tame_collision, ?_⟩
  rw [(renamePasses_eq_pieces tame_collision _ (by decide) (by decide)).1]
  have known : 0 < ["intermediary", "named"].length := by decide
  have named : collision.newName = fun name => (collision.lookup? name).getD name := rfl
  rw [named]
  unfold lookup? Resolver.resolve? collision
  simp only [MappingTable.lookup?_ofRows known]
  decide +kernel

end ClassNaming.Renamer
