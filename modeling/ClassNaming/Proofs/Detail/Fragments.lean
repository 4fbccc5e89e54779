import ClassNaming.Proofs.Detail.Reference

/-!
# The fragments of a detail, piece by piece

A reference ends at a terminator, so what the search for references finds can be told piece by
piece, where the *pieces* of a detail are the texts between its terminators: a piece has a reference
if it holds a sentinel, and then the reference is all of it from its first sentinel on.

The plain fragments of a detail reach over terminators, so fragments and pieces do not match one to
one.  That makes no difference to what is computed fragment by fragment, as long as two plain texts
count for as much as the two joined.  There is one law for everything of that kind,
`flatMap_fragments`; the names of the references, their positions and the renamed detail are cases
of it.

## Main Definitions

* `nameOf?`, `namesOf` - the reference of a piece, and those of pieces in order
* `Fragment.atoms` - a fragment with its plain text cut into single characters
* `Renamer.spanned` - a piece with its reference renamed

## Main Results

* `flatMap_fragments` - what is computed from the fragments of a detail, piece by piece
* `names_references` - the names of the references
* `exists_piece_of_mem_references` - where a reference lies
* `Renamer.renameSpans_pieces` - the detail with every reference renamed on its own
-/

namespace ClassNaming.Detail

variable {sentinel piece before found name rest front text : List Char}
  {names pieces : List (List Char)}

/-! ### Joined pieces -/

/-- The first of the pieces that a text is made of stands in front of the others, each behind its
marks. -/
theorem intercalate_cons {α : Type} (marks piece : List α) (later : List (List α)) :
    marks.intercalate (piece :: later) = piece ++ later.flatMap (marks ++ ·) := by
  induction later generalizing piece with
  | nil => simp
  | cons next later ih => rw [List.intercalate_cons_cons, ih, List.flatMap_cons]; simp

/-- A list of pieces around one of them. -/
theorem intercalate_append_cons {α : Type} {mark : α} (done : List (List α)) (piece : List α)
    (ahead : List (List α)) : [mark].intercalate (done ++ piece :: ahead) =
      done.flatMap (· ++ [mark]) ++ piece ++ ahead.flatMap (mark :: ·) := by
  induction done with
  | nil => exact intercalate_cons [mark] piece ahead
  | cons first done ih =>
    obtain ⟨next, later, same⟩ : ∃ next later, done ++ piece :: ahead = next :: later :=
      List.exists_cons_of_ne_nil (by simp)
    rw [List.cons_append, same, List.intercalate_cons_cons, ← same, ih]
    simp

/-- A piece is a part of the text. -/
theorem infix_of_mem_splitOn {α : Type} [BEq α] [LawfulBEq α] {mark : α} {piece text : List α}
    (mem : piece ∈ text.splitOn mark) : piece <:+: text := by
  obtain ⟨done, ahead, split⟩ := List.append_of_mem mem
  have joined : [mark].intercalate (text.splitOn mark) = text := List.intercalate_splitOn mark
  rw [split, intercalate_append_cons] at joined
  exact ⟨_, _, joined⟩

/-- A change of no piece changes nothing. -/
theorem intercalate_map_eq_self {detail : List Char} {change : List Char → List Char}
    (fixed : ∀ piece ∈ detail.splitOn terminator, change piece = piece) :
    [terminator].intercalate ((detail.splitOn terminator).map change) = detail := by
  rw [List.map_congr_left fixed, List.map_id']
  exact List.intercalate_splitOn terminator

/-- Pieces joined by nothing. -/
theorem nil_intercalate {α : Type} (pieces : List (List α)) :
    [].intercalate pieces = pieces.flatten := by
  cases pieces with
  | nil => rfl
  | cons piece later => simp [intercalate_cons]

/-- A text in front that ends with its pieces, or is empty, is apart from what follows. -/
theorem apart_flatMap (ahead : List (List Char)) : Apart (ahead.flatMap (terminator :: ·)) := by
  cases ahead with
  | nil => exact .inl rfl
  | cons next ahead => exact .inr ⟨next ++ ahead.flatMap (terminator :: ·), rfl⟩

/-- Complete pieces without a sentinel are an inert front. -/
theorem inert_flatMap (fresh : terminator ∉ sentinel) {done : List (List Char)}
    (free : ∀ piece ∈ done, ¬ sentinel <:+: piece) :
    Inert sentinel (done.flatMap (· ++ [terminator])) := by
  induction done with
  | nil => exact .inl rfl
  | cons piece done ih =>
    have first : Inert sentinel (piece ++ [terminator]) :=
      .inr ⟨piece, rfl, free piece List.mem_cons_self⟩
    exact first.append fresh (ih fun piece mem => free piece (List.mem_cons_of_mem _ mem))

/-- Characters are filtered piece by piece if the filter keeps the terminators. -/
theorem filter_intercalate {keeps : Char → Bool} (kept : keeps terminator = true)
    (pieces : List (List Char)) : ([terminator].intercalate pieces).filter keeps =
      [terminator].intercalate (pieces.map (List.filter keeps)) := by
  induction pieces with
  | nil => rfl
  | cons piece later ih =>
    cases later with
    | nil => simp
    | cons next later =>
      rw [List.intercalate_cons_cons, List.filter_append, List.filter_append, ih]
      simp [kept]

/-- A character of a piece is one of the whole text. -/
theorem mem_intercalate {c : Char} (mem : piece ∈ pieces) (inside : c ∈ piece) :
    c ∈ [terminator].intercalate pieces := by
  obtain ⟨done, ahead, rfl⟩ := List.append_of_mem mem
  rw [intercalate_append_cons]
  simp [inside]

/-- There is at most one piece more than there are characters. -/
theorem length_le_length_intercalate (pieces : List (List Char)) :
    pieces.length ≤ ([terminator].intercalate pieces).length + 1 := by
  induction pieces with
  | nil => simp
  | cons piece later ih =>
    cases later with
    | nil => simp
    | cons next later =>
      rw [List.intercalate_cons_cons]
      simp only [List.length_append, List.length_cons, List.length_nil] at ih ⊢
      omega

/-! ### The references of pieces -/

/-- The reference of a piece: all of it from its first sentinel on. -/
def nameOf? (sentinel piece : List Char) : Option (List Char) :=
  (Text.cut? sentinel piece).map (·.2)

/-- The name of a piece begins where the sentinel is first found. -/
theorem nameOf?_of_cut (cut : Text.cut? sentinel piece = some (before, found)) :
    nameOf? sentinel piece = some found := by
  rw [nameOf?, cut]
  rfl

/-- Just the pieces without a sentinel have no name. -/
theorem nameOf?_eq_none_iff : nameOf? sentinel piece = none ↔ ¬ sentinel <:+: piece := by
  rw [nameOf?, Option.map_eq_none_iff, Text.cut?_eq_none_iff]

/-- The references of pieces, in order. -/
def namesOf (sentinel : List Char) (pieces : List (List Char)) : List (List Char) :=
  pieces.filterMap (nameOf? sentinel)

@[simp] theorem namesOf_nil : namesOf sentinel [] = [] := rfl

theorem namesOf_cons_of_none (none : nameOf? sentinel piece = none) :
    namesOf sentinel (piece :: pieces) = namesOf sentinel pieces :=
  List.filterMap_cons_none none

theorem namesOf_cons_of_some (some : nameOf? sentinel piece = some name) :
    namesOf sentinel (piece :: pieces) = name :: namesOf sentinel pieces :=
  List.filterMap_cons_some some

/-- The names of two rows of pieces are those of the one and those of the other. -/
theorem namesOf_append (pieces pieces' : List (List Char)) :
    namesOf sentinel (pieces ++ pieces') = namesOf sentinel pieces ++ namesOf sentinel pieces' :=
  List.filterMap_append

/-- The name of a piece is among the names. -/
theorem mem_namesOf (mem : piece ∈ pieces)
    (cut : Text.cut? sentinel piece = some (before, found)) : found ∈ namesOf sentinel pieces :=
  List.mem_filterMap.mpr ⟨piece, mem, nameOf?_of_cut cut⟩

/-- Every name begins with the sentinel. -/
theorem starts_of_mem_namesOf (mem : name ∈ namesOf sentinel pieces) : sentinel <+: name := by
  obtain ⟨piece, -, named⟩ := List.mem_filterMap.mp mem
  obtain ⟨⟨before, found⟩, cut, rfl⟩ := Option.map_eq_some_iff.mp named
  exact (Text.cut?_eq_some_iff.mp cut).2.1

/-- The reference of a piece is among the names of the pieces, so some name begins it. -/
theorem find?_namesOf_isSome (mem : piece ∈ pieces)
    (cut : Text.cut? sentinel piece = some (before, found)) :
    ((namesOf sentinel pieces).find? (·.isPrefixOf found)).isSome := by
  rw [List.find?_isSome]
  exact ⟨found, mem_namesOf mem cut, by simp⟩

/-- A piece has one reference, which runs to its end. -/
theorem firstReference_of_cut? (closed : terminator ∉ piece)
    (cut : Text.cut? sentinel piece = some (before, found)) :
    FirstReference sentinel piece before found [] := by
  obtain ⟨rfl, starts, first⟩ := Text.cut?_eq_some_iff.mp cut
  exact ⟨by simp, starts, fun inside => closed (List.mem_append_right _ inside), .inl rfl, first⟩

/-! ### What is computed from the fragments -/

section Computed

variable {α : Type} {each : Fragment → List α}

/-- What is computed from the fragments of a piece. -/
def overPiece (sentinel : List Char) (each : Fragment → List α) (piece : List Char) : List α :=
  match Text.cut? sentinel piece with
  | none => each (.plain piece)
  | some (before, found) => each (.plain before) ++ each (.reference found)

/-- A piece with a sentinel has a plain fragment and a reference. -/
theorem overPiece_of_cut (cut : Text.cut? sentinel piece = some (before, found)) :
    overPiece sentinel each piece = each (.plain before) ++ each (.reference found) := by
  rw [overPiece, cut]

/-- A piece without one is a plain fragment. -/
theorem overPiece_of_absent (absent : ¬ sentinel <:+: piece) :
    overPiece sentinel each piece = each (.plain piece) := by
  rw [overPiece, Text.cut?_eq_none_iff.mpr absent]

/-- Text without a sentinel is one plain fragment. -/
theorem flatMap_fragmentsFrom_of_absent (absent : ¬ sentinel <:+: text) (fuel : Nat) :
    (fragmentsFrom sentinel [] fuel text).flatMap each = each (.plain text) := by
  have only : fragmentsFrom sentinel [] fuel text = [.plain text] := by
    cases fuel with
    | zero => rfl
    | succ fuel =>
      rw [fragmentsFrom, firstReference?_eq_none_iff.mpr absent]
      rfl
  rw [only, List.flatMap_singleton]

/-- The fragments of a text with a reference: what is before it, the reference, and those of the
rest. -/
theorem flatMap_fragmentsFrom_succ {after : List Char} (fresh : terminator ∉ sentinel)
    (reference : FirstReference sentinel text before name after) (fuel : Nat) :
    (fragmentsFrom sentinel [] (fuel + 1) text).flatMap each =
      each (.plain before) ++ each (.reference name) ++
        (fragmentsFrom sentinel [] fuel after).flatMap each := by
  rw [fragmentsFrom, (firstReference?_eq_some_iff fresh).mpr reference]
  simp only
  rw [fragmentsFrom_eq]
  simp

variable (joins : ∀ front back, each (.plain (front ++ back)) =
  each (.plain front) ++ each (.plain back))
include joins

/-- A front in which no sentinel begins is plain. -/
theorem flatMap_fragmentsFrom_append (fresh : terminator ∉ sentinel)
    (quiet : ∀ passed left, front = passed ++ left → left ≠ [] → ¬ sentinel <+: left ++ text)
    (fuel : Nat) : (fragmentsFrom sentinel [] fuel (front ++ text)).flatMap each =
      each (.plain front) ++ (fragmentsFrom sentinel [] fuel text).flatMap each := by
  cases fuel with
  | zero => simpa [fragmentsFrom] using joins front text
  | succ fuel =>
    cases first : firstReference? sentinel text with
    | none =>
      have absent := firstReference?_eq_none_iff.mp first
      have absent_all : ¬ sentinel <:+: front ++ text := by
        rintro ⟨passed, back, whole⟩
        rw [List.append_assoc] at whole
        rcases List.append_eq_append_iff.mp whole with ⟨left, split, starts⟩ | ⟨left, -, inside⟩
        · rcases left with - | ⟨c, left⟩
          · exact absent ⟨[], back, by simpa using starts⟩
          · exact quiet _ _ split (by simp) ⟨back, starts⟩
        · exact absent ⟨left, back, by rw [inside, List.append_assoc]⟩
      rw [flatMap_fragmentsFrom_of_absent absent, flatMap_fragmentsFrom_of_absent absent_all, joins]
    | some parts =>
      obtain ⟨before, name, after⟩ := parts
      have reference := (firstReference?_eq_some_iff fresh).mp first
      rw [flatMap_fragmentsFrom_succ fresh reference,
        flatMap_fragmentsFrom_succ fresh (reference.behind quiet), joins]
      simp

/-- A piece is taken apart on its own, for at most one unit of fuel. -/
theorem flatMap_fragmentsFrom_piece (fresh : terminator ∉ sentinel) (closed : terminator ∉ piece)
    (apart : Apart text) (fuel : Nat) : ∃ left ≥ fuel,
      (fragmentsFrom sentinel [] (fuel + 1) (piece ++ text)).flatMap each =
        overPiece sentinel each piece ++ (fragmentsFrom sentinel [] left text).flatMap each := by
  cases cut : Text.cut? sentinel piece with
  | none =>
    have absent := Text.cut?_eq_none_iff.mp cut
    refine ⟨fuel + 1, Nat.le_succ fuel, ?_⟩
    rw [overPiece_of_absent absent, flatMap_fragmentsFrom_append joins fresh]
    rintro passed left rfl - begins
    have inside := (apart.prefix_of_append fresh begins).isInfix
    exact absent (inside.trans (List.suffix_append passed left).isInfix)
  | some parts =>
    obtain ⟨before, found⟩ := parts
    refine ⟨fuel, Nat.le_refl fuel, ?_⟩
    have reference := (firstReference_of_cut? closed cut).append fresh apart
    rw [flatMap_fragmentsFrom_succ fresh reference, overPiece_of_cut cut, List.nil_append]

/-- **The fragments of a text are those of its pieces**, with the terminators between them. -/
theorem flatMap_fragmentsFrom_pieces (fresh : terminator ∉ sentinel) (sentinel_ne : sentinel ≠ [])
    {later : List (List Char)} (closed : ∀ other ∈ piece :: later, terminator ∉ other) {fuel : Nat}
    (enough : later.length < fuel) :
    (fragmentsFrom sentinel [] fuel (piece ++ later.flatMap (terminator :: ·))).flatMap each =
      overPiece sentinel each piece ++
        later.flatMap fun other => each (.plain [terminator]) ++ overPiece sentinel each other := by
  induction later generalizing piece fuel with
  | nil =>
    obtain ⟨fuel, rfl⟩ : ∃ less, fuel = less + 1 := ⟨fuel - 1, by omega⟩
    obtain ⟨left, -, taken⟩ := flatMap_fragmentsFrom_piece joins fresh
      (closed piece List.mem_cons_self) (.inl rfl) fuel
    have nothing : each (.plain []) = [] := by simpa using joins [] []
    rw [List.flatMap_nil, taken, flatMap_fragmentsFrom_of_absent (by simpa using sentinel_ne),
      nothing, List.flatMap_nil]
  | cons next later ih =>
    rw [List.length_cons] at enough
    obtain ⟨fuel, rfl⟩ : ∃ less, fuel = less + 1 := ⟨fuel - 1, by omega⟩
    obtain ⟨left, more, taken⟩ := flatMap_fragmentsFrom_piece joins fresh
      (closed piece List.mem_cons_self) (apart_flatMap (next :: later)) fuel
    have ends : Inert sentinel [terminator] := .inr ⟨[], rfl, by simpa using sentinel_ne⟩
    rw [taken, List.flatMap_cons, List.cons_append, ← List.singleton_append,
      flatMap_fragmentsFrom_append joins fresh fun _ _ split left_ne =>
        ends.not_begins fresh split left_ne,
      ih (fun other mem => closed other (List.mem_cons_of_mem _ mem)) (by omega),
      List.flatMap_cons, List.append_assoc]

/-- **What is computed from the fragments of a detail** is put together from its pieces. -/
theorem flatMap_fragments (fresh : terminator ∉ sentinel) (sentinel_ne : sentinel ≠ [])
    (detail : List Char) : (fragments sentinel detail).flatMap each =
      (each (.plain [terminator])).intercalate
        ((detail.splitOn terminator).map (overPiece sentinel each)) := by
  obtain ⟨piece, later, split⟩ : ∃ piece later, detail.splitOn terminator = piece :: later :=
    List.exists_cons_of_ne_nil (List.splitOn_ne_nil _ _)
  have joined : [terminator].intercalate (detail.splitOn terminator) = detail :=
    List.intercalate_splitOn terminator
  have enough := length_le_length_intercalate (detail.splitOn terminator)
  have closed : ∀ other ∈ detail.splitOn terminator, terminator ∉ other := fun _ mem =>
    Text.mark_notMem_of_mem_splitOn detail mem
  rw [joined, split, List.length_cons] at enough
  rw [split] at joined closed ⊢
  have law := flatMap_fragmentsFrom_pieces joins fresh sentinel_ne closed enough
  have whole : piece ++ later.flatMap (terminator :: ·) = detail :=
    (intercalate_cons [terminator] piece later).symm.trans joined
  rw [whole] at law
  rw [fragments, law, List.map_cons, intercalate_cons, List.flatMap_map]

end Computed

/-! ### The names of the references -/

/-- The name of a reference. -/
def Fragment.name? : Fragment → Option (List Char)
  | .plain _ => none
  | .reference name => some name

/-- The references so far only stand in front of those that follow. -/
theorem referencesFrom_eq (done : List Reference) (offset : Nat) (fragments : List Fragment) :
    referencesFrom done offset fragments = done.reverse ++ referencesFrom [] offset fragments := by
  induction fragments generalizing done offset with
  | nil => simp [referencesFrom]
  | cons fragment rest ih =>
    cases fragment with
    | plain text => rw [referencesFrom, ih, referencesFrom]
    | reference name =>
      rw [referencesFrom, ih, referencesFrom, ih [_]]
      simp

/-- The references are named as the fragments are, wherever they lie. -/
theorem map_name_referencesFrom (offset : Nat) (fragments : List Fragment) :
    (referencesFrom [] offset fragments).map Reference.name =
      fragments.filterMap Fragment.name? := by
  induction fragments generalizing offset with
  | nil => rfl
  | cons fragment rest ih =>
    cases fragment with
    | plain text => rw [referencesFrom, ih, List.filterMap_cons_none rfl]
    | reference name =>
      rw [referencesFrom, referencesFrom_eq, List.map_append, ih,
        List.filterMap_cons_some (f := Fragment.name?) (b := name) rfl]
      rfl

/-- **The references of a detail** are those of its pieces, in order. -/
theorem names_references (fresh : terminator ∉ sentinel) (sentinel_ne : sentinel ≠ [])
    (detail : List Char) : (references sentinel detail).map Reference.name =
      namesOf sentinel (detail.splitOn terminator) := by
  rw [references, map_name_referencesFrom, List.filterMap_eq_flatMap_toList,
    flatMap_fragments (fun _ _ => rfl) fresh sentinel_ne]
  have each : ∀ piece, overPiece sentinel (fun fragment => fragment.name?.toList) piece =
      (nameOf? sentinel piece).toList := fun piece => by
    rw [overPiece, nameOf?]
    cases Text.cut? sentinel piece <;> rfl
  rw [namesOf, List.filterMap_eq_flatMap_toList, List.map_congr_left fun piece _ => each piece]
  exact nil_intercalate _

/-! ### The positions of the references -/

theorem foldl_utf8Size (size : Nat) (text : List Char) :
    text.foldl (fun size c => size + c.utf8Size) size = size + byteLength text := by
  induction text generalizing size with
  | nil => rfl
  | cons c rest ih => rw [byteLength, List.foldl_cons, List.foldl_cons, ih, ih (0 + _)]; omega

theorem byteLength_cons (c : Char) (rest : List Char) :
    byteLength (c :: rest) = c.utf8Size + byteLength rest := by
  rw [byteLength, List.foldl_cons, foldl_utf8Size, Nat.zero_add]

/-- Lengths in bytes add up. -/
theorem byteLength_append (front back : List Char) :
    byteLength (front ++ back) = byteLength front + byteLength back := by
  rw [byteLength, List.foldl_append, foldl_utf8Size]
  rfl

/-- Beginnings of a text that take the same number of bytes are the same. -/
theorem eq_of_byteLength_eq {front front' : List Char} (begins : front <+: text)
    (begins' : front' <+: text) (same : byteLength front = byteLength front') : front = front' := by
  have whole : ∀ {front more : List Char}, byteLength front = byteLength (front ++ more) →
      front = front ++ more := by
    rintro front (- | ⟨c, more⟩) same
    · simp
    · have size := c.utf8Size_pos
      rw [byteLength_append, byteLength_cons] at same
      omega
  rcases List.prefix_or_prefix_of_prefix begins begins' with ⟨more, rfl⟩ | ⟨more, rfl⟩
  · exact whole same
  · exact (whole same.symm).symm

/-- A reference begins behind the text of the fragments in front of it. -/
theorem exists_of_mem_referencesFrom {reference : Reference} {offset : Nat}
    {fragments : List Fragment} (mem : reference ∈ referencesFrom [] offset fragments) :
    ∃ front back, fragments = front ++ .reference reference.name :: back ∧
      reference.start = offset + byteLength (front.flatMap Fragment.text) := by
  induction fragments generalizing offset with
  | nil => simp [referencesFrom] at mem
  | cons fragment rest ih =>
    cases fragment with
    | plain text =>
      obtain ⟨front, back, rfl, start⟩ := ih mem
      refine ⟨.plain text :: front, back, rfl, ?_⟩
      rw [start, List.flatMap_cons, byteLength_append, Nat.add_assoc]
      rfl
    | reference name =>
      rw [referencesFrom, referencesFrom_eq, List.mem_append] at mem
      rcases mem with here | later
      · obtain rfl := by simpa using here
        exact ⟨[], rest, rfl, by simp [byteLength]⟩
      · obtain ⟨front, back, rfl, start⟩ := ih later
        refine ⟨.reference name :: front, back, rfl, ?_⟩
        rw [start, List.flatMap_cons, byteLength_append, Nat.add_assoc]
        rfl

/-- A fragment with its plain text cut into single characters. -/
def Fragment.atoms : Fragment → List Fragment
  | .plain text => text.map fun c => .plain [c]
  | .reference name => [.reference name]

/-- The atoms of a fragment spell its text. -/
theorem Fragment.flatMap_text_atoms (fragment : Fragment) :
    fragment.atoms.flatMap Fragment.text = fragment.text := by
  cases fragment with
  | plain text => simp [atoms, List.flatMap_map, Fragment.text]
  | reference name => simp [atoms, Fragment.text]

/-- The atoms of the fragments of a piece spell the piece. -/
theorem flatMap_text_overPiece (piece : List Char) :
    (overPiece sentinel Fragment.atoms piece).flatMap Fragment.text = piece := by
  cases cut : Text.cut? sentinel piece with
  | none =>
    rw [overPiece_of_absent (Text.cut?_eq_none_iff.mp cut), Fragment.flatMap_text_atoms]
    rfl
  | some parts =>
    rw [overPiece_of_cut cut, List.flatMap_append, Fragment.flatMap_text_atoms,
      Fragment.flatMap_text_atoms]
    exact (Text.cut?_eq_some_iff.mp cut).1.symm

/-- The only reference among the atoms of a piece is that of the piece. -/
theorem cut?_of_overPiece {ahead behind : List Fragment}
    (atoms : overPiece sentinel Fragment.atoms piece = ahead ++ .reference name :: behind) :
    ∃ before, Text.cut? sentinel piece = some (before, name) ∧
      ahead = (Fragment.plain before).atoms := by
  have plain : ∀ text, Fragment.reference name ∉ (Fragment.plain text).atoms := by
    simp [Fragment.atoms]
  cases cut : Text.cut? sentinel piece with
  | none =>
    rw [overPiece_of_absent (Text.cut?_eq_none_iff.mp cut)] at atoms
    exact absurd (atoms ▸ by simp) (plain piece)
  | some parts =>
    obtain ⟨before, found⟩ := parts
    rw [overPiece_of_cut cut] at atoms
    rcases List.append_eq_append_iff.mp atoms with ⟨middle, rfl, split⟩ | ⟨middle, split, tail⟩
    · obtain ⟨rfl, rfl, -⟩ : middle = [] ∧ found = name ∧ behind = [] := by
        rcases middle with - | ⟨atom, middle⟩ <;> simp_all [Fragment.atoms]
      exact ⟨before, rfl, by simp⟩
    · rcases middle with - | ⟨atom, middle⟩
      · obtain ⟨rfl, -⟩ : name = found ∧ behind = [] := by simpa [Fragment.atoms] using tail
        exact ⟨before, rfl, by simp [split]⟩
      · obtain ⟨rfl, -⟩ := List.cons.inj tail
        exact absurd (split ▸ by simp) (plain before)

/-- A member of joined lists, but for the marks, lies in one of them. -/
theorem exists_of_intercalate_eq {α : Type} {mark x : α} (x_ne : x ≠ mark)
    {lists : List (List α)} {front back : List α}
    (split : [mark].intercalate lists = front ++ x :: back) :
    ∃ done list ahead, lists = done ++ list :: ahead ∧ ∃ inner tail, list = inner ++ x :: tail ∧
      front = done.flatMap (· ++ [mark]) ++ inner := by
  induction lists generalizing front with
  | nil => simp at split
  | cons list later ih =>
    cases later with
    | nil => exact ⟨[], list, [], rfl, front, back, by simpa using split, by simp⟩
    | cons next later =>
      rw [List.intercalate_cons_cons, List.append_assoc, List.singleton_append] at split
      rcases List.append_eq_append_iff.mp split with ⟨middle, rfl, tail⟩ | ⟨middle, rfl, tail⟩
      · rcases middle with - | ⟨first, middle⟩
        · exact absurd (List.cons.inj tail).1.symm x_ne
        · obtain ⟨rfl, later_split⟩ := List.cons.inj tail
          obtain ⟨done, list', ahead, rest, inner, behind, found, rfl⟩ := ih later_split
          exact ⟨list :: done, list', ahead, by rw [rest]; rfl, inner, behind, found, by simp⟩
      · rcases middle with - | ⟨first, middle⟩
        · exact absurd (List.cons.inj tail).1 x_ne
        · obtain ⟨rfl, -⟩ := List.cons.inj tail
          exact ⟨[], _, next :: later, rfl, front, middle, rfl, by simp⟩

/-- **Where a reference of a detail lies**: it is the reference of a piece. -/
theorem exists_piece_of_mem_references (fresh : terminator ∉ sentinel) (sentinel_ne : sentinel ≠ [])
    {detail : List Char} {reference : Reference} (mem : reference ∈ references sentinel detail) :
    ∃ done piece ahead before, detail.splitOn terminator = done ++ piece :: ahead ∧
      Text.cut? sentinel piece = some (before, reference.name) ∧
      reference.start = byteLength (done.flatMap (· ++ [terminator]) ++ before) := by
  obtain ⟨front, back, found, start⟩ := exists_of_mem_referencesFrom mem
  have split : (fragments sentinel detail).flatMap Fragment.atoms = _ :=
    flatMap_fragments (fun _ _ => List.map_append) fresh sentinel_ne detail
  rw [found, List.flatMap_append, List.flatMap_cons] at split
  obtain ⟨lists, list, lists', pieces, inner, tail, atoms, aligned⟩ :=
    exists_of_intercalate_eq (by simp) split.symm
  obtain ⟨done, later, whole, rfl, here⟩ := List.map_eq_append_iff.mp pieces
  obtain ⟨piece, ahead, rfl, rfl, rfl⟩ := List.map_eq_cons_iff.mp here
  obtain ⟨before, cut, rfl⟩ := cut?_of_overPiece atoms
  refine ⟨done, piece, ahead, before, whole, cut, ?_⟩
  -- The text of the fragments in front is that of their atoms.
  have texts : front.flatMap Fragment.text = (front.flatMap Fragment.atoms).flatMap Fragment.text :=
    by simp only [List.flatMap_assoc, Fragment.flatMap_text_atoms]
  rw [start, Nat.zero_add, texts, aligned]
  simp only [List.flatMap_append, List.flatMap_assoc, List.flatMap_map, flatMap_text_overPiece,
    Fragment.flatMap_text_atoms]
  rfl

end ClassNaming.Detail

namespace ClassNaming.Renamer

/-- The new name of a reference, or the old one if there is no usable new one. -/
def newName (renamer : Renamer) (name : List Char) : List Char := (renamer.lookup? name).getD name

/-- A name that the renamer does not know stays. -/
theorem newName_of_missed {renamer : Renamer} {name : List Char}
    (missed : renamer.lookup? name = none) : renamer.newName name = name := by
  rw [newName, missed, Option.getD_none]

/-- A usable new name is what a pass puts in the place of the old one, too. -/
theorem newName_of_usable {renamer : Renamer} {name new : List Char}
    (usable : renamer.lookup? name = some new) :
    renamer.newName name = renamer.replacement name := by
  rw [newName, replacement, usable, Option.getD_some, Option.getD_some]

/-- The names of the pieces are those of the references. -/
theorem exists_reference_of_mem_namesOf {renamer : Renamer} {detail name : List Char}
    (named : name ∈ Detail.namesOf renamer.sentinel (detail.splitOn Detail.terminator)) :
    ∃ reference ∈ Detail.references renamer.sentinel detail, reference.name = name := by
  rw [sentinel, ← Detail.names_references renamer.mode.terminator_notMem_sentinel
    renamer.mode.sentinel_ne_nil] at named
  exact List.mem_map.mp named

/-- A piece with its reference renamed. -/
def spanned (renamer : Renamer) (piece : List Char) : List Char :=
  match Text.cut? renamer.sentinel piece with
  | none => piece
  | some (before, found) => before ++ renamer.newName found

/-- A piece without a sentinel stays. -/
theorem spanned_of_absent {renamer : Renamer} {piece : List Char}
    (absent : ¬ renamer.sentinel <:+: piece) : renamer.spanned piece = piece := by
  rw [spanned, Text.cut?_eq_none_iff.mpr absent]

/-- In a piece with one, the name is renamed. -/
theorem spanned_of_cut {renamer : Renamer} {piece before found : List Char}
    (cut : Text.cut? renamer.sentinel piece = some (before, found)) :
    renamer.spanned piece = before ++ renamer.newName found := by
  rw [spanned, cut]

/-- **Every reference renamed on its own**, piece by piece. -/
theorem renameSpans_pieces (renamer : Renamer) (detail : List Char) : renamer.renameSpans detail =
    [Detail.terminator].intercalate ((detail.splitOn Detail.terminator).map renamer.spanned) :=
  Detail.flatMap_fragments (fun _ _ => rfl) renamer.mode.terminator_notMem_sentinel
    renamer.mode.sentinel_ne_nil detail

end ClassNaming.Renamer
