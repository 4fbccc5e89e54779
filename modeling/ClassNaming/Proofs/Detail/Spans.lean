import ClassNaming.Proofs.Detail.Fragments

/-!
# What renaming span by span leaves alone

Renaming span by span works on the pieces of a detail, each on its own, so a terminator divides it
into two.  More is true: every character outside the references divides it, since no reference
reaches over such a character.  That is how a character survives: what stands before it is renamed
as if it stood alone, and so is what follows it.

References are told by their positions here, counted in bytes.

## Main Results

* `mem_references_of_piece` - the reference of a piece is one of the detail, at its position
* `Renamer.renameSpans_append_outside` - a character outside the references divides the renaming
* `Renamer.renameSpans_piecewise` - the three laws of renaming span by span
-/

namespace ClassNaming.Detail

variable {sentinel detail piece before found name text : List Char} {c : Char}

/-! ### The reference of a piece -/

/-- A reference among the atoms of fragments is one of the fragments. -/
theorem exists_of_flatMap_atoms {fragments ahead behind : List Fragment}
    (atoms : fragments.flatMap Fragment.atoms = ahead ++ .reference name :: behind) :
    ∃ front back, fragments = front ++ .reference name :: back ∧
      front.flatMap Fragment.atoms = ahead := by
  induction fragments generalizing ahead with
  | nil => simp at atoms
  | cons fragment rest ih =>
    rw [List.flatMap_cons] at atoms
    rcases List.append_eq_append_iff.mp atoms with ⟨more, rfl, later⟩ | ⟨more, here, tail⟩
    · obtain ⟨front, back, rfl, rfl⟩ := ih later
      exact ⟨fragment :: front, back, rfl, by rw [List.flatMap_cons]⟩
    · rcases more with - | ⟨first, more⟩
      · rw [List.nil_append] at tail
        obtain ⟨front, back, rfl, atoms_nil⟩ := @ih [] tail.symm
        refine ⟨fragment :: front, back, rfl, ?_⟩
        rw [List.flatMap_cons, atoms_nil, here, List.append_nil, List.append_nil]
      · obtain rfl := (List.cons.inj tail).1
        cases fragment with
        | plain text =>
          have inside : Fragment.reference name ∈ (Fragment.plain text).atoms := here ▸ by simp
          simp [Fragment.atoms] at inside
        | reference other =>
          obtain ⟨rfl, rfl, -⟩ : ahead = [] ∧ name = other ∧ more = [] := by
            rcases ahead with - | ⟨atom, ahead⟩ <;> simp_all [Fragment.atoms]
          exact ⟨[], rest, rfl, rfl⟩

/-- A reference among fragments has the position that the texts before it give it. -/
theorem mem_referencesFrom (offset : Nat) (front back : List Fragment) (name : List Char) :
    ⟨offset + byteLength (front.flatMap Fragment.text),
      offset + byteLength (front.flatMap Fragment.text) + byteLength name, name⟩ ∈
        referencesFrom [] offset (front ++ .reference name :: back) := by
  induction front generalizing offset with
  | nil =>
    rw [List.nil_append, referencesFrom, referencesFrom_eq]
    simp [byteLength]
  | cons fragment front ih =>
    have next := ih (offset + byteLength fragment.text)
    rw [List.flatMap_cons, byteLength_append, ← Nat.add_assoc]
    cases fragment with
    | plain text => exact next
    | reference other =>
      rw [List.cons_append, referencesFrom, referencesFrom_eq]
      exact List.mem_append_right _ next

/-- **The reference of a piece is one of the detail**, at the position that the pieces before it
give it. -/
theorem mem_references_of_piece (fresh : terminator ∉ sentinel) (sentinel_ne : sentinel ≠ [])
    {done ahead : List (List Char)} (split : detail.splitOn terminator = done ++ piece :: ahead)
    (cut : Text.cut? sentinel piece = some (before, found)) :
    ⟨byteLength (done.flatMap (· ++ [terminator]) ++ before),
      byteLength (done.flatMap (· ++ [terminator]) ++ before) + byteLength found, found⟩ ∈
        references sentinel detail := by
  have atoms : (fragments sentinel detail).flatMap Fragment.atoms = _ :=
    flatMap_fragments (fun _ _ => List.map_append) fresh sentinel_ne detail
  have ends : Fragment.atoms (.plain [terminator]) = [.plain [terminator]] := rfl
  have alone : Fragment.atoms (.reference found) = [.reference found] := rfl
  rw [split, List.map_append, List.map_cons, ends, intercalate_append_cons, overPiece_of_cut cut,
    alone, ← List.append_assoc, List.append_assoc, List.singleton_append] at atoms
  obtain ⟨front, back, whole, same⟩ := exists_of_flatMap_atoms atoms
  -- The text of the fragments in front is that of their atoms.
  have texts : front.flatMap Fragment.text =
      done.flatMap (· ++ [terminator]) ++ before := by
    have spelled : front.flatMap Fragment.text =
        (front.flatMap Fragment.atoms).flatMap Fragment.text := by
      simp only [List.flatMap_assoc, Fragment.flatMap_text_atoms]
    rw [spelled, same]
    simp only [List.flatMap_append, List.flatMap_assoc, List.flatMap_map, flatMap_text_overPiece,
      Fragment.flatMap_text_atoms]
    rfl
  have member := mem_referencesFrom 0 front back found
  rw [← whole, texts, Nat.zero_add] at member
  exact member

/-- A character that lies outside all references: each of them starts behind it or has ended. -/
def Outside (sentinel front : List Char) (c : Char) (back : List Char) : Prop :=
  ∀ reference ∈ references sentinel (front ++ c :: back),
    byteLength front < reference.start ∨ reference.stop ≤ byteLength front

instance (sentinel front : List Char) (c : Char) (back : List Char) :
    Decidable (Outside sentinel front c back) :=
  inferInstanceAs (Decidable (∀ reference ∈ references sentinel (front ++ c :: back), _))

/-! ### Details put together from two -/

theorem intercalate_append {α : Type} {mark : α} {lists lists' : List (List α)}
    (lists_ne : lists ≠ []) (lists'_ne : lists' ≠ []) : [mark].intercalate (lists ++ lists') =
      [mark].intercalate lists ++ mark :: [mark].intercalate lists' := by
  induction lists with
  | nil => exact absurd rfl lists_ne
  | cons list later ih =>
    cases later with
    | nil =>
      rw [List.singleton_append, List.intercalate_cons_of_ne_nil lists'_ne,
        List.intercalate_singleton]
      simp
    | cons next later =>
      rw [List.cons_append, List.cons_append, List.intercalate_cons_cons, ← List.cons_append,
        ih (by simp), List.intercalate_cons_cons]
      simp

/-- A text is its pieces, of which all but the last are ended. -/
theorem eq_of_splitOn_eq_concat {front left : List Char} {done : List (List Char)}
    (here : front.splitOn terminator = done ++ [left]) :
    front = done.flatMap (· ++ [terminator]) ++ left := by
  have joined : [terminator].intercalate (front.splitOn terminator) = front :=
    List.intercalate_splitOn terminator
  simpa [here, intercalate_append_cons] using joined.symm

/-- A character that is no terminator lies in a piece, of which it parts the last piece before it
from the first one behind it. -/
theorem exists_pieces_around (front back : List Char) (other : c ≠ terminator) :
    ∃ done left right ahead, front.splitOn terminator = done ++ [left] ∧
      back.splitOn terminator = right :: ahead ∧
      (front ++ c :: back).splitOn terminator = done ++ (left ++ c :: right) :: ahead := by
  obtain ⟨done, left, here⟩ := (List.eq_nil_or_concat' (front.splitOn terminator)).resolve_left
    (List.splitOn_ne_nil _ _)
  obtain ⟨right, ahead, behind⟩ := List.exists_cons_of_ne_nil
    (List.splitOn_ne_nil terminator back)
  refine ⟨done, left, right, ahead, here, behind, ?_⟩
  have back_eq : right ++ ahead.flatMap (terminator :: ·) = back := by
    have joined : [terminator].intercalate (back.splitOn terminator) = back :=
      List.intercalate_splitOn terminator
    simpa [behind, intercalate_cons] using joined
  have closed_front : ∀ piece ∈ done ++ [left], terminator ∉ piece := fun piece mem =>
    Text.mark_notMem_of_mem_splitOn front (here ▸ mem)
  have closed_back : ∀ piece ∈ right :: ahead, terminator ∉ piece := fun piece mem =>
    Text.mark_notMem_of_mem_splitOn back (behind ▸ mem)
  have closed : ∀ piece ∈ done ++ (left ++ c :: right) :: ahead, terminator ∉ piece := by
    intro piece mem
    rcases List.mem_append.mp mem with before | mem
    · exact closed_front piece (List.mem_append_left _ before)
    rcases List.mem_cons.mp mem with rfl | after
    · simp only [List.mem_append, List.mem_cons, not_or]
      exact ⟨closed_front left (by simp), fun same => other same.symm,
        closed_back right List.mem_cons_self⟩
    · exact closed_back piece (List.mem_cons_of_mem _ after)
  have whole : front ++ c :: back =
      [terminator].intercalate (done ++ (left ++ c :: right) :: ahead) := by
    rw [intercalate_append_cons, eq_of_splitOn_eq_concat here, ← back_eq]
    simp
  rw [whole, List.splitOn_intercalate terminator closed (by simp)]

/-- A character outside the references stands before the reference of its piece. -/
theorem Outside.before_reference {front back left right : List Char} {done ahead : List (List Char)}
    (outside : Outside sentinel front c back) (fresh : terminator ∉ sentinel)
    (sentinel_ne : sentinel ≠ []) (here : front.splitOn terminator = done ++ [left])
    (split : (front ++ c :: back).splitOn terminator = done ++ (left ++ c :: right) :: ahead)
    (cut : Text.cut? sentinel (left ++ c :: right) = some (before, found)) :
    ∃ middle, before = left ++ c :: middle ∧ right = middle ++ found := by
  obtain ⟨whole, -, -⟩ := Text.cut?_eq_some_iff.mp cut
  have place := outside _ (mem_references_of_piece fresh sentinel_ne split cut)
  have size := c.utf8Size_pos
  simp only [eq_of_splitOn_eq_concat here, byteLength_append] at place
  rcases List.append_eq_append_iff.mp whole with ⟨middle, rfl, tail⟩ | ⟨middle, rfl, rfl⟩
  · rcases middle with - | ⟨first, middle⟩
    · -- The reference begins at the character.
      rw [List.nil_append] at tail
      rw [← tail, byteLength_cons, List.append_nil] at place
      omega
    · obtain ⟨rfl, rfl⟩ := List.cons.inj tail
      exact ⟨middle, rfl, rfl⟩
  · -- The reference begins before the character and runs to the end of the piece.
    rw [byteLength_append, byteLength_append, byteLength_cons] at place
    omega

end ClassNaming.Detail

namespace ClassNaming.Renamer

open Detail (terminator)

variable {renamer : Renamer} {left right front back : List Char} {c : Char}

/-- A terminator divides the renaming. -/
theorem renameSpans_append_terminator (renamer : Renamer) (front back : List Char) :
    renamer.renameSpans (front ++ terminator :: back) =
      renamer.renameSpans front ++ terminator :: renamer.renameSpans back := by
  rw [renameSpans_pieces, renameSpans_pieces, renameSpans_pieces, List.splitOn_append_cons_self,
    List.map_append, Detail.intercalate_append (by simp) (by simp)]

/-- A character before the reference of a piece divides the renaming of the piece. -/
theorem spanned_append_cons (before_reference : ∀ before found,
    Text.cut? renamer.sentinel (left ++ c :: right) = some (before, found) →
      ∃ middle, before = left ++ c :: middle ∧ right = middle ++ found) :
    renamer.spanned (left ++ c :: right) = renamer.spanned left ++ c :: renamer.spanned right := by
  cases cut : Text.cut? renamer.sentinel (left ++ c :: right) with
  | none =>
    have absent := Text.cut?_eq_none_iff.mp cut
    have absent_left : ¬ renamer.sentinel <:+: left := fun inside =>
      absent (inside.trans (List.prefix_append _ _).isInfix)
    have absent_right : ¬ renamer.sentinel <:+: right := fun inside =>
      absent (inside.trans ⟨left ++ [c], [], by simp⟩)
    rw [spanned_of_absent absent, spanned_of_absent absent_left, spanned_of_absent absent_right]
  | some parts =>
    obtain ⟨before, found⟩ := parts
    obtain ⟨middle, rfl, rfl⟩ := before_reference before found cut
    obtain ⟨-, starts, first⟩ := Text.cut?_eq_some_iff.mp cut
    have absent_left : ¬ renamer.sentinel <:+: left := by
      rintro ⟨passed, rest, rfl⟩
      have early := first passed (renamer.sentinel ++ rest ++ c :: (middle ++ found)) (by simp)
        ⟨rest ++ c :: (middle ++ found), by simp⟩
      simp only [List.length_append, List.length_cons] at early
      omega
    have cut_right : Text.cut? renamer.sentinel (middle ++ found) = some (middle, found) := by
      refine Text.cut?_eq_some_iff.mpr ⟨rfl, starts, fun passed rest whole begins => ?_⟩
      have early := first (left ++ c :: passed) rest (by simp [whole]) begins
      simp only [List.length_append, List.length_cons] at early
      omega
    rw [spanned_of_cut cut, spanned_of_absent absent_left, spanned_of_cut cut_right]
    simp

/-- **A character outside the references divides the renaming**, so it survives where it stands. -/
theorem renameSpans_append_outside
    (outside : Detail.Outside renamer.sentinel front c back) :
    renamer.renameSpans (front ++ c :: back) =
      renamer.renameSpans front ++ c :: renamer.renameSpans back := by
  by_cases ends : c = terminator
  · rw [ends, renameSpans_append_terminator]
  · obtain ⟨done, left, right, ahead, here, behind, split⟩ :=
      Detail.exists_pieces_around front back ends
    have piece : renamer.spanned (left ++ c :: right) =
        renamer.spanned left ++ c :: renamer.spanned right :=
      spanned_append_cons fun _ _ cut => outside.before_reference
        renamer.mode.terminator_notMem_sentinel renamer.mode.sentinel_ne_nil here split cut
    rw [renameSpans_pieces, renameSpans_pieces, renameSpans_pieces, here, behind, split]
    simp only [List.map_append, List.map_cons, List.map_nil, piece,
      Detail.intercalate_append_cons, Detail.intercalate_cons]
    simp

/-- **Renaming span by span is a piecewise map**: it renames the reference of each piece on its own,
so a terminator divides it, and so does every other character outside the references. -/
theorem renameSpans_piecewise (renamer : Renamer) :
    (∀ detail, renamer.renameSpans detail =
      [terminator].intercalate ((detail.splitOn terminator).map renamer.spanned)) ∧
    (∀ front back, renamer.renameSpans (front ++ terminator :: back) =
      renamer.renameSpans front ++ terminator :: renamer.renameSpans back) ∧
    ∀ front c back, Detail.Outside renamer.sentinel front c back →
      renamer.renameSpans (front ++ c :: back) =
        renamer.renameSpans front ++ c :: renamer.renameSpans back :=
  ⟨renamer.renameSpans_pieces, renamer.renameSpans_append_terminator,
    fun _ _ _ => renameSpans_append_outside⟩

/-- A renamer that knows one class. -/
def knowingOne : Renamer :=
  { resolver :=
      { table := .ofRows ["intermediary", "named"] [["net/minecraft/class_1", "a/One"]]
        space := "intermediary", source := 0, target := 1 }
    mode := .intermediary
    strategy := .spans }

/-- A marker between a character of two bytes and a reference that holds its sentinel twice. -/
theorem renameSpans_beside_marker :
    knowingOne.renameSpans ("net/minecraft/class_1;ü".toList ++ marker ::
        "net/minecraft/class_1net/minecraft/class_1".toList) =
      knowingOne.renameSpans "net/minecraft/class_1;ü".toList ++ marker ::
        knowingOne.renameSpans "net/minecraft/class_1net/minecraft/class_1".toList :=
  (renameSpans_piecewise knowingOne).2.2 _ _ _ (by decide +kernel)

end ClassNaming.Renamer
