import ClassNaming.Files.Lookup
import Mathlib.Data.List.Infix

/-!
# Laws of file trees

What lies at a spot after a change, and in which order the spots below another one are listed.

A tree of the model may hold anything at any spot.  What a disk can hold is an *ordinary* tree:
everything lies in a folder, under a name that a path can spell.

## Main Definitions

* `IsName` - a name that a path can spell
* `FileTree.Ordinary` - a tree that a disk can hold
* `Sub` - one way to fill spots is a part of another one

## Main Results

* `FileTree.item?_put`, `FileTree.item?_drop`, `FileTree.item?_dropBelow` - what changes leave
* `FileTree.Ordinary.vacant_below` - nothing lies below what is no folder
* `FileTree.itemsBelow_split` - a listing comes to a folder before it comes to what is in it
-/

namespace ClassNaming

/-- A name that a path can spell: neither empty nor dots, and without separators. -/
structure IsName (name : String) : Prop where
  ne_empty : name ≠ ""
  ne_dot : name ≠ "."
  ne_dots : name ≠ ".."
  unseparated : '/' ∉ name.toList

/-- What lies at every spot is a part of what lies there according to another view. -/
def Sub (f g : Spot → Option Item) : Prop :=
  ∀ ⦃spot item⦄, f spot = some item → g spot = some item

theorem Sub.refl (f : Spot → Option Item) : Sub f f := fun _ _ found => found

namespace FileTree

variable {t : FileTree} {spot other : Spot} {item : Item} {name : String}

/-! ### Changes -/

@[simp] theorem item?_root : t.item? [] = some .folder := rfl

theorem item?_of_ne (ne : spot ≠ []) : t.item? spot = t.items[spot]? := if_neg ne

/-- An item lies where it was put, and all others lie where they did. -/
theorem item?_put (ne : spot ≠ []) :
    (t.put spot item).item? other = if other = spot then some item else t.item? other := by
  unfold item? put
  by_cases root : other = []
  · rw [if_pos root, if_pos root, if_neg fun same => ne (same.symm.trans root)]
  · rw [if_neg root, if_neg root, Std.ExtTreeMap.getElem?_insert]
    by_cases same : other = spot
    · subst same
      rw [if_pos rfl, if_pos Std.ReflCmp.compare_self]
    · rw [if_neg same, if_neg fun eq => same (Std.LawfulEqCmp.compare_eq_iff_eq.mp eq).symm]

/-- Nothing lies where an item was dropped, and all others lie where they did. -/
theorem item?_drop (ne : spot ≠ []) :
    (t.drop spot).item? other = if other = spot then none else t.item? other := by
  unfold item? drop
  by_cases root : other = []
  · rw [if_pos root, if_pos root, if_neg fun same => ne (same.symm.trans root)]
  · rw [if_neg root, if_neg root, Std.ExtTreeMap.getElem?_erase]
    by_cases same : other = spot
    · subst same
      rw [if_pos rfl, if_pos Std.ReflCmp.compare_self]
    · rw [if_neg same, if_neg fun eq => same (Std.LawfulEqCmp.compare_eq_iff_eq.mp eq).symm]

/-- A spot is below another one if that is its beginning, and not all of it. -/
theorem isBelow_iff : isBelow spot other = true ↔ spot <+: other ∧ other ≠ spot := by
  rw [isBelow, Bool.and_eq_true, List.isPrefixOf_iff_prefix, decide_eq_true_eq, ne_comm]

/-- What lies below a spot is dropped, but not what lies there. -/
theorem item?_dropBelow :
    (t.dropBelow spot).item? other
      = if spot <+: other ∧ other ≠ spot then none else t.item? other := by
  unfold item? dropBelow
  by_cases root : other = []
  · subst root
    rw [if_pos rfl, if_pos rfl, if_neg]
    rintro ⟨starts, ne⟩
    exact ne (List.prefix_nil.mp starts).symm
  · rw [if_neg root, if_neg root, Std.ExtTreeMap.getElem?_filter']
    simp only [← isBelow_iff]
    cases t.items[other]? <;> cases below : isBelow spot other <;> simp [Option.filter]

/-- What is put where there was nothing takes nothing away. -/
theorem sub_put (vacant : t.item? spot = none) : Sub t.item? (t.put spot item).item? := by
  intro other item here
  rw [item?_put (by rintro rfl; simp at vacant), if_neg, here]
  rintro rfl
  simp [vacant] at here

/-- What is dropped below a spot adds nothing. -/
theorem dropBelow_sub (spot : Spot) : Sub (t.dropBelow spot).item? t.item? := by
  intro other item here
  rw [item?_dropBelow] at here
  split at here
  · cases here
  · exact here

/-- What is dropped adds nothing. -/
theorem drop_sub (ne : spot ≠ []) : Sub (t.drop spot).item? t.item? := by
  intro other item here
  rw [item?_drop ne] at here
  split at here
  · cases here
  · exact here

/-! ### Ordinary trees -/

/-- A tree that a disk can hold: everything in it lies in a folder and has a name that a path can
spell, and that is not too long. -/
def Ordinary (t : FileTree) : Prop :=
  ∀ ⦃spot name⦄, (t.item? (spot ++ [name])).isSome →
    t.item? spot = some .folder ∧ IsName name ∧ name.utf8ByteSize ≤ nameLimit

/-- In an empty tree there is only the root. -/
theorem item?_empty : empty.item? spot = if spot = [] then some .folder else none := by
  unfold item? empty
  rw [Std.ExtTreeMap.getElem?_empty]

/-- A disk can hold an empty tree. -/
theorem ordinary_empty : empty.Ordinary := by
  intro spot name there
  rw [item?_empty, if_neg (by simp)] at there
  cases there

/-- In an ordinary tree the way to what is there leads through folders. -/
theorem Ordinary.folder_above (ordinary : t.Ordinary) {names : List String} (ne : names ≠ [])
    (there : (t.item? (spot ++ names)).isSome) : t.item? spot = some .folder := by
  induction names using List.reverseRecOn with
  | nil => exact absurd rfl ne
  | append_singleton front name ih =>
    rw [← List.append_assoc] at there
    have above := (ordinary there).1
    cases front with
    | nil => rwa [List.append_nil] at above
    | cons a as => exact ih (by simp) (by rw [above]; rfl)

/-- In an ordinary tree nothing lies below what is no folder. -/
theorem Ordinary.vacant_below (ordinary : t.Ordinary) (no : t.item? spot ≠ some .folder)
    (below : spot <+: other) (ne : other ≠ spot) : t.item? other = none := by
  obtain ⟨names, rfl⟩ := below
  by_contra there
  have more : names ≠ [] := by
    rintro rfl
    exact ne (List.append_nil spot)
  exact no (ordinary.folder_above more (Option.isSome_iff_ne_none.mpr there))

/-- The names below a folder of an ordinary tree are names that a path can spell. -/
theorem Ordinary.isName (ordinary : t.Ordinary) {names : List String}
    (there : (t.item? (spot ++ names)).isSome) : ∀ name ∈ names, IsName name := by
  induction names using List.reverseRecOn with
  | nil => simp
  | append_singleton front last ih =>
    rw [← List.append_assoc] at there
    obtain ⟨above, named, -⟩ := ordinary there
    intro name mem
    rcases List.mem_append.mp mem with mem | mem
    · exact ih (by rw [above]; rfl) name mem
    · rwa [List.mem_singleton.mp mem]

/-- A tree stays ordinary when an item is put into a folder, where nothing was. -/
theorem Ordinary.of_put {u : FileTree} (ordinary : t.Ordinary)
    (folder : t.item? spot = some .folder) (named : IsName name)
    (size : name.utf8ByteSize ≤ nameLimit) (vacant : t.item? (spot ++ [name]) = none)
    (same : ∀ other, u.item? other = if other = spot ++ [name] then some item else t.item? other) :
    u.Ordinary := by
  intro other last there
  rw [same] at there ⊢
  by_cases here : other ++ [last] = spot ++ [name]
  · obtain ⟨rfl, one⟩ := List.append_inj' here rfl
    obtain rfl := List.singleton_inj.mp one
    rw [if_neg (by simp)]
    exact ⟨folder, named, size⟩
  · rw [if_neg here] at there
    obtain ⟨above, fine⟩ := ordinary there
    rw [if_neg]
    · exact ⟨above, fine⟩
    · rintro rfl
      rw [vacant] at above
      cases above

/-- So it can when something with an ordinary name is put into a folder. -/
theorem Ordinary.put (ordinary : t.Ordinary) (folder : t.item? spot = some .folder)
    (named : IsName name) (size : name.utf8ByteSize ≤ nameLimit)
    (vacant : t.item? (spot ++ [name]) = none) : (t.put (spot ++ [name]) item).Ordinary :=
  ordinary.of_put folder named size vacant fun _ => item?_put (by simp)

/-! ### Listings -/

/-- What is listed below a spot lies there. -/
theorem mem_itemsBelow :
    (other, item) ∈ t.itemsBelow spot ↔
      (spot <+: other ∧ other ≠ spot) ∧ t.item? other = some item := by
  rw [itemsBelow, List.mem_filter, Std.ExtTreeMap.mem_toList_iff_getElem?_eq_some, isBelow_iff,
    and_comm]
  refine and_congr_right fun below => ?_
  rw [item?_of_ne]
  rintro rfl
  exact below.2 (List.prefix_nil.mp below.1).symm

/-- The spots below another one are listed in their order. -/
theorem itemsBelow_sorted :
    (t.itemsBelow spot).Pairwise fun a b => compare a.1 b.1 = .lt := by
  have sorted := Std.ExtTreeMap.ordered_keys_toList (t := t.items)
  exact sorted.filter _

/-- No spot comes before itself. -/
private theorem not_compare_lt_self : ¬ compare spot spot = .lt := by
  have equal : compare spot spot = .eq := Std.ReflCmp.compare_self
  rw [equal]
  rintro ⟨⟩

/-- No spot is listed twice. -/
theorem itemsBelow_apart : (t.itemsBelow spot).Pairwise fun a b => a.1 ≠ b.1 := by
  refine itemsBelow_sorted.imp fun {a b} earlier same => ?_
  rw [same] at earlier
  exact not_compare_lt_self earlier

/-- A spot comes before those below it. -/
theorem compare_append {names : List String} (ne : names ≠ []) :
    compare spot (spot ++ names) = .lt := by
  induction spot with
  | nil =>
    cases names with
    | nil => exact absurd rfl ne
    | cons name names => rfl
  | cons first rest ih =>
    have equal : compare first first = .eq := Std.ReflCmp.compare_self
    rw [List.cons_append, List.compare_eq_compareLex, List.compareLex_cons_cons, equal,
      ← List.compare_eq_compareLex, ih]
    rfl

/-- Where a listing has come to something, it has come to the folder above that, and not yet to the
thing itself. -/
theorem itemsBelow_split {before after : List (Spot × Item)} (ordinary : t.Ordinary)
    (whole : t.itemsBelow spot = before ++ (other, item) :: after) :
    ∃ init last, other = spot ++ (init ++ [last]) ∧ t.item? other = some item ∧
      (init = [] ∨ ∃ above, (spot ++ init, above) ∈ before) ∧ ∀ same, (other, same) ∉ before := by
  have sorted : (t.itemsBelow spot).Pairwise fun a b => compare a.1 b.1 = .lt := itemsBelow_sorted
  rw [whole, List.pairwise_append, List.pairwise_cons] at sorted
  obtain ⟨-, ⟨behind, -⟩, before_lt⟩ := sorted
  obtain ⟨⟨⟨names, rfl⟩, ne⟩, there⟩ := (mem_itemsBelow (t := t)).mp (by
    rw [whole]
    exact List.mem_append_right _ List.mem_cons_self)
  obtain ⟨init, last, rfl⟩ := (List.eq_nil_or_concat names).resolve_left (by
    rintro rfl
    exact ne (List.append_nil _))
  rw [List.concat_eq_append] at *
  refine ⟨init, last, rfl, there, ?_, ?_⟩
  · by_cases top : init = []
    · exact .inl top
    · refine .inr ⟨.folder, ?_⟩
      rw [← List.append_assoc] at there
      have above := (ordinary (by rw [there]; rfl)).1
      have listed : (spot ++ init, Item.folder) ∈ t.itemsBelow spot := by
        refine mem_itemsBelow.mpr ⟨⟨List.prefix_append _ _, ?_⟩, above⟩
        simpa using top
      rw [whole, List.mem_append, List.mem_cons] at listed
      have earlier : compare (spot ++ init) (spot ++ (init ++ [last])) = .lt := by
        rw [← List.append_assoc]
        exact compare_append (by simp)
      rcases listed with mem | same | mem
      · exact mem
      · rw [(Prod.mk.inj same).1] at earlier
        exact absurd earlier not_compare_lt_self
      · exact absurd earlier (Std.OrientedCmp.not_lt_of_lt (behind _ mem))
  · intro same mem
    exact not_compare_lt_self (before_lt _ mem (_, item) List.mem_cons_self)

end FileTree

end ClassNaming
