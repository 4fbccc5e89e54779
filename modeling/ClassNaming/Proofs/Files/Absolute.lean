import ClassNaming.Proofs.Files.Path
import ClassNaming.Proofs.Files.Way

/-!
# Laws of absolute paths

A path that was made absolute has no more text than its parts need, save for a second separator at
the start and one at the end.  So the snapshot of a target that was made absolute has a longer path
than the target, which matters when the target is taken back.  And whatever stands at the end of the
target, it is no single dot.

## Main Definitions

* `Path.leastSize` - the size that parts need in any text
* `Path.IsDirectory` - a path that a working directory has

## Main Results

* `Path.leastSize_le` - a path is as long as its parts need
* `Path.absolute_tidy` - the length and the end of an absolute path
* `Path.check_absolute_join` - a separator may be added to a folder that has a snapshot
-/

namespace ClassNaming.Path

variable {p base start : Path} {piece name : String} {pieces texts names : List String}
  {parts : List PathPart}

/-! ### Sizes -/

/-- The size of pieces, each with a separator. -/
def spelledSize : List String → Nat
  | [] => 0
  | piece :: pieces => piece.utf8ByteSize + 1 + spelledSize pieces

@[simp] theorem spelledSize_cons :
    spelledSize (piece :: pieces) = piece.utf8ByteSize + 1 + spelledSize pieces := rfl

theorem spelledSize_append :
    spelledSize (pieces ++ texts) = spelledSize pieces + spelledSize texts := by
  induction pieces with
  | nil => exact (Nat.zero_add _).symm
  | cons piece pieces ih =>
    rw [List.cons_append, spelledSize_cons, spelledSize_cons, ih]
    omega

/-- The size that parts need in any text, each with a separator. -/
def leastSize (parts : List PathPart) : Nat := spelledSize (parts.map PathPart.text)

theorem leastSize_append {more : List PathPart} :
    leastSize (parts ++ more) = leastSize parts + leastSize more := by
  rw [leastSize, List.map_append, spelledSize_append]
  rfl

@[simp] theorem leastSize_singleton {part : PathPart} :
    leastSize [part] = part.text.utf8ByteSize + 1 := rfl

theorem text_partOf (piece : String) : (partOf piece).text = piece := by
  unfold partOf
  split
  · rename_i dots
    exact (beq_iff_eq.mp dots).symm
  · rfl

theorem leastSize_map_partOf : leastSize (texts.map partOf) = spelledSize texts := by
  simp [leastSize, Function.comp_def, text_partOf]

theorem leastSize_laterParts : leastSize (laterParts pieces) ≤ spelledSize pieces := by
  rw [laterParts, leastSize_map_partOf]
  induction pieces with
  | nil => exact Nat.le_refl _
  | cons piece pieces ih =>
    rw [List.filter_cons]
    split
    · rw [spelledSize_cons, spelledSize_cons]
      omega
    · rw [spelledSize_cons]
      omega

/-- The pieces between separators are as long as the text. -/
private theorem spelledSize_splitOn (body : List Char) :
    spelledSize ((body.splitOn '/').map String.ofList) = (String.ofList body).utf8ByteSize + 1 := by
  induction body with
  | nil => rfl
  | cons c rest ih =>
    rw [List.splitOn_cons_eq_if_modifyHead, String.ofList_cons, String.utf8ByteSize_append,
      String.utf8ByteSize_singleton]
    split
    · rename_i separator
      obtain rfl := beq_iff_eq.mp separator
      rw [List.map_cons, spelledSize_cons, ih]
      show 0 + 1 + _ = 1 + _ + 1
      omega
    · cases split : rest.splitOn '/' with
      | nil => exact absurd split (List.splitOn_ne_nil _ _)
      | cons first more =>
        rw [split, List.map_cons, spelledSize_cons] at ih
        rw [List.modifyHead_cons, List.map_cons, spelledSize_cons, String.ofList_cons,
          String.utf8ByteSize_append, String.utf8ByteSize_singleton]
        omega

/-- A path is as long as its parts need. -/
theorem leastSize_le (p : Path) : leastSize p.parts ≤ p.text.utf8ByteSize + 1 := by
  obtain ⟨body, text, relative⟩ := exists_body p
  obtain ⟨-, pieces⟩ := pieces_of_text text relative
  have size : p.text.utf8ByteSize =
      (if p.isAbsolute then 1 else 0) + (String.ofList body).utf8ByteSize := by
    rw [← String.ofList_toList (s := p.text), text]
    split
    · rw [List.singleton_append, String.ofList_cons, String.utf8ByteSize_append,
        String.utf8ByteSize_singleton]
      rfl
    · rw [List.nil_append, Nat.zero_add]
  have spelled : spelledSize p.pieces = (String.ofList body).utf8ByteSize + 1 := by
    rw [pieces, spelledSize_splitOn]
  rw [parts_eq, size]
  cases root : p.isAbsolute with
  | true =>
    have later : leastSize (laterParts p.pieces) ≤ spelledSize p.pieces := leastSize_laterParts
    rw [partsOf_true, ← List.singleton_append, leastSize_append]
    show 0 + 1 + _ ≤ _
    rw [if_pos rfl]
    omega
  | false =>
    rw [if_neg (by simp), Nat.zero_add, ← spelled]
    cases p.pieces with
    | nil => exact Nat.le_refl _
    | cons first more =>
      by_cases dot : first = "."
      · have later : leastSize (laterParts more) ≤ spelledSize more := leastSize_laterParts
        rw [dot, partsOf_dot, ← List.singleton_append, leastSize_append, spelledSize_cons]
        show 1 + 1 + 0 + _ ≤ 1 + 1 + _
        omega
      · rw [partsOf_of_ne (by simpa using dot)]
        exact leastSize_laterParts

/-! ### Paths put together from pieces -/

/-- A piece that stands for a part. -/
structure IsPiece (piece : String) : Prop where
  busy : isIdle piece = false
  unseparated : '/' ∉ piece.toList

theorem isPiece_of_isName (named : IsName name) : IsPiece name :=
  ⟨not_isIdle named, named.unseparated⟩

theorem parts_join_isPiece (piece_ : IsPiece piece) :
    (p.join piece).parts = p.parts ++ [partOf piece] := by
  have other : piece ≠ "." := by
    rintro rfl
    cases piece_.busy
  rw [parts_join_piece piece_.unseparated other]
  simp [laterParts, piece_.busy]

theorem size_join (p : Path) (piece : String) :
    (p.join piece).text.utf8ByteSize ≤ p.text.utf8ByteSize + (piece.utf8ByteSize + 1) := by
  rcases text_join p piece with text | text
  · rw [text, String.utf8ByteSize_append]
    omega
  · rw [text, String.utf8ByteSize_append, String.utf8ByteSize_append]
    show _ + 1 + _ ≤ _
    omega

/-- A path with hardly more text than its parts need. -/
def Snug (p : Path) : Prop := p.text.utf8ByteSize ≤ leastSize p.parts + 1

theorem Snug.below (snug : Snug p) (all : ∀ piece ∈ texts, IsPiece piece) :
    Snug (p.below texts) := by
  induction texts generalizing p with
  | nil => exact snug
  | cons piece texts ih =>
    refine ih (p := p.join piece) ?_ fun other mem => all other (List.mem_cons_of_mem _ mem)
    have size := size_join p piece
    have least : leastSize (p.join piece).parts = leastSize p.parts + (piece.utf8ByteSize + 1) := by
      rw [parts_join_isPiece (all piece List.mem_cons_self), leastSize_append]
      rw [leastSize_singleton, text_partOf]
    rw [Snug] at snug ⊢
    omega

/-! ### Absolute paths -/

/-- A path that a working directory has: names behind the root. -/
def IsDirectory (base : Path) : Prop :=
  ∃ names, (∀ name ∈ names, IsName name) ∧ base = (Path.mk "/").below names

/-- An absolute path begins with one or two separators, has no idle pieces, and perhaps a separator
at the end. -/
theorem absolute_cases (directory : IsDirectory base) (p : Path) :
    ∃ (start : Path) (texts : List String), (start = ⟨"/"⟩ ∨ start = ⟨"//"⟩) ∧
      (∀ piece ∈ texts, IsPiece piece) ∧
      (absolute base p = start.below texts ∨ absolute base p = (start.below texts).join "") := by
  have spelled : ∀ piece ∈ (p.parts.filter fun part => part ≠ .root && part ≠ .here).map
      PathPart.text, IsPiece piece := by
    intro piece mem
    obtain ⟨part, kept, rfl⟩ := List.mem_map.mp mem
    obtain ⟨inside, other⟩ := List.mem_filter.mp kept
    cases part with
    | root => cases other
    | here => cases other
    | up => exact ⟨by decide, by decide⟩
    | name name => exact isPiece_of_isName (mem_pieces_of_mem_parts inside).2
  unfold absolute
  dsimp only
  generalize (p.parts.filter fun part => part ≠ .root && part ≠ .here).map PathPart.text = texts
    at spelled ⊢
  generalize begins : (if p.isAbsolute then _ else base : Path) = first
  -- A relative path goes on behind the names of the directory.
  obtain ⟨start, front, one, pieces, rfl⟩ : ∃ (start : Path) (front : List String),
      (start = ⟨"/"⟩ ∨ start = ⟨"//"⟩) ∧ (∀ piece ∈ front, IsPiece piece) ∧
        first = start.below front := by
    split at begins
    · split at begins
      · exact ⟨_, [], .inl rfl, by simp, begins.symm⟩
      · exact ⟨_, [], .inr rfl, by simp, begins.symm⟩
      · exact ⟨_, [], .inl rfl, by simp, begins.symm⟩
    · obtain ⟨names, named, same⟩ := directory
      exact ⟨_, names, .inl rfl, fun piece mem => isPiece_of_isName (named piece mem),
        begins.symm.trans same⟩
  refine ⟨start, front ++ texts, one, fun piece mem => ?_, ?_⟩
  · exact (List.mem_append.mp mem).elim (pieces piece) (spelled piece)
  · rw [show start.below (front ++ texts) = (start.below front).below texts from List.foldl_append]
    split
    · exact .inr rfl
    · exact .inl rfl

/-- The name at the end of an absolute path is its last piece. -/
theorem exists_init_of_parts (one : start = ⟨"/"⟩ ∨ start = ⟨"//"⟩)
    (pieces : ∀ piece ∈ texts, IsPiece piece)
    (split : (start.below texts).parts = parts ++ [.name name]) :
    ∃ init, texts = init ++ [name] := by
  rcases List.eq_nil_or_concat texts with rfl | ⟨init, last, rfl⟩
  · have root : (start.below []).parts = [] ++ [.root] := by rcases one with rfl | rfl <;> decide
    rw [root] at split
    cases (List.append_inj' split rfl).2
  · rw [List.concat_eq_append, below_concat, parts_join_isPiece (pieces last (by simp))] at split
    obtain ⟨-, part⟩ := List.append_inj' split rfl
    have text := congrArg PathPart.text (List.singleton_inj.mp part)
    rw [text_partOf] at text
    obtain rfl : last = name := text
    exact ⟨init, List.concat_eq_append⟩

/-- An absolute path that ends with a name asks for nothing but a folder behind it, and has hardly
more text than its parts need. -/
theorem absolute_tidy (directory : IsDirectory base)
    (ends : (absolute base p).fileName? = some name) :
    (absolute base p).closing ≠ [.follow .here] ∧
      ((absolute base p).join "").text.utf8ByteSize ≤ leastSize (absolute base p).parts + 3 := by
  obtain ⟨start, texts, one, pieces, same⟩ := absolute_cases directory p
  have snug : Snug (start.below texts) := by
    refine Snug.below ?_ pieces
    rcases one with rfl | rfl
    · show 1 ≤ leastSize [.root] + 1
      decide
    · show 2 ≤ leastSize [.root] + 1
      decide
  have parts_eq : (absolute base p).parts = (start.below texts).parts := by
    rcases same with same | same
    · rw [same]
    · rw [same, parts_join_empty]
  obtain ⟨parts, split, named⟩ := exists_fileName ends
  obtain ⟨init, rfl⟩ := exists_init_of_parts one pieces (parts_eq.symm.trans split)
  have plain : (start.below (init ++ [name])).closing = [] := by
    rw [below_concat]
    exact closing_join named
  have mem : .name name ∈ (start.below (init ++ [name])).parts := by
    rw [below_concat, parts_join named]
    exact List.mem_append_right _ List.mem_cons_self
  have empty : "".utf8ByteSize = 0 := rfl
  have size := size_join (start.below (init ++ [name])) ""
  have size' := size_join ((start.below (init ++ [name])).join "") ""
  rw [Snug] at snug
  rw [parts_eq]
  rcases same with same | same
  · rw [same, plain]
    refine ⟨by simp, ?_⟩
    omega
  · rw [same, closing_join_empty mem, plain]
    refine ⟨by simp, ?_⟩
    omega

/-- The snapshot of a folder has a longer path than the folder, so a separator may be added to that
of the folder. -/
theorem check_absolute_join {q : Path} {more : String} (directory : IsDirectory base)
    (split : (absolute base p).parts = parts ++ [.name name])
    (checked : (absolute base p).check = .ok ()) (checked' : q.check = .ok ())
    (split' : q.parts = parts ++ [.name (name ++ more)]) (longer : 4 ≤ more.utf8ByteSize) :
    ((absolute base p).join "").check = .ok () := by
  have tidy := (absolute_tidy directory (fileName?_of_parts split)).2
  have least := leastSize_le q
  obtain ⟨-, -, short⟩ := check_eq_ok.mp checked'
  rw [split, leastSize_append] at tidy
  rw [split', leastSize_append] at least
  have size : leastSize [.name (name ++ more)] = leastSize [.name name] + more.utf8ByteSize := by
    rw [leastSize_singleton, leastSize_singleton, PathPart.text, PathPart.text,
      String.utf8ByteSize_append]
    omega
  exact check_join_empty checked (by omega)

end ClassNaming.Path
