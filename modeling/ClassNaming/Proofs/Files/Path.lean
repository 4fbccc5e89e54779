import ClassNaming.Files.Lookup
import ClassNaming.Proofs.Files.Tree
import ClassNaming.Proofs.Text.Occurrence
import Mathlib.Data.List.TakeWhile

/-!
# Laws of paths

A path is its pieces and whether it starts at the root; nothing else of its text matters.  Joining,
closing, and passing to the parent are changes at the end of the pieces, and of the parts, which are
what remains of the pieces without the idle ones.

## Main Definitions

* `Path.partsOf` - the parts that pieces stand for
* `Path.idleEnd` - the idle pieces at the end
* `Path.Spells` - a path that consists of some parts and nothing else

## Main Results

* `Path.parts_join`, `Path.closing_join` - a name behind a path is its last part
* `Path.exists_parent` - the parent consists of all parts but the last one
* `Path.parts_closed`, `Path.closing_closed` - what closing a path changes
* `Path.exists_fileName` - the last part of a path that ends with a name
* `Path.parts_extend` - what is added to the text of a path belongs to its last part
-/

namespace ClassNaming.Path

variable {p : Path} {absolute : Bool} {pieces front init : List String} {piece name : String}
  {body : List Char} {parts : List PathPart}

/-! ### Pieces -/

/-- The idle pieces are the empty one and the dot. -/
theorem isIdle_iff : isIdle piece = true ↔ piece = "" ∨ piece = "." := by
  rw [isIdle, Bool.or_eq_true, beq_iff_eq, beq_iff_eq]

/-- A name is not idle. -/
theorem not_isIdle (named : IsName name) : isIdle name = false := by
  rw [← Bool.not_eq_true, isIdle_iff]
  rintro (empty | dot)
  · exact named.ne_empty empty
  · exact named.ne_dot dot

/-- What a path consists of, read off its characters. -/
theorem pieces_of_text (text : p.text.toList = (if absolute then ['/'] else []) ++ body)
    (relative : absolute = false → body.head? ≠ some '/') :
    p.isAbsolute = absolute ∧ p.pieces = (body.splitOn '/').map String.ofList := by
  have starts : p.isAbsolute = absolute := by
    rw [isAbsolute, text]
    cases absolute with
    | true => rfl
    | false =>
      rw [← Bool.not_eq_true, beq_iff_eq]
      exact relative rfl
  refine ⟨starts, ?_⟩
  rw [Path.pieces, Text.splitAtEach_eq_splitOn, starts, text]
  cases absolute <;> rfl

/-- The characters of a path: perhaps a separator at the start, and the pieces behind it. -/
theorem exists_body (p : Path) :
    ∃ body, p.text.toList = (if p.isAbsolute then ['/'] else []) ++ body ∧
      (p.isAbsolute = false → body.head? ≠ some '/') := by
  cases starts : p.isAbsolute with
  | true =>
    rw [isAbsolute, beq_iff_eq] at starts
    refine ⟨p.text.toList.tail, ?_, by rintro ⟨⟩⟩
    exact (List.cons_head?_tail starts).symm
  | false =>
    refine ⟨p.text.toList, rfl, fun _ head => ?_⟩
    rw [isAbsolute, ← Bool.not_eq_true, beq_iff_eq] at starts
    exact starts head

/-- No piece holds a separator. -/
theorem unseparated_of_mem_pieces (mem : piece ∈ p.pieces) : '/' ∉ piece.toList := by
  rw [Path.pieces, Text.splitAtEach_eq_splitOn] at mem
  obtain ⟨chars, inside, rfl⟩ := List.mem_map.mp mem
  rw [String.toList_ofList]
  exact Text.mark_notMem_of_mem_splitOn _ inside

/-- A relative path does not start with an empty piece, unless it is empty. -/
theorem eq_nil_of_pieces (relative : p.isAbsolute = false) (start : p.pieces = "" :: pieces) :
    pieces = [] := by
  obtain ⟨body, text, head⟩ := exists_body p
  have split := (pieces_of_text text head).2
  rw [start] at split
  cases body with
  | nil => simpa using split
  | cons c rest =>
    rw [List.splitOn_cons_eq_if_modifyHead, if_neg] at split
    · cases later : rest.splitOn '/' with
      | nil => exact absurd later (List.splitOn_ne_nil _ _)
      | cons first more =>
        rw [later] at split
        have empty := (List.cons.inj split).1
        rw [← String.toList_inj, String.toList_ofList] at empty
        simp at empty
    · intro same
      rw [beq_iff_eq] at same
      exact head relative (by rw [same]; rfl)

/-- A relative path or an absolute one, put together from its pieces. -/
theorem pieces_intercalate (fresh : ∀ piece ∈ pieces, '/' ∉ piece.toList) (ne : pieces ≠ [])
    (text : p.text = (if absolute then "/" else "") ++ String.intercalate "/" pieces)
    (relative : absolute = false → pieces.head? ≠ some "") :
    p.isAbsolute = absolute ∧ p.pieces = pieces := by
  have split : (['/'].intercalate (pieces.map String.toList)).splitOn '/'
      = pieces.map String.toList :=
    List.splitOn_intercalate '/' (by simpa using fresh) (by simpa using ne)
  have chars : p.text.toList = (if absolute then ['/'] else [])
      ++ ['/'].intercalate (pieces.map String.toList) := by
    rw [text, String.toList_append, String.toList_intercalate]
    cases absolute <;> rfl
  -- The first piece is not empty, so it starts with a character of its own.
  have head : absolute = false →
      (['/'].intercalate (pieces.map String.toList)).head? ≠ some '/' := by
    intro off
    cases pieces with
    | nil => exact absurd rfl ne
    | cons first later =>
      have unseparated := fresh first List.mem_cons_self
      cases spelled : first.toList with
      | nil => exact absurd (by rw [String.toList_eq_nil_iff.mp spelled]; rfl) (relative off)
      | cons c rest =>
        rw [spelled, List.mem_cons, not_or] at unseparated
        have head : (['/'].intercalate ((first :: later).map String.toList)).head? = some c := by
          cases later <;> simp [List.intercalate, spelled]
        rw [head]
        rintro ⟨⟩
        exact unseparated.1 rfl
  obtain ⟨starts, same⟩ := pieces_of_text chars head
  refine ⟨starts, ?_⟩
  rw [same, split, List.map_map]
  simp [Function.comp_def]

/-! ### Parts -/

/-- The parts that the pieces of an absolute or a relative path stand for. -/
def partsOf (absolute : Bool) (pieces : List String) : List PathPart :=
  if absolute then .root :: laterParts pieces
  else
    match pieces with
    | "." :: later => .here :: laterParts later
    | pieces => laterParts pieces

theorem parts_eq (p : Path) : p.parts = partsOf p.isAbsolute p.pieces := rfl

@[simp] theorem partsOf_true : partsOf true pieces = .root :: laterParts pieces := rfl

@[simp] theorem partsOf_dot : partsOf false ("." :: pieces) = .here :: laterParts pieces := rfl

/-- A dot counts only at the very start of a path. -/
theorem partsOf_of_ne (other : pieces.head? ≠ some ".") :
    partsOf false pieces = laterParts pieces := by
  unfold partsOf
  rw [if_neg (by simp)]
  split
  · exact absurd rfl other
  · rfl

/-- Later parts are taken piece by piece. -/
theorem laterParts_append (front pieces : List String) :
    laterParts (front ++ pieces) = laterParts front ++ laterParts pieces := by
  rw [laterParts, laterParts, laterParts, List.filter_append, List.map_append]

/-- More pieces mean more parts, and a dot among them means nothing unless it is the very first. -/
theorem partsOf_append (start : front = [] → pieces.head? ≠ some ".") :
    partsOf absolute (front ++ pieces) = partsOf absolute front ++ laterParts pieces := by
  cases absolute with
  | true => exact congrArg (PathPart.root :: ·) (laterParts_append front pieces)
  | false =>
    cases front with
    | nil =>
      cases pieces with
      | nil => rfl
      | cons first later =>
        have other : first ≠ "." := fun same => start rfl (by rw [same]; rfl)
        simp [partsOf, other, laterParts]
    | cons first later =>
      by_cases dot : first = "."
      · subst dot
        exact congrArg (PathPart.here :: ·) (laterParts_append later pieces)
      · simpa [partsOf, dot] using laterParts_append (first :: later) pieces

/-- Idle pieces have no parts. -/
theorem laterParts_idle (idle : ∀ piece ∈ pieces, isIdle piece = true) :
    laterParts pieces = [] := by
  rw [laterParts, List.map_eq_nil_iff, List.filter_eq_nil_iff]
  intro piece mem
  simp [idle piece mem]

/-- A name is a part. -/
theorem laterParts_name (named : IsName name) : laterParts [name] = [.name name] := by
  simp [laterParts, not_isIdle named, partOf, named.ne_dots]

/-- A name among the parts of a path is one of its pieces. -/
theorem mem_pieces_of_mem_parts (mem : .name name ∈ p.parts) :
    name ∈ p.pieces ∧ IsName name := by
  have later : .name name ∈ laterParts p.pieces := by
    rw [parts_eq] at mem
    unfold partsOf at mem
    split at mem
    · simpa using mem
    · split at mem
      · rename_i pieces same
        rw [same, show "." :: pieces = ["."] ++ pieces from rfl, laterParts_append]
        exact List.mem_append_right _ (by simpa using mem)
      · exact mem
  rw [laterParts] at later
  obtain ⟨piece, kept, part⟩ := List.mem_map.mp later
  obtain ⟨inside, busy⟩ := List.mem_filter.mp kept
  rw [partOf] at part
  split at part
  · cases part
  · rename_i other
    obtain rfl : piece = name := PathPart.name.inj part
    rw [Bool.not_eq_true', ← Bool.not_eq_true, isIdle_iff, not_or] at busy
    exact ⟨inside, busy.1, busy.2, by simpa using other, unseparated_of_mem_pieces inside⟩

/-- The last name of a path is a name. -/
theorem isName_of_parts (split : p.parts = parts ++ [.name name]) : IsName name := by
  refine (mem_pieces_of_mem_parts (p := p) ?_).2
  rw [split]
  exact List.mem_append_right _ List.mem_cons_self

/-- It is the file name of the path. -/
theorem fileName?_of_parts (split : p.parts = parts ++ [.name name]) : p.fileName? = some name := by
  rw [fileName?, split, List.getLast?_concat]

/-- A path that ends with a name has it as its last part. -/
theorem exists_fileName (ends : p.fileName? = some name) :
    ∃ parts, p.parts = parts ++ [.name name] ∧ IsName name := by
  rw [fileName?] at ends
  split at ends
  · rename_i last
    cases ends
    obtain ⟨parts, split⟩ := List.getLast?_eq_some_iff.mp last
    exact ⟨parts, split, isName_of_parts split⟩
  · cases ends

/-! ### Joining -/

/-- A piece behind a separator is the last one. -/
private theorem pieces_of_text_concat {front : List Char} (fresh : '/' ∉ piece.toList)
    (text : p.text.toList = (if absolute then ['/'] else []) ++ (front ++ '/' :: piece.toList))
    (relative : absolute = false → front ≠ [] ∧ front.head? ≠ some '/') :
    p.isAbsolute = absolute ∧ p.pieces = (front.splitOn '/').map String.ofList ++ [piece] := by
  obtain ⟨starts, split⟩ := pieces_of_text text (by
    intro off
    obtain ⟨ne, head⟩ := relative off
    rwa [List.head?_append_of_ne_nil _ ne])
  refine ⟨starts, ?_⟩
  rw [split, List.splitOn_append_cons_self, List.splitOn_eq_singleton fresh, List.map_append]
  simp

/-- What is joined to a path becomes its last piece, in place of an empty one. -/
theorem pieces_join (fresh : '/' ∉ piece.toList) :
    (p.join piece).isAbsolute = p.isAbsolute ∧ ∃ front,
      (p.pieces = front ∨ p.pieces = front ++ [""]) ∧ (p.join piece).pieces = front ++ [piece] := by
  obtain ⟨body, text, relative⟩ := exists_body p
  have pieces := (pieces_of_text text relative).2
  -- What is behind the root is empty, or a separator follows its last piece already or is added.
  cases body with
  | nil =>
    have chars : (p.join piece).text.toList
        = (if p.isAbsolute then ['/'] else []) ++ piece.toList := by
      rw [join, if_pos, String.toList_append, text, List.append_nil]
      rw [Bool.or_eq_true, endsOpen, text, String.isEmpty_iff, ← String.toList_eq_nil_iff, text]
      cases p.isAbsolute <;> simp [separator]
    obtain ⟨starts, split⟩ := pieces_of_text chars fun _ head =>
      fresh (List.mem_of_mem_head? head)
    refine ⟨starts, [], .inr pieces, ?_⟩
    rw [split, List.splitOn_eq_singleton fresh]
    simp
  | cons first later =>
    by_cases open_ : p.endsOpen = true
    · obtain ⟨front, last⟩ : ∃ front, first :: later = front ++ ['/'] := by
        rw [endsOpen, text, List.getLast?_append_of_ne_nil _ (by simp), beq_iff_eq] at open_
        exact List.getLast?_eq_some_iff.mp open_
      have chars : (p.join piece).text.toList
          = (if p.isAbsolute then ['/'] else []) ++ (front ++ '/' :: piece.toList) := by
        rw [join, if_pos (by rw [open_, Bool.or_true]), String.toList_append, text, last]
        simp
      obtain ⟨starts, split⟩ := pieces_of_text_concat fresh chars fun off => by
        have head := relative off
        rw [last] at head
        cases front with
        | nil => exact absurd rfl head
        | cons c rest => exact ⟨by simp, head⟩
      refine ⟨starts, _, .inr ?_, split⟩
      rw [pieces, last, List.splitOn_append_cons_self, List.map_append]
      rfl
    · have chars : (p.join piece).text.toList
          = (if p.isAbsolute then ['/'] else []) ++ (first :: later ++ '/' :: piece.toList) := by
        rw [join, if_neg, String.toList_append, String.toList_append, text]
        · simp
        · rw [Bool.or_eq_true, String.isEmpty_iff, ← String.toList_eq_nil_iff, text]
          simp [open_]
      obtain ⟨starts, split⟩ :=
        pieces_of_text_concat fresh chars fun off => ⟨by simp, relative off⟩
      exact ⟨starts, p.pieces, .inl rfl, by rw [split, pieces]⟩

/-- What is joined to a path adds its own parts to those of the path. -/
theorem parts_join_piece (fresh : '/' ∉ piece.toList) (other : piece ≠ ".") :
    (p.join piece).parts = p.parts ++ laterParts [piece] := by
  obtain ⟨starts, front, before, split⟩ := pieces_join (p := p) fresh
  have start : front = [] → [piece].head? ≠ some "." := fun _ same => other (Option.some.inj same)
  rw [parts_eq, parts_eq, starts, split, partsOf_append start]
  rcases before with same | same
  · rw [same]
  · have empty : laterParts [""] = [] := laterParts_idle (by simp [isIdle])
    rw [same, partsOf_append (by simp), empty, List.append_nil]

/-- A name that is joined to a path is its last part. -/
theorem parts_join (named : IsName name) : (p.join name).parts = p.parts ++ [.name name] := by
  rw [parts_join_piece named.unseparated named.ne_dot, laterParts_name named]

/-- A separator adds no part. -/
@[simp] theorem parts_join_empty : (p.join "").parts = p.parts := by
  rw [parts_join_piece (by simp) (by simp), laterParts_idle (by simp [isIdle]), List.append_nil]

/-- A path can be followed if it is not empty, holds no zero character, and is not too long. -/
theorem check_eq_ok : p.check = .ok () ↔
    '\x00' ∉ p.text.toList ∧ p.text ≠ "" ∧ p.text.utf8ByteSize < pathLimit := by
  unfold check
  split
  · rename_i nul
    simp [List.contains_iff_mem.mp nul]
  rename_i clean
  rw [List.contains_iff_mem] at clean
  split
  · rename_i empty
    simp [String.isEmpty_iff.mp empty]
  rename_i filled
  rw [String.isEmpty_iff] at filled
  split
  · rename_i long
    simp [Nat.not_lt.mpr long]
  · rename_i short
    simp [clean, filled, Nat.not_le.mp short]

/-- What is joined to a path stands behind its text, with at most a separator between them. -/
theorem text_join (p : Path) (piece : String) :
    (p.join piece).text = p.text ++ piece ∨ (p.join piece).text = p.text ++ "/" ++ piece := by
  unfold join
  split
  · exact .inl rfl
  · exact .inr rfl

/-- A path is not refused if it is not refused with a separator added. -/
theorem check_of_join (checked : (p.join piece).check = .ok ()) (ne : p ≠ ⟨""⟩) :
    p.check = .ok () := by
  obtain ⟨rest, text⟩ : ∃ rest, (p.join piece).text = p.text ++ rest := by
    rcases text_join p piece with text | text
    · exact ⟨piece, text⟩
    · exact ⟨"/" ++ piece, text.trans String.append_assoc⟩
  rw [check_eq_ok, text, String.toList_append, String.utf8ByteSize_append, List.mem_append, not_or]
    at checked
  exact check_eq_ok.mpr ⟨checked.1.1, fun empty => ne (congrArg Path.mk empty), by omega⟩

/-- A separator more does no harm to a path, unless the path gets too long. -/
theorem check_join_empty (checked : p.check = .ok ())
    (size : (p.join "").text.utf8ByteSize < pathLimit) : (p.join "").check = .ok () := by
  obtain ⟨clean, filled, -⟩ := check_eq_ok.mp checked
  rw [check_eq_ok]
  rcases text_join p "" with text | text
  · rw [text, String.append_empty] at size ⊢
    exact ⟨clean, filled, size⟩
  · rw [text, String.append_empty] at size ⊢
    refine ⟨?_, by simp, size⟩
    simpa [String.toList_append] using clean

/-! ### Ends -/

/-- The idle pieces at the end, the last one first. -/
def idleEnd (pieces : List String) : List String := pieces.reverse.takeWhile isIdle

/-- Behind a name nothing is idle. -/
theorem idleEnd_concat_name (named : IsName name) : idleEnd (front ++ [name]) = [] := by
  simp [idleEnd, not_isIdle named]

theorem idleEnd_concat_idle (idle : isIdle piece = true) :
    idleEnd (front ++ [piece]) = piece :: idleEnd front := by
  simp [idleEnd, idle]

/-- What idle pieces at the end ask for. -/
def closingOf (ends : List String) : List PathStep :=
  if ends = [] then [] else if ends.all String.isEmpty then [.close] else [.follow .here]

/-- A dot among the idle pieces at the end asks for what is there. -/
theorem closingOf_eq_here {ends : List String} :
    closingOf ends = [.follow .here] ↔ ends.all String.isEmpty = false := by
  unfold closingOf
  cases ends with
  | nil => simp
  | cons last rest =>
    rw [if_neg (by simp)]
    cases (last :: rest).all String.isEmpty <;> simp

theorem closingOf_cons_empty {ends : List String} :
    closingOf ("" :: ends)
      = if closingOf ends = [.follow .here] then [.follow .here] else [.close] := by
  rw [closingOf, if_neg (by simp), List.all_cons]
  simp only [closingOf_eq_here]
  cases ends.all String.isEmpty <;> simp

/-- Not all pieces of a path with a name are idle. -/
theorem isEmpty_trimIdle (mem : .name name ∈ p.parts) : (trimIdle p.pieces).isEmpty = false := by
  obtain ⟨inside, named⟩ := mem_pieces_of_mem_parts mem
  rw [trimIdle, ← Bool.not_eq_true, List.isEmpty_iff, List.reverse_eq_nil_iff,
    List.dropWhile_eq_nil_iff]
  intro idle
  have := idle name (List.mem_reverse.mpr inside)
  rw [not_isIdle named] at this
  cases this

/-- What a path with a name asks for at its end. -/
theorem closing_eq (mem : .name name ∈ p.parts) : p.closing = closingOf (idleEnd p.pieces) := by
  have busy := isEmpty_trimIdle mem
  have wants : p.wantsFolder = !(idleEnd p.pieces).isEmpty := by
    unfold wantsFolder
    rcases List.eq_nil_or_concat p.pieces with none | ⟨front, last, split⟩
    · rw [none]
      rfl
    · rw [busy, split, List.concat_eq_append, List.getLast?_concat]
      cases idle : isIdle last <;> simp [idleEnd, idle]
  rw [closing, wants, closingOf, idleEnd]
  cases p.pieces.reverse.takeWhile isIdle <;> simp

/-- There are three ways in which a path can end. -/
theorem closing_cases (p : Path) :
    p.closing = [] ∨ p.closing = [.close] ∨ p.closing = [.follow .here] := by
  unfold closing
  split
  · exact .inl rfl
  · split
    · exact .inr (.inl rfl)
    · exact .inr (.inr rfl)

/-- A path with a plain end does not ask for a folder. -/
theorem wantsFolder_of_plain (plain : p.closing = []) : p.wantsFolder = false := by
  unfold closing at plain
  split at plain
  · simpa using ‹(!p.wantsFolder) = true›
  · split at plain <;> cases plain

/-- A joined name makes a plain end. -/
theorem closing_join (named : IsName name) : (p.join name).closing = [] := by
  have mem : .name name ∈ (p.join name).parts := by
    rw [parts_join named]
    exact List.mem_append_right _ List.mem_cons_self
  obtain ⟨-, front, -, split⟩ := pieces_join (p := p) named.unseparated
  rw [closing_eq mem, split, idleEnd_concat_name named]
  rfl

/-- A separator at the end adds nothing to a single dot there. -/
theorem closing_join_empty (mem : .name name ∈ p.parts) :
    (p.join "").closing = if p.closing = [.follow .here] then [.follow .here] else [.close] := by
  have mem' : .name name ∈ (p.join "").parts := by rwa [parts_join_empty]
  have fresh : '/' ∉ "".toList := by simp
  obtain ⟨-, front, before, split⟩ := pieces_join (p := p) fresh
  rw [closing_eq mem, closing_eq mem', split, idleEnd_concat_idle (by simp [isIdle]),
    closingOf_cons_empty]
  rcases before with same | same
  · rw [same]
  · rw [same, idleEnd_concat_idle (by simp [isIdle]), closingOf_cons_empty]
    by_cases here : closingOf (idleEnd front) = [.follow .here]
    · simp [here]
    · simp [here]

/-- Names behind a path are parts behind its parts. -/
theorem parts_below {names : List String} (named : ∀ name ∈ names, IsName name) :
    (p.below names).parts = p.parts ++ names.map .name := by
  induction names generalizing p with
  | nil => simp [below]
  | cons name names ih =>
    rw [below, List.foldl_cons, ← below,
      ih fun other mem => named other (List.mem_cons_of_mem _ mem),
      parts_join (named name List.mem_cons_self)]
    simp

/-- A path below another one is joined name by name. -/
theorem below_concat {names : List String} :
    p.below (names ++ [name]) = (p.below names).join name := by
  rw [below, below, List.foldl_append]
  rfl

/-! ### Closing -/

/-- Between separators there is nothing. -/
private theorem splitOn_replicate (count : Nat) :
    (List.replicate count '/').splitOn '/' = List.replicate (count + 1) [] := by
  induction count with
  | zero => rfl
  | succ count ih =>
    rw [List.replicate_succ, List.splitOn_cons_eq_if_modifyHead, if_pos (by simp), ih,
      List.replicate_succ (n := count + 1)]

/-- Any text is a text that does not end with a separator, and separators behind it. -/
private theorem exists_trailing (text : List Char) :
    ∃ kept count, text = kept ++ List.replicate count '/' ∧ kept.getLast? ≠ some '/' := by
  induction text using List.reverseRecOn with
  | nil => exact ⟨[], 0, rfl, by simp⟩
  | append_singleton front c ih =>
    by_cases open_ : c = '/'
    · subst open_
      obtain ⟨kept, count, rfl, last⟩ := ih
      refine ⟨kept, count + 1, ?_, last⟩
      rw [List.replicate_succ', List.append_assoc]
    · exact ⟨front ++ [c], 0, by simp, by simpa using open_⟩

/-- A text that does not end with a separator does not end with an empty piece. -/
private theorem getLast?_splitOn_ne_nil {text : List Char} (filled : text ≠ [])
    (last : text.getLast? ≠ some '/') : (text.splitOn '/').getLast? ≠ some [] := by
  by_cases mem : '/' ∈ text.reverse
  · obtain ⟨after, before, split, fresh⟩ := List.eq_append_cons_of_mem mem
    have whole : text = before.reverse ++ '/' :: after.reverse := by
      rw [← List.reverse_reverse text, split]
      simp
    rw [whole] at last ⊢
    have fresh' : '/' ∉ after.reverse := by simpa using fresh
    rw [List.splitOn_append_cons_self, List.splitOn_eq_singleton fresh', List.getLast?_concat]
    intro empty
    rw [Option.some.inj empty] at last
    simp at last
  · rw [List.splitOn_eq_singleton (by simpa using mem)]
    simpa using filled

/-- The characters of a closed path: the separators at the end are gone. -/
private theorem text_closed {kept : List Char} {count : Nat} (filled : kept ≠ [])
    (last : kept.getLast? ≠ some '/') (text : p.text.toList
      = (if p.isAbsolute then ['/'] else []) ++ (kept ++ List.replicate count '/')) :
    p.closed.text.toList = (if p.isAbsolute then ['/'] else []) ++ kept := by
  obtain ⟨front, c, rfl⟩ := (List.eq_nil_or_concat kept).resolve_left filled
  rw [List.concat_eq_append] at text last ⊢
  have other : c ≠ '/' := by simpa using last
  have dropped : p.text.toList.reverse.dropWhile (· == separator)
      = ((if p.isAbsolute then ['/'] else []) ++ (front ++ [c])).reverse := by
    rw [text, ← List.append_assoc, List.reverse_append, List.reverse_replicate,
      List.dropWhile_append_of_pos]
    · simp [separator, other]
    · intro d inside
      rw [List.eq_of_mem_replicate inside]
      rfl
  rw [Path.closed, dropped]
  split
  · rename_i none
    simp at none
  · rw [List.reverse_reverse, String.toList_ofList]

/-- Closing a path takes separators off its end, and with them empty pieces. -/
theorem exists_closed (mem : .name name ∈ p.parts) :
    p.closed.isAbsolute = p.isAbsolute ∧
      (∃ count, p.pieces = p.closed.pieces ++ List.replicate count "") ∧
      p.closed.pieces.getLast? ≠ some "" := by
  obtain ⟨body, text, relative⟩ := exists_body p
  have pieces := (pieces_of_text text relative).2
  obtain ⟨inside, named⟩ := mem_pieces_of_mem_parts mem
  -- Something else than separators is left of what is behind the root.
  obtain ⟨kept, count, split, last⟩ := exists_trailing body
  have filled : kept ≠ [] := by
    rintro rfl
    rw [pieces, split, List.nil_append, splitOn_replicate, List.map_replicate] at inside
    exact named.ne_empty (List.eq_of_mem_replicate inside)
  have closed := text_closed filled last (split ▸ text)
  obtain ⟨starts, pieces'⟩ := pieces_of_text closed (by
    intro off
    have head := relative off
    rwa [split, List.head?_append_of_ne_nil _ filled] at head)
  refine ⟨starts, ⟨count, ?_⟩, ?_⟩
  · rw [pieces, pieces', split]
    cases count with
    | zero => simp
    | succ count =>
      rw [List.replicate_succ, List.splitOn_append_cons_self, splitOn_replicate, List.map_append]
      simp
  · rw [pieces', List.getLast?_map]
    intro empty
    obtain ⟨chars, there, spelled⟩ := Option.map_eq_some_iff.mp empty
    refine getLast?_splitOn_ne_nil filled last ?_
    rw [there, ← String.toList_ofList (l := chars), spelled]
    rfl

/-- To close a path does not change its parts. -/
theorem parts_closed (mem : .name name ∈ p.parts) : p.closed.parts = p.parts := by
  obtain ⟨starts, ⟨count, split⟩, -⟩ := exists_closed mem
  rw [parts_eq, parts_eq, starts, split, partsOf_append, laterParts_idle, List.append_nil]
  · intro piece inside
    rw [List.eq_of_mem_replicate inside, isIdle]
    rfl
  · intro _ head
    rw [List.head?_replicate] at head
    split at head <;> simp at head

/-- Closing a path leaves a dot at its end. -/
theorem closing_closed (mem : .name name ∈ p.parts) :
    p.closed.closing = if p.closing = [.follow .here] then [.follow .here] else [] := by
  obtain ⟨-, ⟨count, split⟩, last⟩ := exists_closed mem
  have mem' : .name name ∈ p.closed.parts := by rwa [parts_closed mem]
  have ends : idleEnd p.pieces = List.replicate count "" ++ idleEnd p.closed.pieces := by
    rw [split, idleEnd, List.reverse_append, List.reverse_replicate, List.takeWhile_append_of_pos]
    · rfl
    · intro piece inside
      rw [List.eq_of_mem_replicate inside, isIdle]
      rfl
  have all : (List.replicate count "" ++ idleEnd p.closed.pieces).all String.isEmpty
      = (idleEnd p.closed.pieces).all String.isEmpty := by
    have empty : "".isEmpty = true := by decide
    rw [List.all_append, List.all_replicate, empty, ite_self, Bool.true_and]
  rw [closing_eq mem, closing_eq mem', ends]
  simp only [closingOf_eq_here, all]
  -- An idle piece at the very end is a dot now, since it is not empty.
  cases idle : idleEnd p.closed.pieces with
  | nil => rfl
  | cons piece rest =>
    have there : p.closed.pieces.getLast? = some piece := by
      rw [← List.head?_reverse, ← List.takeWhile_append_dropWhile (p := isIdle)
        (l := p.closed.pieces.reverse), ← idleEnd, idle]
      rfl
    have dot : piece.isEmpty = false := by
      rw [← Bool.not_eq_true, String.isEmpty_iff]
      rintro rfl
      exact last there
    rw [closingOf, if_neg (by simp), List.all_cons, dot]
    rfl

/-! ### Parents -/

/-- Pieces are those that remain without the idle ones at the end, and these. -/
private theorem exists_trimIdle (pieces : List String) :
    ∃ idle, pieces = trimIdle pieces ++ idle ∧ (∀ piece ∈ idle, isIdle piece = true) ∧
      ∀ piece, (trimIdle pieces).getLast? = some piece → isIdle piece = false := by
  refine ⟨(pieces.reverse.takeWhile isIdle).reverse, ?_, ?_, ?_⟩
  · rw [trimIdle, ← List.reverse_append, List.takeWhile_append_dropWhile, List.reverse_reverse]
  · intro piece mem
    exact List.mem_takeWhile_imp (List.mem_reverse.mp mem)
  · intro piece last
    rw [trimIdle, List.getLast?_reverse] at last
    have busy := List.head?_dropWhile_not isIdle pieces.reverse
    rw [last] at busy
    exact busy

/-- A path that ends with a separator ends with an empty piece. -/
private theorem getLast?_pieces_of_endsOpen (open_ : p.endsOpen = true) :
    p.pieces.getLast? = some "" := by
  obtain ⟨body, text, relative⟩ := exists_body p
  have pieces := (pieces_of_text text relative).2
  rw [endsOpen, text, beq_iff_eq] at open_
  rcases List.eq_nil_or_concat body with rfl | ⟨front, c, rfl⟩
  · rw [pieces]
    rfl
  · rw [List.concat_eq_append] at *
    rw [← List.append_assoc, List.getLast?_concat] at open_
    rw [pieces, Option.some.inj open_, separator, List.splitOn_append_cons_self, List.map_append]
    simp

/-- A path that asks for nothing behind its name has no separator at its end. -/
theorem endsOpen_of_plain (mem : .name name ∈ p.parts) (plain : p.closing = []) :
    p.endsOpen = false := by
  by_contra open_
  rw [Bool.not_eq_false] at open_
  obtain ⟨front, split⟩ := List.getLast?_eq_some_iff.mp (getLast?_pieces_of_endsOpen open_)
  rw [closing_eq mem, split, idleEnd_concat_idle (by simp [isIdle]), closingOf_cons_empty] at plain
  split at plain <;> cases plain

/-- Names behind a path end with the last of them. -/
theorem fileName?_below {names : List String} (named : IsName name) :
    (p.below (names ++ [name])).fileName? = some name := by
  rw [below_concat, fileName?, parts_join named, List.getLast?_concat]

/-- A path that does not end in a separator is closed. -/
theorem closed_eq_self (shut : p.endsOpen = false) : p.closed = p := by
  have kept : p.text.toList.reverse.dropWhile (· == separator) = p.text.toList.reverse := by
    rcases List.eq_nil_or_concat p.text.toList with none | ⟨front, c, split⟩
    · rw [none]
      rfl
    · rw [endsOpen, split, List.concat_eq_append, List.getLast?_concat] at shut
      rw [split, List.concat_eq_append, List.reverse_append]
      have other : (c == separator) = false := by simpa using shut
      simp [other]
  rw [closed, kept]
  split
  · rename_i none
    have empty : p.text.toList = [] := List.reverse_eq_nil_iff.mp none
    rw [isAbsolute, empty]
    rfl
  · rw [List.reverse_reverse, String.ofList_toList]

/-- A path that ends with no separator asks for a folder by a dot, or not at all. -/
theorem plain_of_shut (mem : .name name ∈ p.parts) (shut : p.endsOpen = false)
    (end_ : p.closing ≠ [.follow .here]) : p.closing = [] := by
  have closing := closing_closed mem
  rwa [closed_eq_self shut, if_neg end_] at closing

/-- A path that ends with something else than an idle piece asks for nothing at its end. -/
private theorem plain_of_pieces (split : p.pieces = front ++ [piece])
    (last : isIdle piece = false ∨ front = [] ∧ piece = ".") : p.closing = [] ∧ p.closed = p := by
  have wants : p.wantsFolder = false := by
    unfold wantsFolder
    rw [split, List.getLast?_concat]
    rcases last with busy | ⟨rfl, rfl⟩
    · simp [busy]
    · rfl
  have filled : piece ≠ "" := by
    rcases last with busy | ⟨-, rfl⟩
    · rintro rfl
      cases busy
    · simp
  refine ⟨by simp [closing, wants], closed_eq_self ?_⟩
  by_contra open_
  rw [Bool.not_eq_false] at open_
  have empty := getLast?_pieces_of_endsOpen open_
  rw [split, List.getLast?_concat] at empty
  exact filled (Option.some.inj empty)

/-- A path that consists of some parts, asks for nothing else, and has no separator at its end. -/
structure Spells (p : Path) (parts : List PathPart) : Prop where
  parts_eq : p.parts = parts
  closing_eq : p.closing = []
  closed_eq : p.closed = p

/-- A path that is put together from some pieces of another one. -/
private theorem spells_intercalate (fresh : ∀ piece ∈ pieces, '/' ∉ piece.toList)
    (ne : pieces ≠ []) (relative : absolute = false → pieces.head? ≠ some "")
    (last : ∀ piece, pieces.getLast? = some piece → isIdle piece = false ∨ pieces = ["."]) :
    (Path.mk ((if absolute then "/" else "") ++ String.intercalate "/" pieces)).Spells
      (partsOf absolute pieces) := by
  obtain ⟨starts, same⟩ := pieces_intercalate fresh ne rfl relative
  obtain ⟨front, piece, split⟩ := (List.eq_nil_or_concat pieces).resolve_left ne
  rw [List.concat_eq_append] at split
  obtain ⟨closing, closed⟩ := plain_of_pieces (same.trans split) (by
    refine (last piece (by rw [split, List.getLast?_concat])).imp id fun dot => ?_
    rw [dot] at split
    have both : [] = front ∧ ["."] = [piece] := List.append_inj' split rfl
    exact ⟨both.1.symm, (List.singleton_inj.mp both.2).symm⟩)
  exact ⟨by rw [parts_eq, starts, same], closing, closed⟩

/-- The pieces of a path that ends with a name: the name is the last piece that is not idle, and
what stands before it makes the other parts. -/
private theorem exists_init (split : p.parts = parts ++ [.name name]) :
    ∃ init idle, p.pieces = init ++ name :: idle ∧ trimIdle p.pieces = init ++ [name] ∧
      IsName name ∧ parts = partsOf p.isAbsolute init := by
  have mem : .name name ∈ p.parts := by
    rw [split]
    exact List.mem_append_right _ List.mem_cons_self
  obtain ⟨inside, named⟩ := mem_pieces_of_mem_parts mem
  obtain ⟨idle, pieces, idles, last⟩ := exists_trimIdle p.pieces
  have filled : trimIdle p.pieces ≠ [] := by
    intro none
    rw [pieces, none, List.nil_append] at inside
    exact absurd (idles name inside) (by rw [not_isIdle named]; rintro ⟨⟩)
  obtain ⟨init, x, core⟩ := (List.eq_nil_or_concat (trimIdle p.pieces)).resolve_left filled
  rw [List.concat_eq_append] at core
  have busy : isIdle x = false := last x (by rw [core, List.getLast?_concat])
  rw [core, List.append_assoc] at pieces
  have start : init = [] → ([x] ++ idle).head? ≠ some "." := by
    intro _ same
    obtain rfl := Option.some.inj same
    cases busy
  have whole : p.parts = partsOf p.isAbsolute init ++ [partOf x] := by
    rw [parts_eq, pieces, partsOf_append start, laterParts_append, laterParts_idle idles]
    simp [laterParts, busy]
  obtain ⟨front, part⟩ := List.append_inj' (split.symm.trans whole) rfl
  obtain rfl : name = x := by
    have part := List.singleton_inj.mp part
    unfold partOf at part
    split at part
    · cases part
    · exact PathPart.name.inj part
  exact ⟨init, idle, pieces, core, named, front⟩

/-- What is added to a text without separators becomes a part of its last piece. -/
private theorem exists_splitOn_append (text : List Char) {extra : List Char}
    (fresh : '/' ∉ extra) : ∃ front last, text.splitOn '/' = front ++ [last] ∧
      (text ++ extra).splitOn '/' = front ++ [last ++ extra] := by
  induction text with
  | nil => exact ⟨[], [], rfl, List.splitOn_eq_singleton fresh⟩
  | cons c text ih =>
    obtain ⟨front, last, before, after⟩ := ih
    rw [List.cons_append, List.splitOn_cons_eq_if_modifyHead, List.splitOn_cons_eq_if_modifyHead,
      before, after]
    by_cases open_ : (c == '/') = true
    · rw [if_pos open_, if_pos open_]
      exact ⟨[] :: front, last, rfl, rfl⟩
    · rw [if_neg open_, if_neg open_]
      cases front with
      | nil => exact ⟨[], c :: last, rfl, rfl⟩
      | cons first more => exact ⟨(c :: first) :: more, last, rfl, rfl⟩

/-- What is added to a path that ends with its last name becomes a part of that name. -/
theorem parts_extend {extra : String} (split : p.parts = parts ++ [.name name])
    (plain : p.closing = []) (fresh : '/' ∉ extra.toList) (named : IsName (name ++ extra)) :
    (Path.mk (p.text ++ extra)).parts = parts ++ [.name (name ++ extra)] ∧
      (Path.mk (p.text ++ extra)).closing = [] := by
  obtain ⟨init, idle, pieces, core, -, parts_init⟩ := exists_init split
  have mem : .name name ∈ p.parts := by
    rw [split]
    exact List.mem_append_right _ List.mem_cons_self
  -- No idle piece stands at the end, or something would be asked for there.
  have ends : idleEnd p.pieces = [] := by
    rw [closing_eq mem] at plain
    unfold closingOf at plain
    split at plain
    · assumption
    · split at plain <;> cases plain
  have whole : p.pieces = init ++ [name] := by
    rw [← core, trimIdle, ← List.nil_append (List.dropWhile _ _), ← ends, idleEnd,
      List.takeWhile_append_dropWhile, List.reverse_reverse]
  obtain ⟨body, text, relative⟩ := exists_body p
  obtain ⟨front, last, before, after⟩ := exists_splitOn_append body fresh
  have chars : (Path.mk (p.text ++ extra)).text.toList =
      (if p.isAbsolute then ['/'] else []) ++ (body ++ extra.toList) := by
    rw [String.toList_append, text, List.append_assoc]
  obtain ⟨starts, pieces'⟩ := pieces_of_text chars (by
    intro off
    cases body with
    | nil => exact fun head => fresh (List.mem_of_mem_head? head)
    | cons c rest => exact relative off)
  have longer : (Path.mk (p.text ++ extra)).pieces = init ++ [name ++ extra] := by
    have old := (pieces_of_text text relative).2
    rw [whole, before, List.map_append] at old
    obtain ⟨rfl, one⟩ := List.append_inj' old rfl
    rw [pieces', after, List.map_append, List.singleton_inj.mp one]
    simp
  have start : init = [] → [name ++ extra].head? ≠ some "." :=
    fun _ dot => named.ne_dot (Option.some.inj dot)
  have parts' : (Path.mk (p.text ++ extra)).parts = parts ++ [.name (name ++ extra)] := by
    rw [parts_eq, starts, longer, partsOf_append start, laterParts_name named, parts_init]
  refine ⟨parts', ?_⟩
  rw [closing_eq (by rw [parts']; exact List.mem_append_right _ List.mem_cons_self), longer,
    idleEnd_concat_name named]
  rfl

/-! ### The parent -/

/-- The pieces that a parent consists of, from those before the name: the idle ones at their end are
dropped, but of a relative path a dot at the very start stays if nothing else does. -/
private def parentPieces (absolute : Bool) (init : List String) : List String :=
  if trimIdle init = [] ∧ absolute = false ∧ init ≠ [] then ["."] else trimIdle init

/-- A relative path that starts with an idle piece, and has others, starts with a dot. -/
private theorem eq_dot_of_isIdle (relative : p.isAbsolute = false)
    (start : p.pieces = piece :: pieces) (more : pieces ≠ []) (idle : isIdle piece = true) :
    piece = "." := by
  refine (isIdle_iff.mp idle).resolve_left ?_
  rintro rfl
  exact more (eq_nil_of_pieces relative start)

/-- The pieces that are dropped stand for no part. -/
private theorem partsOf_parentPieces (dots : absolute = false →
      ∀ first later, init = first :: later → isIdle first = true → first = ".") :
    partsOf absolute (parentPieces absolute init) = partsOf absolute init := by
  obtain ⟨idle, split, idles, -⟩ := exists_trimIdle init
  cases absolute with
  | true =>
    rw [parentPieces, if_neg (by simp), partsOf_true, partsOf_true]
    conv_rhs => rw [split, laterParts_append, laterParts_idle idles, List.append_nil]
  | false =>
    by_cases none : trimIdle init = []
    · rw [none, List.nil_append] at split
      cases init with
      | nil => rfl
      | cons first later =>
        rw [← split] at idles
        obtain rfl := dots rfl first later rfl (idles first List.mem_cons_self)
        rw [parentPieces, if_pos ⟨none, rfl, by simp⟩, partsOf_dot, partsOf_dot,
          laterParts_idle fun piece mem => idles piece (List.mem_cons_of_mem _ mem)]
        rfl
    · rw [parentPieces, if_neg fun bare => none bare.1]
      conv_rhs => rw [split]
      rw [partsOf_append fun empty => absurd empty none, laterParts_idle idles, List.append_nil]

/-- The text of a parent is put together from its pieces. -/
private theorem parent?_eq {idle : List String} (pieces : p.pieces = init ++ name :: idle)
    (core : trimIdle p.pieces = init ++ [name]) (named : IsName name)
    (split : p.parts = partsOf p.isAbsolute init ++ [.name name]) :
    p.parent? = some ⟨(if p.isAbsolute then "/" else "") ++
      String.intercalate "/" (parentPieces p.isAbsolute init)⟩ := by
  have reversed : p.parts.reverse = .name name :: (partsOf p.isAbsolute init).reverse := by
    rw [split, List.reverse_append]
    rfl
  unfold parent? parentPieces
  rw [reversed, core, List.dropLast_concat]
  dsimp only
  cases root : p.isAbsolute with
  | true => simp
  | false =>
    rw [if_neg (by simp)]
    split
    · -- A dot at the very start is a part of its own beside the name.
      rename_i later same
      obtain ⟨more, rfl⟩ : ∃ more, init = "." :: more := by
        cases init with
        | nil => exact absurd (List.cons.inj (pieces.symm.trans same)).1 named.ne_dot
        | cons first more =>
          exact ⟨more, congrArg (· :: more) (List.cons.inj (pieces.symm.trans same)).1⟩
      have long : ¬ p.parts.length ≤ 1 := by simp [split, root]
      rw [if_neg long]
      simp
    · rename_i other
      have filled : ¬ (trimIdle init = [] ∧ init ≠ []) := by
        rintro ⟨none, ne⟩
        obtain ⟨first, more, rfl⟩ := List.exists_cons_of_ne_nil ne
        obtain ⟨_, whole, idles, -⟩ := exists_trimIdle (first :: more)
        rw [none, List.nil_append] at whole
        obtain rfl := eq_dot_of_isIdle root pieces (by simp)
          (idles first (whole ▸ List.mem_cons_self))
        exact other _ pieces
      simp [filled]

/-- A path that ends with a name has a parent, which consists of all parts but the name. -/
theorem exists_parent (split : p.parts = parts ++ [.name name]) :
    ∃ parent, p.parent? = some parent ∧ parent.Spells parts := by
  obtain ⟨init, idle, pieces, core, named, rfl⟩ := exists_init split
  refine ⟨_, parent?_eq pieces core named split, ?_⟩
  obtain ⟨_, init_eq, -, last⟩ := exists_trimIdle init
  rw [← partsOf_parentPieces fun relative first later start => by
    subst start
    exact eq_dot_of_isIdle relative pieces (by simp)]
  by_cases none : parentPieces p.isAbsolute init = []
  · rw [none]
    cases p.isAbsolute <;> exact ⟨by decide, by decide, by decide⟩
  obtain dot | kept : parentPieces p.isAbsolute init = ["."] ∨
      parentPieces p.isAbsolute init = trimIdle init := by
    unfold parentPieces
    split
    exacts [.inl rfl, .inr rfl]
  · rw [dot]
    exact spells_intercalate (by simp) (by simp) (by simp) fun _ _ => .inr rfl
  · rw [kept] at none ⊢
    refine spells_intercalate (fun piece mem => ?_) none (fun relative head => ?_)
      fun piece ends => .inl (last piece ends)
    · refine unseparated_of_mem_pieces (p := p) ?_
      rw [pieces, init_eq]
      simp [mem]
    · obtain ⟨more, start⟩ := List.head?_eq_some_iff.mp head
      rw [init_eq, start] at pieces
      have none := eq_nil_of_pieces relative pieces
      simp at none

end ClassNaming.Path
