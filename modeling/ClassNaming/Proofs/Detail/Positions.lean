import Mathlib.Data.List.Pairwise
import ClassNaming.Proofs.Detail.Fragments

/-!
# Where the references of a detail are

The search for references goes on behind the one that it found last, so each step of it works on
what is left of the detail.  `Scanned` tells the same without fuel: what is left holds no sentinel,
or it has a first reference, and what follows that is scanned in turn.  Positions are counted from
the start of the detail, so they are shifted by the bytes that were passed.

What a scan has passed is a reference or holds no place at which a sentinel begins.  That is why
none is missed: a sentinel may begin within a reference that is found already, also across its own
beginning, but it cannot begin before one and run into it.

## Main Definitions

* `Scanned` - a text is cut up into references and the texts between them
* `Locates` - what is to be expected of the references of a detail

## Main Results

* `scanned_references` - the search cuts up the whole detail
* `Scanned.existsUnique_of_begins` - each sentinel begins in one of the references
* `Renamer.locates_references` - the references of a detail are in order, and none is missed
-/

namespace ClassNaming.Detail

variable {sentinel text front back : List Char} {offset : Nat} {found : List Reference}
  {reference : Reference}

/-! ### Scans -/

/-- A text that starts at byte `offset` is cut up into references, with texts between them in which
no sentinel begins. -/
inductive Scanned (sentinel : List Char) : Nat → List Char → List Reference → Prop
  | done {offset : Nat} {text : List Char} (absent : ¬ sentinel <:+: text) :
      Scanned sentinel offset text []
  | next {offset : Nat} {text before name after : List Char} {later : List Reference}
      (reference : FirstReference sentinel text before name after)
      (rest : Scanned sentinel (offset + byteLength (before ++ name)) after later) :
      Scanned sentinel offset text
        (⟨offset + byteLength before, offset + byteLength (before ++ name), name⟩ :: later)

theorem scanned_referencesFrom (fresh : terminator ∉ sentinel) (sentinel_ne : sentinel ≠ [])
    {fuel : Nat} (enough : text.length < fuel) :
    Scanned sentinel offset text
      (referencesFrom [] offset (fragmentsFrom sentinel [] fuel text)) := by
  induction fuel generalizing offset text with
  | zero => exact absurd enough (Nat.not_lt_zero _)
  | succ fuel ih =>
    rw [fragmentsFrom]
    cases first : firstReference? sentinel text with
    | none => exact .done (firstReference?_eq_none_iff.mp first)
    | some parts =>
      obtain ⟨before, name, after⟩ := parts
      have reference := (firstReference?_eq_some_iff fresh).mp first
      -- Each reference takes a character, so what is left is shorter.
      have filled := List.length_pos_iff.mpr (reference.name_ne_nil sentinel_ne)
      have shorter : after.length < fuel := by
        have whole := congrArg List.length reference.whole
        simp only [List.length_append] at whole
        omega
      simp only
      rw [fragmentsFrom_eq, List.reverse_cons, List.reverse_singleton, List.singleton_append,
        List.cons_append, List.singleton_append, referencesFrom, referencesFrom, referencesFrom_eq,
        Nat.add_assoc, ← byteLength_append]
      exact .next reference (ih shorter)

/-- **The search cuts up the whole detail.** -/
theorem scanned_references (fresh : terminator ∉ sentinel) (sentinel_ne : sentinel ≠ [])
    (detail : List Char) : Scanned sentinel 0 detail (references sentinel detail) :=
  scanned_referencesFrom fresh sentinel_ne (Nat.lt_succ_self _)

theorem byteLength_pos (ne : text ≠ []) : 0 < byteLength text := by
  obtain ⟨c, rest, rfl⟩ := List.exists_cons_of_ne_nil ne
  rw [byteLength_cons]
  exact Nat.add_pos_left c.utf8Size_pos _

namespace Scanned

/-- A reference is a part of the text at its position, and ends where the text ends or a terminator
follows. -/
theorem exists_split (scanned : Scanned sentinel offset text found) (mem : reference ∈ found) :
    ∃ front back, text = front ++ reference.name ++ back ∧
      reference.start = offset + byteLength front ∧
      reference.stop = offset + byteLength (front ++ reference.name) ∧
      sentinel <+: reference.name ∧ terminator ∉ reference.name ∧ Apart back := by
  induction scanned with
  | done => cases mem
  | @next _ _ before name _ _ first _ ih =>
    rcases List.mem_cons.mp mem with rfl | mem
    · exact ⟨_, _, first.whole, rfl, rfl, first.starts, first.closed, first.ends⟩
    · obtain ⟨front, back, split, start, stop, kept⟩ := ih mem
      refine ⟨before ++ name ++ front, back, ?_, ?_, ?_, kept⟩
      · rw [first.whole, split]
        simp
      · rw [start, byteLength_append (before ++ name), Nat.add_assoc]
      · rw [stop, List.append_assoc (before ++ name), byteLength_append (before ++ name),
          Nat.add_assoc]

/-- Where a sentinel begins there is a reference. -/
theorem exists_of_begins (scanned : Scanned sentinel offset text found)
    (whole : text = front ++ back) (begins : sentinel <+: back) :
    ∃ reference ∈ found, reference.start ≤ offset + byteLength front ∧
      offset + byteLength front < reference.stop := by
  induction scanned generalizing front with
  | done absent =>
    have inside : back <:+: front ++ back := (List.suffix_append _ _).isInfix
    exact absurd (begins.isInfix.trans (whole ▸ inside)) absent
  | @next offset text before name after later first rest ih =>
    -- It does not begin before the first reference, so it is in that reference or behind it.
    obtain ⟨passed, rfl, left⟩ : ∃ passed, front = before ++ passed ∧
        name ++ after = passed ++ back := by
      have short := first.first front back whole begins
      rw [first.whole, List.append_assoc] at whole
      rcases List.append_eq_append_iff.mp whole with here | ⟨more, same, tail⟩
      · exact here
      · obtain rfl : more = [] := by
          rw [same, List.length_append] at short
          exact List.eq_nil_of_length_eq_zero (by omega)
        exact ⟨[], by simpa using same.symm, by simpa using tail.symm⟩
    by_cases within : passed.length < name.length
    · refine ⟨_, List.mem_cons_self, ?_, ?_⟩
      · simp only [byteLength_append]
        omega
      · obtain ⟨inner, rfl⟩ : passed <+: name :=
          List.prefix_of_prefix_length_le ⟨back, left.symm⟩ (List.prefix_append _ _) within.le
        have size : 0 < byteLength inner := byteLength_pos (by
          rintro rfl
          simp at within)
        simp only [byteLength_append]
        omega
    · obtain ⟨inner, rfl⟩ : name <+: passed :=
        List.prefix_of_prefix_length_le (List.prefix_append _ _) ⟨back, left.symm⟩
          (Nat.not_lt.mp within)
      rw [List.append_assoc, List.append_cancel_left_eq] at left
      obtain ⟨reference, mem, start, stop⟩ := ih left
      refine ⟨reference, List.mem_cons_of_mem _ mem, ?_, ?_⟩
      · simp only [byteLength_append] at start ⊢
        omega
      · simp only [byteLength_append] at stop ⊢
        omega

section Order

variable (sentinel_ne : sentinel ≠ [])
include sentinel_ne

/-- No reference starts before the text does, and each takes some of it. -/
theorem le_start (scanned : Scanned sentinel offset text found) (mem : reference ∈ found) :
    offset ≤ reference.start ∧ reference.start < reference.stop := by
  obtain ⟨front, back, -, start, stop, starts, -⟩ := scanned.exists_split mem
  have filled : reference.name ≠ [] := fun none =>
    sentinel_ne (List.prefix_nil.mp (none ▸ starts))
  have size := byteLength_pos filled
  rw [byteLength_append] at stop
  omega

/-- The references are in order and do not overlap. -/
theorem ordered (scanned : Scanned sentinel offset text found) :
    found.Pairwise fun a b => a.stop ≤ b.start := by
  induction scanned with
  | done => exact .nil
  | next _ rest ih =>
    exact List.pairwise_cons.mpr ⟨fun _ mem => (rest.le_start sentinel_ne mem).1, ih⟩

/-- Of two references one ends before the other one starts. -/
theorem disjoint (scanned : Scanned sentinel offset text found) {other : Reference}
    (mem : reference ∈ found) (mem' : other ∈ found) (ne : reference ≠ other) :
    reference.stop ≤ other.start ∨ other.stop ≤ reference.start := by
  have symmetric : Std.Symm fun a b : Reference => a.stop ≤ b.start ∨ b.stop ≤ a.start :=
    ⟨fun _ _ => Or.symm⟩
  have either : found.Pairwise fun a b => a.stop ≤ b.start ∨ b.stop ≤ a.start :=
    (scanned.ordered sentinel_ne).imp .inl
  exact either.forall mem mem' ne

/-- **Each sentinel begins in one of the references**, and in no other. -/
theorem existsUnique_of_begins (scanned : Scanned sentinel offset text found)
    (whole : text = front ++ back) (begins : sentinel <+: back) :
    ∃! reference, reference ∈ found ∧ reference.start ≤ offset + byteLength front ∧
      offset + byteLength front < reference.stop := by
  obtain ⟨reference, mem, start, stop⟩ := scanned.exists_of_begins whole begins
  refine ⟨reference, ⟨mem, start, stop⟩, fun other ⟨mem', start', stop'⟩ => ?_⟩
  by_contra ne
  have disjoint := scanned.disjoint sentinel_ne mem' mem ne
  omega

/-- A text that lies outside all references holds no sentinel. -/
theorem absent_outside {middle : List Char} (scanned : Scanned sentinel offset text found)
    (whole : text = front ++ middle ++ back)
    (outside : ∀ reference ∈ found, reference.stop ≤ offset + byteLength front ∨
      offset + byteLength (front ++ middle) ≤ reference.start) : ¬ sentinel <:+: middle := by
  rintro ⟨passed, rest, rfl⟩
  have split : text = (front ++ passed) ++ (sentinel ++ (rest ++ back)) := by simp [whole]
  obtain ⟨reference, mem, start, stop⟩ := scanned.exists_of_begins split (List.prefix_append _ _)
  have size := byteLength_pos sentinel_ne
  have place := outside reference mem
  simp only [byteLength_append] at start stop place
  omega

end Order

end Scanned

/-! ### References of a detail -/

theorem byteLength_eq_utf8ByteSize (text : List Char) :
    byteLength text = (String.ofList text).utf8ByteSize := by
  induction text with
  | nil => rfl
  | cons c rest ih =>
    rw [byteLength_cons, String.ofList_cons, String.utf8ByteSize_append,
      String.utf8ByteSize_singleton, ih]

/-- References that are those of a detail, in order: they lie in it, and none is missing. -/
structure Locates (sentinel : List Char) (detail : String) (references : List Reference) :
    Prop where
  /-- The positions of a reference are those of its name in the detail. -/
  placed : ∀ reference ∈ references, ∃ front back : String,
    detail = front ++ .ofList reference.name ++ back ∧
      reference.start = front.utf8ByteSize ∧
      reference.stop = (front ++ .ofList reference.name).utf8ByteSize ∧ Apart back.toList
  named : ∀ reference ∈ references, sentinel <+: reference.name ∧ terminator ∉ reference.name
  filled : ∀ reference ∈ references, reference.start < reference.stop
  ordered : references.Pairwise fun a b => a.stop ≤ b.start
  /-- What lies before, between and behind the references holds no sentinel. -/
  outside : ∀ front middle back : String, detail = front ++ middle ++ back →
    (∀ reference ∈ references, reference.stop ≤ front.utf8ByteSize ∨
      (front ++ middle).utf8ByteSize ≤ reference.start) → ¬ sentinel <:+: middle.toList
  /-- Each sentinel begins in one reference. -/
  covered : ∀ front back : String, detail = front ++ back → sentinel <+: back.toList →
    ∃! reference, reference ∈ references ∧
      reference.start ≤ front.utf8ByteSize ∧ front.utf8ByteSize < reference.stop

theorem Scanned.locates {detail : String} (sentinel_ne : sentinel ≠ [])
    (scanned : Scanned sentinel 0 detail.toList found) : Locates sentinel detail found where
  placed reference mem := by
    obtain ⟨front, back, split, start, stop, -, -, ends⟩ := scanned.exists_split mem
    refine ⟨.ofList front, .ofList back, ?_, ?_, ?_, by rwa [String.toList_ofList]⟩
    · rw [← String.ofList_append, ← String.ofList_append, ← split, String.ofList_toList]
    · rw [start, Nat.zero_add, byteLength_eq_utf8ByteSize]
    · rw [stop, Nat.zero_add, byteLength_eq_utf8ByteSize, String.ofList_append]
  named reference mem := by
    obtain ⟨_, _, -, -, -, starts, closed, -⟩ := scanned.exists_split mem
    exact ⟨starts, closed⟩
  filled reference mem := (scanned.le_start sentinel_ne mem).2
  ordered := scanned.ordered sentinel_ne
  outside front middle back whole outside := by
    have split : detail.toList = front.toList ++ middle.toList ++ back.toList := by
      rw [whole, String.toList_append, String.toList_append]
    refine scanned.absent_outside sentinel_ne split fun reference mem => ?_
    rw [Nat.zero_add, Nat.zero_add, byteLength_eq_utf8ByteSize, byteLength_eq_utf8ByteSize,
      ← String.toList_append, String.ofList_toList, String.ofList_toList]
    exact outside reference mem
  covered front back whole begins := by
    have split : detail.toList = front.toList ++ back.toList := by
      rw [whole, String.toList_append]
    have found := scanned.existsUnique_of_begins sentinel_ne split begins
    rwa [Nat.zero_add, byteLength_eq_utf8ByteSize, String.ofList_toList] at found

end ClassNaming.Detail

namespace ClassNaming.Renamer

/-- **The references of a detail are located, and none is missed**: each is a part of the detail
that starts with the sentinel and runs up to the next terminator or to the end, they are in order,
and every sentinel of the detail begins in exactly one of them. -/
theorem locates_references (renamer : Renamer) (detail : String) :
    Detail.Locates renamer.sentinel detail (renamer.references detail) :=
  (Detail.scanned_references renamer.mode.terminator_notMem_sentinel
    renamer.mode.sentinel_ne_nil detail.toList).locates renamer.mode.sentinel_ne_nil

end ClassNaming.Renamer
