import ClassNaming.Proofs.Detail.Defused
import ClassNaming.Proofs.Detail.Passes
import ClassNaming.Proofs.Mapping.Table

/-!
# When the passes over a detail come to an end

A pass replaces the first name wherever it occurs.  Neither the length of the text nor the number of
its sentinels need go down: a new name may be longer than the old one, and its ends may complete
sentinels with their neighbours.  Two conditions on the usable new names, either of which is enough,
bound what a pass can do.

* *No new name holds a terminator.*  Then a pass never adds a terminator.  The next reference starts
  either further left in the same stretch between terminators, or in a later stretch.  The number of
  terminators behind the reference decides, and then its position.
* *No new name is open*, that is, none ends in a beginning of the sentinel.  Then a new name never
  completes a sentinel with what follows it, and at most one with what lies before it.  The sentinel
  does not overlap itself, so a pass never adds one altogether.  The number of sentinels decides,
  and then the position of the first.

Names that stay as they are need no condition: defusing only puts markers into a text, and a marker
never completes a sentinel.

## Main Definitions

* `Opens` - a text that ends in a beginning of the sentinel
* `Renamer.lead` - how far into a text its first sentinel lies

## Main Results

* `occurrences_of_completed` - a new name completes one sentinel at most
* `Renamer.settles_of_decreasing` - a pair of measures that every pass decreases ends the passes
* `Renamer.decreasing_of_unterminated`, `Renamer.decreasing_of_closed` - the two measures
-/

namespace ClassNaming.Detail

variable {sentinel new text marked front rest : List Char} {c : Char}

/-! ### Sentinels at the ends of a replacement -/

/-- A text is open if it ends in a non-empty beginning of the sentinel, so that what follows it may
complete a sentinel. -/
def Opens (sentinel text : List Char) : Prop :=
  ∃ ending, ending ≠ [] ∧ ending <:+ text ∧ ending <+: sentinel

instance (sentinel text : List Char) : Decidable (Opens sentinel text) :=
  decidable_of_iff (∃ ending ∈ text.tails, ending ≠ [] ∧ ending <+: sentinel) <| by
    simp only [Opens, List.mem_tails]
    exact ⟨fun ⟨ending, fits, filled, begins⟩ => ⟨ending, filled, fits, begins⟩,
      fun ⟨ending, filled, fits, begins⟩ => ⟨ending, fits, filled, begins⟩⟩

/-- A word that no proper ending of itself begins: two places at which it begins are at least its
length apart. -/
def Unbordered (word : List Char) : Prop :=
  ∀ ending ∈ word.tails, ending ≠ [] → ending <+: word → ending = word

instance (word : List Char) : Decidable (Unbordered word) :=
  inferInstanceAs (Decidable (∀ ending ∈ word.tails, _))

theorem Unbordered.apart (unbordered : Unbordered sentinel) (starts : sentinel <+: front ++ text)
    (front_ne : front ≠ []) (shorter : front.length < sentinel.length) :
    ¬ sentinel <+: text := by
  intro again
  obtain ⟨ending, whole⟩ : front <+: sentinel :=
    List.prefix_of_prefix_length_le (List.prefix_append _ _) starts shorter.le
  have begins : ending <+: sentinel := by
    rw [← whole, List.prefix_append_right_inj] at starts
    exact List.prefix_of_prefix_length_le starts again (by simp [← whole])
  have filled : ending ≠ [] := by
    rintro rfl
    rw [List.append_nil] at whole
    exact absurd whole (fun same => by simp [same] at shorter)
  have same := unbordered ending ((List.mem_tails _ _).mpr ⟨front, whole⟩) filled begins
  have none : front.length = 0 := by
    simpa [same] using congrArg List.length whole
  exact front_ne (List.length_eq_zero_iff.mp none)

/-- Behind a closed text without a sentinel only the sentinels of what follows count. -/
theorem occurrences_append_of_closed (closed : ¬ Opens sentinel new)
    (absent : ¬ sentinel <:+: new) (rest : List Char) :
    Text.occurrences sentinel (new ++ rest) = Text.occurrences sentinel rest := by
  refine Text.occurrences_append_neg fun inner tail whole tail_ne starts => ?_
  have fits : tail <:+ new := ⟨inner, whole.symm⟩
  rcases List.prefix_or_prefix_of_prefix starts (List.prefix_append tail rest) with inside | begins
  · exact absent (inside.isInfix.trans fits.isInfix)
  · exact closed ⟨tail, tail_ne, fits, begins⟩

/-- A name counts for at least one sentinel, its own. -/
theorem occurrences_lt_name_append {name : List Char} (sentinel_ne : sentinel ≠ [])
    (starts : sentinel <+: name) (rest : List Char) :
    Text.occurrences sentinel rest < Text.occurrences sentinel (name ++ rest) := by
  obtain ⟨c, tail, rfl⟩ : ∃ c tail, name = c :: tail :=
    List.exists_cons_of_ne_nil fun none => sentinel_ne (List.prefix_nil.mp (none ▸ starts))
  rw [List.cons_append, Text.occurrences_cons_pos]
  · exact Nat.lt_succ_of_le (Text.occurrences_le_append tail)
  · exact starts.trans (List.prefix_append _ rest)

/-- **A new name completes one sentinel at most.**  The sentinel begins in the text before the new
name, where no second one can begin, and a closed new name leaves those behind it alone. -/
theorem occurrences_of_completed (unbordered : Unbordered sentinel)
    (closed : ¬ Opens sentinel new) (absent : ¬ sentinel <:+: new) (front_ne : front ≠ [])
    (early : front.length < sentinel.length) (completed : sentinel <+: front ++ (new ++ rest)) :
    Text.occurrences sentinel (front ++ (new ++ rest)) = Text.occurrences sentinel rest + 1 := by
  obtain ⟨c, tail, rfl⟩ := List.exists_cons_of_ne_nil front_ne
  have alone : Text.occurrences sentinel (tail ++ (new ++ rest)) =
      Text.occurrences sentinel (new ++ rest) := by
    refine Text.occurrences_append_neg fun inner ending split ending_ne => ?_
    have spans : sentinel <+: (c :: inner) ++ (ending ++ (new ++ rest)) := by
      rw [split] at completed
      simpa using completed
    refine unbordered.apart spans (by simp) ?_
    simp only [List.length_cons, split, List.length_append] at early ⊢
    omega
  rw [List.cons_append] at completed ⊢
  rw [Text.occurrences_cons_pos completed, alone, occurrences_append_of_closed closed absent]

/-- **A closed new name adds no sentinel.**  The sentinel that it may complete with the text before
it is outweighed by the one of the name it replaces. -/
theorem occurrences_replaceAll_le_of_closed {name : List Char} (unbordered : Unbordered sentinel)
    (sentinel_ne : sentinel ≠ []) (starts : sentinel <+: name) (closed : ¬ Opens sentinel new)
    (absent : ¬ sentinel <:+: new) (text : List Char) :
    Text.occurrences sentinel (Text.replaceAll name new text) ≤
      Text.occurrences sentinel text := by
  have name_ne : name ≠ [] := fun none => sentinel_ne (List.prefix_nil.mp (none ▸ starts))
  induction length : text.length using Nat.strong_induction_on generalizing text with
  | _ size ih =>
    rcases text with - | ⟨c, rest⟩
    · exact Nat.le_refl _
    by_cases named : name <+: c :: rest
    · obtain ⟨tail, whole⟩ := named
      have shorter : tail.length < size := by
        have longer := List.length_pos_iff.mpr name_ne
        have sizes := congrArg List.length whole
        rw [List.length_append, length] at sizes
        omega
      rw [← whole, Text.replaceAll_append_word name_ne, occurrences_append_of_closed closed absent]
      exact (ih tail.length shorter tail rfl).trans (Text.occurrences_le_append name)
    have smaller : rest.length < size := by simp [← length]
    by_cases completed : sentinel <+: Text.replaceAll name new (c :: rest)
    · rcases Text.prefix_replaceAll name_ne completed with
        already | ⟨front, back, whole, replaced, -, early⟩
      · rw [Text.replaceAll_cons named] at completed ⊢
        rw [Text.occurrences_cons_pos completed, Text.occurrences_cons_pos already]
        exact Nat.succ_le_succ (ih _ smaller rest rfl)
      · -- The replacement completes a sentinel that begins in `front`.
        have front_ne : front ≠ [] := by
          rintro rfl
          exact named ⟨back, whole.symm⟩
        have shorter : back.length < size := by
          have filled := List.length_pos_iff.mpr front_ne
          have sizes := congrArg List.length whole
          rw [List.length_append, List.length_append, length] at sizes
          omega
        rw [List.append_assoc] at replaced
        rw [replaced] at completed
        calc Text.occurrences sentinel (Text.replaceAll name new (c :: rest))
            = Text.occurrences sentinel (Text.replaceAll name new back) + 1 := by
              rw [replaced]
              exact occurrences_of_completed unbordered closed absent front_ne early completed
          _ ≤ Text.occurrences sentinel back + 1 := Nat.succ_le_succ (ih _ shorter back rfl)
          _ ≤ Text.occurrences sentinel (name ++ back) :=
              occurrences_lt_name_append sentinel_ne starts back
          _ ≤ Text.occurrences sentinel (c :: rest) := by
              rw [whole, List.append_assoc]
              exact Text.occurrences_le_append _
    · rw [Text.replaceAll_cons named] at completed ⊢
      rw [Text.occurrences_cons_neg completed]
      exact (ih _ smaller rest rfl).trans Text.occurrences_le_cons

end ClassNaming.Detail

namespace ClassNaming

namespace NamingMode

theorem sentinel_unbordered (mode : NamingMode) : Detail.Unbordered mode.sentinel.toList := by
  cases mode <;> decide

end NamingMode

namespace Renamer

variable {renamer : Renamer} {text next before name after : List Char}

/-! ### Passes that come to an end -/

/-- How far into a text its first sentinel lies, counted from one; zero without a sentinel. -/
def lead (renamer : Renamer) (text : List Char) : Nat :=
  match Detail.firstReference? renamer.sentinel text with
  | none => 0
  | some (before, _, _) => before.length + 1

/-- The number of terminators behind the first reference. -/
def pending (renamer : Renamer) (text : List Char) : Nat :=
  match Detail.firstReference? renamer.sentinel text with
  | none => 0
  | some (_, _, after) => after.count Detail.terminator

theorem lead_eq (reference : Detail.FirstReference renamer.sentinel text before name after) :
    renamer.lead text = before.length + 1 := by
  rw [lead, firstReference?_eq_some_iff.mpr reference]

theorem pending_eq (reference : Detail.FirstReference renamer.sentinel text before name after) :
    renamer.pending text = after.count Detail.terminator := by
  rw [pending, firstReference?_eq_some_iff.mpr reference]

/-- The first sentinel lies no further right than any other. -/
theorem lead_append_le (front : List Char) {back : List Char} (starts : renamer.sentinel <+: back) :
    renamer.lead (front ++ back) ≤ front.length + 1 := by
  unfold lead
  cases found : Detail.firstReference? renamer.sentinel (front ++ back) with
  | none => exact Nat.zero_le _
  | some parts =>
    obtain ⟨before, name, after⟩ := parts
    have reference := firstReference?_eq_some_iff.mp found
    exact Nat.succ_le_succ (reference.first front back rfl starts)

/-- What a pass does to a pair of measures: the first goes down, or it does not go up and the first
sentinel moves to the left. -/
def Decreasing (renamer : Renamer) (measure : List Char → Nat) : Prop :=
  ∀ text next, renamer.pass? text = some next →
    measure next < measure text ∨
      measure next ≤ measure text ∧ renamer.lead next < renamer.lead text

/-- **Passes that decrease a pair of measures come to an end**, and leave no sentinel. -/
theorem settles_of_decreasing {measure : List Char → Nat} (decreasing : renamer.Decreasing measure)
    (text : List Char) : ∃ limit settled, renamer.settle? limit text = some settled ∧
      Text.occursIn renamer.sentinel settled = false := by
  -- The outer induction is on the measure, the inner one on the place of the first sentinel.
  induction bound : measure text using Nat.strong_induction_on generalizing text with
  | _ bound outer =>
    induction place : renamer.lead text using Nat.strong_induction_on generalizing text with
    | _ place inner =>
      cases pass : renamer.pass? text with
      | none =>
        refine ⟨1, text, by simp [settle?, pass], ?_⟩
        exact Text.occursIn_eq_false_iff.mpr (pass?_eq_none_iff.mp pass)
      | some next =>
        obtain ⟨limit, settled, ends, free⟩ : ∃ limit settled,
            renamer.settle? limit next = some settled ∧
              Text.occursIn renamer.sentinel settled = false := by
          rcases decreasing text next pass with less | ⟨notMore, left⟩
          · exact outer (measure next) (bound ▸ less) next rfl
          · rcases notMore.lt_or_eq with less | same
            · exact outer (measure next) (bound ▸ less) next rfl
            · exact inner (renamer.lead next) (place ▸ left) next (same.trans bound) rfl
        exact ⟨limit + 1, settled, by simp [settle?, pass, ends], free⟩

/-! ### New names without a terminator -/

/-- Neither the name nor the replacement holds a terminator, so their number stays. -/
theorem count_terminator_replaceAll {word new : List Char} (word_ne : word ≠ [])
    (closed : Detail.terminator ∉ word) (unterminated : Detail.terminator ∉ new)
    (text : List Char) : (Text.replaceAll word new text).count Detail.terminator =
      text.count Detail.terminator := by
  induction text using Text.replaceAll_induction word_ne with
  | nil => rfl
  | append_word rest ih =>
    rw [Text.replaceAll_append_word word_ne, List.count_append, List.count_append, ih,
      List.count_eq_zero.mpr closed, List.count_eq_zero.mpr unterminated]
  | cons c rest misses ih => rw [Text.replaceAll_cons misses, List.count_cons, List.count_cons, ih]

theorem terminator_notMem_defuse (closed : Detail.terminator ∉ name) :
    Detail.terminator ∉ defuse name := by
  rw [← List.count_eq_zero] at closed ⊢
  refine (count_terminator_replaceAll ?_ ?_ ?_ name).trans closed
  all_goals decide

section Unterminated

variable {sentinel before' name' after' new behind : List Char}
  (reference : Detail.FirstReference sentinel text before name after)
  (reference' : Detail.FirstReference sentinel (before ++ new ++ behind) before' name' after')
  (new_closed : Detail.terminator ∉ new)
include reference' new_closed

include reference in
/-- A next reference that starts further left ends where the replacement does. -/
theorem count_after_of_left (fresh : Detail.terminator ∉ sentinel)
    (left : before'.length < before.length) :
    after'.count Detail.terminator = behind.count Detail.terminator := by
  have whole := reference'.whole
  obtain ⟨middle, rfl⟩ : before' <+: before := by
    have within : before' <+: before ++ (new ++ behind) :=
      ⟨name' ++ after', by simpa using whole.symm⟩
    exact List.prefix_of_prefix_length_le within (List.prefix_append _ _) left.le
  have rest : name' ++ after' = middle ++ (new ++ behind) := by simpa using whole.symm
  have starts : sentinel <+: middle ++ (new ++ behind) :=
    rest ▸ reference'.starts.trans (List.prefix_append _ _)
  have middle_closed : Detail.terminator ∉ middle := by
    rcases List.prefix_or_prefix_of_prefix starts (List.prefix_append _ _) with inside | begins
    · -- A sentinel in the middle would have been the first one of the text already.
      have early := reference.first before' (middle ++ (name ++ after))
        (by simpa using reference.whole) (inside.trans (List.prefix_append _ _))
      omega
    · exact fun inside => fresh (begins.subset inside)
  have counts := congrArg (List.count Detail.terminator) rest
  rw [List.count_append, List.count_append, List.count_append,
    List.count_eq_zero.mpr reference'.closed, List.count_eq_zero.mpr middle_closed,
    List.count_eq_zero.mpr new_closed] at counts
  simpa using counts

/-- A next reference that does not start further left lies behind a terminator. -/
theorem count_after_of_right (absent : ¬ sentinel <:+: new)
    (behind_apart : Detail.Apart behind)
    (right : before.length ≤ before'.length) :
    after'.count Detail.terminator < behind.count Detail.terminator := by
  have whole := reference'.whole
  obtain ⟨middle, rfl⟩ : before <+: before' := by
    have within : before' <+: before ++ (new ++ behind) :=
      ⟨name' ++ after', by simpa using whole.symm⟩
    exact List.prefix_of_prefix_length_le (List.prefix_append _ _) within right
  have rest : new ++ behind = middle ++ name' ++ after' := by simpa using whole
  have passes : Detail.terminator ∈ middle := by
    by_contra middle_closed
    have short : middle ++ name' <+: new := by
      have starts : middle ++ name' <+: new ++ behind := rest ▸ List.prefix_append _ _
      refine behind_apart.prefix_of_append ?_ starts
      simp [middle_closed, reference'.closed]
    have inside : sentinel <:+: middle ++ name' :=
      reference'.starts.isInfix.trans (List.suffix_append _ _).isInfix
    exact absent (inside.trans short.isInfix)
  have counts := congrArg (List.count Detail.terminator) rest
  rw [List.count_append, List.count_append, List.count_append,
    List.count_eq_zero.mpr reference'.closed, List.count_eq_zero.mpr new_closed] at counts
  have some := List.count_pos_iff.mpr passes
  omega

end Unterminated

/-- **Without terminators in the new names** the number of terminators behind the first reference
decreases, or the reference moves to the left. -/
theorem decreasing_of_unterminated
    (unterminated : ∀ name new, renamer.lookup? name = some new → Detail.terminator ∉ new) :
    renamer.Decreasing renamer.pending := by
  intro text next pass
  obtain ⟨before, name, after, reference⟩ := exists_reference_of_pass? pass
  have name_ne := reference.name_ne_nil renamer.mode.sentinel_ne_nil
  have new_closed : Detail.terminator ∉ renamer.replacement name := by
    rw [replacement]
    cases found : renamer.lookup? name with
    | none => exact terminator_notMem_defuse reference.closed
    | some named => exact unterminated name named found
  rw [pass?_eq_some reference] at pass
  obtain rfl := Option.some.inj pass
  have kept := count_terminator_replaceAll name_ne reference.closed new_closed after
  rw [pending_eq reference, lead_eq reference, ← kept]
  cases found : Detail.firstReference? renamer.sentinel (before ++ renamer.replacement name ++
      Text.replaceAll name (renamer.replacement name) after) with
  | none =>
    rw [pending, lead, found]
    exact .inr ⟨Nat.zero_le _, Nat.succ_pos _⟩
  | some parts =>
    obtain ⟨before', name', after'⟩ := parts
    have reference' := firstReference?_eq_some_iff.mp found
    rw [pending_eq reference', lead_eq reference']
    rcases Nat.lt_or_ge before'.length before.length with left | right
    · refine .inr ⟨?_, by omega⟩
      exact (count_after_of_left reference reference' new_closed
        renamer.mode.terminator_notMem_sentinel left).le
    · exact .inl (count_after_of_right reference' new_closed (sentinel_not_infix_replacement name)
        (reference.ends.replaceAll name_ne reference.closed) right)

/-! ### Closed new names -/

/-- **With closed new names** a replacement adds no sentinel anywhere, and it loses the one of the
name. -/
theorem occurrences_replacement
    (closed : ∀ name new, renamer.lookup? name = some new → ¬ Detail.Opens renamer.sentinel new)
    (starts : renamer.sentinel <+: name) :
    (∀ text, Text.occurrences renamer.sentinel
        (Text.replaceAll name (renamer.replacement name) text) ≤
      Text.occurrences renamer.sentinel text) ∧
    ∀ text, Text.occurrences renamer.sentinel (renamer.replacement name ++
        Text.replaceAll name (renamer.replacement name) text) <
      Text.occurrences renamer.sentinel (name ++ text) := by
  have sentinel_ne := renamer.mode.sentinel_ne_nil
  have name_ne : name ≠ [] := fun none => sentinel_ne (List.prefix_nil.mp (none ▸ starts))
  have free := renamer.mode.marker_notMem_sentinel
  have absent : ¬ renamer.sentinel <:+: renamer.replacement name :=
    sentinel_not_infix_replacement name
  cases found : renamer.lookup? name with
  | none =>
    rw [replacement, found, Option.getD_none]
    have put := fun text => Detail.Marked.replaceAll name_ne (Detail.Marked.defuse name) text
    exact ⟨fun text => (put text).occurrences_le free sentinel_ne, fun text =>
      Detail.occurrences_defuse_lt renamer.mode.net_prefix_sentinel free starts (put text)⟩
  | some new =>
    rw [replacement, found, Option.getD_some] at absent ⊢
    have bound := Detail.occurrences_replaceAll_le_of_closed renamer.mode.sentinel_unbordered
      sentinel_ne starts (closed name new found) absent
    refine ⟨bound, fun text => ?_⟩
    rw [Detail.occurrences_append_of_closed (closed name new found) absent]
    exact (bound text).trans_lt (Detail.occurrences_lt_name_append sentinel_ne starts text)

/-- **With closed new names** the number of sentinels decreases, or the first of them moves to the
left. -/
theorem decreasing_of_closed
    (closed : ∀ name new, renamer.lookup? name = some new → ¬ Detail.Opens renamer.sentinel new) :
    renamer.Decreasing (Text.occurrences renamer.sentinel) := by
  intro text next pass
  obtain ⟨before, name, after, reference⟩ := exists_reference_of_pass? pass
  obtain ⟨notMore, less⟩ := occurrences_replacement closed reference.starts
  rw [pass?_eq_some reference] at pass
  obtain rfl := Option.some.inj pass
  rw [lead_eq reference]
  by_cases left : renamer.lead (before ++ renamer.replacement name ++
      Text.replaceAll name (renamer.replacement name) after) < before.length + 1
  · refine .inr ⟨?_, left⟩
    rw [← reference.replaceAll_eq renamer.mode.sentinel_ne_nil]
    exact notMore text
  · left
    have none : ∀ inner tail, before = inner ++ tail → tail ≠ [] →
        ¬ renamer.sentinel <+: tail ++ (renamer.replacement name ++
          Text.replaceAll name (renamer.replacement name) after) := by
      rintro inner tail rfl tail_ne starts
      have early := lead_append_le inner starts
      have longer := List.length_pos_iff.mpr tail_ne
      rw [List.append_assoc, List.append_assoc, List.length_append] at left
      omega
    rw [List.append_assoc, Text.occurrences_append_neg none]
    refine (less after).trans_le ?_
    rw [reference.whole, List.append_assoc]
    exact Text.occurrences_le_append before

/-- **The passes come to an end** on every detail, and leave no sentinel, if no usable new name
holds a terminator or none is open. -/
theorem settles
    (harmless : (∀ name new, renamer.lookup? name = some new → Detail.terminator ∉ new) ∨
      ∀ name new, renamer.lookup? name = some new → ¬ Detail.Opens renamer.sentinel new)
    (text : List Char) : ∃ limit settled, renamer.settle? limit text = some settled ∧
      Text.occursIn renamer.sentinel settled = false := by
  rcases harmless with unterminated | closed
  · exact settles_of_decreasing (decreasing_of_unterminated unterminated) text
  · exact settles_of_decreasing (decreasing_of_closed closed) text

/-- A renamer with one mapping, to a name that holds a terminator but is closed. -/
def closedSample : Renamer :=
  { resolver :=
      { table := .ofRows ["intermediary", "named"] [["net/minecraft/class_1", "a/One;class_b"]]
        space := "intermediary", source := 0, target := 1 }
    mode := .intermediary
    strategy := .passes }

theorem settles_closedSample : ∃ limit settled,
    closedSample.settle? limit "net/minecraft/net/minecraft/class_1".toList = some settled ∧
      Text.occursIn closedSample.sentinel settled = false := by
  refine settles (.inr fun name new found => ?_) _
  unfold lookup? Resolver.resolve? at found
  split at found
  · cases found
  case h_2 named resolved =>
    have known : 0 < ["intermediary", "named"].length := by decide
    obtain ⟨row, listed, cell⟩ := MappingTable.mem_of_lookup?_ofRows known
      (Option.filter_eq_some_iff.mp resolved).1
    obtain rfl : row = ["net/minecraft/class_1", "a/One;class_b"] := by
      simpa [MappingTable.fitRow] using listed
    obtain rfl : "a/One;class_b" = named := Option.some.inj cell
    split at found
    · cases found
    · obtain rfl := Option.some.inj found
      decide +kernel

end Renamer

end ClassNaming
