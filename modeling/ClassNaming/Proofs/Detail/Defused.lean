import ClassNaming.Proofs.Detail.Reference

/-!
# Defused names

A pass cannot leave a name without a usable new one as it stands, for the next pass would find it
again.  It *defuses* the name: a marker goes into every `net` of it, and both sentinels begin with a
`net`.  Three facts make this work.

* A defused name is the old one with markers put in, so that nothing is lost when all markers are
  taken out at the end.
* No sentinel holds a marker.  Text with markers put in has no sentinel that it did not have before,
  and a defused name has none at all.
* No ending of a sentinel begins with `ne` and a marker, as every defused name does.  So a defused
  name does not complete a sentinel of which the text before it has the beginning.

Together they make the place of a defused name, and all that lies before it, a part of the text in
which no later pass finds a name.

## Main Definitions

* `Unstarted` - a text that completes no sentinel with the text before it
* `Marked` - a text with markers put in

## Main Results

* `Renamer.defuse_is_lasting` - what defusing a name does, and that it can be taken back
-/

namespace ClassNaming.Detail

variable {sentinel text marked before new rest between : List Char}

/-! ### Texts that complete no sentinel -/

/-- A text that begins with no proper ending of the sentinel, so no text in front of it is the
beginning of a sentinel that it completes. -/
def Unstarted (sentinel new : List Char) : Prop :=
  ∀ ending, ending <:+ sentinel → ending ≠ [] → ending ≠ sentinel → ¬ ending <+: new

theorem Unstarted.not_infix_append (unstarted : Unstarted sentinel new)
    (absent : ¬ sentinel <:+: before) (absent_new : ¬ sentinel <:+: new) :
    ¬ sentinel <:+: before ++ new := by
  rintro ⟨front, back, whole⟩
  rcases List.append_eq_append_iff.mp whole with ⟨middle, rfl, -⟩ | ⟨ending, split, rfl⟩
  · exact absent ⟨front, middle, rfl⟩
  rcases List.append_eq_append_iff.mp split with ⟨start, rfl, rfl⟩ | ⟨start, rfl, rfl⟩
  · -- The sentinel lies across the border.
    by_cases empty : ending = []
    · exact absent (by simpa [empty] using (List.suffix_append front start).isInfix)
    by_cases full : start = []
    · exact absent_new (by simpa [full] using (List.prefix_append ending back).isInfix)
    · exact unstarted ending (List.suffix_append start ending) empty (by simpa using full)
        (List.prefix_append ending back)
  · exact absent_new ⟨start, back, by simp⟩

/-! ### Markers -/

/-- A text with markers put in anywhere. -/
inductive Marked : List Char → List Char → Prop
  | nil : Marked [] []
  | keep (c : Char) {text marked : List Char} :
      Marked text marked → Marked (c :: text) (c :: marked)
  | mark {text marked : List Char} :
      Marked text marked → Marked text (Renamer.marker :: marked)

namespace Marked

theorem refl (text : List Char) : Marked text text := by
  induction text with
  | nil => exact .nil
  | cons c rest ih => exact .keep c ih

theorem append {text₁ text₂ marked₁ marked₂ : List Char} (left : Marked text₁ marked₁)
    (right : Marked text₂ marked₂) : Marked (text₁ ++ text₂) (marked₁ ++ marked₂) := by
  induction left with
  | nil => exact right
  | keep c _ ih => exact .keep c ih
  | mark _ ih => exact .mark ih

/-- Without its markers a marked text is the text. -/
theorem filter_eq (put : Marked text marked) :
    marked.filter (· ≠ Renamer.marker) = text.filter (· ≠ Renamer.marker) := by
  induction put with
  | nil => rfl
  | keep c _ ih => rw [List.filter_cons, List.filter_cons, ih]
  | mark _ ih => rw [List.filter_cons_of_neg (by simp), ih]

/-- What a marked text begins with, free of markers, the text itself begins with. -/
theorem begins (put : Marked text marked) (free : Renamer.marker ∉ sentinel)
    (starts : sentinel <+: marked) : sentinel <+: text := by
  induction put generalizing sentinel with
  | nil => exact starts
  | keep c _ ih =>
    rcases sentinel with - | ⟨d, sentinel⟩
    · exact List.nil_prefix
    · obtain ⟨rfl, startsRest⟩ := List.cons_prefix_cons.mp starts
      exact List.cons_prefix_cons.mpr
        ⟨rfl, ih (fun inside => free (List.mem_cons_of_mem _ inside)) startsRest⟩
  | mark _ _ =>
    rcases sentinel with - | ⟨d, sentinel⟩
    · exact List.nil_prefix
    · obtain ⟨rfl, -⟩ := List.cons_prefix_cons.mp starts
      exact absurd List.mem_cons_self free

/-- Markers complete no sentinel. -/
theorem occurrences_le (put : Marked text marked) (free : Renamer.marker ∉ sentinel)
    (sentinel_ne : sentinel ≠ []) :
    Text.occurrences sentinel marked ≤ Text.occurrences sentinel text := by
  induction put with
  | nil => exact Nat.le_refl _
  | @keep c text marked put ih =>
    by_cases starts : sentinel <+: c :: marked
    · have already := (put.keep c).begins free starts
      rw [Text.occurrences_cons_pos starts, Text.occurrences_cons_pos already]
      exact Nat.succ_le_succ ih
    · rw [Text.occurrences_cons_neg starts]
      exact ih.trans Text.occurrences_le_cons
  | @mark text marked _ ih =>
    have misses : ¬ sentinel <+: Renamer.marker :: marked := by
      intro starts
      obtain ⟨d, tail, rfl⟩ := List.exists_cons_of_ne_nil sentinel_ne
      obtain ⟨rfl, -⟩ := List.cons_prefix_cons.mp starts
      exact free List.mem_cons_self
    rwa [Text.occurrences_cons_neg misses]

theorem trans (put : Marked text between) (again : Marked between marked) :
    Marked text marked := by
  induction again generalizing text with
  | nil => exact put
  | keep c _ ih =>
    generalize whole : c :: _ = between at put
    induction put with
    | nil => cases whole
    | keep d put _ =>
      obtain ⟨rfl, rfl⟩ := List.cons.inj whole
      exact .keep c (ih put)
    | mark put _ =>
      obtain ⟨rfl, rfl⟩ := List.cons.inj whole
      exact .mark (ih put)
  | mark _ ih => exact .mark (ih put)

/-- A marked text in two parts is a text in two parts, each of them marked. -/
theorem exists_of_append {front back : List Char} (put : Marked text (front ++ back)) :
    ∃ before behind, text = before ++ behind ∧ Marked before front ∧ Marked behind back := by
  induction front generalizing text with
  | nil => exact ⟨[], text, rfl, .nil, put⟩
  | cons c front ih =>
    cases put with
    | keep _ put =>
      obtain ⟨before, behind, rfl, marked, markedBehind⟩ := ih put
      exact ⟨c :: before, behind, rfl, .keep c marked, markedBehind⟩
    | mark put =>
      obtain ⟨before, behind, rfl, marked, markedBehind⟩ := ih put
      exact ⟨before, behind, rfl, .mark marked, markedBehind⟩

/-- What stands in a marked text stands in the text, without some of its markers. -/
theorem exists_infix (put : Marked text marked) (inside : rest <:+: marked) :
    ∃ part, part <:+: text ∧ Marked part rest := by
  obtain ⟨front, back, rfl⟩ := inside
  obtain ⟨before, behind, rfl, whole, -⟩ := put.exists_of_append
  obtain ⟨front', part, rfl, -, there⟩ := whole.exists_of_append
  exact ⟨part, ⟨front', behind, rfl⟩, there⟩

theorem eq_of_notMem (put : Marked text marked) (free : Renamer.marker ∉ marked) :
    text = marked := by
  induction put with
  | nil => rfl
  | keep c _ ih => rw [ih fun inside => free (List.mem_cons_of_mem _ inside)]
  | mark _ _ => exact absurd List.mem_cons_self free

/-- A sentinel that is lost stays lost, whatever stands before it. -/
theorem occurrences_append_lt (put : Marked text marked) (free : Renamer.marker ∉ sentinel)
    (less : Text.occurrences sentinel marked < Text.occurrences sentinel text)
    (front : List Char) :
    Text.occurrences sentinel (front ++ marked) < Text.occurrences sentinel (front ++ text) := by
  induction front with
  | nil => exact less
  | cons c front ih =>
    rw [List.cons_append, List.cons_append]
    by_cases starts : sentinel <+: c :: (front ++ marked)
    · have already := (((refl front).append put).keep c).begins free starts
      rw [Text.occurrences_cons_pos starts, Text.occurrences_cons_pos already]
      exact Nat.succ_lt_succ ih
    · rw [Text.occurrences_cons_neg starts]
      exact ih.trans_le Text.occurrences_le_cons

/-- Replacing a word by a marked form of it marks the whole text. -/
theorem replaceAll {word : List Char} (word_ne : word ≠ []) (put : Marked word new)
    (text : List Char) : Marked text (Text.replaceAll word new text) := by
  induction text using Text.replaceAll_induction word_ne with
  | nil => exact .nil
  | append_word rest ih =>
    rw [Text.replaceAll_append_word word_ne]
    exact put.append ih
  | cons c rest misses ih =>
    rw [Text.replaceAll_cons misses]
    exact .keep c ih

/-- Defusing only puts markers in. -/
theorem defuse (name : List Char) : Marked name (Renamer.defuse name) :=
  replaceAll (by simp) (.keep 'n' (.keep 'e' (.mark (.keep 't' .nil)))) name

end Marked

/-- Where a name is defused its sentinel is lost. -/
theorem occurrences_defuse_lt {name : List Char} (net : ['n', 'e', 't'] <+: sentinel)
    (free : Renamer.marker ∉ sentinel) (starts : sentinel <+: name)
    (put : Marked rest marked) :
    Text.occurrences sentinel (Renamer.defuse name ++ marked) <
      Text.occurrences sentinel (name ++ rest) := by
  have sentinel_ne : sentinel ≠ [] := by
    rintro rfl
    simp at net
  obtain ⟨tail, rfl⟩ := net.trans starts
  have defused : Renamer.defuse (['n', 'e', 't'] ++ tail) =
      'n' :: 'e' :: Renamer.marker :: 't' :: Renamer.defuse tail :=
    Text.replaceAll_append_word (by simp)
  have misses : ¬ sentinel <+:
      'n' :: 'e' :: Renamer.marker :: 't' :: (Renamer.defuse tail ++ marked) := by
    intro again
    have begins := net.trans again
    simp [List.cons_prefix_cons, Renamer.marker] at begins
  have behind : Marked ('e' :: 't' :: (tail ++ rest))
      ('e' :: Renamer.marker :: 't' :: (Renamer.defuse tail ++ marked)) :=
    .keep 'e' (.mark (.keep 't' ((Marked.defuse tail).append put)))
  have shape : ['n', 'e', 't'] ++ tail ++ rest = 'n' :: 'e' :: 't' :: (tail ++ rest) := by simp
  have begins : sentinel <+: 'n' :: 'e' :: 't' :: (tail ++ rest) := by
    rw [← shape]
    exact starts.trans (List.prefix_append _ rest)
  rw [shape, defused, Text.occurrences_cons_pos begins]
  simp only [List.cons_append]
  rw [Text.occurrences_cons_neg misses]
  exact Nat.lt_succ_of_le (behind.occurrences_le free sentinel_ne)

end ClassNaming.Detail

namespace ClassNaming

/-- No ending of a sentinel begins like a defused name. -/
theorem NamingMode.ending_not_begins (mode : NamingMode) : ∀ ending ∈ mode.sentinel.toList.tails,
    ending ≠ [] → ¬ ending <+: ['n', 'e', Renamer.marker] := by
  cases mode <;> decide

namespace Renamer

variable {renamer : Renamer} {mode : NamingMode}
  {text next before name after front back : List Char}

/-! ### Defusing -/

/-- A defused text holds no `net`: a marker never joins with its neighbours. -/
theorem net_not_infix_defuse (text : List Char) : ¬ ['n', 'e', 't'] <:+: defuse text := by
  have net_ne : ['n', 'e', 't'] ≠ [] := by simp
  unfold defuse
  induction text using Text.replaceAll_induction net_ne with
  | nil => simp
  | append_word rest ih =>
    rw [Text.replaceAll_append_word net_ne]
    simpa [List.infix_cons_iff, marker] using ih
  | cons c rest misses ih =>
    rw [Text.replaceAll_cons misses, List.infix_cons_iff, not_or]
    refine ⟨fun starts => ?_, ih⟩
    rw [← Text.replaceAll_cons misses] at starts
    rcases Text.prefix_replaceAll net_ne starts with
      inside | ⟨front, back, -, replaced, within, shorter⟩
    · exact misses inside
    · -- The replacement would begin inside the `net`, but it begins with an `n` of its own.
      rw [replaced] at starts
      rcases front with - | ⟨a, - | ⟨b, - | ⟨d, front⟩⟩⟩ <;>
        simp_all [marker, List.cons_prefix_cons]

theorem sentinel_not_infix_defuse (mode : NamingMode) (text : List Char) :
    ¬ mode.sentinel.toList <:+: defuse text := by
  intro inside
  apply net_not_infix_defuse text
  exact mode.net_prefix_sentinel.isInfix.trans inside

/-- No replacement holds the sentinel: a usable new name does not, and a defused one cannot. -/
theorem sentinel_not_infix_replacement (name : List Char) :
    ¬ renamer.sentinel <:+: renamer.replacement name := by
  cases found : renamer.lookup? name with
  | none =>
    rw [replacement, found]
    exact sentinel_not_infix_defuse renamer.mode name
  | some new =>
    rw [replacement, found, Option.getD_some]
    unfold lookup? at found
    split at found
    · cases found
    · split at found
      · cases found
      case isFalse absent =>
        obtain rfl := Option.some.inj found
        exact fun inside => absent (Text.occursIn_iff_infix.mpr inside)

/-- Taking the markers out changes every text that has one. -/
theorem filter_marker_eq_self_iff : text.filter (· ≠ marker) = text ↔ marker ∉ text := by
  rw [List.filter_eq_self]
  constructor
  · intro keeps inside
    exact of_decide_eq_true (keeps marker inside) rfl
  · intro free c inside
    exact decide_eq_true fun same => free (same ▸ inside)

/-- Only a text without a `net` is its own defused form. -/
theorem defuse_eq_self_iff : defuse text = text ↔ ¬ ['n', 'e', 't'] <:+: text := by
  constructor
  · intro same
    rw [← same]
    exact net_not_infix_defuse text
  · exact Text.replaceAll_of_not_infix

theorem defuse_begins (starts : ['n', 'e', 't'] <+: name) :
    ['n', 'e', marker] <+: defuse name := by
  obtain ⟨rest, rfl⟩ := starts
  rw [defuse, Text.replaceAll_append_word (by simp)]
  exact ⟨'t' :: _, rfl⟩

/-- A defused name completes no sentinel with the text before it. -/
theorem unstarted_defuse (starts : mode.sentinel.toList <+: name) :
    Detail.Unstarted mode.sentinel.toList (defuse name) := by
  intro ending ends ending_ne _ begins
  have defused := defuse_begins (mode.net_prefix_sentinel.trans starts)
  -- A longer ending than `ne` and a marker would hold the marker.
  rcases List.prefix_or_prefix_of_prefix begins defused with short | long
  · exact mode.ending_not_begins ending ((List.mem_tails _ _).mpr ends) ending_ne short
  · exact mode.marker_notMem_sentinel (ends.subset (long.subset (by simp)))

theorem sentinel_not_infix_append_defuse (starts : mode.sentinel.toList <+: name)
    (absent : ¬ mode.sentinel.toList <:+: front) :
    ¬ mode.sentinel.toList <:+: front ++ defuse name :=
  (unstarted_defuse starts).not_infix_append absent (sentinel_not_infix_defuse mode name)

/-- **A name is defused for good, and can be had back.**  The defused name holds no `net`, and it
leaves a text without a sentinel without one.  It is another name, but differs in markers only. -/
theorem defuse_is_lasting (starts : mode.sentinel.toList <+: name)
    (absent : ¬ mode.sentinel.toList <:+: front) :
    ¬ ['n', 'e', 't'] <:+: defuse name ∧
      ¬ mode.sentinel.toList <:+: front ++ defuse name ∧
      defuse name ≠ name ∧
      (defuse name).filter (· ≠ marker) = name.filter (· ≠ marker) := by
  refine ⟨net_not_infix_defuse name, sentinel_not_infix_append_defuse starts absent, ?_,
    (Detail.Marked.defuse name).filter_eq⟩
  intro same
  apply defuse_eq_self_iff.mp same
  exact (mode.net_prefix_sentinel.trans starts).isInfix

/-- A name with two more `net`s, one of them behind a marker that it had from the start. -/
def crowdedName : List Char := "net/minecraft/class_nnet\x00net".toList

/-- A text that ends in all of a sentinel but its last letter. -/
def openFront : List Char := "net/minecraft/net/minecraft/class".toList

theorem defuse_is_lasting_crowded :
    NamingMode.intermediary.sentinel.toList <+: crowdedName ∧
      ¬ NamingMode.intermediary.sentinel.toList <:+: openFront ∧
      ¬ ['n', 'e', 't'] <:+: defuse crowdedName ∧
      ¬ NamingMode.intermediary.sentinel.toList <:+: openFront ++ defuse crowdedName ∧
      defuse crowdedName ≠ crowdedName ∧
      (defuse crowdedName).filter (· ≠ marker) = crowdedName.filter (· ≠ marker) := by
  have starts : NamingMode.intermediary.sentinel.toList <+: crowdedName := by decide
  have absent : ¬ NamingMode.intermediary.sentinel.toList <:+: openFront := by decide
  exact ⟨starts, absent, defuse_is_lasting starts absent⟩

end Renamer

end ClassNaming
