import ClassNaming.Proofs.Mapping.RoundTrip

/-!
# The grammar of mapping files

Below its header a mapping file is a sequence of lines, and each of them is judged by itself: it is
a class record, or it may be ignored, or the file is refused.  The one thing that lines share is
whether names are escaped.  That is settled before the first record, by the lines of the header, so
the reader never has to go back.

The reader carries that state along, and the two versions of the format have a reader each.  Both
are shown to be the same walk over the lines, with a verdict on each that depends on the line alone.
What the grammar says of single lines then carries over to whole files at once.

## Main Definitions

* `Headed` - a text with a supported header, and the lines below it
* `Ignorable`, `row?` - lines that say nothing of classes, and what class records say
* `escapes` - whether names are escaped
* `classesFrom` - the walk over the lines

## Main Results

* `body1_eq`, `body2_eq` - both readers are the walk
* `judges_classOfLine1`, `judges_verdict2` - the verdict on a line is that of the grammar
* `parse_grammar` - files that are accepted, and the line that is blamed for one that is not
-/

namespace ClassNaming

/-- The first column of a class record. -/
def Version.recordKind : Version → String
  | .v1 => "CLASS"
  | .v2 => "c"

/-- Columns of a header that names the namespaces. -/
inductive Version.Heads : Version → List String → List String → Prop
  | v1 (namespaces : List String) : Heads .v1 ("v1" :: namespaces) namespaces
  | v2 (minor : String) (namespaces : List String) :
    Heads .v2 ("tiny" :: "2" :: minor :: namespaces) namespaces

/-- A header that declares a version names what follows its first columns. -/
theorem Version.heads_of_ofColumns? {version : Version} {header : List String}
    (declared : Version.ofColumns? header = some version)
    (named : header.drop version.headerWidth ≠ []) :
    version.Heads header (header.drop version.headerWidth) := by
  unfold Version.ofColumns? at declared
  split at declared
  case h_1 namespaces =>
    cases declared
    exact .v1 namespaces
  case h_2 later =>
    cases declared
    cases later with
    | nil => exact absurd rfl named
    | cons minor namespaces => exact .v2 minor namespaces
  case h_3 => cases declared

namespace MappingFile

variable {text line : String} {version : Version} {namespaces body cols : List String} {n : Nat}
  {escaping : Bool}

/-- A text with a supported header that names the namespaces, and the lines below it without
carriage returns at their ends. -/
def Headed (text : String) (version : Version) (namespaces body : List String) : Prop :=
  ∃ first rest, Text.lines text = first :: rest ∧
    version.Heads (Text.columns (Text.withoutReturns first)) namespaces ∧
    body = rest.map Text.withoutReturns

/-- A line that says nothing of classes: an empty one; a comment or a member in the first version;
an indented one in the second. -/
def Ignorable : Version → String → Prop
  | .v1, line => line = "" ∨ ['#'] <+: line.toList ∨
    (Text.columns line).head? = some "FIELD" ∨ (Text.columns line).head? = some "METHOD"
  | .v2, line => line = "" ∨ ['\t'] <+: line.toList

instance decidableIgnorable : (version : Version) → (line : String) →
    Decidable (Ignorable version line)
  | .v1, line => inferInstanceAs (Decidable (line = "" ∨ ['#'] <+: line.toList ∨
      (Text.columns line).head? = some "FIELD" ∨ (Text.columns line).head? = some "METHOD"))
  | .v2, line => inferInstanceAs (Decidable (line = "" ∨ ['\t'] <+: line.toList))

/-- The name in a column, unless it should be escaped and is not. -/
def readName? (escaping : Bool) (column : String) : Option String :=
  if escaping then unescape? column else some column

/-- The row of a class whose record has these columns: one name for each namespace, the last of them
empty if there are too few. -/
def rowOfColumns? (n : Nat) (escaping : Bool) (cols : List String) : Option (List String) :=
  if cols.length ≤ n then (cols.mapM (readName? escaping)).map (filled n) else none

/-- The row that a line adds, if it is a class record. -/
def row? (version : Version) (n : Nat) (escaping : Bool) (line : String) : Option (List String) :=
  match Text.columns line with
  | [] => none
  | kind :: cols => if kind = version.recordKind then rowOfColumns? n escaping cols else none

/-- A line that the grammar allows. -/
def Admitted (version : Version) (n : Nat) (escaping : Bool) (line : String) : Prop :=
  Ignorable version line ∨ (row? version n escaping line).isSome = true

instance decidableAdmitted : Decidable (Admitted version n escaping line) :=
  inferInstanceAs (Decidable (_ ∨ _))

/-- The lines that still belong to the header in the second version: those before the first that is
neither empty nor indented. -/
def headerLines (body : List String) : List String := body.takeWhile fun line => Ignorable .v2 line

/-- Whether a line of the header says that names are escaped. -/
def escapesIn (body : List String) : Bool :=
  (headerLines body).any fun line => ["", "escaped-names"].isPrefixOf (Text.columns line)

/-- Whether names are escaped, which they are in the second version only. -/
def escapes (version : Version) (body : List String) : Bool :=
  match version with
  | .v1 => false
  | .v2 => escapesIn body

/-! ### Class records -/

theorem toOption_mapM {α β ε : Type} (f : α → Except ε β) (list : List α) :
    (list.mapM f).toOption = list.mapM fun a => (f a).toOption := by
  induction list with
  | nil => rfl
  | cons a rest ih =>
    rw [List.mapM_cons, List.mapM_cons, ← ih]
    cases f a with
    | error e => rfl
    | ok b => cases rest.mapM f <;> rfl

theorem length_of_mapM {α β ε : Type} {f : α → Except ε β} {list : List α} {results : List β}
    (done : list.mapM f = .ok results) : results.length = list.length := by
  induction list generalizing results with
  | nil =>
    cases done
    rfl
  | cons a rest ih =>
    rw [List.mapM_cons] at done
    cases first : f a with
    | error e =>
      rw [first] at done
      cases done
    | ok b =>
      cases later : rest.mapM f with
      | error e =>
        rw [first, later] at done
        cases done
      | ok bs =>
        rw [first, later] at done
        cases done
        rw [List.length_cons, List.length_cons, ih later]

/-- Names are read column by column, and counted at the end. -/
theorem classNames_eq (escaping : Bool) : ∃ read : String → Except Complaint String,
    (∀ column, (read column).toOption = readName? escaping column) ∧
    ∀ n cols, classNames n escaping cols = cols.mapM read >>= fun names =>
      if n < names.length then .error (.tooManyNames names.length n) else .ok (filled n names) := by
  refine ⟨_, fun column => ?_, fun n cols => rfl⟩
  unfold readName?
  split
  case isTrue => cases unescape? column <;> rfl
  case isFalse => rfl

/-- The names of a record make a row just if the grammar says so. -/
theorem toOption_classNames (n : Nat) (escaping : Bool) (cols : List String) :
    (classNames n escaping cols).toOption = rowOfColumns? n escaping cols := by
  obtain ⟨read, reads, whole⟩ := classNames_eq escaping
  have names : cols.mapM (readName? escaping) = (cols.mapM read).toOption := by
    rw [toOption_mapM, funext reads]
  rw [whole, rowOfColumns?, names]
  cases done : cols.mapM read with
  | error e => split <;> rfl
  | ok names =>
    rw [← length_of_mapM done]
    by_cases fits : names.length ≤ n
    · have few : ¬ n < names.length := Nat.not_lt.mpr fits
      rw [if_pos fits]
      show Except.toOption (if n < names.length then _ else _) = _
      rw [if_neg few]
      rfl
    · rw [if_neg fits]
      show Except.toOption (if n < names.length then _ else _) = _
      rw [if_pos (Nat.not_le.mp fits)]
      rfl

/-! ### Verdicts on single lines -/

/-- A verdict on lines is that of a grammar: nothing for a line that is ignored, the row of a class
record, and a complaint about any other line. -/
structure Judges (verdict : String → Except Complaint (Option (List String)))
    (version : Version) (n : Nat) (escaping : Bool) : Prop where
  ignored : ∀ line, Ignorable version line →
    verdict line = .ok none ∧ row? version n escaping line = none
  record : ∀ line row, row? version n escaping line = some row → verdict line = .ok (some row)
  other : ∀ line, ¬ Admitted version n escaping line → ∃ complaint, verdict line = .error complaint

/-- No line is both a class record and ignored. -/
theorem row?_of_ignorable (ignorable : Ignorable version line) :
    row? version n escaping line = none := by
  obtain ⟨cols, whole⟩ := Text.exists_columns line
  -- A first column that is empty or starts with a hash sign is no kind of record.
  have kind : String.ofList (line.toList.takeWhile (· != '\t')) ≠ version.recordKind := by
    intro same
    have chars := congrArg String.toList same
    rw [String.toList_ofList] at chars
    cases version with
    | v1 =>
      rcases ignorable with rfl | ⟨rest, comment⟩ | member | member
      · cases chars
      · rw [← comment] at chars
        cases chars
      all_goals
        rw [whole, same] at member
        exact absurd member (by simp [Version.recordKind])
    | v2 =>
      rcases ignorable with rfl | ⟨rest, indented⟩
      · cases chars
      · rw [← indented] at chars
        cases chars
  rw [row?, whole]
  exact if_neg kind

/-- A verdict is that of the grammar if it passes over the lines that are ignored, and reads the
names of all others whose first column is that of a class record. -/
theorem judges_of {verdict : String → Except Complaint (Option (List String))}
    (ignored : ∀ line, Ignorable version line → verdict line = .ok none)
    (read : ∀ line, ¬ Ignorable version line → ∃ kind cols complaint,
      Text.columns line = kind :: cols ∧ verdict line =
        if kind = version.recordKind then some <$> classNames n escaping cols
        else .error complaint) : Judges verdict version n escaping := by
  have agrees (line : String) (kept : ¬ Ignorable version line) :
      (verdict line).toOption = (row? version n escaping line).map some := by
    obtain ⟨kind, cols, complaint, whole, judged⟩ := read line kept
    rw [judged, row?, whole]
    show _ = Option.map some (if kind = version.recordKind then _ else _)
    by_cases known : kind = version.recordKind
    · rw [if_pos known, if_pos known, ← toOption_classNames]
      cases classNames n escaping cols <;> rfl
    · rw [if_neg known, if_neg known]
      rfl
  refine ⟨fun line ignorable => ⟨ignored line ignorable, row?_of_ignorable ignorable⟩,
    fun line row found => ?_, fun line neither => ?_⟩
  · have kept : ¬ Ignorable version line := fun ignorable => by
      rw [row?_of_ignorable ignorable] at found
      cases found
    have same := agrees line kept
    rw [found] at same
    cases judged : verdict line with
    | error e =>
      rw [judged] at same
      cases same
    | ok row' =>
      rw [judged] at same
      cases same
      rfl
  · obtain ⟨kept, noRow⟩ := not_or.mp neither
    have same := agrees line kept
    rw [Option.not_isSome_iff_eq_none.mp noRow] at same
    cases judged : verdict line with
    | error e => exact ⟨e, rfl⟩
    | ok row' =>
      rw [judged] at same
      cases same

theorem judges_classOfLine1 (n : Nat) : Judges (classOfLine1 n) .v1 n false := by
  refine judges_of (fun line ignorable => ?_) fun line kept => ?_
  · unfold classOfLine1
    split
    case isTrue => rfl
    case isFalse some_line =>
      rcases ignorable with rfl | comment | member | member
      · exact absurd rfl some_line
      · exact absurd (by simp [String.startsWith_string_iff, comment]) some_line
      all_goals
        obtain ⟨cols, whole⟩ := List.head?_eq_some_iff.mp member
        rw [whole]
        rfl
  · obtain ⟨cols, whole⟩ := Text.exists_columns line
    generalize String.ofList _ = kind at whole
    refine ⟨kind, cols, .unknownKind kind, whole, ?_⟩
    unfold classOfLine1
    simp only [Ignorable, not_or, whole, List.head?_cons, Option.some.injEq] at kept
    obtain ⟨some_line, no_comment, no_field, no_method⟩ := kept
    have goesOn : (line.isEmpty || line.startsWith "#") = false := by
      simp [some_line, no_comment]
    rw [goesOn, if_neg Bool.false_ne_true, whole, Version.recordKind]
    split <;> simp_all

/-- What the second version makes of a line, indented or not. -/
def verdict2 (n : Nat) (escaping : Bool) (line : String) :
    Except Complaint (Option (List String)) :=
  if line.isEmpty || line.startsWith "\t" then .ok none else some <$> classOfLine2 n escaping line

theorem skipped2_iff : (line.isEmpty || line.startsWith "\t") = true ↔ Ignorable .v2 line := by
  simp [Ignorable, String.startsWith_string_iff]

theorem judges_verdict2 (n : Nat) (escaping : Bool) :
    Judges (verdict2 n escaping) .v2 n escaping := by
  refine judges_of (fun line ignorable => if_pos (skipped2_iff.mpr ignorable)) fun line kept => ?_
  obtain ⟨cols, whole⟩ := Text.exists_columns line
  generalize String.ofList _ = kind at whole
  refine ⟨kind, cols, .unexpectedRecord kind, whole, ?_⟩
  rw [verdict2, if_neg (mt skipped2_iff.mp kept), classOfLine2, whole, Version.recordKind]
  split <;> simp_all

/-! ### The walk over the lines -/

/-- The rows of lines with a verdict on each, up to the first complaint. -/
def classesFrom (verdict : String → Except Complaint (Option (List String))) (number : Nat) :
    List String → Except MappingError (List (List String))
  | [] => .ok []
  | line :: rest =>
    match verdict line with
    | .ok row => (row.toList ++ ·) <$> classesFrom verdict (number + 1) rest
    | .error complaint => .error (.malformed number complaint)

theorem append_map_append {ε α : Type} (front back : List α) (result : Except ε (List α)) :
    (front ++ ·) <$> (back ++ ·) <$> result = (front ++ back ++ ·) <$> result := by
  cases result with
  | error e => rfl
  | ok list => exact congrArg Except.ok (List.append_assoc ..).symm

/-- The reader of the first version is the walk. -/
theorem body1_eq (n number : Nat) (done : List (List String)) (lines : List String) :
    body1 n number done lines = (done.reverse ++ ·) <$>
      classesFrom (classOfLine1 n) number (lines.map Text.withoutReturns) := by
  induction lines generalizing number done with
  | nil => simp [body1, classesFrom]
  | cons line rest ih =>
    rw [List.map_cons, body1, classesFrom]
    cases verdict : classOfLine1 n (Text.withoutReturns line) with
    | error complaint => rfl
    | ok row =>
      rw [append_map_append]
      cases row with
      | none => simpa using ih (number + 1) done
      | some names => simpa using ih (number + 1) (names :: done)

/-- Whether names will turn out to be escaped, once the header is over. -/
def BodyState.settled (state : BodyState) (body : List String) : Bool :=
  state.escaping || (state.inHeader && escapesIn body)

theorem isEscapingProperty_eq (line : String) :
    isEscapingProperty line = ["", "escaped-names"].isPrefixOf (Text.columns line) := by
  unfold isEscapingProperty
  split
  case h_1 whole => simp [whole]
  case h_2 other =>
    refine (Bool.eq_false_iff.mpr fun starts => ?_).symm
    obtain ⟨tail, whole⟩ := List.isPrefixOf_iff_prefix.mp starts
    exact other tail whole.symm

theorem escapesIn_cons (rest : List String) (ignorable : Ignorable .v2 line) :
    escapesIn (line :: rest) = (isEscapingProperty line || escapesIn rest) := by
  rw [escapesIn, headerLines, List.takeWhile_cons, if_pos (decide_eq_true ignorable),
    List.any_cons, ← isEscapingProperty_eq]
  rfl

/-- The first line that is neither empty nor indented ends the header. -/
theorem escapesIn_cons_of_other (rest : List String) (other : ¬ Ignorable .v2 line) :
    escapesIn (line :: rest) = false := by
  rw [escapesIn, headerLines, List.takeWhile_cons, if_neg (mt of_decide_eq_true other)]
  rfl

/-- The reader of the second version is the walk, too.  Its state is only waiting for the header to
be over: what it will be then is the same before and after every line. -/
theorem body2_eq (n : Nat) (state : BodyState) (number : Nat) (done : List (List String))
    (lines : List String) : body2 n state number done lines = (done.reverse ++ ·) <$>
      classesFrom (verdict2 n (state.settled (lines.map Text.withoutReturns))) number
        (lines.map Text.withoutReturns) := by
  induction lines generalizing state number done with
  | nil => simp [body2, classesFrom]
  | cons ended rest ih =>
    rw [List.map_cons, body2, classesFrom]
    generalize Text.withoutReturns ended = line
    dsimp only
    by_cases ignorable : Ignorable .v2 line
    · have skipped : ∀ escaping, verdict2 n escaping line = .ok none := fun escaping =>
        if_pos (skipped2_iff.mpr ignorable)
      have same (turnsOn : Bool) (property : isEscapingProperty line = turnsOn) :
          state.settled (line :: rest.map Text.withoutReturns) =
            BodyState.settled ⟨state.inHeader, state.escaping || (state.inHeader && turnsOn)⟩
              (rest.map Text.withoutReturns) := by
        rw [BodyState.settled, BodyState.settled, escapesIn_cons _ ignorable, property]
        cases state.inHeader <;> simp [Bool.or_assoc]
      rw [skipped]
      by_cases empty : line = ""
      · have later := ih state (number + 1) done
        have settled := same false (by rw [empty]; rfl)
        rw [Bool.and_false, Bool.or_false] at settled
        rw [settled, empty]
        simpa using later
      · have indented : line.startsWith "\t" = true := by
          simpa [Ignorable, empty] using ignorable
        have settled := same _ rfl
        simpa [empty, indented, settled] using ih ⟨state.inHeader, _⟩ (number + 1) done
    · have settled : state.settled (line :: rest.map Text.withoutReturns) = state.escaping := by
        rw [BodyState.settled, escapesIn_cons_of_other _ ignorable, Bool.and_false, Bool.or_false]
      have goesOn := mt skipped2_iff.mp ignorable
      simp only [Bool.or_eq_true, not_or] at goesOn
      rw [if_neg goesOn.1, if_neg goesOn.2, settled, verdict2,
        if_neg (mt skipped2_iff.mp ignorable)]
      cases classOfLine2 n state.escaping line with
      | error complaint => rfl
      | ok names =>
        show _ = (done.reverse ++ ·) <$> (([names] : List (List String)) ++ ·) <$> _
        rw [append_map_append]
        simpa [BodyState.settled] using ih ⟨false, state.escaping⟩ (number + 1) (names :: done)

/-- **Lines that the grammar allows** give the rows of the class records among them. -/
theorem Judges.classesFrom_eq_ok {verdict : String → Except Complaint (Option (List String))}
    (judges : Judges verdict version n escaping) (number : Nat)
    (all : ∀ line ∈ body, Admitted version n escaping line) :
    classesFrom verdict number body = .ok (body.filterMap (row? version n escaping)) := by
  induction body generalizing number with
  | nil => rfl
  | cons line rest ih =>
    have later := ih (number + 1) fun other mem => all other (List.mem_cons_of_mem _ mem)
    rw [classesFrom, List.filterMap_cons]
    rcases all line List.mem_cons_self with ignorable | isRecord
    · obtain ⟨ignored, noRow⟩ := judges.ignored line ignorable
      rw [ignored, noRow, later]
      rfl
    · obtain ⟨row, found⟩ := Option.isSome_iff_exists.mp isRecord
      rw [judges.record line row found, found, later]
      rfl

/-- **The first other line** is blamed. -/
theorem Judges.classesFrom_eq_error {verdict : String → Except Complaint (Option (List String))}
    (judges : Judges verdict version n escaping) (number : Nat) (before after : List String)
    (all : ∀ line ∈ before, Admitted version n escaping line)
    (other : ¬ Admitted version n escaping line) : ∃ complaint,
    classesFrom verdict number (before ++ line :: after) =
      .error (.malformed (number + before.length) complaint) := by
  induction before generalizing number with
  | nil =>
    obtain ⟨complaint, judged⟩ := judges.other line other
    exact ⟨complaint, by rw [List.nil_append, classesFrom, judged]; rfl⟩
  | cons first rest ih =>
    obtain ⟨complaint, later⟩ := ih (number + 1) fun l mem => all l (List.mem_cons_of_mem _ mem)
    have judged : ∃ row, verdict first = .ok row := by
      rcases all first List.mem_cons_self with ignorable | isRecord
      · exact ⟨none, (judges.ignored first ignorable).1⟩
      · obtain ⟨row, found⟩ := Option.isSome_iff_exists.mp isRecord
        exact ⟨some row, judges.record first row found⟩
    obtain ⟨row, judged⟩ := judged
    refine ⟨complaint, ?_⟩
    rw [List.cons_append, classesFrom, judged, List.length_cons, Nat.add_comm rest.length,
      ← Nat.add_assoc]
    exact congrArg (Functor.map (row.toList ++ ·)) later

/-! ### Whole files -/

/-- A line that is allowed among those below a header. -/
def Allowed (version : Version) (namespaces body : List String) (line : String) : Prop :=
  Admitted version namespaces.length (escapes version body) line

instance decidableAllowed : Decidable (Allowed version namespaces body line) :=
  inferInstanceAs (Decidable (Admitted ..))

/-- The rows of the class records below a header, in their order. -/
def rowsOf (version : Version) (namespaces body : List String) : List (List String) :=
  body.filterMap (row? version namespaces.length (escapes version body))

/-- A text with a header is read as the walk over the lines below it. -/
theorem parse_headed (headed : Headed text version namespaces body) (named : namespaces ≠ []) :
    ∃ verdict, Judges verdict version namespaces.length (escapes version body) ∧
      parse text = MappingFile.mk version namespaces <$> classesFrom verdict 2 body := by
  obtain ⟨first, rest, lines, heads, rfl⟩ := headed
  have some_spaces : namespaces.isEmpty = false := by simpa using named
  rw [parse, lines]
  simp only [Version.ofHeader?]
  generalize Text.columns (Text.withoutReturns first) = header at heads
  cases heads with
  | v1 =>
    refine ⟨classOfLine1 namespaces.length, judges_classOfLine1 _, ?_⟩
    simp only [Version.ofColumns?, Version.headerWidth, List.drop_one, List.tail_cons, some_spaces,
      body1_eq]
    cases classesFrom (classOfLine1 namespaces.length) 2 (rest.map Text.withoutReturns) <;> rfl
  | v2 minor =>
    refine ⟨verdict2 namespaces.length (escapes .v2 _), judges_verdict2 _ _, ?_⟩
    simp only [Version.ofColumns?, Version.headerWidth, List.drop_succ_cons, List.drop_zero,
      some_spaces, body2_eq, BodyState.settled, Bool.false_or, Bool.true_and]
    show _ = MappingFile.mk .v2 namespaces <$>
      classesFrom (verdict2 namespaces.length (escapesIn (rest.map Text.withoutReturns))) 2 _
    cases classesFrom (verdict2 namespaces.length (escapesIn (rest.map Text.withoutReturns))) 2
      (rest.map Text.withoutReturns) <;> rfl

/-- A text that is read has a supported header. -/
theorem exists_headed_of_parse {file : MappingFile} (parsed : parse text = .ok file) :
    ∃ body, Headed text file.version file.namespaces body := by
  cases lines : Text.lines text with
  | nil =>
    rw [parse, lines] at parsed
    cases parsed
  | cons first rest =>
    obtain ⟨version, declared, named⟩ : ∃ version,
        Version.ofHeader? (Text.withoutReturns first) = some version ∧
        (Text.columns (Text.withoutReturns first)).drop version.headerWidth ≠ [] := by
      simp only [parse, lines] at parsed
      split at parsed
      case h_1 => cases parsed
      case h_2 version declared =>
        refine ⟨version, declared, fun none => ?_⟩
        rw [none] at parsed
        cases parsed
    have headed : Headed text version _ _ :=
      ⟨first, rest, lines, Version.heads_of_ofColumns? declared named, rfl⟩
    obtain ⟨verdict, -, whole⟩ := parse_headed headed named
    rw [whole] at parsed
    cases read : classesFrom verdict 2 (rest.map Text.withoutReturns) with
    | error e =>
      rw [read] at parsed
      cases parsed
    | ok classes =>
      rw [read] at parsed
      cases parsed
      exact ⟨_, headed⟩

theorem exists_first_other (some_other : ¬ ∀ line ∈ body, Allowed version namespaces body line) :
    ∃ before line after, body = before ++ line :: after ∧
      (∀ l ∈ before, Allowed version namespaces body l) ∧
      ¬ Allowed version namespaces body line := by
  push Not at some_other
  obtain ⟨line, mem, other⟩ := some_other
  have found : (body.find? fun line => ¬ Allowed version namespaces body line).isSome = true :=
    List.find?_isSome.mpr ⟨line, mem, decide_eq_true other⟩
  obtain ⟨first, found⟩ := Option.isSome_iff_exists.mp found
  obtain ⟨bad, before, after, split, good⟩ := List.find?_eq_some_iff_append.mp found
  exact ⟨before, first, after, split, fun l inside => by simpa using good l inside,
    of_decide_eq_true bad⟩

/-- **A mapping file is accepted exactly if each of its lines is**: it may be ignored, or it is a
class record.  The rows are those of the records, in their order.  If there is any other line, the
first of them is blamed, by its number. -/
theorem parse_grammar (headed : Headed text version namespaces body) (named : namespaces ≠ []) :
    ((∃ file, parse text = .ok file) ↔ ∀ line ∈ body, Allowed version namespaces body line) ∧
    (∀ file, parse text = .ok file →
      file = ⟨version, namespaces, rowsOf version namespaces body⟩) ∧
    ∀ before line after, body = before ++ line :: after →
      (∀ l ∈ before, Allowed version namespaces body l) →
      ¬ Allowed version namespaces body line →
      ∃ complaint, parse text = .error (.malformed (before.length + 2) complaint) := by
  obtain ⟨verdict, judges, whole⟩ := parse_headed headed named
  have accepted (all : ∀ line ∈ body, Allowed version namespaces body line) :
      parse text = .ok ⟨version, namespaces, rowsOf version namespaces body⟩ := by
    rw [whole, judges.classesFrom_eq_ok 2 all]
    rfl
  have blamed : ∀ before line after, body = before ++ line :: after →
      (∀ l ∈ before, Allowed version namespaces body l) →
      ¬ Allowed version namespaces body line →
      ∃ complaint, parse text = .error (.malformed (before.length + 2) complaint) := by
    intro before line after split all other
    obtain ⟨complaint, stop⟩ := judges.classesFrom_eq_error 2 before after all other
    refine ⟨complaint, ?_⟩
    rw [whole, split, stop, Nat.add_comm]
    rfl
  have every_of_parsed (file : MappingFile) (parsed : parse text = .ok file) :
      ∀ line ∈ body, Allowed version namespaces body line := by
    by_contra some_other
    obtain ⟨before, line, after, split, all, other⟩ := exists_first_other some_other
    obtain ⟨complaint, stop⟩ := blamed before line after split all other
    cases parsed.symm.trans stop
  refine ⟨⟨?_, fun all => ⟨_, accepted all⟩⟩, fun file parsed => ?_, blamed⟩
  · rintro ⟨file, parsed⟩
    exact every_of_parsed file parsed
  · cases parsed.symm.trans (accepted (every_of_parsed file parsed))
    rfl

/-- The lines below a header that turns escapes on, as the reader sees them. -/
def mixedLines : List String :=
  ["\tescaped-names\tyes", "", "c\ta\\tb\tX", "\tm\t()V\ta", "c\tq"]

/-- These lines as a text, some of them with carriage returns at their ends. -/
def mixedText : String :=
  "tiny\t2\t0\tintermediary\tnamed\r\n\tescaped-names\tyes\n\nc\ta\\tb\tX\r\r\n\tm\t()V\ta\nc\tq\n"

theorem headed_mixed : Headed mixedText .v2 ["intermediary", "named"] mixedLines :=
  ⟨_, _, rfl, .v2 "0" _, by decide⟩

/-- With two more lines: a column that does not unescape, and no record at all. -/
theorem headed_broken : Headed (mixedText ++ "c\ta\\x\nd\n") .v2 ["intermediary", "named"]
    (mixedLines ++ ["c\ta\\x", "d"]) :=
  ⟨_, _, rfl, .v2 "0" _, by decide⟩

theorem grammar_mixed : Headed mixedText .v2 ["intermediary", "named"] mixedLines ∧
    (∃ file, parse mixedText = .ok file ∧ file.classes = [["a\tb", "X"], ["q", ""]]) ∧
    ∃ complaint, parse (mixedText ++ "c\ta\\x\nd\n") = .error (.malformed 7 complaint) := by
  obtain ⟨accepted, rows, -⟩ := parse_grammar headed_mixed (by decide)
  obtain ⟨-, -, blamed⟩ := parse_grammar headed_broken (by decide)
  obtain ⟨file, parsed⟩ := accepted.mpr (by decide)
  refine ⟨headed_mixed, ⟨file, parsed, ?_⟩,
    blamed mixedLines "c\ta\\x" ["d"] rfl (by decide) (by decide)⟩
  rw [rows file parsed]
  decide

end MappingFile

end ClassNaming
