import ClassNaming.ClassFile.Annotation
import ClassNaming.ClassFile.Basic
import ClassNaming.Proofs.ClassFile.Cursor

/-!
# Accepted bytes are whole

What a reader does next depends on what it has read, and never on how much is left.  So it does the
same on bytes that were cut short, up to the first field that is not there as a whole, and on bytes
with others behind them.  Bytes that were accepted are therefore accepted neither in part nor with
anything added, and the error tells which of the two was tried.

The reader of annotations needs an argument of its own: it gets a bound for the depth from the
number of all bytes, which is another one for every part.  But a level of nesting takes a byte, so
readers with different bounds agree wherever fewer bytes are left than either of them.

## Main Definitions

* `EndsWithin` - the data ends within the field that a reader asks for
* `Extent`, `Local` - the bytes that a value was read from, and readers that depend on nothing else
* `AgreeBelow` - readers that agree while few bytes are left
* `Whole` - bytes that can neither be cut short nor extended

## Main Results

* `Local.bind`, `Local.counted` - readers put together
* `Local.whole` - what a local reader accepts is whole
* `AnnotationInfo.parseAll_eq` - the bound for the depth is no part of what is read
* `accepted_is_whole` - class files and annotation payloads
-/

namespace ClassNaming

variable {α β : Type} {read read' : Reader α} {next next' : α → Reader β} {a : α} {b : β}
  {field bytes : List UInt8} {limit : Nat}

/-! ### Fields -/

/-- The data ends within the field that the reader asks for: it starts at the end of the data or
before, and wants more than there is. -/
def EndsWithin (read : Reader α) (cursor : Cursor) : Prop :=
  ∃ offset wanted, read cursor = .error (.unexpectedEnd offset wanted) ∧
    offset ≤ cursor.offset + cursor.rest.length ∧
    cursor.offset + cursor.rest.length < offset + wanted

/-- The bytes of a value: it is read from them whatever follows, and misses something if only a part
of them is there. -/
structure Extent (read : Reader α) (a : α) (field : List UInt8) : Prop where
  reads : Reads read a field
  cut : ∀ front, front <+: field → front ≠ field → ∀ offset, EndsWithin read ⟨offset, front⟩

/-- A reader that depends on the bytes of the value only. -/
def Local (read : Reader α) : Prop :=
  ∀ cursor a behind, read cursor = .ok (a, behind) →
    ∃ field, cursor.rest = field ++ behind.rest ∧ Extent read a field

/-- What two readers in a row make of a cursor: the second goes on where the first one stopped. -/
theorem Reader.bind_apply (cursor : Cursor) :
    (read >>= next) cursor = read cursor >>= fun found => next found.1 found.2 := rfl

namespace EndsWithin

/-- The data ends already within the first of two fields. -/
theorem bind {cursor : Cursor} (ends : EndsWithin read cursor) :
    EndsWithin (read >>= next) cursor := by
  obtain ⟨offset, wanted, stop, start, beyond⟩ := ends
  refine ⟨offset, wanted, ?_, start, beyond⟩
  rw [Reader.bind_apply, stop]
  rfl

/-- The first field is there, and the data ends within the second one. -/
theorem behind {offset : Nat} {back : List UInt8} (first : Reads read a field)
    (ends : EndsWithin (next a) ⟨offset + field.length, back⟩) :
    EndsWithin (read >>= next) ⟨offset, field ++ back⟩ := by
  obtain ⟨place, wanted, stop, start, beyond⟩ := ends
  have second : (read >>= next) ⟨offset, field ++ back⟩ = next a ⟨offset + field.length, back⟩ := by
    rw [Reader.bind_apply, first offset back]
    rfl
  have size : offset + (field ++ back).length = offset + field.length + back.length := by
    rw [List.length_append, Nat.add_assoc]
  refine ⟨place, wanted, second.trans stop, ?_, ?_⟩
  · rw [size]
    exact start
  · rw [size]
    exact beyond

end EndsWithin

theorem Extent.pure (a : α) : Extent (Pure.pure a) a [] where
  reads := .pure a
  cut _ isPart proper := absurd (List.prefix_nil.mp isPart) proper

/-- A part of two fields is a part of the first, or the first with a part of the second. -/
theorem Extent.bind {back : List UInt8} (first : Extent read a field)
    (second : Extent (next a) b back) : Extent (read >>= next) b (field ++ back) where
  reads := first.reads.bind second.reads
  cut front isPart proper offset := by
    have isBeginning : field <+: field ++ back := List.prefix_append field back
    rcases List.prefix_or_prefix_of_prefix isPart isBeginning with within | beyond
    · by_cases whole : front = field
      · subst whole
        have missing : back ≠ [] := by
          rintro rfl
          exact proper (List.append_nil front).symm
        have ends := second.cut [] List.nil_prefix missing.symm (offset + front.length)
        rw [← List.append_nil front]
        exact .behind first.reads ends
      · exact .bind (first.cut front within whole offset)
    · obtain ⟨rest, rfl⟩ := beyond
      have isPart' : rest <+: back := (List.prefix_append_right_inj field).mp isPart
      have proper' : rest ≠ back := fun same => proper (congrArg (field ++ ·) same)
      exact .behind first.reads (second.cut rest isPart' proper' _)

/-! ### Local readers -/

namespace Local

theorem pure (a : α) : Local (Pure.pure a : Reader α) := by
  intro cursor a' behind found
  obtain ⟨rfl, rfl⟩ := Reader.pure_eq_ok.mp found
  exact ⟨[], rfl, .pure a⟩

/-- A reader that always fails reads nothing. -/
theorem of_error (fails : ∀ cursor, ∃ e, read cursor = .error e) : Local read := by
  intro cursor a behind found
  obtain ⟨e, stop⟩ := fails cursor
  cases stop.symm.trans found

/-- Two local readers in a row are local. -/
theorem bind (first : Local read) (later : ∀ a, Local (next a)) : Local (read >>= next) := by
  intro cursor b behind found
  obtain ⟨a, between, found, more⟩ := Reader.bind_eq_ok.mp found
  obtain ⟨field, front, extent⟩ := first _ _ _ found
  obtain ⟨field', back, extent'⟩ := later a _ _ _ more
  exact ⟨field ++ field', by rw [front, back, List.append_assoc], extent.bind extent'⟩

/-- So is one whose result is changed afterwards. -/
theorem map (f : α → β) (first : Local read) : Local (f <$> read) := by
  rw [map_eq_pure_bind]
  exact first.bind fun a => pure (f a)

/-- A field of a fixed size. -/
theorem ofSize (count : Nat) : Local (readBytes count) := by
  intro cursor field behind found
  obtain ⟨rfl, whole, -⟩ := readBytes_eq_ok.mp found
  refine ⟨field, whole, reads_bytes field, fun front isPart proper offset => ?_⟩
  have short : front.length < field.length := by
    refine Nat.lt_of_le_of_ne isPart.length_le fun same => proper ?_
    exact isPart.eq_of_length same
  have stop : readBytes field.length ⟨offset, front⟩ =
      .error (.unexpectedEnd offset field.length) := by
    unfold readBytes
    split
    case h_1 taken rest split =>
      obtain ⟨_, size, rfl, -⟩ := splitBytes?_eq_some.mp split
      rw [List.length_append] at short
      omega
    case h_2 => rfl
  exact ⟨offset, field.length, stop, Nat.le_add_right .., Nat.add_lt_add_left short offset⟩

theorem u8 : Local readU8 := (ofSize 1).bind fun _ => pure _

theorem u16 : Local readU16 := (ofSize 2).bind fun _ => pure _

theorem u32 : Local readU32 := (ofSize 4).bind fun _ => pure _

theorem u64 : Local readU64 := u32.bind fun _ => u32.bind fun _ => pure _

/-- So many values, one after the other. -/
theorem more (each : Local read) (done : List α) (count : Nat) :
    Local (readMore read done count) := by
  induction count generalizing done with
  | zero => exact pure done.reverse
  | succ count ih => exact each.bind fun a => ih (a :: done)

/-- A reader of a count and of that many items is local if its reader of one item is. -/
theorem counted (each : Local read) : Local (readCounted read) :=
  u16.bind fun count => each.more [] count.toNat

end Local

/-! ### Whole byte sequences -/

/-- Bytes that can neither be cut short nor extended.  A part of them ends within a field, and what
is added is left over. -/
structure Whole (parse : List UInt8 → Except ClassFileError α) (bytes : List UInt8) : Prop where
  cut : ∀ front, front <+: bytes → front ≠ bytes → ∃ offset wanted,
    parse front = .error (.unexpectedEnd offset wanted) ∧
      offset ≤ front.length ∧ front.length < offset + wanted
  extended : ∀ more, more ≠ [] → parse (bytes ++ more) = .error (.trailingBytes more.length)

/-- **What a local reader accepts is whole.** -/
theorem Local.whole (isLocal : Local read) (accepted : read.readAll bytes = .ok a) :
    Whole read.readAll bytes := by
  obtain ⟨offset, found⟩ := Reader.readAll_eq_ok.mp accepted
  obtain ⟨field, same, extent⟩ := isLocal _ _ _ found
  obtain rfl : bytes = field := by simpa using same
  constructor
  · intro front isPart proper
    obtain ⟨offset, wanted, stop, start, beyond⟩ := extent.cut front isPart proper 0
    rw [Nat.zero_add] at start beyond
    refine ⟨offset, wanted, ?_, start, beyond⟩
    have run : StateT.run read ⟨0, front⟩ = .error (.unexpectedEnd offset wanted) := stop
    rw [Reader.readAll, run]
    rfl
  · intro more some
    obtain ⟨byte, rest, rfl⟩ := List.exists_cons_of_ne_nil some
    have run : StateT.run read ⟨0, bytes ++ byte :: rest⟩ =
        .ok (a, ⟨0 + bytes.length, byte :: rest⟩) := extent.reads 0 (byte :: rest)
    rw [Reader.readAll, run]
    rfl

/-! ### Class files -/

theorem Constant.local_readPair (make : UInt16 → UInt16 → Constant) : Local (readPair make) :=
  Local.u16.bind fun _ => Local.u16.bind fun _ => .pure _

/-- What follows a tag is read alike at every index. -/
theorem Constant.local_readTagged (index : UInt16) (tag : UInt8) :
    Local (readTagged index tag) := by
  unfold readTagged
  split
  case h_1 => exact Local.u16.bind fun size => (Local.ofSize size.toNat).map utf8
  case h_2 | h_3 => exact Local.u32.map _
  case h_4 | h_5 => exact Local.u64.map _
  case h_6 | h_7 | h_13 | h_16 | h_17 => exact Local.u16.map _
  case h_8 | h_9 | h_10 | h_11 | h_14 | h_15 => exact local_readPair _
  case h_12 => exact Local.u8.bind fun kind => Local.u16.map _
  case h_18 => exact .of_error fun _ => ⟨_, rfl⟩

theorem Constant.local_read (index : UInt16) : Local (Constant.read index) :=
  Local.u8.bind (local_readTagged index)

/-- The slots of a pool are read locally, whatever their count says. -/
theorem ConstantPool.local_readSlots (count fuel : Nat) (slots : Array Constant) :
    Local (readSlots count fuel slots) := by
  induction fuel generalizing slots with
  | zero => exact .pure slots
  | succ fuel ih =>
    unfold readSlots
    dsimp only
    split
    · exact (Constant.local_read _).bind fun constant => ih _
    · exact .pure slots

theorem ConstantPool.local_read : Local ConstantPool.read :=
  Local.u16.bind fun count => (local_readSlots count.toNat count.toNat #[]).bind fun _ => .pure _

/-- The length of an attribute says how many bytes are read. -/
theorem Attribute.local_read : Local Attribute.read :=
  Local.u16.bind fun _ => Local.u32.bind fun size => (Local.ofSize size.toNat).bind fun _ => .pure _

theorem Member.local_read : Local Member.read :=
  Local.u16.bind fun _ => Local.u16.bind fun _ => Local.u16.bind fun _ =>
    Attribute.local_read.counted.bind fun _ => .pure _

/-- All parts of a class behind its magic number are read locally. -/
theorem ClassFile.local_readBody : Local ClassFile.readBody :=
  Local.u16.bind fun _ => Local.u16.bind fun _ => ConstantPool.local_read.bind fun _ =>
    Local.u16.bind fun _ => Local.u16.bind fun _ => Local.u16.bind fun _ =>
      Local.u16.counted.bind fun _ => Member.local_read.counted.bind fun _ =>
        Member.local_read.counted.bind fun _ => Attribute.local_read.counted.bind fun _ => .pure _

theorem ClassFile.local_read : Local ClassFile.read := by
  refine Local.u32.bind fun found => ?_
  split
  · exact local_readBody
  · exact .of_error fun _ => ⟨_, rfl⟩

/-! ### Annotations -/

/-- A named value is read locally if a value is. -/
theorem ElementValue.local_readElement {readValue : Reader ElementValue}
    (value : Local readValue) : Local (readElement readValue) :=
  Local.u16.bind fun _ => value.bind fun _ => .pure _

/-- A value is read locally at every depth, by recursion over the depth. -/
theorem ElementValue.local_read (depth : Nat) : Local (ElementValue.read depth) := by
  induction depth with
  | zero => exact .of_error fun _ => ⟨_, rfl⟩
  | succ depth ih =>
    refine Local.u8.bind fun tag => ?_
    split
    · exact Local.u16.map _
    split
    · exact Local.u16.bind fun _ => Local.u16.map _
    split
    · exact Local.u16.map _
    split
    · exact Local.u16.bind fun _ => (local_readElement ih).counted.map _
    split
    · exact ih.counted.map _
    · exact .of_error fun _ => ⟨_, rfl⟩

theorem AnnotationInfo.local_read (depth : Nat) : Local (AnnotationInfo.read depth) :=
  Local.u16.bind fun _ =>
    (ElementValue.local_readElement (ElementValue.local_read depth)).counted.bind fun _ => .pure _

/-- Readers that agree while fewer than so many bytes are left. -/
def AgreeBelow (limit : Nat) (read read' : Reader α) : Prop :=
  ∀ cursor, cursor.rest.length < limit → read cursor = read' cursor

namespace AgreeBelow

theorem refl (read : Reader α) : AgreeBelow limit read read := fun _ _ => rfl

/-- A field does not add to the bytes that are left. -/
theorem bind (first : AgreeBelow limit read read') (isLocal : Local read)
    (later : ∀ a, AgreeBelow limit (next a) (next' a)) :
    AgreeBelow limit (read >>= next) (read' >>= next') := by
  intro cursor few
  rw [Reader.bind_apply, Reader.bind_apply, ← first cursor few]
  cases found : read cursor with
  | error e => rfl
  | ok found' =>
    obtain ⟨field, whole, -⟩ := isLocal _ _ _ found
    rw [whole, List.length_append] at few
    exact later _ _ (Nat.lt_of_le_of_lt (Nat.le_add_left ..) few)

/-- Readers that agree still do when their results are changed in the same way. -/
theorem map (f : α → β) (first : AgreeBelow limit read read') :
    AgreeBelow limit (f <$> read) (f <$> read') := by
  intro cursor few
  rw [map_eq_pure_bind, map_eq_pure_bind, Reader.bind_apply, Reader.bind_apply, first cursor few]

/-- Behind a tag there is a byte less. -/
theorem behind_tag {next next' : UInt8 → Reader β}
    (later : ∀ tag, AgreeBelow limit (next tag) (next' tag)) :
    AgreeBelow (limit + 1) (readU8 >>= next) (readU8 >>= next') := by
  intro cursor few
  rw [Reader.bind_apply, Reader.bind_apply]
  cases found : readU8 cursor with
  | error e => rfl
  | ok found' =>
    have whole := (Codec.u8.encodes _ _ _ found).2
    rw [whole, List.length_append, List.length_singleton] at few
    exact later _ _ (by omega)

/-- Readers that agree on an item agree on a row of them, each of which leaves fewer bytes. -/
theorem more (each : AgreeBelow limit read read') (isLocal : Local read) (done : List α)
    (count : Nat) : AgreeBelow limit (readMore read done count) (readMore read' done count) := by
  induction count generalizing done with
  | zero => exact refl _
  | succ count ih => exact each.bind isLocal fun a => ih (a :: done)

/-- So they agree on a count and that many items. -/
theorem counted (each : AgreeBelow limit read read') (isLocal : Local read) :
    AgreeBelow limit (readCounted read) (readCounted read') :=
  (refl readU16).bind .u16 fun count => each.more isLocal [] count.toNat

end AgreeBelow

theorem ElementValue.agree_readElement {readValue readValue' : Reader ElementValue}
    (agree : AgreeBelow limit readValue readValue') (isLocal : Local readValue) :
    AgreeBelow limit (readElement readValue) (readElement readValue') :=
  (AgreeBelow.refl readU16).bind .u16 fun _ => agree.bind isLocal fun _ => .refl _

/-- Bounds for the depth make no difference where fewer bytes are left than either of them. -/
theorem ElementValue.agree_read {depth depth' : Nat} (enough : limit ≤ depth)
    (enough' : limit ≤ depth') :
    AgreeBelow limit (ElementValue.read depth) (ElementValue.read depth') := by
  induction limit generalizing depth depth' with
  | zero => exact fun cursor few => absurd few (Nat.not_lt_zero _)
  | succ limit ih =>
    obtain ⟨depth, rfl⟩ : ∃ inner, depth = inner + 1 := Nat.exists_eq_add_one.mpr (by omega)
    obtain ⟨depth', rfl⟩ : ∃ inner, depth' = inner + 1 := Nat.exists_eq_add_one.mpr (by omega)
    have agree : AgreeBelow limit (ElementValue.read depth) (ElementValue.read depth') :=
      ih (by omega) (by omega)
    refine .behind_tag fun tag => ?_
    split
    · exact .refl _
    split
    · exact .refl _
    split
    · exact .refl _
    split
    · exact (AgreeBelow.refl readU16).bind .u16 fun _ =>
        ((agree_readElement agree (local_read depth)).counted
          (local_readElement (local_read depth))).map _
    split
    · exact (agree.counted (local_read depth)).map _
    · exact .refl _

/-- An annotation is read alike at all depths that exceed the bytes that are left. -/
theorem AnnotationInfo.agree_read {depth depth' : Nat} (enough : limit ≤ depth)
    (enough' : limit ≤ depth') :
    AgreeBelow limit (AnnotationInfo.read depth) (AnnotationInfo.read depth') :=
  (AgreeBelow.refl readU16).bind .u16 fun _ =>
    ((ElementValue.agree_readElement (ElementValue.agree_read enough enough')
      (ElementValue.local_read depth)).counted
        (ElementValue.local_readElement (ElementValue.local_read depth))).bind
          (ElementValue.local_readElement (ElementValue.local_read depth)).counted fun _ => .refl _

/-- The reader of a payload may be given any bound for the depth that its length does not exceed. -/
theorem AnnotationInfo.parseAll_eq {info : List UInt8} (depth : Nat)
    (enough : info.length < depth) :
    parseAll info = (readCounted (AnnotationInfo.read depth)).readAll info := by
  have agree := (agree_read (Nat.le_refl (info.length + 1)) enough).counted
    (local_read (info.length + 1)) ⟨0, info⟩ (Nat.lt_succ_self _)
  rw [parseAll, Reader.readAll, Reader.readAll]
  exact congrArg (fun outcome => outcome >>= _) agree

/-- A payload that is decoded is whole. -/
theorem AnnotationInfo.whole_of_parseAll {info : List UInt8} {annotations : List AnnotationInfo}
    (accepted : parseAll info = .ok annotations) : Whole parseAll info := by
  have whole (depth : Nat) (enough : info.length < depth) :
      Whole (readCounted (AnnotationInfo.read depth)).readAll info :=
    (local_read depth).counted.whole (parseAll_eq depth enough ▸ accepted)
  constructor
  · intro front isPart proper
    have fewer := isPart.length_le
    rw [parseAll_eq (info.length + 1) (by omega)]
    exact (whole _ (by omega)).cut front isPart proper
  · intro more some
    rw [parseAll_eq ((info ++ more).length + 1) (by omega)]
    exact (whole _ (by rw [List.length_append]; omega)).extended more some

/-- **Accepted bytes are whole**, be they those of a class file or of an annotation payload: a part
of them ends within a field, and what follows them is left over. -/
theorem accepted_is_whole (bytes : List UInt8) :
    ((∃ c, ClassFile.parse bytes = .ok c) → Whole ClassFile.parse bytes) ∧
    ((∃ annotations, AnnotationInfo.parseAll bytes = .ok annotations) →
      Whole AnnotationInfo.parseAll bytes) := by
  constructor
  · rintro ⟨c, accepted⟩
    exact ClassFile.local_read.whole accepted
  · rintro ⟨annotations, accepted⟩
    exact AnnotationInfo.whole_of_parseAll accepted

namespace Annotated

/-- A payload with an annotation in an annotation. -/
def payload : List UInt8 :=
  AnnotationInfo.encodeAll [⟨1, [(2, .array [.const 115 3, .nested 1 [(2, .classInfo 4)]])]⟩]

/-- A class with this payload, and with a wide constant. -/
def sample : ClassFile :=
  { minor := 0, major := 52, access := 0x21, thisClass := 0, superClass := 0
    pool := ⟨#[.utf8 [0x4A], .long 7, .unusable]⟩
    interfaces := [1], fields := [⟨0x12, 1, 1, [⟨1, []⟩]⟩], methods := []
    attributes := [⟨1, payload⟩] }

/-- Both parsers accept a sample. -/
theorem accepted_bytes : (∃ c, ClassFile.parse sample.toBytes = .ok c) ∧
    ∃ annotations, AnnotationInfo.parseAll payload = .ok annotations :=
  ⟨⟨_, rfl⟩, ⟨_, rfl⟩⟩

/-- So what they accept is whole. -/
theorem whole_bytes : (∃ c, ClassFile.parse sample.toBytes = .ok c) ∧
    (∃ annotations, AnnotationInfo.parseAll payload = .ok annotations) ∧
    Whole ClassFile.parse sample.toBytes ∧ Whole AnnotationInfo.parseAll payload :=
  ⟨accepted_bytes.1, accepted_bytes.2, (accepted_is_whole _).1 accepted_bytes.1,
    (accepted_is_whole _).2 accepted_bytes.2⟩

end Annotated

end ClassNaming
