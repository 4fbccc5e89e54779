import ClassNaming.Archive.Rebuild
import ClassNaming.Proofs.Archive.Deflate
import ClassNaming.Proofs.Text.Utf8

/-!
# Archives that are written and read again

An archive that was written opens, and has the entries that were written, as long as the plain
format can hold them.  Two conditions on top of that come from the reader.  It refuses an entry of
the method that stands for an encryption, since the field that would describe it is not written.
And it looks for a locator directly before the end record: should the directory happen to end with
octets that look like one, the archive is taken for a large one.

## Main Definitions

* `Packed.Fits` - an entry that the plain format can hold
* `Packed.header` - what is read of an entry
* `SeemsLarge` - bytes that end as if there were a locator

## Main Results

* `ofBytes_encode` - an archive that was written opens, with the entries in their order
* `rawContent_of_lies`, `content_renewed` - raw and new contents are the written ones
-/

namespace ClassNaming.Archive

variable {bytes : ByteArray} {p : Packed} {entries : List Packed} {place start shift : Nat}

/-! ### Names -/

/-- An ASCII character is one byte, and that byte of the code page is the character. -/
theorem codePageChar_of_ascii {c : Char} (ascii : c.toNat < 0x80) :
    (String.utf8EncodeChar c).map codePageChar = [c] := by
  have value : c.val.toNat < 0x80 := ascii
  have byte : (UInt8.ofNat c.val.toNat).toNat = c.val.toNat := by
    rw [UInt8.toNat_ofNat']
    omega
  have low : UInt8.ofNat c.val.toNat < 0x80 := by
    rw [UInt8.lt_iff_toNat_lt, byte]
    exact value
  unfold String.utf8EncodeChar
  dsimp only
  rw [if_pos (by omega), List.map_singleton, codePageChar, if_pos low, byte]
  exact congrArg (fun c => [c]) (Char.ofNat_toNat c)

/-- So an ASCII text is read alike by both encodings. -/
theorem decodeCodePage_of_ascii {text : List Char} (ascii : ∀ c ∈ text, c.toNat < 0x80) :
    (text.flatMap String.utf8EncodeChar).map codePageChar = text := by
  induction text with
  | nil => rfl
  | cons c text ih =>
    rw [List.flatMap_cons, List.map_append, codePageChar_of_ascii (ascii c List.mem_cons_self),
      ih fun c mem => ascii c (List.mem_cons_of_mem _ mem)]
    rfl

/-- The name that is read by the flags of an entry is the one that was written. -/
theorem Packed.name_of_flags (p : Packed) : (if p.flags.testBit 11 then
    Text.decodeLossy p.nameBytes else decodeCodePage p.nameBytes) = p.name := by
  unfold Packed.flags Packed.nameBytes
  split
  case isTrue ascii =>
    have plain : ∀ c ∈ p.name.toList, c.toNat < 0x80 := by simpa using ascii
    rw [if_neg (by decide), decodeCodePage, Text.toList_toUTF8, decodeCodePage_of_ascii plain]
    exact String.ofList_toList
  case isFalse => rw [if_pos (by decide), Text.decodeLossy_toUTF8]

/-! ### Entries -/

/-- An entry that the plain format can hold, and whose header is not refused. -/
structure Packed.Fits (p : Packed) : Prop where
  name : p.nameBytes.length ≤ full16
  method : p.method < 0x10000
  notEncrypted : p.method ≠ encryptedMethod
  size : p.size ≤ full32
  compressedSize : p.compressedSize ≤ full32
  complete : p.raw.size = p.compressedSize

/-- What is read of an entry whose local header starts at a place. -/
def Packed.header (p : Packed) (start : Nat) : Header :=
  { name := p.name
    isEncrypted := false
    method := p.method
    time := p.time
    date := p.date
    crc := p.crc
    compressedSize := p.compressedSize
    size := p.size
    host := unixHost
    attributes := UInt32.ofNat (p.mode * 0x10000 % 0x100 ^ 4)
    start }

/-- An entry that fits has no large fields. -/
theorem Packed.isLarge_eq_false (fits : p.Fits) : p.isLarge = false := by
  have size := fits.size
  have compressedSize := fits.compressedSize
  unfold Packed.isLarge
  rw [decide_eq_false_iff_not]
  omega

/-- The fields of a local header that is not large. -/
theorem Packed.localHeader_eq (fits : p.Fits) : p.localHeader =
    littleEndian 4 localSignature ++ (littleEndian 2 20 ++ (p.commonFields ++
      (littleEndian 4 p.compressedSize ++ (littleEndian 4 p.size ++
        (littleEndian 2 p.nameBytes.length ++ (littleEndian 2 0 ++ p.nameBytes)))))) := by
  unfold Packed.localHeader
  rw [Packed.isLarge_eq_false fits]
  simp only [wideField, neededVersion, List.isEmpty_nil, List.length_nil, List.append_assoc,
    List.append_nil, if_true, if_neg Bool.false_ne_true]

theorem Packed.length_commonFields (p : Packed) : p.commonFields.length = 12 := by
  simp [Packed.commonFields]

/-- Its header has the fixed fields and the name, and no more. -/
theorem Packed.length_localHeader (fits : p.Fits) :
    p.localHeader.length = localSize + p.nameBytes.length := by
  rw [Packed.localHeader_eq fits]
  simp only [List.length_append, length_littleEndian, Packed.length_commonFields, localSize]
  omega

/-- The fields of a header of the directory that is not large. -/
theorem Packed.centralHeader_eq (fits : p.Fits) (near : start ≤ full32) : p.centralHeader start =
    littleEndian 4 centralSignature ++ (littleEndian 1 writtenVersion ++ (littleEndian 1 unixHost ++
      (littleEndian 2 20 ++ (littleEndian 2 p.flags ++ (littleEndian 2 p.method ++
        (littleEndian 2 p.time.toNat ++ (littleEndian 2 p.date.toNat ++
          (littleEndian 4 p.crc.toNat ++ (littleEndian 4 p.compressedSize ++
            (littleEndian 4 p.size ++ (littleEndian 2 p.nameBytes.length ++ (littleEndian 2 0 ++
              (littleEndian 2 0 ++ (littleEndian 2 0 ++ (littleEndian 2 0 ++
                (littleEndian 4 (p.mode * 0x10000) ++ (littleEndian 4 start ++
                  p.nameBytes))))))))))))))))) := by
  have narrow : [p.size, p.compressedSize, start].filter (full32 < ·) = [] := by
    simp only [List.filter_eq_nil_iff, List.mem_cons, List.not_mem_nil, or_false,
      decide_eq_true_eq, Nat.not_lt]
    rintro _ (rfl | rfl | rfl)
    exacts [fits.size, fits.compressedSize, near]
  have version : littleEndian 2 (unixHost * 0x100 + writtenVersion) =
      littleEndian 1 writtenVersion ++ littleEndian 1 unixHost := rfl
  unfold Packed.centralHeader
  dsimp only
  rw [narrow, Nat.min_eq_left fits.size, Nat.min_eq_left fits.compressedSize,
    Nat.min_eq_left near, version]
  simp only [wideField, neededVersion, Packed.commonFields, List.isEmpty_nil, List.length_nil,
    List.append_assoc, List.append_nil, Bool.not_true, if_true, if_neg Bool.false_ne_true]

/-- So has its record in the directory. -/
theorem Packed.length_centralHeader (fits : p.Fits) (near : start ≤ full32) :
    (p.centralHeader start).length = centralSize + p.nameBytes.length := by
  rw [Packed.centralHeader_eq fits near]
  simp only [List.length_append, length_littleEndian, centralSize]
  omega

/-- No entry that is written is encrypted. -/
theorem Packed.flags_testBit (p : Packed) : p.flags.testBit 0 = false := by
  unfold Packed.flags
  split <;> rfl

/-- What the fields of a header of the directory are, at their places. -/
structure Packed.CentralAt (p : Packed) (start : Nat) (bytes : ByteArray) (place : Nat) : Prop where
  bound : place + centralSize + p.nameBytes.length ≤ bytes.size
  signature : numberAt bytes place 4 = centralSignature
  host : numberAt bytes (place + 5) 1 = unixHost
  flags : numberAt bytes (place + 8) 2 = p.flags
  method : numberAt bytes (place + 10) 2 = p.method
  time : numberAt bytes (place + 12) 2 = p.time.toNat
  date : numberAt bytes (place + 14) 2 = p.date.toNat
  crc : numberAt bytes (place + 16) 4 = p.crc.toNat
  compressedSize : numberAt bytes (place + 20) 4 = p.compressedSize
  size : numberAt bytes (place + 24) 4 = p.size
  nameSize : numberAt bytes (place + 28) 2 = p.nameBytes.length
  extraSize : numberAt bytes (place + 30) 2 = 0
  commentSize : numberAt bytes (place + 32) 2 = 0
  attributes : numberAt bytes (place + 38) 4 = p.mode * 0x10000 % 0x100 ^ 4
  start : numberAt bytes (place + 42) 4 = start
  name : slice bytes (place + centralSize) p.nameBytes.length = ofOctets p.nameBytes

/-- Where the record of an entry lies, its fields are found. -/
theorem Packed.centralAt_of_lies (fits : p.Fits) (near : start ≤ full32)
    (lies : Lies bytes place (p.centralHeader start)) : p.CentralAt start bytes place := by
  have bound := lies.bound
  rw [Packed.length_centralHeader fits near] at bound
  rw [Packed.centralHeader_eq fits near] at lies
  have nameSmall := fits.name
  have methodSmall := fits.method
  have sizeSmall := fits.size
  have compressedSmall := fits.compressedSize
  unfold full16 at nameSmall
  unfold full32 at sizeSmall compressedSmall near
  have flagsSmall : p.flags < 0x100 ^ 2 := by
    unfold Packed.flags
    split <;> decide
  obtain ⟨signature, lies⟩ := lies.field (by decide)
  obtain ⟨-, lies⟩ := lies.field (by decide)
  obtain ⟨host, lies⟩ := lies.field (by decide)
  obtain ⟨-, lies⟩ := lies.field (by decide)
  obtain ⟨flags, lies⟩ := lies.field flagsSmall
  obtain ⟨method, lies⟩ := lies.field (by omega)
  obtain ⟨time, lies⟩ := lies.field p.time.toNat_lt
  obtain ⟨date, lies⟩ := lies.field p.date.toNat_lt
  obtain ⟨crc, lies⟩ := lies.field p.crc.toNat_lt
  obtain ⟨compressedSize, lies⟩ := lies.field (by omega)
  obtain ⟨size, lies⟩ := lies.field (by omega)
  obtain ⟨nameSize, lies⟩ := lies.field (by omega)
  obtain ⟨extraSize, lies⟩ := lies.field (by decide)
  obtain ⟨commentSize, lies⟩ := lies.field (by decide)
  obtain ⟨-, lies⟩ := lies.field (by decide)
  obtain ⟨-, lies⟩ := lies.field (by decide)
  obtain ⟨attributes, lies⟩ := lies.field_mod
  obtain ⟨start, lies⟩ := lies.field (by omega)
  exact ⟨by omega, signature, host, flags, method, time, date, crc, compressedSize, size, nameSize,
    extraSize, commentSize, attributes, start, lies.slice⟩

/-- **A header of the directory is read as it was written.** -/
theorem readHeader_of_lies (fits : p.Fits) (near : start ≤ full32)
    (lies : Lies bytes place (p.centralHeader start)) : readHeader bytes 0 place =
      .ok (p.header start, place + (centralSize + p.nameBytes.length)) := by
  have fields := Packed.centralAt_of_lies fits near lies
  have bound := fields.bound
  have name : (ofOctets p.nameBytes).data.toList = p.nameBytes := rfl
  have small : ¬ start + 0 ≥ limit64 := by
    unfold full32 at near
    unfold limit64
    omega
  unfold centralSize at bound
  unfold readHeader
  simp only [bind, Except.bind, pure, Except.pure, throw, throwThe, MonadExceptOf.throw,
    fields.signature, fields.host, fields.flags, fields.method, fields.time, fields.date,
    fields.crc, fields.compressedSize, fields.size, fields.nameSize, fields.extraSize,
    fields.commentSize, fields.attributes, fields.start, fields.name, name, p.name_of_flags,
    extendHeader]
  rw [if_neg (by omega), if_neg (by decide), if_neg (by unfold centralSize; omega),
    if_neg (by unfold centralSize; omega)]
  have known : ¬ (decide (p.method = encryptedMethod) && !false) = true := by
    simpa using fits.notEncrypted
  rw [if_neg known, if_neg small, p.flags_testBit, UInt16.ofNat_toNat, UInt16.ofNat_toNat,
    UInt32.ofNat_toNat, Nat.add_assoc place]
  rfl

/-! ### The end record -/

/-- Bytes that end as if there were a locator before an end record without a comment. -/
def SeemsLarge (bytes : ByteArray) : Prop :=
  locatorSize + endSize ≤ bytes.size ∧
    numberAt bytes (bytes.size - (locatorSize + endSize)) 4 = locatorSignature

instance (bytes : ByteArray) : Decidable (SeemsLarge bytes) :=
  inferInstanceAs (Decidable (_ ∧ _))

/-- The octets of an end record. -/
def endOctets (entries directorySize directoryStart : Nat) : List UInt8 :=
  littleEndian 4 endSignature ++ (littleEndian 2 0 ++ (littleEndian 2 0 ++
    (littleEndian 2 entries ++ (littleEndian 2 entries ++ (littleEndian 4 directorySize ++
      (littleEndian 4 directoryStart ++ littleEndian 2 0))))))

theorem length_endOctets (entries directorySize directoryStart : Nat) :
    (endOctets entries directorySize directoryStart).length = endSize := by
  simp [endOctets, endSize]

/-- A small archive ends with the plain record. -/
theorem tail_eq {entries directorySize directoryStart : Nat} (few : entries ≤ full16)
    (short : directorySize ≤ full32) (near : directoryStart ≤ full32) :
    tail entries directorySize directoryStart = endOctets entries directorySize directoryStart := by
  have plain : ¬ (full16 < entries ∨ full32 < max directorySize directoryStart) := by omega
  unfold tail
  rw [if_neg (by simpa using plain), Nat.min_eq_left few, Nat.min_eq_left short,
    Nat.min_eq_left near]
  simp only [endOctets, List.nil_append, List.append_assoc]

/-- **An end record at the very end is read as it was written.** -/
theorem readEnd_of_lies {count directorySize directoryStart : Nat} (few : count ≤ full16)
    (short : directorySize ≤ full32) (near : directoryStart ≤ full32)
    (lies : Lies bytes place (endOctets count directorySize directoryStart))
    (last : bytes.size = place + endSize) : readEnd bytes =
      .ok ⟨place, 0, 0, count, count, directorySize, directoryStart, 0⟩ := by
  unfold full16 at few
  unfold full32 at short near
  unfold endOctets at lies
  obtain ⟨signature, lies⟩ := lies.field (by decide)
  obtain ⟨disk, lies⟩ := lies.field (by decide)
  obtain ⟨directoryDisk, lies⟩ := lies.field (by decide)
  obtain ⟨entriesHere, lies⟩ := lies.field (by omega)
  obtain ⟨entries, lies⟩ := lies.field (by omega)
  obtain ⟨size, lies⟩ := lies.field (by omega)
  obtain ⟨start, lies⟩ := lies.field (by omega)
  rw [← List.append_nil (littleEndian 2 0)] at lies
  obtain ⟨comment, -⟩ := lies.field (by decide)
  have fields : numberAt bytes (place + 4) 2 = 0 ∧ numberAt bytes (place + 6) 2 = 0 ∧
      numberAt bytes (place + 8) 2 = count ∧ numberAt bytes (place + 10) 2 = count ∧
      numberAt bytes (place + 12) 4 = directorySize ∧
      numberAt bytes (place + 16) 4 = directoryStart ∧ numberAt bytes (place + 20) 2 = 0 :=
    ⟨disk, directoryDisk, entriesHere, entries, size, start, comment⟩
  have found : ∀ left, findEnd? bytes place left = some place := fun left => by
    cases left <;> rw [findEnd?, if_pos signature]
  have there : bytes.size - endSize = place := by omega
  unfold readEnd
  simp only [there, found, fields]
  rw [if_neg (by omega), if_neg (by omega)]

/-- **The layout of an archive that ends with its directory and an end record.** -/
theorem readLayout_of_lies {count directorySize directoryStart : Nat} (few : count ≤ full16)
    (short : directorySize ≤ full32) (near : directoryStart ≤ full32)
    (lies : Lies bytes (directoryStart + directorySize)
      (endOctets count directorySize directoryStart))
    (last : bytes.size = directoryStart + directorySize + endSize)
    (plain : ¬ SeemsLarge bytes) : readLayout bytes = .ok ⟨0, directoryStart, count⟩ := by
  have noLocator : ∀ e : EndRecord, e.commentSize = 0 → locator? bytes e = none := by
    intro e noComment
    unfold locator?
    simp only [noComment, Nat.add_zero]
    refine if_neg fun seems => plain ?_
    simpa [SeemsLarge] using seems
  have inside : ¬ directoryStart + directorySize < directorySize + directoryStart := by omega
  have noShift : directoryStart + directorySize - directorySize - directoryStart = 0 := by omega
  unfold readLayout
  rw [readEnd_of_lies few short near lies last]
  simp only [bind, Except.bind, bne_self_eq_false, Bool.and_false, if_neg Bool.false_ne_true]
  rw [noLocator _ rfl]
  simp only [plainLayout, if_neg inside, noShift, Nat.add_zero]

/-! ### The whole archive -/

/-- The octets of local headers and raw contents. -/
def localOctets (entries : List Packed) : List UInt8 :=
  entries.flatMap fun p => p.localHeader ++ p.raw.data.toList

theorem localOctets_cons (p : Packed) (rest : List Packed) : localOctets (p :: rest) =
    (p.localHeader ++ p.raw.data.toList) ++ localOctets rest :=
  List.flatMap_cons

/-- The octets of the directory of entries of which the first one starts at a place. -/
def directoryOctets (start : Nat) : List Packed → List UInt8
  | [] => []
  | p :: rest =>
    p.centralHeader start ++ directoryOctets (start + (p.localHeader.length + p.raw.size)) rest

/-- What is read of entries of which the first one starts at a place. -/
def headersFrom (start : Nat) : List Packed → List Header
  | [] => []
  | p :: rest => p.header start :: headersFrom (start + (p.localHeader.length + p.raw.size)) rest

/-- Entries and directory grow side by side as entries are added. -/
theorem toList_foldl_add (entries : List Packed) (body : Body) :
    (entries.foldl Body.add body).contents.data.toList =
      body.contents.data.toList ++ localOctets entries ∧
    (entries.foldl Body.add body).directory.data.toList =
      body.directory.data.toList ++ directoryOctets body.contents.size entries := by
  induction entries generalizing body with
  | nil => simp [localOctets, directoryOctets]
  | cons p rest ih =>
    obtain ⟨contents, directory⟩ := ih (body.add p)
    have size : (body.add p).contents.size =
        body.contents.size + (p.localHeader.length + p.raw.size) := by
      simp only [Body.add, ByteArray.size_append, size_ofOctets, Nat.add_assoc]
    rw [List.foldl_cons, contents, directory, size]
    simp only [Body.add, toList_append, toList_ofOctets, localOctets, directoryOctets,
      List.flatMap_cons, List.append_assoc, and_self]

/-- The octets of a written archive, part by part. -/
theorem toList_encode (entries : List Packed) : (encode entries).data.toList =
    localOctets entries ++ (directoryOctets 0 entries ++ tail entries.length
      (directoryOctets 0 entries).length (localOctets entries).length) := by
  obtain ⟨contents, directory⟩ := toList_foldl_add entries ⟨.empty, .empty⟩
  have contents : (entries.foldl Body.add ⟨.empty, .empty⟩).contents.data.toList =
      localOctets entries := contents
  have directory : (entries.foldl Body.add ⟨.empty, .empty⟩).directory.data.toList =
      directoryOctets 0 entries := directory
  unfold encode
  simp only [toList_append, toList_ofOctets, contents, directory, ← length_toList,
    List.append_assoc]

/-- An archive that the plain format can hold, and that is not mistaken for a large one. -/
structure Plain (entries : List Packed) : Prop where
  fits : ∀ p ∈ entries, p.Fits
  few : entries.length ≤ full16
  short : (encode entries).size ≤ full32
  unambiguous : ¬ SeemsLarge (encode entries)

/-- The entries take the room of their headers and contents. -/
theorem length_localOctets (entries : List Packed) : (localOctets entries).length =
    (entries.map fun p => p.localHeader.length + p.raw.size).sum := by
  simp only [localOctets, List.length_flatMap, List.length_append, length_toList]

/-- **The records that were written are the headers that are read**, in their order. -/
theorem readHeaders_of_lies (fits : ∀ p ∈ entries, p.Fits)
    (near : start + (localOctets entries).length ≤ full32)
    (lies : Lies bytes place (directoryOctets start entries)) (done : List Header) :
    readHeaders bytes 0 done place entries.length =
      .ok (done.reverse ++ headersFrom start entries) := by
  induction entries generalizing start place done with
  | nil => simp [readHeaders, headersFrom]
  | cons p rest ih =>
    have fitsFirst := fits p List.mem_cons_self
    rw [length_localOctets, List.map_cons, List.sum_cons, ← length_localOctets] at near
    have behind := lies.right
    rw [Packed.length_centralHeader fitsFirst (by omega)] at behind
    have later := ih (fun q mem => fits q (List.mem_cons_of_mem _ mem)) (by omega) behind
    rw [List.length_cons, readHeaders, readHeader_of_lies fitsFirst (by omega) lies.left]
    simp only [later, headersFrom, List.reverse_cons, List.append_assoc, List.singleton_append]

/-- An archive opens if its layout is found and its directory can be read. -/
theorem ofBytes_of_parts {layout : Layout} {headers : List Header}
    (found : readLayout bytes = .ok layout)
    (read : readHeaders bytes layout.shift [] layout.directory layout.entries = .ok headers) :
    Archive.ofBytes bytes = .ok ⟨bytes, headers⟩ := by
  unfold Archive.ofBytes
  simp only [bind, Except.bind, pure, Except.pure, found, read]

/-- An archive has the size of its entries, its directory and its end. -/
theorem size_encode (entries : List Packed) : (encode entries).size =
    (localOctets entries).length + ((directoryOctets 0 entries).length + (tail entries.length
      (directoryOctets 0 entries).length (localOctets entries).length).length) := by
  rw [← length_toList, toList_encode, List.length_append, List.length_append]

/-- The layout of an archive that was written, if the limits of the end record are kept. -/
theorem readLayout_encode (few : entries.length ≤ full16)
    (short : (directoryOctets 0 entries).length ≤ full32)
    (near : (localOctets entries).length ≤ full32) (unambiguous : ¬ SeemsLarge (encode entries)) :
    Lies (encode entries) (localOctets entries).length (directoryOctets 0 entries) ∧
      readLayout (encode entries) = .ok ⟨0, (localOctets entries).length, entries.length⟩ := by
  have octets := toList_encode entries
  have size := size_encode entries
  rw [tail_eq few short near] at octets size
  rw [length_endOctets] at size
  have whole : Lies (encode entries) 0 (localOctets entries ++ (directoryOctets 0 entries ++
      endOctets entries.length (directoryOctets 0 entries).length
        (localOctets entries).length)) := ⟨[], [], by rw [octets]; simp, rfl⟩
  have directory := whole.right
  rw [Nat.zero_add] at directory
  exact ⟨directory.left, readLayout_of_lies few short near directory.right (by omega) unambiguous⟩

/-- **An archive that was written opens**, with its entries in their order. -/
theorem ofBytes_encode (plain : Plain entries) :
    Archive.ofBytes (encode entries) = .ok ⟨encode entries, headersFrom 0 entries⟩ := by
  have size := size_encode entries
  have short := plain.short
  obtain ⟨directory, layout⟩ :=
    readLayout_encode plain.few (by omega) (by omega) plain.unambiguous
  exact ofBytes_of_parts layout (readHeaders_of_lies plain.fits (by omega) directory [])

/-- Every header that is read belongs to the entry with its position, which lies where the header
says. -/
theorem exists_of_headersFrom {i : Nat} {h : Header}
    (there : (headersFrom start entries)[i]? = some h) : ∃ p, entries[i]? = some p ∧
      h = p.header h.start ∧ ∀ bytes, Lies bytes start (localOctets entries) →
        Lies bytes h.start (p.localHeader ++ p.raw.data.toList) := by
  induction entries generalizing start i with
  | nil => cases there
  | cons p rest ih =>
    cases i with
    | zero =>
      obtain rfl := Option.some.inj there
      exact ⟨p, rfl, rfl, fun _ lies => lies.left⟩
    | succ i =>
      obtain ⟨q, found, header, lies⟩ := ih there
      refine ⟨q, found, header, fun bytes whole => lies bytes ?_⟩
      have behind := whole.right
      rwa [List.length_append, length_toList] at behind

/-- There is a header for each entry. -/
theorem length_headersFrom (start : Nat) (entries : List Packed) :
    (headersFrom start entries).length = entries.length := by
  induction entries generalizing start with
  | nil => rfl
  | cons p rest ih => rw [headersFrom, List.length_cons, ih, List.length_cons]

/-! ### Contents -/

variable {archive : Archive}

/-- **A raw content is read as it was written.** -/
theorem rawContent_of_lies (fits : p.Fits)
    (lies : Lies archive.bytes start (p.localHeader ++ p.raw.data.toList)) :
    archive.rawContent (p.header start) = .ok p.raw := by
  have bound := lies.bound
  have raw := lies.right
  rw [List.length_append, Packed.length_localHeader fits] at bound
  rw [Packed.length_localHeader fits] at raw
  have cut : slice archive.bytes (start + localSize + p.nameBytes.length) p.compressedSize =
      p.raw := by
    rw [← fits.complete, ← length_toList, Nat.add_assoc, raw.slice, ofOctets_toList]
  have header := lies.left
  rw [Packed.localHeader_eq fits] at header
  have nameSmall := fits.name
  have sizeSmall := fits.size
  have compressedSmall := fits.compressedSize
  unfold full16 at nameSmall
  unfold full32 at sizeSmall compressedSmall
  obtain ⟨signature, header⟩ := header.field (by decide)
  obtain ⟨-, header⟩ := header.field (by decide)
  have header := header.right
  rw [Packed.length_commonFields] at header
  obtain ⟨-, header⟩ := header.field (by omega)
  obtain ⟨-, header⟩ := header.field (by omega)
  obtain ⟨nameSize, header⟩ := header.field (by omega)
  obtain ⟨extraSize, -⟩ := header.field (by decide)
  have fields : numberAt archive.bytes (start + 26) 2 = p.nameBytes.length ∧
      numberAt archive.bytes (start + 28) 2 = 0 := ⟨nameSize, extraSize⟩
  unfold localSize at bound
  unfold Archive.rawContent
  simp only [Packed.header, bind, Except.bind, pure, Except.pure, throw, throwThe,
    MonadExceptOf.throw, signature, fields, Nat.add_zero, cut]
  rw [if_neg (by omega), if_neg (by decide), if_neg (by unfold localSize; omega)]

theorem Packed.length_nameBytes (p : Packed) : p.nameBytes.length = p.name.toUTF8.size :=
  length_toList p.name.toUTF8

section Renewed

variable {h : Header} {name : String} {content : ByteArray}

/-- A renewed entry holds its content as it is or deflated. -/
theorem Packed.renewed_cases (h : Header) (name : String) (content : ByteArray) :
    (Packed.renewed h name content).method = storedMethod ∧
      (Packed.renewed h name content).raw = content ∨
    (Packed.renewed h name content).method = deflatedMethod ∧
      (Packed.renewed h name content).raw = deflateStored content := by
  by_cases stored : h.method = storedMethod
  · exact .inl (by simp [Packed.renewed, stored])
  · exact .inr (by simp [Packed.renewed, stored])

/-- A renewed entry fits the format if its name and its raw content do. -/
theorem Packed.fits_renewed (nameSmall : name.toUTF8.size ≤ full16)
    (short : (Packed.renewed h name content).raw.size ≤ full32) :
    (Packed.renewed h name content).Fits := by
  have nameFits := (Packed.length_nameBytes (.renewed h name content)).trans_le nameSmall
  rcases Packed.renewed_cases h name content with ⟨method, raw⟩ | ⟨method, raw⟩
  · exact ⟨nameFits, by rw [method]; decide, by rw [method]; decide, raw ▸ short, short, rfl⟩
  · have longer := size_le_size_deflateStored content
    exact ⟨nameFits, by rw [method]; decide, by rw [method]; decide,
      longer.trans (raw ▸ short), short, rfl⟩

/-- **A renewed entry holds its new content.** -/
theorem content_renewed (fits : (Packed.renewed h name content).Fits)
    (lies : Lies archive.bytes start ((Packed.renewed h name content).localHeader ++
      (Packed.renewed h name content).raw.data.toList)) :
    archive.content ((Packed.renewed h name content).header start) = .ok content := by
  have known : checked ((Packed.renewed h name content).header start) content = .ok content :=
    if_pos rfl
  have read := rawContent_of_lies fits lies
  have other : ¬ deflatedMethod = storedMethod := by decide
  unfold Archive.content
  rw [if_neg (by exact Bool.false_ne_true), read]
  rcases Packed.renewed_cases h name content with ⟨method, raw⟩ | ⟨method, raw⟩
  · have method : ((Packed.renewed h name content).header start).method = storedMethod := method
    simp only [method, raw, known, if_true]
  · have method : ((Packed.renewed h name content).header start).method = deflatedMethod := method
    simp only [method, raw, known, inflate_deflateStored, if_neg other, if_true]

end Renewed

end ClassNaming.Archive
