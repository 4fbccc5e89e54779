import ClassNaming.Proofs.Archive.Rebuilt
import ClassNaming.Proofs.ClassFile.NewBytes

/-!
# Archives that are rebuilt to themselves

If what an archive is rebuilt to has the bytes of the archive, then nothing in it was renamed.  That
takes one condition, at each depth: the bytes must not end as if there were a locator.  Then the
directory that was read is the one that was written, and an entry with a new content would have held
that content before.

## Main Definitions

* `Within` - the archives in an archive, at any depth

## Main Results

* `Rebuilds.unchanged` - what is rebuilt to itself did not change
-/

namespace ClassNaming.Archive

variable {renamer : Renamer} {archive : Archive} {h : Header} {r : Rebuilt} {depth : Nat}
  {bytes : ByteArray} {entries : List Packed} {p : Packed} {place start stop : Nat}

/-- An archive, or one in an entry of it, at any depth. -/
inductive Within : Archive → Archive → Prop
  | self {archive : Archive} : Within archive archive
  | inside {archive a b : Archive} {h : Header} {content : ByteArray} (member : h ∈ archive.headers)
      (kind : h.kind = .archive) (read : archive.content h = .ok content)
      (opened : Archive.ofBytes content = .ok a) (within : Within a b) : Within archive b

/-! ### The end of the archive -/

/-- An archive beyond the limits of the end record has a locator. -/
theorem seemsLarge_encode (beyond : full16 < entries.length ∨
    full32 < max (directoryOctets 0 entries).length (localOctets entries).length) :
    SeemsLarge (encode entries) := by
  have size := size_encode entries
  have lies : Lies (encode entries) ((localOctets entries).length +
      (directoryOctets 0 entries).length) (tail entries.length (directoryOctets 0 entries).length
        (localOctets entries).length) :=
    ⟨localOctets entries ++ directoryOctets 0 entries, [], by rw [toList_encode]; simp, by simp⟩
  have length : (tail entries.length (directoryOctets 0 entries).length
      (localOctets entries).length).length = 56 + (locatorSize + endSize) := by
    unfold tail
    rw [if_pos (by simpa using beyond)]
    simp [largeTail, locatorSize, endSize]
  unfold tail largeTail at lies
  rw [if_pos (by simpa using beyond)] at lies
  simp only [List.append_assoc] at lies
  obtain ⟨-, lies⟩ := lies.field_mod
  obtain ⟨-, lies⟩ := lies.field_mod
  obtain ⟨-, lies⟩ := lies.field_mod
  obtain ⟨-, lies⟩ := lies.field_mod
  obtain ⟨-, lies⟩ := lies.field_mod
  obtain ⟨-, lies⟩ := lies.field_mod
  obtain ⟨-, lies⟩ := lies.field_mod
  obtain ⟨-, lies⟩ := lies.field_mod
  obtain ⟨-, lies⟩ := lies.field_mod
  obtain ⟨-, lies⟩ := lies.field_mod
  obtain ⟨signature, -⟩ := lies.field (by decide)
  refine ⟨by omega, ?_⟩
  rw [← signature]
  congr 1
  omega

/-! ### The directory -/

theorem length_wideField_le (numbers : List Nat) :
    (wideField numbers).length ≤ 4 + 8 * numbers.length := by
  unfold wideField
  split
  case isTrue => exact Nat.zero_le _
  case isFalse =>
    have each : (numbers.flatMap (littleEndian 8)).length = 8 * numbers.length := by
      rw [List.length_flatMap, List.map_congr_left fun n _ => length_littleEndian 8 n]
      simp [Nat.mul_comm]
    simp only [List.length_append, length_littleEndian, each]
    omega

/-- The fields that tell the name and where the next header starts, in any header of the
directory. -/
theorem Packed.names_of_lies (lies : Lies bytes place (p.centralHeader start)) :
    numberAt bytes (place + 8) 2 = p.flags ∧
    numberAt bytes (place + 28) 2 = p.nameBytes.length % 0x10000 ∧
    (p.centralHeader start).length = centralSize + p.nameBytes.length
      + numberAt bytes (place + 30) 2 + numberAt bytes (place + 32) 2 ∧
    Lies bytes (place + centralSize) p.nameBytes := by
  have flagsSmall : p.flags < 0x100 ^ 2 := by
    unfold Packed.flags
    split <;> decide
  unfold Packed.centralHeader Packed.commonFields at lies ⊢
  dsimp only at lies ⊢
  have few := length_wideField_le ([p.size, p.compressedSize, start].filter (full32 < ·))
  have three := List.length_filter_le (full32 < ·) [p.size, p.compressedSize, start]
  simp only [List.length_cons, List.length_nil] at three
  generalize wideField ([p.size, p.compressedSize, start].filter (full32 < ·)) = wide at *
  simp only [List.append_assoc] at lies
  obtain ⟨-, lies⟩ := lies.field_mod
  obtain ⟨-, lies⟩ := lies.field_mod
  obtain ⟨-, lies⟩ := lies.field_mod
  obtain ⟨flags, lies⟩ := lies.field flagsSmall
  obtain ⟨-, lies⟩ := lies.field_mod
  obtain ⟨-, lies⟩ := lies.field_mod
  obtain ⟨-, lies⟩ := lies.field_mod
  obtain ⟨-, lies⟩ := lies.field_mod
  obtain ⟨-, lies⟩ := lies.field_mod
  obtain ⟨-, lies⟩ := lies.field_mod
  obtain ⟨nameSize, lies⟩ := lies.field_mod
  obtain ⟨extraSize, lies⟩ := lies.field (by omega)
  obtain ⟨commentSize, lies⟩ := lies.field (by decide)
  obtain ⟨-, lies⟩ := lies.field_mod
  obtain ⟨-, lies⟩ := lies.field_mod
  obtain ⟨-, lies⟩ := lies.field_mod
  obtain ⟨-, lies⟩ := lies.field_mod
  have extraSize : numberAt bytes (place + 30) 2 = wide.length := extraSize
  have commentSize : numberAt bytes (place + 32) 2 = 0 := commentSize
  refine ⟨flags, nameSize, ?_, lies.left⟩
  rw [extraSize, commentSize]
  simp only [List.length_append, length_littleEndian, centralSize]
  omega

/-- A name without some of its first characters takes no more bytes than the whole one. -/
theorem length_dropWhile_toUTF8_le (name : String) (skip : Char → Bool) :
    (String.ofList (name.toList.dropWhile skip)).toUTF8.data.toList.length ≤
      name.toUTF8.data.toList.length := by
  rw [Text.toList_toUTF8, Text.toList_toUTF8, String.toList_ofList]
  conv_rhs => rw [← List.takeWhile_append_dropWhile (p := skip) (l := name.toList)]
  rw [List.flatMap_append, List.length_append]
  exact Nat.le_add_left _ _

/-- An ASCII text takes a byte for each character. -/
theorem length_toUTF8_of_ascii {text : String} (ascii : ∀ c ∈ text.toList, c.toNat < 0x80) :
    text.toUTF8.data.toList.length = text.toList.length := by
  have decoded := congrArg List.length (decodeCodePage_of_ascii ascii)
  rwa [List.length_map, ← Text.toList_toUTF8] at decoded

/-- A name that is read from the bytes that were written for it was not cut off. -/
theorem Packed.length_nameBytes_le (readAt : ReadAt bytes place h stop)
    (lies : Lies bytes place (p.centralHeader start)) (same : p.name = h.writtenName) :
    p.nameBytes.length ≤ full16 := by
  obtain ⟨flags, nameSize, -, name⟩ := Packed.names_of_lies lies
  -- What is read of the name is as much as a size of two bytes can say.
  have cut : (slice bytes (place + centralSize) (p.nameBytes.length % 0x10000)).data.toList =
      p.nameBytes.take (p.nameBytes.length % 0x10000) := by
    obtain ⟨back, rest⟩ := name.drop_eq
    rw [toList_slice, rest, List.take_append_of_le_length (Nat.mod_le _ _)]
  have read := readAt.name
  rw [flags, nameSize, cut] at read
  have enough : p.nameBytes.length ≤ p.nameBytes.length % 0x10000 + 12 := by
    unfold Packed.flags at read
    split at read
    case isTrue ascii =>
      have ascii : ∀ c ∈ p.name.toList, c.toNat < 0x80 := by simpa using ascii
      have chars : p.name.toList.length ≤ h.name.toList.length := by
        rw [same, Header.writtenName, String.toList_ofList]
        exact (List.dropWhile_sublist _).length_le
      rw [if_neg (by decide), decodeCodePage] at read
      rw [read, String.toList_ofList, List.length_map, List.length_take] at chars
      have length : p.nameBytes.length = p.name.toList.length := length_toUTF8_of_ascii ascii
      omega
    case isFalse =>
      rw [if_pos (by decide)] at read
      have shorter := length_dropWhile_toUTF8_le h.name (· == '/')
      have few := Text.size_decodeLossy_take_le p.name (p.nameBytes.length % 0x10000)
      have whole : p.nameBytes.length =
          (String.ofList (h.name.toList.dropWhile (· == '/'))).toUTF8.data.toList.length :=
        congrArg (fun name : String => name.toUTF8.data.toList.length) same
      rw [read] at shorter whole
      exact whole.trans_le (shorter.trans few)
  unfold full16
  omega

/-- **Headers are read where they were written**, whatever they say, as long as their names are the
written ones.  Those of entries that fit the format are what was written. -/
theorem headers_of_lies {done headers : List Header} {i : Nat}
    (near : start + (localOctets entries).length ≤ full32)
    (lies : Lies bytes place (directoryOctets start entries))
    (read : readHeaders bytes 0 done place entries.length = .ok (done.reverse ++ headers))
    (named : ∀ (i : Nat) h p, headers[i]? = some h → entries[i]? = some p → p.name = h.writtenName)
    (header : headers[i]? = some h) (entry : entries[i]? = some p) :
    p.nameBytes.length ≤ full16 ∧ (p.Fits → h = p.header h.start ∧
      ∀ bytes, Lies bytes start (localOctets entries) →
        Lies bytes h.start (p.localHeader ++ p.raw.data.toList)) := by
  induction entries generalizing start place done headers i with
  | nil => cases entry
  | cons q rest ih =>
    rw [length_localOctets, List.map_cons, List.sum_cons, ← length_localOctets] at near
    rw [List.length_cons, readHeaders] at read
    split at read
    case h_1 => cases read
    case h_2 first next found =>
      obtain ⟨more, split⟩ := append_of_readHeaders read
      obtain rfl : headers = first :: more := by simpa using split
      have readAt := readAt_of_readHeader found
      have here : Lies bytes place (q.centralHeader start) := lies.left
      have short := Packed.length_nameBytes_le readAt here (named 0 _ _ rfl rfl)
      cases i with
      | zero =>
        obtain rfl := Option.some.inj header
        obtain rfl := Option.some.inj entry
        refine ⟨short, fun fits => ?_⟩
        have written := readHeader_of_lies fits (by omega) here
        obtain ⟨rfl, -⟩ := Prod.mk.inj (Except.ok.inj (found.symm.trans written))
        exact ⟨rfl, fun _ whole => whole.left⟩
      | succ i =>
        -- The next header starts where the written one ends, since nothing of the name is cut off.
        have length := (Packed.names_of_lies here).2.2.1
        have nameSize := (Packed.names_of_lies here).2.1
        have stops : next = place + (q.centralHeader start).length := by
          have stop_eq := readAt.stop_eq
          unfold full16 at short
          omega
        rw [stops] at read
        obtain ⟨fine, same⟩ := ih (by omega) lies.right (read.trans (by rw [split]))
          (fun i h p header entry => named (i + 1) h p header entry) header entry
        refine ⟨fine, fun fits => ?_⟩
        obtain ⟨equal, there⟩ := same fits
        refine ⟨equal, fun bytes whole => there bytes ?_⟩
        have behind := whole.right
        rwa [List.length_append, length_toList] at behind

/-! ### Archives that are rebuilt to themselves -/

theorem size_raw_le_of_local (mem : p ∈ entries) :
    p.raw.size ≤ (localOctets entries).length := by
  obtain ⟨front, back, rfl⟩ := List.append_of_mem mem
  rw [← length_toList]
  simp only [localOctets, List.flatMap_append, List.flatMap_cons, List.length_append]
  omega

/-- What a new content of an entry was before, if the archive is rebuilt to itself. -/
theorem Rebuilds.content_eq {i : Nat} {content : ByteArray}
    (rebuilds : Rebuilds renamer (depth + 1) archive r)
    (opened : Archive.ofBytes (encode r.entries) = .ok archive)
    (unambiguous : ¬ SeemsLarge (encode r.entries)) (header : archive.headers[i]? = some h)
    (entry : r.entries[i]? = some (.renewed h h.writtenName content)) :
    archive.content h = .ok content := by
  obtain ⟨count, each⟩ := rebuilds.entry
  have named : ∀ (i : Nat) h p, archive.headers[i]? = some h → r.entries[i]? = some p →
      p.name = h.writtenName := by
    intro i h p header entry
    obtain ⟨raw, replacement, -, -, -, rfl⟩ := each i h p header entry
    cases replacement <;> rfl
  have within : ¬ (full16 < r.entries.length ∨
      full32 < max (directoryOctets 0 r.entries).length (localOctets r.entries).length) :=
    fun beyond => unambiguous (seemsLarge_encode beyond)
  obtain ⟨lies, layout⟩ := readLayout_encode (by omega) (by omega) (by omega) unambiguous
  obtain ⟨bytes, _, found, read⟩ := parts_of_ofBytes opened
  cases layout.symm.trans found
  obtain ⟨short, written⟩ := headers_of_lies (by omega) lies read named header entry
  have fits : (Packed.renewed h h.writtenName content).Fits := by
    refine Packed.fits_renewed ?_ ?_
    · rwa [Packed.length_nameBytes] at short
    have small := size_raw_le_of_local (List.mem_of_getElem? entry)
    omega
  obtain ⟨same, there⟩ := written fits
  rw [same]
  exact content_renewed fits (there _ (bytes ▸ lies_localOctets r.entries))

/-- **What is rebuilt to itself did not change**, unless its bytes, or those of an archive in it,
seem to be those of a large archive. -/
theorem Rebuilds.unchanged (rebuilds : Rebuilds renamer depth archive r)
    (opened : Archive.ofBytes (encode r.entries) = .ok archive)
    (unambiguous : ∀ b, Within archive b → ¬ SeemsLarge b.bytes) : r.changed = false := by
  induction depth generalizing archive r with
  | zero => exact rebuilds.elim
  | succ depth ih =>
    by_contra changed
    rw [Bool.not_eq_false, rebuilds.changed_iff] at changed
    obtain ⟨h, member, rewritten⟩ := changed
    obtain ⟨i, inside, rfl⟩ := List.mem_iff_getElem.mp member
    obtain ⟨count, each⟩ := rebuilds.entry
    have header := List.getElem?_eq_getElem inside
    have entry := List.getElem?_eq_getElem (count ▸ inside)
    obtain ⟨raw, replacement, -, replaces, new, packed⟩ := each i _ _ header entry
    obtain ⟨content, rfl⟩ := Option.isSome_iff_exists.mp (new.mpr rewritten)
    have plain : ¬ SeemsLarge (encode r.entries) :=
      (parts_of_ofBytes opened).1 ▸ unambiguous archive .self
    have before := rebuilds.content_eq opened plain header (entry.trans (congrArg some packed))
    cases replaces with
    | renamedClass _ read verdict =>
      cases before.symm.trans read
      exact renameClass_ne verdict rfl
    | rebuiltArchive kind read opened' rebuilt changed =>
      cases before.symm.trans read
      have same := ih rebuilt opened' fun b within =>
        unambiguous b (.inside member kind read opened' within)
      rw [changed] at same
      cases same

namespace SelfRebuilt

/-- A class with one detail. -/
def oldClass : Packed :=
  .renewed (Boxed.blank storedMethod) "a.class" (ofOctets OneDetail.before.toBytes)

/-- The class with the new detail, to be read where the old one is. -/
def newClass : Packed :=
  .renewed (oldClass.header 235) "a.class" (ofOctets OneDetail.after.toBytes)

/-- An entry whose name is a locator. -/
def hull : Packed :=
  { name := "PK\x06\x07\x00\x00\x00\x00\x00\x02\x00\x00\x00\x00\x00\x00\x01\x00\x00\x00"
    method := storedMethod, time := 0, date := 0x21, crc := 0
    compressedSize := 352, size := 352, mode := 0o644, raw := .empty }

/-- What the locator leads to: the old class, a directory, and a 64-bit end record. -/
def hidden : List UInt8 :=
  List.replicate 19 0 ++ ((oldClass.localHeader ++ oldClass.raw.data.toList) ++
    (oldClass.centralHeader 235 ++ (hull.centralHeader 166 ++ (largeTail 2 119 393).take 56)))

def decoy : Packed := { hull with raw := ofOctets hidden }

/-- An archive that is read as the hidden one. -/
def looped : Archive :=
  ⟨encode [newClass, decoy], [oldClass.header 235, decoy.header 166]⟩

def rebuilt : Rebuilt := .addAll .start [(true, newClass), (false, decoy)]

theorem sizes : newClass.raw.size = 129 ∧ oldClass.raw.size = 121 ∧ hidden.length = 352 := by
  decide +kernel

theorem fits_oldClass : oldClass.Fits :=
  Packed.fits_renewed (by decide) (sizes.2.1.trans_le (by decide))

theorem fits_newClass : newClass.Fits :=
  Packed.fits_renewed (by decide) (sizes.1.trans_le (by decide))

theorem fits_decoy : decoy.Fits :=
  ⟨by decide, by decide, by decide, by decide, by decide, sizes.2.2⟩

theorem lies_decoy : Lies looped.bytes 166 (decoy.localHeader ++ decoy.raw.data.toList) := by
  have name : newClass.nameBytes.length = 7 := by decide
  have whole : Lies looped.bytes 0 (localOctets [newClass, decoy]) := lies_localOctets _
  rw [localOctets_cons, localOctets_cons] at whole
  have behind := whole.right.left
  rw [List.length_append, Packed.length_localHeader fits_newClass, name, length_toList, sizes.1]
    at behind
  exact behind

theorem lies_oldClass :
    Lies looped.bytes 235 (oldClass.localHeader ++ oldClass.raw.data.toList) ∧
      Lies looped.bytes 393 (oldClass.centralHeader 235 ++ hull.centralHeader 166) := by
  have inside := lies_decoy.right.right
  rw [Packed.length_localHeader fits_decoy, List.length_replicate] at inside
  have behind := inside.right
  rw [List.length_append, Packed.length_localHeader fits_oldClass, length_toList, sizes.2.1,
    ← List.append_assoc] at behind
  exact ⟨inside.left, behind.left⟩

theorem opens : Archive.ofBytes looped.bytes = .ok looped := by
  have layout : readLayout looped.bytes = .ok ⟨0, 393, 2⟩ := by decide +kernel
  have directory := lies_oldClass.2
  have behind := directory.right
  rw [Packed.length_centralHeader fits_oldClass (by decide)] at behind
  have second : Lies looped.bytes 446 (decoy.centralHeader 166) := behind
  refine ofBytes_of_parts layout ?_
  rw [readHeaders, readHeader_of_lies fits_oldClass (by decide) directory.left]
  show readHeaders looped.bytes 0 _ 446 1 = _
  rw [readHeaders, readHeader_of_lies fits_decoy (by decide) second]
  rfl

/-- **An archive can be rebuilt to itself though a class in it is renamed.** -/
theorem rebuilds : Rebuilds OneDetail.renamer nestingLimit looped rebuilt := by
  have name : (oldClass.header 235).writtenName = "a.class" := by decide
  have name' : (decoy.header 166).writtenName = decoy.name := by decide
  have mode : (decoy.header 166).mode? = some 0o644 := by decide
  have replaces : Replaces OneDetail.renamer (Rebuilds OneDetail.renamer 0xFFFFFFFF) looped
      (oldClass.header 235) (some (ofOctets OneDetail.after.toBytes)) :=
    .renamedClass (by decide) (content_renewed fits_oldClass lies_oldClass.1)
      OneDetail.renameClass_before
  refine ⟨_, .cons ⟨_, _, rawContent_of_lies fits_oldClass lies_oldClass.1, replaces, ?_⟩
    (.cons ⟨_, none, rawContent_of_lies fits_decoy lies_decoy, .other (by decide), ?_⟩ .nil), rfl⟩
  · rw [Header.packed, name, newClass]
  · rw [Header.packed, name', Packed.copied, mode]
    rfl

end SelfRebuilt

end ClassNaming.Archive
