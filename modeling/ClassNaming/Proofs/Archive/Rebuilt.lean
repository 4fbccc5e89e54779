import ClassNaming.Proofs.Archive.Directory
import ClassNaming.Proofs.Archive.Renaming

/-!
# Rebuilt archives compared with the old ones

A rebuilt archive loses, repeats and moves no entry.  It opens, and its entries stand for those of
the old one, each at its position: either nothing about an entry changed but the slashes that its
name began with, or a class in it was renamed.

All of this is as far as the plain format can hold what was rebuilt.  Names can grow, since they are
written in another encoding; an entry can have declared more than the old archive held of it, or the
method of an encryption; and the directory can end with octets that are taken for a locator.  Such
an archive is written all the same.

## Main Definitions

* `Rewritten` - an entry that is a class with new details, or an archive that holds one
* `Representable` - an archive that the plain format can hold once it is rebuilt
* `Header.Keeps` - an entry that stayed as it was
* `IsRebuild`, `Becomes` - bytes compared with the archive that they were rebuilt from, and entries

## Main Results

* `Rebuilds.changed_iff` - an archive counts as changed if an entry of it is rewritten
* `renameArchive_isRebuild` - what becomes of an archive
-/

namespace ClassNaming.Archive

variable {renamer : Renamer} {archive : Archive} {h : Header} {r : Rebuilt} {label : String}
  {inner : Archive → Rebuilt → Prop} {depth : Nat} {bytes content : ByteArray}

/-- A class in the entry has new details: the entry is such a class, or it is an archive with an
entry of this kind. -/
inductive Rewritten (renamer : Renamer) : Archive → Header → Prop
  | renamedClass {archive : Archive} {h : Header} {content : ByteArray} {bytes : List UInt8}
      (kind : h.kind = .classFile) (read : archive.content h = .ok content)
      (verdict : renameClass renamer content.data.toList = some (.ok (.renamed bytes))) :
      Rewritten renamer archive h
  | inside {archive a : Archive} {h k : Header} {content : ByteArray} (kind : h.kind = .archive)
      (read : archive.content h = .ok content) (opened : Archive.ofBytes content = .ok a)
      (member : k ∈ a.headers) (rewritten : Rewritten renamer a k) : Rewritten renamer archive h

/-- The plain format can hold what the archive is rebuilt to, which takes these bytes, and they are
not taken for those of a large archive. -/
structure Representable (renamer : Renamer) (archive : Archive) (bytes : ByteArray) : Prop where
  names : ∀ h ∈ archive.headers, h.writtenName.toUTF8.size ≤ full16
  notEncrypted : ∀ h ∈ archive.headers, ¬ Rewritten renamer archive h → h.method ≠ encryptedMethod
  sizes : ∀ h ∈ archive.headers, ¬ Rewritten renamer archive h → h.size ≤ full32
  complete : ∀ h ∈ archive.headers, ¬ Rewritten renamer archive h →
    ∀ raw, archive.rawContent h = .ok raw → raw.size = h.compressedSize
  few : archive.headers.length ≤ full16
  short : bytes.size ≤ full32
  unambiguous : ¬ SeemsLarge bytes

/-- An entry has the raw content of another one, and everything that was declared about it. -/
structure Header.Keeps (archive out : Archive) (h h' : Header) : Prop where
  raw : out.rawContent h' = archive.rawContent h
  method : h'.method = h.method
  crc : h'.crc = h.crc
  compressedSize : h'.compressedSize = h.compressedSize
  size : h'.size = h.size
  time : h'.time = h.time
  date : h'.date = h.date

/-- Two entries of two archives have the same position. -/
def Paired (archive out : Archive) (h h' : Header) : Prop :=
  ∃ i : Nat, archive.headers[i]? = some h ∧ out.headers[i]? = some h'

mutual

/-- The bytes are those of an archive with the entries of another one, in their order. -/
inductive IsRebuild (renamer : Renamer) : Archive → ByteArray → Prop
  | intro {archive out : Archive} {bytes : ByteArray} (opened : Archive.ofBytes bytes = .ok out)
      (count : out.headers.length = archive.headers.length)
      (named : ∀ h h', Paired archive out h h' → h'.name = h.writtenName)
      (entries : ∀ h h', Paired archive out h h' → Becomes renamer archive out h h') :
      IsRebuild renamer archive bytes

/-- What an entry of an archive has become in another one. -/
inductive Becomes (renamer : Renamer) : Archive → Archive → Header → Header → Prop
  | kept {archive out : Archive} {h h' : Header} (same : ¬ Rewritten renamer archive h)
      (keeps : Header.Keeps archive out h h') : Becomes renamer archive out h h'
  | renamedClass {archive out : Archive} {h h' : Header} {content : ByteArray}
      {bytes : List UInt8} (kind : h.kind = .classFile) (read : archive.content h = .ok content)
      (verdict : renameClass renamer content.data.toList = some (.ok (.renamed bytes)))
      (now : out.content h' = .ok (ofOctets bytes)) : Becomes renamer archive out h h'
  | rebuiltArchive {archive out a : Archive} {h h' : Header} {content bytes : ByteArray}
      (kind : h.kind = .archive) (rewritten : Rewritten renamer archive h)
      (read : archive.content h = .ok content) (opened : Archive.ofBytes content = .ok a)
      (now : out.content h' = .ok bytes)
      (rebuilt : Representable renamer a bytes → IsRebuild renamer a bytes) :
      Becomes renamer archive out h h'

end

/-! ### What counts as changed -/

/-- What was rebuilt has changed if it had before, or one of the new entries is new. -/
theorem Rebuilt.changed_addAll (done : Rebuilt) (written : List (Bool × Packed)) :
    (done.addAll written).changed = (done.changed || written.any (·.1)) := by
  induction written generalizing done with
  | nil => simp [Rebuilt.addAll]
  | cons w rest ih =>
    have later := ih (done.add w.1 w.2)
    simpa only [Rebuilt.addAll, List.foldl_cons, Rebuilt.add, List.any_cons, Bool.or_assoc]
      using later

/-- New entries come behind the others. -/
theorem Rebuilt.entries_addAll (done : Rebuilt) (written : List (Bool × Packed)) :
    (done.addAll written).entries = done.entries ++ written.map (·.2) := by
  induction written generalizing done with
  | nil => simp [Rebuilt.addAll]
  | cons w rest ih =>
    have later := ih (done.add w.1 w.2)
    simpa [Rebuilt.addAll, Rebuilt.add, Rebuilt.entries] using later

/-- The content of an entry is replaced if it is rewritten. -/
theorem Replaces.isSome_iff {replacement : Option ByteArray}
    (changes : ∀ a r, inner a r → (r.changed = true ↔ ∃ k ∈ a.headers, Rewritten renamer a k))
    (replaces : Replaces renamer inner archive h replacement) :
    replacement.isSome = true ↔ Rewritten renamer archive h := by
  constructor
  · intro new
    cases replaces with
    | other | keptClass | keptArchive => cases new
    | renamedClass kind read verdict => exact .renamedClass kind read verdict
    | rebuiltArchive kind read opened rebuilt changed =>
      obtain ⟨k, member, rewritten⟩ := (changes _ _ rebuilt).mp changed
      exact .inside kind read opened member rewritten
  · intro rewritten
    cases replaces with
    | renamedClass | rebuiltArchive => rfl
    | other kind => cases rewritten <;> simp_all
    | keptClass kind read verdict => cases rewritten <;> simp_all
    | keptArchive kind read opened rebuilt same =>
      cases rewritten with
      | renamedClass kind' => cases kind.symm.trans kind'
      | inside _ read' opened' member rewritten =>
        cases read.symm.trans read'
        cases opened.symm.trans opened'
        cases same.symm.trans ((changes _ _ rebuilt).mpr ⟨_, member, rewritten⟩)

/-- What is written for an entry is new just if a class in it is renamed, given that this holds one
level down. -/
theorem Writes.isNew_iff {written : Bool × Packed}
    (changes : ∀ a r, inner a r → (r.changed = true ↔ ∃ k ∈ a.headers, Rewritten renamer a k))
    (writes : Writes renamer inner archive h written) :
    written.1 = true ↔ Rewritten renamer archive h := by
  obtain ⟨raw, replacement, -, replaces, rfl⟩ := writes
  rw [← replaces.isSome_iff changes]
  cases replacement <;> simp [Header.packed]

/-- One of the entries written is new just if one of the headers has something new. -/
theorem exists_new_iff {headers : List Header} {written : List (Bool × Packed)}
    {New : Header → Prop} (all : List.Forall₂ (fun h w => w.1 = true ↔ New h) headers written) :
    written.any (·.1) = true ↔ ∃ h ∈ headers, New h := by
  induction all with
  | nil => simp
  | cons first _ ih => simp [first, ih]

/-- **An archive counts as changed if an entry of it is rewritten.** -/
theorem Rebuilds.changed_iff (rebuilds : Rebuilds renamer depth archive r) :
    r.changed = true ↔ ∃ h ∈ archive.headers, Rewritten renamer archive h := by
  induction depth generalizing archive r with
  | zero => exact rebuilds.elim
  | succ depth ih =>
    obtain ⟨written, all, rfl⟩ := rebuilds
    rw [Rebuilt.changed_addAll]
    exact exists_new_iff (all.imp fun h w writes => writes.isNew_iff fun a r => ih)

/-! ### What fits the format -/

/-- What was written for an entry fits the format. -/
theorem Header.fits_packed {raw : ByteArray} {replacement : Option ByteArray}
    (representable : Representable renamer archive bytes) (member : h ∈ archive.headers)
    (small : h.method < 0x10000) (read : archive.rawContent h = .ok raw)
    (new : replacement.isSome = true ↔ Rewritten renamer archive h)
    (short : (h.packed raw replacement).2.raw.size ≤ full32) :
    (h.packed raw replacement).2.Fits := by
  have name := representable.names h member
  cases replacement with
  | none =>
    have kept : ¬ Rewritten renamer archive h := fun rewritten => by cases new.mpr rewritten
    have complete := representable.complete h member kept raw read
    have compressedSize : h.compressedSize ≤ full32 := complete ▸ short
    exact ⟨(Packed.length_nameBytes _).trans_le name, small,
      representable.notEncrypted h member kept, representable.sizes h member kept,
      compressedSize, complete⟩
  | some content => exact Packed.fits_renewed name short

/-- No entry is larger than the archive it is in. -/
theorem size_raw_le_of_mem {entries : List Packed} {p : Packed} (mem : p ∈ entries) :
    p.raw.size ≤ (encode entries).size := by
  obtain ⟨front, back, rfl⟩ := List.append_of_mem mem
  rw [← length_toList, ← length_toList, toList_encode]
  simp only [localOctets, List.flatMap_append, List.flatMap_cons, List.length_append]
  omega

/-- What was written for the entry at a position. -/
theorem Rebuilds.entry (rebuilds : Rebuilds renamer (depth + 1) archive r) :
    r.entries.length = archive.headers.length ∧
    ∀ (i : Nat) h p, archive.headers[i]? = some h → r.entries[i]? = some p →
      ∃ raw replacement, archive.rawContent h = .ok raw ∧
        Replaces renamer (Rebuilds renamer depth) archive h replacement ∧
        (replacement.isSome = true ↔ Rewritten renamer archive h) ∧
        p = (h.packed raw replacement).2 := by
  obtain ⟨written, all, rfl⟩ := rebuilds
  have entries : (Rebuilt.start.addAll written).entries = written.map (·.2) := by
    rw [Rebuilt.entries_addAll]
    rfl
  obtain ⟨count, each⟩ := List.forall₂_iff_get.mp all
  rw [entries]
  refine ⟨by rw [List.length_map, count], fun i h p header entry => ?_⟩
  obtain ⟨inside, rfl⟩ := List.getElem?_eq_some_iff.mp header
  rw [List.getElem?_map, List.getElem?_eq_getElem (count ▸ inside)] at entry
  obtain ⟨raw, replacement, read, replaces, packed⟩ := each i inside (count ▸ inside)
  have new := replaces.isSome_iff fun a r => Rebuilds.changed_iff
  refine ⟨raw, replacement, read, replaces, new, ?_⟩
  rw [← Option.some.inj entry]
  exact congrArg Prod.snd packed

/-- What a representable archive is rebuilt to fits the format. -/
theorem Rebuilds.plain (rebuilds : Rebuilds renamer (depth + 1) archive r)
    (small : ∀ h ∈ archive.headers, h.method < 0x10000)
    (representable : Representable renamer archive (encode r.entries)) : Plain r.entries := by
  obtain ⟨count, each⟩ := rebuilds.entry
  refine ⟨fun p mem => ?_, count ▸ representable.few, representable.short,
    representable.unambiguous⟩
  obtain ⟨i, inside, rfl⟩ := List.mem_iff_getElem.mp mem
  have header := List.getElem?_eq_getElem (count ▸ inside)
  obtain ⟨raw, replacement, read, -, new, packed⟩ :=
    each i _ _ header (List.getElem?_eq_getElem inside)
  have member := List.mem_of_getElem? header
  have short := (size_raw_le_of_mem mem).trans representable.short
  rw [packed] at short ⊢
  exact Header.fits_packed representable member (small _ member) read new short

/-! ### Reading the rebuilt archive -/

/-- The entries lie at the start of an archive. -/
theorem lies_localOctets (entries : List Packed) :
    Lies (encode entries) 0 (localOctets entries) :=
  ⟨[], _, by rw [toList_encode, List.nil_append], rfl⟩

/-- What an entry has become whose content was kept or replaced. -/
theorem Replaces.becomes {out : Archive} {h' : Header} {raw : ByteArray}
    {replacement : Option ByteArray} (read : archive.rawContent h = .ok raw)
    (replaces : Replaces renamer inner archive h replacement)
    (new : replacement.isSome = true ↔ Rewritten renamer archive h)
    (rebuilt : ∀ content a r, Archive.ofBytes content = .ok a → inner a r →
      Representable renamer a (encode r.entries) → IsRebuild renamer a (encode r.entries))
    (fits : (h.packed raw replacement).2.Fits)
    (same : h' = (h.packed raw replacement).2.header h'.start)
    (lies : Lies out.bytes h'.start ((h.packed raw replacement).2.localHeader ++
      (h.packed raw replacement).2.raw.data.toList)) : Becomes renamer archive out h h' := by
  have kept (none : replacement = none) : Becomes renamer archive out h h' := by
    subst none
    refine .kept (fun rewritten => by cases new.mpr rewritten) ?_
    have raw' := rawContent_of_lies fits lies
    rw [← same] at raw'
    rw [same]
    exact ⟨(same ▸ raw').trans read.symm, rfl, rfl, rfl, rfl, rfl, rfl⟩
  cases replaces with
  | other | keptClass | keptArchive => exact kept rfl
  | renamedClass kind found verdict =>
    exact .renamedClass kind found verdict (same ▸ content_renewed fits lies)
  | rebuiltArchive kind found opened inner =>
    exact .rebuiltArchive kind (new.mp rfl) found opened (same ▸ content_renewed fits lies)
      (rebuilt _ _ _ opened inner)

/-- **A rebuilt archive opens, and its entries stand for the old ones.** -/
theorem Rebuilds.isRebuild (rebuilds : Rebuilds renamer depth archive r)
    (small : ∀ h ∈ archive.headers, h.method < 0x10000)
    (representable : Representable renamer archive (encode r.entries)) :
    IsRebuild renamer archive (encode r.entries) := by
  induction depth generalizing archive r with
  | zero => exact rebuilds.elim
  | succ depth ih =>
    have plain := rebuilds.plain small representable
    obtain ⟨count, each⟩ := rebuilds.entry
    refine .intro (ofBytes_encode plain) (by rw [length_headersFrom, count]) ?_ ?_
    · rintro h h' ⟨i, header, header'⟩
      obtain ⟨p, entry, same, -⟩ := exists_of_headersFrom header'
      obtain ⟨raw, replacement, -, -, -, rfl⟩ := each i h p header entry
      rw [same]
      cases replacement <;> rfl
    · rintro h h' ⟨i, header, header'⟩
      obtain ⟨p, entry, same, lies⟩ := exists_of_headersFrom header'
      obtain ⟨raw, replacement, read, replaces, new, rfl⟩ := each i h p header entry
      have fits := plain.fits _ (List.mem_of_getElem? entry)
      exact replaces.becomes read new (fun content a r opened inner =>
        ih inner (method_lt_of_ofBytes opened)) fits same (lies _ (lies_localOctets _))

/-- **What becomes of an archive.**  It counts as changed if details were renamed at any depth, and
what was written for it compares with it entry by entry. -/
theorem renameArchive_isRebuild {p p' : Progress} (opened : Archive.ofBytes bytes = .ok archive)
    (does : Does (archive.renameArchive renamer label) p r p') :
    (r.changed = true ↔ ∃ h ∈ archive.headers, Rewritten renamer archive h) ∧
      (Representable renamer archive (encode r.entries) →
        IsRebuild renamer archive (encode r.entries)) := by
  have rebuilds := (yields_renameArchive r p).mp ⟨p', does⟩
  exact ⟨rebuilds.changed_iff, rebuilds.isRebuild (method_lt_of_ofBytes opened)⟩

namespace Boxed

/-- A header of which only the method counts. -/
def blank (method : Nat) : Header :=
  { name := "", isEncrypted := false, method, time := 0, date := 0x21, crc := 0
    compressedSize := 0, size := 0, host := unixHost, attributes := 0, start := 0 }

/-- A class with one detail, under a name that begins with a slash. -/
def oldClass : Packed :=
  .renewed (blank storedMethod) "/A.class" (ofOctets OneDetail.before.toBytes)

/-- The class with the new detail. -/
def newClass : Packed :=
  .renewed (oldClass.header 0) "A.class" (ofOctets OneDetail.after.toBytes)

/-- An archive that holds the class. -/
def boxed : Archive := ⟨encode [oldClass], headersFrom 0 [oldClass]⟩

def rebuiltBoxed : Rebuilt := .addAll .start [(true, newClass)]

def text : Packed := .renewed (blank deflatedMethod) "b.txt" (ofOctets [0x78])

/-- The archive as an entry. -/
def box : Packed := .renewed (blank storedMethod) "c.jar" boxed.bytes

/-- Where the local header of the inner archive starts. -/
def place : Nat := 0 + (text.localHeader.length + text.raw.size)

/-- An archive that holds a text and the other archive. -/
def outer : Archive := ⟨encode [text, box], [text.header 0, box.header place]⟩

def rebuiltOuter : Rebuilt := .addAll .start
  [(false, .copied (text.header 0) "b.txt" text.raw),
    (true, .renewed (box.header place) "c.jar" (encode rebuiltBoxed.entries))]

theorem fits_oldClass : oldClass.Fits := Packed.fits_renewed (by decide) (by decide)

theorem fits_text : text.Fits := Packed.fits_renewed (by decide) (by decide)

/-- None of the archives is large, nor does it seem to be. -/
theorem small : ∀ entries ∈ [[oldClass], [text, box], rebuiltOuter.entries],
    (encode entries).size ≤ full32 ∧ ¬ SeemsLarge (encode entries) := by
  decide +kernel

/-- What is written of the inner archive is a plain archive. -/
theorem plain_boxed : Plain [oldClass] :=
  have small := small _ (by simp)
  ⟨List.forall_mem_singleton.mpr fits_oldClass, by decide, small.1, small.2⟩

theorem fits_box : box.Fits := Packed.fits_renewed (by decide) plain_boxed.short

/-- So is what is written of the outer one. -/
theorem plain_outer : Plain [text, box] :=
  have small := small _ (by simp)
  ⟨List.forall_mem_cons.mpr ⟨fits_text, List.forall_mem_singleton.mpr fits_box⟩, by decide,
    small.1, small.2⟩

theorem lies_oldClass :
    Lies boxed.bytes 0 (oldClass.localHeader ++ oldClass.raw.data.toList) :=
  (lies_localOctets [oldClass]).left

theorem lies_text : Lies outer.bytes 0 (text.localHeader ++ text.raw.data.toList) :=
  (lies_localOctets [text, box]).left

theorem lies_box : Lies outer.bytes place (box.localHeader ++ box.raw.data.toList) := by
  have behind := (lies_localOctets [text, box]).right
  rw [List.length_append, length_toList] at behind
  exact behind.left

/-- In the inner archive the class is renamed. -/
theorem rebuilds_boxed (depth : Nat) :
    Rebuilds OneDetail.renamer (depth + 1) boxed rebuiltBoxed := by
  refine ⟨[(true, newClass)], .cons ?_ .nil, rfl⟩
  have replaces : Replaces OneDetail.renamer (Rebuilds OneDetail.renamer depth) boxed
      (oldClass.header 0) (some (ofOctets OneDetail.after.toBytes)) :=
    .renamedClass (by decide) (content_renewed fits_oldClass lies_oldClass)
      OneDetail.renameClass_before
  have name : (oldClass.header 0).writtenName = "A.class" := by decide
  refine ⟨_, _, rawContent_of_lies fits_oldClass lies_oldClass, replaces, ?_⟩
  rw [Header.packed, name, newClass]

/-- In the outer one the text is copied, and the inner archive is rebuilt. -/
theorem rebuilds_outer (depth : Nat) :
    Rebuilds OneDetail.renamer (depth + 2) outer rebuiltOuter := by
  refine ⟨_, .cons ?_ (.cons ?_ .nil), rfl⟩
  · have name : (text.header 0).writtenName = "b.txt" := by decide
    refine ⟨_, _, rawContent_of_lies fits_text lies_text, .other (by decide), ?_⟩
    rw [Header.packed, name]
  · have replaces : Replaces OneDetail.renamer (Rebuilds OneDetail.renamer (depth + 1)) outer
        (box.header place) (some (encode rebuiltBoxed.entries)) :=
      .rebuiltArchive (by decide) (content_renewed fits_box lies_box) (ofBytes_encode plain_boxed)
        (rebuilds_boxed depth) rfl
    have name : (box.header place).writtenName = "c.jar" := by decide
    refine ⟨_, _, rawContent_of_lies fits_box lies_box, replaces, ?_⟩
    rw [Header.packed, name]

/-- Both archives stay within what can be written. -/
theorem representable :
    Representable OneDetail.renamer outer (encode rebuiltOuter.entries) := by
  have members {P : Header → Prop} (first : P (text.header 0)) (second : P (box.header place)) :
      ∀ h ∈ outer.headers, P h :=
    List.forall_mem_cons.mpr ⟨first, List.forall_mem_singleton.mpr second⟩
  refine ⟨members (by decide) (by decide), members ?_ ?_, members ?_ ?_,
    members ?_ ?_, by decide, (small _ (by simp)).1, (small _ (by simp)).2⟩
  · exact fun _ => by decide
  · exact fun _ => by decide
  · exact fun _ => fits_text.size
  · exact fun _ => fits_box.size
  · intro _ raw read
    cases (rawContent_of_lies fits_text lies_text).symm.trans read
    rfl
  · intro _ raw read
    cases (rawContent_of_lies fits_box lies_box).symm.trans read
    rfl

/-- So the outer archive opens, its class was renamed, and what is written is its rebuilt form. -/
theorem isRebuild_outer : Archive.ofBytes outer.bytes = .ok outer ∧
    (∃ p', Does (outer.renameArchive OneDetail.renamer "a.jar") .start rebuiltOuter p') ∧
    (∃ h ∈ outer.headers, Rewritten OneDetail.renamer outer h) ∧
    IsRebuild OneDetail.renamer outer (encode rebuiltOuter.entries) := by
  have levels : nestingLimit = 0xFFFFFFFE + 2 := rfl
  have rebuilds := rebuilds_outer 0xFFFFFFFE
  rw [← levels] at rebuilds
  obtain ⟨p', does⟩ := (yields_renameArchive rebuiltOuter .start).mpr rebuilds
  obtain ⟨changed, isRebuild⟩ := renameArchive_isRebuild (ofBytes_encode plain_outer) does
  exact ⟨ofBytes_encode plain_outer, ⟨p', does⟩, changed.mp rfl, isRebuild representable⟩

end Boxed

namespace Disguised

/-- An entry whose name begins with the signature of a locator, and has the size of one. -/
def entry : Packed :=
  { name := "PK\x06\x07aaaaaaaaaaaaaaaa", method := storedMethod, time := 0, date := 0x21
    crc := 0x8CDC1683, compressedSize := 1, size := 1, mode := 0, raw := ofOctets [0x78] }

/-- An archive with this entry.  A comment of one octet follows the name in the directory. -/
def octets : ByteArray :=
  ofOctets (entry.localHeader ++ entry.raw.data.toList ++
    ((entry.centralHeader 0).set 32 1 ++ [0x63]) ++ endOctets 1 67 51)

def sealed : Archive := ⟨octets, [entry.header 0]⟩

def rebuilt : Rebuilt := .addAll .start [(false, .copied (entry.header 0) entry.name entry.raw)]

/-- What is rebuilt from this archive does not open: without the comment, the name stands where the
locator of a large archive would. -/
theorem not_opens : Archive.ofBytes octets = .ok sealed ∧
    (∃ p', Does (sealed.renameArchive OneDetail.renamer "a.jar") .start rebuilt p') ∧
    Archive.ofBytes (encode rebuilt.entries) = .error (.unsupported .multipleDisks) := by
  have layout : readLayout octets = .ok ⟨0, 51, 1⟩ := by decide +kernel
  have headers : readHeaders octets 0 [] 51 1 = .ok [entry.header 0] := by decide +kernel
  have raw : sealed.rawContent (entry.header 0) = .ok entry.raw := by decide +kernel
  have name : (entry.header 0).writtenName = entry.name := by decide
  have rebuilds : Rebuilds OneDetail.renamer nestingLimit sealed rebuilt := by
    refine ⟨_, .cons ⟨_, none, raw, .other (by decide), ?_⟩ .nil, rfl⟩
    rw [Header.packed, name]
  have newLayout : readLayout (encode rebuilt.entries) = .error (.unsupported .multipleDisks) := by
    decide +kernel
  refine ⟨ofBytes_of_parts layout headers, (yields_renameArchive rebuilt .start).mpr rebuilds, ?_⟩
  unfold Archive.ofBytes
  rw [newLayout]
  rfl

end Disguised

end ClassNaming.Archive
