import ClassNaming.Proofs.ClassFile.PoolText
import ClassNaming.Proofs.ClassFile.Renaming
import ClassNaming.Proofs.Detail.Missed

/-!
# Classes that are kept

A class is kept if it has no details, and also if renaming changes none of them.  The latter is so
where the renamer knows no name of any detail - with one exception, which the strategy of *passes*
makes by design: its marker is removed from every detail, so a detail that holds one from the start
changes.

## Main Definitions

* `ClassFile.details?` - the details of a class
* `ClassFile.Decodable` - a class whose annotations can be decoded
* `EndlessClass` - a class with a detail that is renamed for ever

## Main Results

* `renameClass_eq_none_iff`, `renameClass_isSome_iff` - there is a verdict on a class if renaming
  each of its details ends
* `renameClass_kept_iff_same` - a class is kept if its details are their own new ones
* `renameClass_kept_iff` - when a class is kept of which the renamer knows no name
-/

namespace ClassNaming

variable {renamer : Renamer} {bytes : List UInt8} {c : ClassFile}

/-- The details of a class, if it has an array of details and all its values are texts. -/
def ClassFile.details? (c : ClassFile) : Option (List String) := do
  let position ← c.attributePosition? annotationsAttribute
  let a ← c.attributes[position]?
  let annotations ← (AnnotationInfo.parseAll a.info).toOption
  let (_, _, values) ← (findDetails c.pool annotations).toOption
  c.pool.valueTextsFrom? [] values

/-- The first annotation attribute of a class can be decoded, if it has one. -/
def ClassFile.Decodable (c : ClassFile) : Prop :=
  ∀ position a, c.attributePosition? annotationsAttribute = some position →
    c.attributes[position]? = some a →
    ∃ annotations, AnnotationInfo.parseAll a.info = .ok annotations

/-- An outcome has a value if and only if it went well with that. -/
theorem toOption_eq_some_iff {ε α : Type} {outcome : Except ε α} {value : α} :
    outcome.toOption = some value ↔ outcome = .ok value := by
  cases outcome <;> simp [Except.toOption]

/-- The details, once the place of the annotations is known. -/
theorem ClassFile.details?_eq {position : Nat} {a : Attribute} {annotations : List AnnotationInfo}
    (first : c.attributePosition? annotationsAttribute = some position)
    (there : c.attributes[position]? = some a)
    (parsed : AnnotationInfo.parseAll a.info = .ok annotations) :
    c.details? = (findDetails c.pool annotations).toOption.bind fun found =>
      c.pool.valueTextsFrom? [] found.2.2 := by
  unfold details?
  rw [first, Option.bind_eq_bind, Option.bind_some, there, Option.bind_eq_bind, Option.bind_some,
    parsed]
  rfl

/-- A decodable class without details is kept. -/
theorem ClassFile.run_rename_of_none (renamer : Renamer) (decodable : c.Decodable)
    (without : c.details? = none) : ∃ why, (c.rename renamer).run = some (.ok (.error why)) := by
  cases first : c.attributePosition? annotationsAttribute with
  | none =>
    unfold rename
    rw [first]
    exact ⟨_, rfl⟩
  | some position =>
    obtain ⟨a, there⟩ := exists_of_attributePosition? first
    obtain ⟨annotations, parsed⟩ := decodable position a first there
    rw [details?_eq first there parsed] at without
    rw [run_rename first there parsed, renameIn]
    cases found : findDetails c.pool annotations with
    | error why => exact ⟨_, rfl⟩
    | ok place =>
      obtain ⟨i, j, values⟩ := place
      rw [found, Except.toOption, Option.bind_some] at without
      simp only [without]
      exact ⟨_, rfl⟩

/-- The details of a class are all renamed, and then exchanged if that makes a difference. -/
theorem ClassFile.run_rename_of_some (renamer : Renamer) {details : List String}
    (found : c.details? = some details) :
    ∃ position i j values annotations, values.length = details.length ∧
      (c.rename renamer).run = (details.mapM renamer.rename).map fun new =>
        if new = details then .ok (.error .sameDetails)
        else (c.pool.retarget [] values (details.zip new)).map fun (values', pool) =>
          .ok { c with
            pool
            attributes := c.attributes.modify position fun a => { a with
              info := AnnotationInfo.encodeAll (replaceDetails i j values' annotations) } } := by
  unfold details? at found
  obtain ⟨position, first, found⟩ := Option.bind_eq_some_iff.mp found
  obtain ⟨a, there, found⟩ := Option.bind_eq_some_iff.mp found
  obtain ⟨annotations, parsed, found⟩ := Option.bind_eq_some_iff.mp found
  obtain ⟨⟨i, j, values⟩, place, texts⟩ := Option.bind_eq_some_iff.mp found
  replace parsed := toOption_eq_some_iff.mp parsed
  replace place := toOption_eq_some_iff.mp place
  obtain ⟨_, rfl, read⟩ := ConstantPool.valueTextsFrom?_eq_some texts
  refine ⟨position, i, j, values, annotations, read.length_eq, ?_⟩
  rw [run_rename first there parsed, run_renameIn place texts]

/-- The bytes of a class with a detail that is renamed for ever. -/
def EndlessClass (renamer : Renamer) (bytes : List UInt8) : Prop :=
  ∃ c details, ClassFile.parse bytes = .ok c ∧ c.details? = some details ∧
    ∃ detail ∈ details, renamer.rename detail = none

/-- There is no verdict on bytes if and only if they are those of such a class. -/
theorem renameClass_eq_none_iff :
    renameClass renamer bytes = none ↔ EndlessClass renamer bytes := by
  cases parsed : ClassFile.parse bytes with
  | error e => simp [renameClass_of_unparsed parsed, EndlessClass, parsed]
  | ok c =>
    simp only [EndlessClass, parsed, Except.ok.injEq, exists_and_left, exists_eq_left']
    rw [renameClass_of_parsed parsed, Option.map_eq_none_iff]
    cases found : c.details? with
    | some details =>
      obtain ⟨_, _, _, _, _, -, ends⟩ := ClassFile.run_rename_of_some renamer found
      rw [ends, Option.map_eq_none_iff, Renamer.mapM_rename_eq_none_iff]
      simp
    | none =>
      -- Annotations that cannot be decoded are an error, which is a verdict as well.
      by_cases decodable : c.Decodable
      · obtain ⟨why, kept⟩ := ClassFile.run_rename_of_none renamer decodable found
        simp [kept]
      · simp only [ClassFile.Decodable, not_forall] at decodable
        obtain ⟨position, a, first, there, undecoded⟩ := decodable
        cases parsed : AnnotationInfo.parseAll a.info with
        | ok annotations => exact absurd ⟨annotations, parsed⟩ undecoded
        | error e => simp [ClassFile.run_rename_of_undecoded first there parsed]

/-- **There is a verdict on a class** if and only if renaming each of its details comes to an
end. -/
theorem renameClass_isSome_iff (parsed : ClassFile.parse bytes = .ok c) :
    (renameClass renamer bytes).isSome ↔ ∀ details, c.details? = some details →
      ∀ detail ∈ details, (renamer.rename detail).isSome := by
  rw [← not_iff_not, Option.not_isSome_iff_eq_none, renameClass_eq_none_iff]
  simp [EndlessClass, parsed]

/-- The bytes of a class are kept if and only if its details are their own new ones. -/
theorem renameClass_kept_iff_same (parsed : ClassFile.parse bytes = .ok c)
    (decodable : c.Decodable) : (∃ why, renameClass renamer bytes = some (.ok (.kept why))) ↔
      ∀ details, c.details? = some details → details.mapM renamer.rename = some details := by
  rw [renameClass_of_parsed parsed]
  cases found : c.details? with
  | none =>
    obtain ⟨why, kept⟩ := ClassFile.run_rename_of_none renamer decodable found
    rw [kept]
    exact iff_of_true ⟨why, rfl⟩ (by simp)
  | some details =>
    obtain ⟨_, _, _, values, _, -, ends⟩ := ClassFile.run_rename_of_some renamer found
    rw [ends]
    simp only [Option.some.injEq, forall_eq']
    cases details.mapM renamer.rename with
    | none => simp
    | some new =>
      simp only [Option.map_some, Option.some.injEq]
      by_cases same : new = details
      · rw [if_pos same]
        exact iff_of_true ⟨_, rfl⟩ same
      · -- What was renamed is not kept, whether the pool has room for it or not.
        rw [if_neg same]
        refine iff_of_false (fun ⟨why, kept⟩ => ?_) same
        cases moved : c.pool.retarget [] values (details.zip new) <;>
          (rw [moved] at kept; cases kept)

/-- **A class of which the renamer knows no name is kept**, whatever its details hold - except for
markers, which passes remove.  In any case there is a verdict: the passes come to an end. -/
theorem renameClass_kept_iff (parsed : ClassFile.parse bytes = .ok c) (decodable : c.Decodable)
    (missed : ∀ details, c.details? = some details → ∀ detail ∈ details,
      renamer.Misses detail.toList)
    (unmarked : renamer.strategy = .passes → renamer.HasUnmarkedRows ∨
      ∀ details, c.details? = some details → ∀ detail ∈ details,
        renamer.MissesMarked detail.toList) :
    (renameClass renamer bytes).isSome ∧
    ((∃ why, renameClass renamer bytes = some (.ok (.kept why))) ↔
      (renamer.strategy = .passes → ∀ details, c.details? = some details →
        ∀ detail ∈ details, Renamer.marker ∉ detail.toList)) := by
  have renames : ∀ details, c.details? = some details → ∀ detail ∈ details,
      ∃ new, renamer.rename detail = some new ∧
        (new = detail ↔ (renamer.strategy = .passes → Renamer.marker ∉ detail.toList)) := by
    refine fun details there detail member =>
      Renamer.rename_of_misses (missed details there detail member) fun passes => ?_
    rcases unmarked passes with rows | names
    · exact rows.missesMarked detail.toList
    · exact names details there detail member
  constructor
  · rw [renameClass_isSome_iff parsed]
    intro details there detail member
    obtain ⟨new, ends, -⟩ := renames details there detail member
    rw [ends]
    rfl
  · rw [renameClass_kept_iff_same parsed decodable]
    constructor
    · intro same passes details there detail member
      obtain ⟨new, ends, kept⟩ := renames details there detail member
      have own := Renamer.mapM_rename_eq_self_iff.mp (same details there) detail member
      exact kept.mp (Option.some.inj (ends.symm.trans own)) passes
    · intro free details there
      refine Renamer.mapM_rename_eq_self_iff.mpr fun detail member => ?_
      obtain ⟨new, ends, kept⟩ := renames details there detail member
      rw [ends, kept.mpr fun passes => free passes details there detail member]

namespace MissedDetail

open Renamer (marker)

/-- A class with the given detail. -/
def withDetail (detail : String) : ClassFile :=
  OneDetail.sample [annotationsAttribute, metadataDescriptor, detailsKey, detail] 4

/-- A renamer by passes that knows one class. -/
def knowing (name : String) : Renamer :=
  { resolver :=
      { table := .ofRows ["intermediary", "named"] [[name, "a/One"]]
        space := "intermediary", source := 0, target := 1 }
    mode := .intermediary
    strategy := .passes }

/-- A renamer that knows one name does not know another. -/
theorem lookup?_knowing {known : String} {name : List Char} (other : name ≠ known.toList) :
    (knowing known).lookup? name = none := by
  have differs : known ≠ String.ofList name := fun same => other (by simp [same])
  have inside : 0 < ["intermediary", "named"].length := by decide
  unfold Renamer.lookup? Resolver.resolve? knowing
  simp only [MappingTable.lookup?_ofRows inside, MappingTable.firstRow?]
  simp [MappingTable.fitRow, differs]

/-- So it misses all details in which that name is no part. -/
theorem misses_knowing {known : String} {detail : List Char} (absent : ¬ known.toList <:+: detail) :
    (knowing known).Misses detail :=
  fun _ inside _ _ => lookup?_knowing fun same => absent (same ▸ inside)

/-- If the name holds no marker, no name of the table does. -/
theorem hasUnmarkedRows_knowing {known : String} (unmarked : marker ∉ known.toList) :
    (knowing known).HasUnmarkedRows := by
  refine ⟨["intermediary", "named"], [[known, "a/One"]], rfl, Nat.zero_lt_two, ?_⟩
  simp only [forall_eq, List.mem_cons, List.not_mem_nil, or_false, forall_eq_or_imp]
  exact ⟨unmarked, by decide⟩

/-- The annotation with the detail is read back. -/
theorem parseAll_annotation : AnnotationInfo.parseAll (AnnotationInfo.encodeAll
    [⟨2, [(3, .array [.const ElementValue.stringTag 4])]⟩]) =
      .ok [⟨2, [(3, .array [.const ElementValue.stringTag 4])]⟩] := rfl

/-- So the class with it can be decoded. -/
theorem decodable_withDetail (detail : String) : (withDetail detail).Decodable := by
  intro position a first there
  have only : (withDetail detail).attributes.length = 1 := rfl
  obtain rfl : position = 0 := by
    have bound := (List.getElem?_eq_some_iff.mp there).1
    omega
  obtain rfl := Option.some.inj there
  exact ⟨_, parseAll_annotation⟩

/-- A text of such a class. -/
theorem text_withDetail {detail text : String} {index : UInt16} {slot : Nat}
    (place : index.toNat = slot + 1)
    (listed : [annotationsAttribute, metadataDescriptor, detailsKey, detail][slot]? = some text) :
    (withDetail detail).pool.text index = .ok text := by
  refine ConstantPool.text_of_get? (?_ : _ = some (Constant.utf8 (ModifiedUtf8.encode text)))
    (ModifiedUtf8.decode?_encode_eq text)
  rw [ConstantPool.get?, place]
  simp only [withDetail, OneDetail.sample]
  rw [List.getElem?_toArray, List.getElem?_map, listed]
  rfl

/-- It has one detail. -/
theorem details_withDetail (detail : String) : (withDetail detail).details? = some [detail] := by
  have annotation : (withDetail detail).pool.hasText 1 annotationsAttribute = true :=
    ConstantPool.hasText_iff.mpr (text_withDetail (by decide : _ = 0 + 1) rfl)
  have metadata : (withDetail detail).pool.hasText 2 metadataDescriptor = true :=
    ConstantPool.hasText_iff.mpr (text_withDetail (by decide : _ = 1 + 1) rfl)
  have key : (withDetail detail).pool.hasText 3 detailsKey = true :=
    ConstantPool.hasText_iff.mpr (text_withDetail (by decide : _ = 2 + 1) rfl)
  have value : (withDetail detail).pool.text 4 = .ok detail :=
    text_withDetail (by decide : _ = 3 + 1) rfl
  have first : (withDetail detail).attributePosition? annotationsAttribute = some 0 := by
    show List.findIdx? _ [_] = _
    rw [List.findIdx?_cons, annotation]
    rfl
  have found : findDetails (withDetail detail).pool
      [⟨2, [(3, .array [.const ElementValue.stringTag 4])]⟩] =
        .ok (0, 0, [.const ElementValue.stringTag 4]) := by
    simp [findDetails, List.findIdx?_cons, metadata, key]
  rw [ClassFile.details?_eq first rfl parseAll_annotation, found]
  simp [Except.toOption, ConstantPool.valueTextsFrom?, ConstantPool.valueText?,
    ElementValue.stringIndex?, value]

/-- It is read back from its bytes. -/
theorem parse_withDetail {detail : String} (short : (ModifiedUtf8.encode detail).length ≤ 65535) :
    ClassFile.parse (withDetail detail).toBytes = .ok (withDetail detail) := by
  have attributes : Counted Attribute.Small (withDetail detail).attributes := by
    refine ⟨(by decide : 1 ≤ 65535), ?_⟩
    simp only [withDetail, OneDetail.sample, List.mem_singleton, forall_eq]
    exact (by decide : (AnnotationInfo.encodeAll
      [⟨2, [(3, .array [.const ElementValue.stringTag 4])]⟩]).length < 0x100000000)
  have named : ∀ text ∈ [annotationsAttribute, metadataDescriptor, detailsKey],
      (ModifiedUtf8.encode text).length ≤ 65535 := by decide
  refine ClassFile.parse_toBytes_eq ⟨?_, ⟨Nat.zero_le _, nofun⟩, ⟨Nat.zero_le _, nofun⟩,
    ⟨Nat.zero_le _, nofun⟩, attributes⟩ (by decide : 4 ≤ ConstantPool.maxSlots)
  exact .narrow (named _ (by simp)) rfl (.narrow (named _ (by simp)) rfl
    (.narrow (named _ (by simp)) rfl (.narrow short rfl .nil)))

/-- A class that mentions an unknown one, and holds what else a text may hold. -/
def unknown : ClassFile := withDetail "(ü)net/minecraft/class_2;\x01 net;"

/-- A class with another name in its detail is kept. -/
theorem kept_unknown :
    ∃ why, renameClass (knowing "net/minecraft/class_1") unknown.toBytes =
      some (.ok (.kept why)) := by
  have parsed : ClassFile.parse unknown.toBytes = .ok unknown := parse_withDetail (by decide)
  refine (renameClass_kept_iff parsed (decodable_withDetail _) ?_ ?_).2.mpr ?_
  · intro details there detail member
    obtain rfl := Option.some.inj ((details_withDetail _).symm.trans there)
    obtain rfl := List.mem_singleton.mp member
    exact misses_knowing (by decide)
  · exact fun _ => .inl (hasUnmarkedRows_knowing (by decide))
  · intro _ details there detail member
    obtain rfl := Option.some.inj ((details_withDetail _).symm.trans there)
    obtain rfl := List.mem_singleton.mp member
    decide

/-- A class whose detail holds a marker from the start. -/
def marked : ClassFile := withDetail "a\x00b"

/-- A class with a detail in which a missed name is a part of a longer one. -/
def nested : ClassFile :=
  withDetail "net/minecraft/class_1;net/minecraft/class_2net/minecraft/class_1"

/-- The longer name, after the shorter one is defused. -/
def nestedName : String := "net/minecraft/class_2ne\x00t/minecraft/class_1"

theorem lookup?_nestedName :
    (knowing nestedName).lookup? nestedName.toList = some "a/One".toList := by
  have inside : 0 < ["intermediary", "named"].length := by decide
  unfold Renamer.lookup? Resolver.resolve? knowing
  simp only [MappingTable.lookup?_ofRows inside]
  decide

/-- A marker is lost, though no name is known. -/
theorem rename_marked : (knowing "net/minecraft/class_1").rename "a\x00b" = some "ab" := by
  have absent : ¬ (knowing "net/minecraft/class_1").sentinel <:+: "a\x00b".toList := by decide
  obtain ⟨misses, unmarked⟩ := Renamer.misses_of_absent absent
  rw [Renamer.rename_of_passes rfl, Renamer.renamePasses_of_misses misses unmarked]
  decide

/-- A name is known only with the marker that the first pass has put into it. -/
theorem rename_nested : (knowing nestedName).rename
    "net/minecraft/class_1;net/minecraft/class_2net/minecraft/class_1" =
      some "net/minecraft/class_1;a/One" := by
  have first : (knowing nestedName).pass?
      "net/minecraft/class_1;net/minecraft/class_2net/minecraft/class_1".toList = some
        "ne\x00t/minecraft/class_1;net/minecraft/class_2ne\x00t/minecraft/class_1".toList := by
    have found : Detail.firstReference? (knowing nestedName).sentinel
        "net/minecraft/class_1;net/minecraft/class_2net/minecraft/class_1".toList =
          some ([], "net/minecraft/class_1".toList,
            ";net/minecraft/class_2net/minecraft/class_1".toList) := by decide
    rw [Renamer.pass?, found]
    simp only [lookup?_knowing (show "net/minecraft/class_1".toList ≠ nestedName.toList by decide)]
    decide
  have second : (knowing nestedName).pass?
      "ne\x00t/minecraft/class_1;net/minecraft/class_2ne\x00t/minecraft/class_1".toList = some
        "ne\x00t/minecraft/class_1;a/One".toList := by
    have found : Detail.firstReference? (knowing nestedName).sentinel
        "ne\x00t/minecraft/class_1;net/minecraft/class_2ne\x00t/minecraft/class_1".toList =
          some ("ne\x00t/minecraft/class_1;".toList, nestedName.toList, []) := by decide
    rw [Renamer.pass?, found]
    simp only [lookup?_nestedName]
    decide
  have last : (knowing nestedName).pass? "ne\x00t/minecraft/class_1;a/One".toList = none :=
    Renamer.pass?_eq_none_iff.mpr (by decide)
  have settled : (knowing nestedName).settle? 3
      "net/minecraft/class_1;net/minecraft/class_2net/minecraft/class_1".toList =
        some "ne\x00t/minecraft/class_1;a/One".toList := by
    simp only [Renamer.settle?, first, second, last]
  rw [Renamer.rename_of_passes rfl, Renamer.renamePasses_of_settle? settled]
  decide

/-- Passes change details of which no name is known: one that holds a marker, and one in which a
name is known only with the marker that an earlier pass has put into it. -/
theorem changed_though_missed :
    (∃ c, ClassFile.parse marked.toBytes = .ok c ∧ c.Decodable ∧
      (∀ details, c.details? = some details → ∀ detail ∈ details,
        (knowing "net/minecraft/class_1").Misses detail.toList) ∧
      ¬ ∃ why, renameClass (knowing "net/minecraft/class_1") marked.toBytes =
        some (.ok (.kept why))) ∧
    ∃ c, ClassFile.parse nested.toBytes = .ok c ∧ c.Decodable ∧
      (∀ details, c.details? = some details → ∀ detail ∈ details,
        (knowing nestedName).Misses detail.toList ∧ marker ∉ detail.toList) ∧
      ¬ ∃ why, renameClass (knowing nestedName) nested.toBytes = some (.ok (.kept why)) := by
  have parse_marked : ClassFile.parse marked.toBytes = .ok marked := parse_withDetail (by decide)
  have parse_nested : ClassFile.parse nested.toBytes = .ok nested := parse_withDetail (by decide)
  refine ⟨⟨marked, parse_marked, decodable_withDetail _, ?_, ?_⟩,
    nested, parse_nested, decodable_withDetail _, ?_, ?_⟩
  · intro details there detail member
    obtain rfl := Option.some.inj ((details_withDetail _).symm.trans there)
    obtain rfl := List.mem_singleton.mp member
    exact misses_knowing (by decide)
  · rw [renameClass_kept_iff_same parse_marked (decodable_withDetail _)]
    intro same
    have own := Renamer.mapM_rename_eq_self_iff.mp (same _ (details_withDetail _)) _ (.head _)
    rw [rename_marked] at own
    exact absurd own (by decide)
  · intro details there detail member
    obtain rfl := Option.some.inj ((details_withDetail _).symm.trans there)
    obtain rfl := List.mem_singleton.mp member
    exact ⟨misses_knowing (by decide), by decide⟩
  · rw [renameClass_kept_iff_same parse_nested (decodable_withDetail _)]
    intro same
    have own := Renamer.mapM_rename_eq_self_iff.mp (same _ (details_withDetail _)) _ (.head _)
    rw [rename_nested] at own
    exact absurd own (by decide)

end MissedDetail

end ClassNaming
