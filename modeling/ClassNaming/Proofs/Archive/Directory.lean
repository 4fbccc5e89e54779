import ClassNaming.Archive.Directory
import ClassNaming.Proofs.Archive.Bytes

/-!
# Headers as they are read

Whatever bytes a header is read from, its name is the decoded one, and its method is a number of two
bytes, wherever that was declared.  Its extra field is not asked where the next header starts.

## Main Definitions

* `Header.Extends` - what extra fields may do to a header
* `ReadAt` - a header that was read at a place

## Main Results

* `readAt_of_readHeader` - what is known of a header that was read
* `method_lt_of_ofBytes` - the methods of an archive
-/

namespace ClassNaming.Archive

variable {bytes field : ByteArray} {place shift stop : Nat} {h h' : Header}

/-! ### Extra fields -/

/-- A header with other numbers, and perhaps another method. -/
structure Header.Extends (h' h : Header) : Prop where
  name : h'.name = h.name
  method : h'.method = h.method ∨ h'.method < 0x10000

theorem Header.Extends.refl (h : Header) : h.Extends h := ⟨rfl, .inl rfl⟩

theorem Header.Extends.trans {h'' : Header} (later : h''.Extends h') (first : h'.Extends h) :
    h''.Extends h := by
  refine ⟨later.name.trans first.name, ?_⟩
  rcases later.method with same | small
  · rw [same]
    exact first.method
  · exact .inr small

theorem extends_extendSizes (field : ByteArray) (place : Nat) (h : Header) :
    (extendSizes field place h).1.Extends h := by
  unfold extendSizes
  dsimp only
  split
  case h_1 => exact .refl h
  case h_2 =>
    split
    case h_1 => exact ⟨rfl, .inl rfl⟩
    case h_2 => split <;> exact ⟨rfl, .inl rfl⟩

theorem extends_of_describeEncryption {size : Nat} {x x' : Extended}
    (described : describeEncryption field place size x = .ok (some x')) :
    x'.header.Extends x.header := by
  have small : numberAt field (place + 5) 2 < 0x10000 := numberAt_lt _ _ 2
  unfold describeEncryption at described
  dsimp only at described
  repeat' split at described
  all_goals cases described
  exact ⟨rfl, .inr small⟩

theorem extends_of_extendHeader {fuel : Nat} {x x' : Extended}
    (extended : extendHeader field fuel place x = .ok x') : x'.header.Extends x.header := by
  induction fuel generalizing place x with
  | zero =>
    cases extended
    exact .refl _
  | succ fuel ih =>
    unfold extendHeader at extended
    split at extended
    case isTrue =>
      cases extended
      exact .refl _
    case isFalse =>
      dsimp only at extended
      split at extended
      case h_1 =>
        have sizes := extends_extendSizes field (place + 4) x.header
        split at extended
        case h_1 header same =>
          cases extended
          rwa [same] at sizes
        case h_2 header stop same =>
          rw [same] at sizes
          exact (ih extended).trans sizes
      case h_2 =>
        split at extended
        case h_1 => cases extended
        case h_2 =>
          cases extended
          exact .refl _
        case h_3 x described => exact (ih extended).trans (extends_of_describeEncryption described)
      case h_3 => exact ih extended

/-! ### Headers -/

/-- What is known of a header that was read at a place. -/
structure ReadAt (bytes : ByteArray) (place : Nat) (h : Header) (stop : Nat) : Prop where
  name : h.name = if (numberAt bytes (place + 8) 2).testBit 11
    then Text.decodeLossy
      (slice bytes (place + centralSize) (numberAt bytes (place + 28) 2)).data.toList
    else decodeCodePage
      (slice bytes (place + centralSize) (numberAt bytes (place + 28) 2)).data.toList
  method : h.method < 0x10000
  stop_eq : stop = place + centralSize + numberAt bytes (place + 28) 2
    + numberAt bytes (place + 30) 2 + numberAt bytes (place + 32) 2

theorem readAt_of_readHeader (read : readHeader bytes shift place = .ok (h, stop)) :
    ReadAt bytes place h stop := by
  have small : numberAt bytes (place + 10) 2 < 0x10000 := numberAt_lt _ _ 2
  unfold readHeader at read
  simp only [bind, Except.bind, pure, Except.pure, throw, throwThe, MonadExceptOf.throw] at read
  repeat' split at read
  all_goals cases read
  case _ extended _ _ =>
    obtain ⟨name, method⟩ := extends_of_extendHeader extended
    exact ⟨name, method.elim (fun same => same ▸ small) id, rfl⟩

/-- Headers are read behind those that are done. -/
theorem append_of_readHeaders {count : Nat} {done headers : List Header}
    (read : readHeaders bytes shift done place count = .ok headers) :
    ∃ more, headers = done.reverse ++ more := by
  induction count generalizing place done with
  | zero =>
    cases read
    exact ⟨[], (List.append_nil _).symm⟩
  | succ count ih =>
    unfold readHeaders at read
    split at read
    case h_1 => cases read
    case h_2 header next first =>
      obtain ⟨more, rfl⟩ := ih read
      exact ⟨header :: more, by simp⟩

theorem method_lt_of_readHeaders {count : Nat} {done headers : List Header}
    (small : ∀ h ∈ done, h.method < 0x10000)
    (read : readHeaders bytes shift done place count = .ok headers) :
    ∀ h ∈ headers, h.method < 0x10000 := by
  induction count generalizing place done with
  | zero =>
    cases read
    simpa using small
  | succ count ih =>
    unfold readHeaders at read
    split at read
    case h_1 => cases read
    case h_2 header next first =>
      refine ih (fun k mem => ?_) read
      rcases List.mem_cons.mp mem with rfl | mem
      · exact (readAt_of_readHeader first).method
      · exact small k mem

theorem parts_of_ofBytes {archive : Archive} (opened : Archive.ofBytes bytes = .ok archive) :
    archive.bytes = bytes ∧ ∃ layout, readLayout bytes = .ok layout ∧
      readHeaders bytes layout.shift [] layout.directory layout.entries = .ok archive.headers := by
  unfold Archive.ofBytes at opened
  simp only [bind, Except.bind, pure, Except.pure] at opened
  repeat' split at opened
  all_goals cases opened
  case _ found _ _ read => exact ⟨rfl, _, found, read⟩

/-- The methods of an archive that was read are numbers of two bytes. -/
theorem method_lt_of_ofBytes {archive : Archive} (opened : Archive.ofBytes bytes = .ok archive) :
    ∀ h ∈ archive.headers, h.method < 0x10000 := by
  obtain ⟨-, layout, -, read⟩ := parts_of_ofBytes opened
  exact method_lt_of_readHeaders (by simp) read

end ClassNaming.Archive
