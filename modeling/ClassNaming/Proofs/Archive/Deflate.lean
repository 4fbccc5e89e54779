import ClassNaming.Archive.Deflate
import ClassNaming.Proofs.Archive.Bytes

/-!
# Contents that are deflated and inflated again

A content is deflated to stored blocks, and so inflating it only has to take these apart again.
Every block starts with a whole byte: three bits of it are taken, and the other five are skipped.

## Main Definitions

* `storedBlock` - the octets of a stored block
* `storedOctets` - the octets of a deflated content

## Main Results

* `inflate_deflateStored` - inflating undoes deflating
-/

namespace ClassNaming.Archive

variable {stream out : ByteArray} {place fuel : Nat} {octet : UInt8}
  {block octets rest content : List UInt8}

/-! ### Writing -/

/-- The octets of a stored block.  The first one tells whether it is the last block. -/
def storedBlock (first : UInt8) (block : List UInt8) : List UInt8 :=
  first :: (littleEndian 2 block.length ++ (littleEndian 2 (0xFFFF - block.length) ++ block))

/-- The octets of a deflated content, if it takes at most so many blocks. -/
def storedOctets : Nat → List UInt8 → List UInt8
  | 0, _ => []
  | fuel + 1, content =>
    if content.length ≤ maxStored then storedBlock 1 content
    else storedBlock 0 (content.take maxStored) ++ storedOctets fuel (content.drop maxStored)

theorem toList_storedFrom (content : ByteArray) (place fuel : Nat) (out : ByteArray)
    (inside : place ≤ content.size) : (storedFrom content place fuel out).data.toList =
      out.data.toList ++ storedOctets fuel (content.data.toList.drop place) := by
  induction fuel generalizing place out with
  | zero => simp [storedFrom, storedOctets]
  | succ fuel ih =>
    have left : (content.data.toList.drop place).length = content.size - place := by
      rw [List.length_drop, length_toList]
    have block := toList_slice content place maxStored
    have size : (slice content place maxStored).size = min maxStored (content.size - place) := by
      rw [← length_toList, block, List.length_take, left]
    have written : ∀ first : UInt8, (out ++ ofOctets (first ::
        littleEndian 2 (slice content place maxStored).size ++
          littleEndian 2 (0xFFFF - (slice content place maxStored).size)) ++
          slice content place maxStored).data.toList = out.data.toList ++
        storedBlock first ((content.data.toList.drop place).take maxStored) := fun first => by
      rw [toList_append, toList_append, toList_ofOctets, ← length_toList, block, storedBlock]
      simp only [List.cons_append, List.append_assoc]
    rw [storedFrom, storedOctets, left]
    by_cases last : content.size - place ≤ maxStored
    · have isLast : content.size ≤ place + (slice content place maxStored).size := by omega
      rw [if_pos isLast, if_pos isLast, if_pos last, written,
        List.take_of_length_le (left ▸ last)]
    · have more : ¬ content.size ≤ place + (slice content place maxStored).size := by omega
      have full : place + (slice content place maxStored).size = place + maxStored := by omega
      rw [if_neg more, if_neg more, if_neg last, ih _ _ (by omega), written, full,
        List.append_assoc, List.drop_drop]

theorem length_le_length_storedOctets (enough : content.length < fuel) :
    content.length ≤ (storedOctets fuel content).length := by
  induction fuel generalizing content with
  | zero => exact absurd enough (Nat.not_lt_zero _)
  | succ fuel ih =>
    rw [storedOctets]
    split
    case isTrue =>
      simp only [storedBlock, List.length_cons, List.length_append]
      omega
    case isFalse longer =>
      have shorter : (content.drop maxStored).length < fuel := by
        rw [List.length_drop]
        unfold maxStored at *
        omega
      have later := ih shorter
      simp only [storedBlock, List.length_cons, List.length_append, List.length_take,
        List.length_drop] at later ⊢
      omega

theorem toList_deflateStored (content : ByteArray) : (deflateStored content).data.toList =
    storedOctets (content.size + 1) content.data.toList :=
  toList_storedFrom content 0 _ _ (Nat.zero_le _)

/-- A deflated content is no shorter. -/
theorem size_le_size_deflateStored (content : ByteArray) :
    content.size ≤ (deflateStored content).size := by
  have longer := length_le_length_storedOctets (Nat.lt_succ_self content.data.toList.length)
  rwa [length_toList, Nat.succ_eq_add_one, ← toList_deflateStored, length_toList] at longer

/-! ### Reading -/

theorem takeBit_of_lies (lies : Lies stream place (octet :: octets)) {k : Nat} (small : k < 8) :
    takeBit stream (8 * place + k) = .ok ((octet.toNat >>> k) % 2, 8 * place + k + 1) := by
  have bound := lies.bound
  rw [List.length_cons] at bound
  have whole : (8 * place + k) / 8 = place := by omega
  have part : (8 * place + k) % 8 = k := by omega
  rw [takeBit, whole, part, if_pos (by omega), lies.byte]

theorem takeStored_of_lies (size : block.length ≤ maxStored)
    (lies : Lies stream place (littleEndian 2 block.length ++
      (littleEndian 2 (0xFFFF - block.length) ++ block)))
    {position : Nat} (next : (position + 7) / 8 = place) :
    takeStored stream out position =
      .ok (out ++ ofOctets block, 8 * (place + 4 + block.length)) := by
  unfold maxStored at size
  have bound := lies.bound
  rw [List.length_append, List.length_append, length_littleEndian, length_littleEndian] at bound
  obtain ⟨length, lies⟩ := lies.field (by omega)
  obtain ⟨complement, lies⟩ := lies.field (by omega)
  have cut : slice stream (place + 4) block.length = ofOctets block := lies.slice
  rw [takeStored]
  simp only [next, length, complement, cut]
  rw [if_neg (by omega), if_neg (by omega), if_neg (by omega)]

/-- A stored block is taken, and the reading goes on behind it unless it is the last one. -/
theorem takeBlocks_of_lies (flag : octet = 0 ∨ octet = 1) (size : block.length ≤ maxStored)
    (lies : Lies stream place (storedBlock octet block)) :
    takeBlocks stream (fuel + 1) out (8 * place) =
      if octet = 1 then .ok (out ++ ofOctets block, 8 * (place + 5 + block.length))
      else takeBlocks stream fuel (out ++ ofOctets block) (8 * (place + 5 + block.length)) := by
  have first := takeBit_of_lies lies (k := 0) (by decide)
  have second := takeBit_of_lies lies (k := 1) (by decide)
  have third := takeBit_of_lies lies (k := 2) (by decide)
  have stored : takeStored stream out (8 * place + 3) =
      .ok (out ++ ofOctets block, 8 * (place + 5 + block.length)) := by
    rw [takeStored_of_lies size lies.tail (by omega), Nat.add_assoc place 1 4]
  have kind : takeBits stream 2 (8 * place + 1) = .ok (0, 8 * place + 3) := by
    simp only [takeBits, bind, StateT.bind, Except.bind, pure]
    rw [second]
    simp only
    rw [third]
    rcases flag with rfl | rfl <;> rfl
  have last : takeBit stream (8 * place) = .ok (octet.toNat % 2, 8 * place + 1) := first
  simp only [takeBlocks, bind, StateT.bind, Except.bind]
  rw [last]
  simp only
  rw [kind]
  simp only [StateT.bind, bind, Except.bind]
  rw [stored]
  rcases flag with rfl | rfl <;> rfl

/-- Blocks are taken up to the last one, if at least as many may be taken as were written. -/
theorem takeBlocks_of_storedOctets {limit : Nat} (enough : content.length < fuel)
    (bound : fuel ≤ limit) (lies : Lies stream place (storedOctets fuel content)) :
    ∃ position, takeBlocks stream limit out (8 * place) =
      .ok (out ++ ofOctets content, position) := by
  induction fuel generalizing content place out limit with
  | zero => exact absurd enough (Nat.not_lt_zero _)
  | succ fuel ih =>
    obtain ⟨limit, rfl⟩ : ∃ less, limit = less + 1 := ⟨limit - 1, by omega⟩
    rw [storedOctets] at lies
    split at lies
    case isTrue short =>
      rw [takeBlocks_of_lies (.inr rfl) short lies]
      exact ⟨_, if_pos rfl⟩
    case isFalse longer =>
      have shorter : (content.drop maxStored).length < fuel := by
        rw [List.length_drop]
        unfold maxStored at *
        omega
      have size : (content.take maxStored).length = maxStored := by
        rw [List.length_take]
        omega
      have behind := lies.right
      have block : (storedBlock 0 (content.take maxStored)).length = 5 + maxStored := by
        simp only [storedBlock, List.length_cons, List.length_append, length_littleEndian, size]
        omega
      rw [block, ← Nat.add_assoc] at behind
      obtain ⟨position, later⟩ := ih shorter (Nat.le_of_succ_le_succ bound) behind
      refine ⟨position, ?_⟩
      rw [takeBlocks_of_lies (.inl rfl) size.le lies.left, if_neg (by decide), size, later]
      refine congrArg (fun content => Except.ok (content, position)) (ext_toList ?_)
      simp only [toList_append, toList_ofOctets, List.append_assoc, List.take_append_drop]

/-- **Inflating undoes deflating.** -/
theorem inflate_deflateStored (content : ByteArray) :
    inflate (deflateStored content) = .ok content := by
  have octets := toList_deflateStored content
  have enough : content.data.toList.length < content.size + 1 := Nat.lt_succ_self _
  have bound : content.data.toList.length + 1 ≤ 8 * (deflateStored content).size + 1 := by
    have longer := size_le_size_deflateStored content
    rw [length_toList]
    omega
  have lies : Lies (deflateStored content) 0
      (storedOctets (content.size + 1) content.data.toList) :=
    ⟨[], [], by rw [octets]; simp, rfl⟩
  obtain ⟨position, taken⟩ : ∃ position, takeBlocks (deflateStored content)
      (8 * (deflateStored content).size + 1) .empty 0 =
        .ok (.empty ++ ofOctets content.data.toList, position) :=
    takeBlocks_of_storedOctets enough bound lies
  have whole : ByteArray.empty ++ ofOctets content.data.toList = content := by
    apply ext_toList
    rw [toList_append, toList_ofOctets]
    rfl
  change Prod.fst <$> takeBlocks (deflateStored content) _ .empty 0 = _
  rw [taken, whole]
  rfl

end ClassNaming.Archive
