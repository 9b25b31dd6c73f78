import SplitStream.Codec.Standard

/-
  Unpacking of LZ4 blocks. A decoder reads each length that
  was laid out, and so comes over the sequences of a block
  one by one. The sequences that a search finds copy only
  what stands in the output already, and with the literals
  behind them they make up as many bytes as the block has.
  What is packed has room within the bound of the format.

  Main declarations:
    * `Lz4.length_pack_le`
    * `Lz4.readLength_lengthBytes`
    * `Lz4.Spans`
    * `Lz4.decodeFrom_encode`
    * `Lz4.spans_search`
    * `Lz4.decode_pack`
-/

------------------------------------------------------------
-- Lengths
------------------------------------------------------------

namespace SplitStream

namespace Lz4

theorem length_lengthBytes_le
    (n : Nat) :
    (lengthBytes n).length ≤ n / 255 + 1 := by
  unfold lengthBytes
  split
  · simp
  · rw [List.length_append, List.length_replicate,
      List.length_singleton]
    omega

/- Full bytes are added up. -/
theorem extend_replicate
    (n q : Nat)
    (rest : Bytes) :
    extend n (List.replicate q 255 ++ rest) =
      extend (n + 255 * q) rest := by
  induction q generalizing n with
  | zero => rfl
  | succ q ih =>
    rw [List.replicate_succ, List.cons_append, extend, if_pos rfl,
      ih]
    congr 1
    omega

/- A length is read as it was laid out. -/
theorem readLength_lengthBytes
    (n : Nat)
    (rest : Bytes) :
    readLength (lengthBits n) (lengthBytes n ++ rest) =
      some (n, rest) := by
  unfold readLength lengthBits lengthBytes
  by_cases hShort : n < 15
  · rw [Nat.min_eq_left (Nat.le_of_lt hShort),
      if_neg (Nat.ne_of_lt hShort), if_pos hShort]
    rfl
  · have hLess : (n - 15) % 255 < 255 :=
      Nat.mod_lt _ (by decide)
    have hLast : (UInt8.ofNat ((n - 15) % 255)).toNat =
        (n - 15) % 255 := by
      rw [UInt8.toNat_ofNat']
      omega
    have hStop : UInt8.ofNat ((n - 15) % 255) ≠ 255 := by
      intro hFull
      rw [hFull] at hLast
      change 255 = _ at hLast
      omega
    rw [Nat.min_eq_right (Nat.not_lt.mp hShort), if_pos rfl,
      if_neg hShort, List.append_assoc, extend_replicate,
      List.singleton_append, extend, if_neg hStop, hLast]
    congr 2
    omega

/- A token holds the bits of both lengths. -/
theorem toNat_token
    (literals length : Nat) :
    (token literals length).toNat / 16 = lengthBits literals ∧
      (token literals length).toNat % 16 =
        lengthBits length := by
  have hToken :
      (token literals length).toNat =
        lengthBits literals * 16 + lengthBits length := by
    rw [token, UInt8.toNat_ofNat']
    unfold lengthBits
    omega
  rw [hToken]
  unfold lengthBits
  omega

------------------------------------------------------------
-- Sequences
------------------------------------------------------------

theorem size_copyBack
    (offset n : Nat)
    (out : Array UInt8) :
    (copyBack offset n out).size = out.size + n := by
  induction n generalizing out with
  | zero => rfl
  | succ n ih =>
    rw [copyBack, ih, Array.size_push]
    omega

theorem toList_appendList
    (out : Array UInt8)
    (literals : Bytes) :
    (out.appendList literals).toList =
      out.toList ++ literals := by
  rw [Array.appendList_eq_append, Array.toList_appendList]

theorem size_appendList
    (out : Array UInt8)
    (literals : Bytes) :
    (out.appendList literals).size =
      out.size + literals.length := by
  rw [← Array.length_toList, toList_appendList,
    List.length_append, Array.length_toList]

/-
  Sequences lead from one size of the output to another. A
  copy reaches no further back than the output does.
-/
inductive Spans : Nat → List Sequence → Nat → Prop where
  | nil (n : Nat) : Spans n [] n
  | cons {n m : Nat} {s : Sequence} {rest : List Sequence} :
      0 < s.offset →
      s.offset ≤ maxOffset →
      s.offset ≤ n + s.literals.length →
      Spans (n + s.literals.length + (s.length + 4)) rest m →
        Spans n (s :: rest) m

theorem Spans.le
    {n m : Nat}
    {sequences : List Sequence}
    (h : Spans n sequences m) :
    n ≤ m := by
  induction h with
  | nil n => exact Nat.le_refl n
  | cons _ _ _ _ ih => omega

theorem Spans.append
    {n m k : Nat}
    {first second : List Sequence}
    (hFirst : Spans n first m)
    (hSecond : Spans m second k) :
    Spans n (first ++ second) k := by
  induction hFirst with
  | nil n => exact hSecond
  | cons hPos hMax hReach _ ih =>
    exact .cons hPos hMax hReach (ih hSecond)

/- A decoder comes over a sequence to what is behind it. -/
theorem decodeFrom_sequence
    {room : Nat}
    {out : Array UInt8}
    {s : Sequence}
    (hPos : 0 < s.offset)
    (hMax : s.offset ≤ maxOffset)
    (hReach : s.offset ≤ out.size + s.literals.length)
    (hRoom :
      out.size + s.literals.length + (s.length + 4) ≤ room)
    (rest : Bytes) :
    decodeFrom room (s.encode ++ rest) out =
      decodeFrom room rest
        (copyBack s.offset (s.length + 4)
          (out.appendList s.literals)) := by
  rcases toNat_token s.literals.length s.length with
    ⟨hLiterals, hLength⟩
  have hParts :
      s.encode ++ rest =
        token s.literals.length s.length ::
          (lengthBytes s.literals.length ++
            (s.literals ++
              (Bytes.littleEndian 2 s.offset ++
                (lengthBytes s.length ++ rest)))) := by
    simp [Sequence.encode]
  have hWord :
      Bytes.littleEndian 2 s.offset =
        [UInt8.ofNat s.offset, UInt8.ofNat (s.offset / 256)] := by
    simp [Bytes.littleEndian, Bytes.bigEndian, Bytes.wordCount]
  have hOffset :
      (UInt8.ofNat s.offset).toNat +
          (UInt8.ofNat (s.offset / 256)).toNat * 256 =
        s.offset := by
    unfold maxOffset at hMax
    simp only [UInt8.toNat_ofNat']
    omega
  have hSize := size_appendList out s.literals
  rw [hParts, hWord, decodeFrom]
  split
  · rename_i hNone
    rw [hLiterals, readLength_lengthBytes] at hNone
    cases hNone
  rename_i count afterCount hCount
  rw [hLiterals, readLength_lengthBytes] at hCount
  cases hCount
  dsimp only
  rw [List.take_left, if_neg (Nat.lt_irrefl _),
    if_neg (by omega)]
  split
  · rename_i hNone
    rw [List.drop_left] at hNone
    cases hNone
  · rename_i hOne
    rw [List.drop_left] at hOne
    cases hOne
  rename_i low high afterOffset hBoth
  rw [List.drop_left] at hBoth
  cases hBoth
  rw [hOffset, if_neg (Nat.ne_of_gt hPos)]
  split
  · rename_i hNone
    rw [hLength] at hNone
    cases hNone.symm.trans (readLength_lengthBytes s.length rest)
  rename_i length after hCopy
  rw [hLength] at hCopy
  cases hCopy.symm.trans (readLength_lengthBytes s.length rest)
  rw [hSize, if_neg (by omega), if_neg (by omega)]

/- A decoder ends behind literals. -/
theorem decodeFrom_literals
    {room : Nat}
    {out : Array UInt8}
    {literals : Bytes}
    (hRoom : out.size + literals.length ≤ room) :
    decodeFrom room (encodeLiterals literals) out =
      .success (out.toList ++ literals) := by
  rcases toNat_token literals.length 0 with ⟨hLiterals, _⟩
  rw [encodeLiterals, List.cons_append, decodeFrom]
  split
  · rename_i hNone
    rw [hLiterals, readLength_lengthBytes] at hNone
    cases hNone
  rename_i count afterCount hCount
  rw [hLiterals, readLength_lengthBytes] at hCount
  cases hCount
  dsimp only
  rw [List.take_length, if_neg (Nat.lt_irrefl _),
    if_neg (Nat.not_lt.mpr hRoom)]
  split
  · rw [toList_appendList]
  · rename_i hOne
    rw [List.drop_length] at hOne
    cases hOne
  · rename_i hMore
    rw [List.drop_length] at hMore
    cases hMore

/-
  A block of sequences and literals is decoded if the room
  fits what they stand for.
-/
theorem decodeFrom_encode
    {room m : Nat}
    {sequences : List Sequence}
    {literals : Bytes}
    {out : Array UInt8}
    (hSpans : Spans out.size sequences m)
    (hRoom : m + literals.length ≤ room) :
    ∃ bytes,
      decodeFrom room (encode sequences literals) out =
        .success bytes := by
  rw [encode]
  induction sequences generalizing out with
  | nil =>
    cases hSpans
    exact ⟨_, decodeFrom_literals hRoom⟩
  | cons s rest ih =>
    cases hSpans with
    | cons hPos hMax hReach hRest =>
      have hLe := hRest.le
      have hSize :
          (copyBack s.offset (s.length + 4)
              (out.appendList s.literals)).size =
            out.size + s.literals.length + (s.length + 4) := by
        rw [size_copyBack, size_appendList]
      rw [← hSize] at hRest
      rcases ih hRest with ⟨bytes, hDecode⟩
      refine ⟨bytes, ?_⟩
      rw [List.flatMap_cons, List.append_assoc,
        decodeFrom_sequence hPos hMax hReach (by omega), hDecode]

------------------------------------------------------------
-- Searches
------------------------------------------------------------

theorem length_between
    {block : Array UInt8}
    {first last : Nat}
    (hLast : last ≤ block.size) :
    (between block first last).length = last - first := by
  simp only [between, Array.length_toList, Array.size_extract]
  omega

/- What is counted is limited. -/
theorem repetitionLength_le
    (block : Array UInt8)
    (earlier later limit : Nat) :
    repetitionLength block earlier later limit ≤ limit := by
  induction limit generalizing earlier later with
  | zero => exact Nat.le_refl 0
  | succ limit ih =>
    unfold repetitionLength
    split
    · exact Nat.succ_le_succ (ih _ _)
    · exact Nat.zero_le _

/- A position that is noted stands under one place only. -/
theorem getD_setIfInBounds_le
    {notes : Array Nat}
    {n m : Nat}
    (hNotes : ∀ place, notes.getD place 0 ≤ n)
    (hLe : n ≤ m)
    (place other : Nat) :
    (notes.setIfInBounds place m).getD other 0 ≤ m := by
  have hOld := hNotes other
  simp only [Array.getD_eq_getD_getElem?,
    Array.getElem?_setIfInBounds] at hOld ⊢
  split
  · split
    · exact Nat.le_refl m
    · exact Nat.zero_le m
  · exact Nat.le_trans hOld hLe

/-
  A search goes on from sequences that lead to its anchor to
  ones that lead to the anchor that it returns. Notes hold
  positions behind earlier groups only, so a copy reaches no
  further back than the start of the block.
-/
theorem spans_searchFrom
    {block : Array UInt8}
    {i anchor : Nat}
    {notes : Array Nat}
    {found : List Sequence}
    (hSpans : Spans 0 found.reverse anchor)
    (hAnchor : anchor ≤ i)
    (hInside : anchor ≤ block.size)
    (hNotes : ∀ place, notes.getD place 0 ≤ i) :
    Spans 0 (searchFrom block i anchor notes found).1.reverse
        (searchFrom block i anchor notes found).2 ∧
      (searchFrom block i anchor notes found).2 ≤
        block.size := by
  fun_induction searchFrom block i anchor notes found with
  | case1 i anchor notes found hEnd => exact ⟨hSpans, hInside⟩
  | case2 i anchor notes found hMore word place noted notes'
      offset hFound length sequence ih =>
    have hNoted : noted ≤ i := hNotes place
    have hLength : length ≤ block.size - copyMargin - (i + 4) :=
      repetitionLength_le _ _ _ _
    have hLiterals : sequence.literals.length = i - anchor := by
      apply length_between
      unfold searchMargin at hMore
      omega
    unfold searchMargin at hMore
    unfold copyMargin at hLength
    apply ih
    · rw [List.reverse_cons]
      apply hSpans.append
      have hEnd :
          i + 4 + length =
            anchor + sequence.literals.length +
              (sequence.length + 4) := by
        rw [hLiterals]
        change _ = anchor + (i - anchor) + (length + 4)
        omega
      have hReach :
          offset ≤ anchor + sequence.literals.length := by
        rw [hLiterals]
        omega
      rw [hEnd]
      refine .cons ?_ hFound.2.1 hReach (.nil _)
      change 0 < offset
      omega
    · exact Nat.le_refl _
    · omega
    · intro other
      have hNote : notes'.getD other 0 ≤ i + 1 :=
        getD_setIfInBounds_le hNotes (Nat.le_succ i) place other
      omega
  | case3 i anchor notes found hMore word place noted notes'
      offset hNone ih =>
    apply ih hSpans (Nat.le_succ_of_le hAnchor) hInside
    exact getD_setIfInBounds_le hNotes (Nat.le_succ i) place

/- With the literals behind them, sequences make up a block. -/
theorem spans_search
    (block : Bytes) :
    ∃ m,
      Spans 0 (search block).1 m ∧
      m + (search block).2.length = block.length := by
  have hNotes :
      ∀ place,
        (Array.replicate noteCount 0).getD place 0 ≤ 0 := by
    intro place
    simp only [Array.getD_eq_getD_getElem?,
      Array.getElem?_replicate]
    split <;> simp
  have hStart : Spans 0 ([] : List Sequence).reverse 0 := .nil 0
  have hInside : 0 ≤ block.toArray.size := Nat.zero_le _
  rcases spans_searchFrom hStart (Nat.le_refl 0) hInside hNotes
    with ⟨hSpans, hInside⟩
  refine ⟨_, hSpans, ?_⟩
  unfold search
  dsimp only
  rw [length_between (Nat.le_refl _)]
  simp only [List.size_toArray] at hInside ⊢
  omega

------------------------------------------------------------
-- Blocks
------------------------------------------------------------

/- A packed block is not longer than its literals alone. -/
theorem length_pack_le
    (block : Bytes) :
    (pack block).length ≤ bound block.length := by
  have hBytes := length_lengthBytes_le block.length
  have hAlone :
      (encodeLiterals block).length ≤ bound block.length := by
    rw [encodeLiterals, List.cons_append, List.length_cons,
      List.length_append, bound]
    omega
  unfold pack
  dsimp only
  split
  · rename_i hShorter
    exact Nat.le_trans (Nat.le_of_lt hShorter.1) hAlone
  · exact hAlone

/- What is packed is unpacked, and nothing else. -/
theorem decode_pack
    (block : Bytes) :
    decode (pack block) block.length = .success block := by
  have hAlone :
      decode (encodeLiterals block) block.length =
        .success block :=
    decodeFrom_literals (Nat.le_of_eq (Nat.zero_add _))
  unfold pack
  dsimp only
  split
  · rename_i hPacked
    rcases spans_search block with ⟨m, hSpans, hLength⟩
    have hStart : Spans (#[] : Array UInt8).size _ m := hSpans
    rcases decodeFrom_encode hStart (Nat.le_of_eq hLength) with
      ⟨bytes, hDecode⟩
    have hSame := hPacked.2
    rw [decode, hDecode, beq_iff_eq] at hSame
    rw [decode, hDecode]
    exact congrArg Transfer.success hSame
  · exact hAlone

end Lz4

end SplitStream
