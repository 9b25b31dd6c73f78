import SplitStream.Codec.Standard

/-
  Unpacking of Zstandard frames. A frame of copied blocks has
  a header that tells the size of its content; a decoder that
  reads it comes over the blocks one by one and finds this
  size. A frame has room within the bound of the format.

  Main declarations:
    * `Zstd.decodeBlocks_encodeBlocks`
    * `Zstd.length_encode_le`
    * `Zstd.readDescriptor_frameHeader`
    * `Zstd.decode_encode`
-/

------------------------------------------------------------
-- Words
------------------------------------------------------------

namespace SplitStream

@[simp]
theorem Bytes.length_littleEndian
    (width n : Nat) :
    (littleEndian width n).length = width := by
  rw [littleEndian, List.length_reverse, length_bigEndian]

/- A number that fits its width is read back whole. -/
theorem Bytes.ofLittleEndian_littleEndian_of_lt
    {width n : Nat}
    (h : n < wordCount width) :
    ofLittleEndian (littleEndian width n) = n := by
  rw [ofLittleEndian, littleEndian, List.reverse_reverse,
    ofBigEndian_bigEndian_of_lt h]

namespace Zstd

/- Bytes are split where they have been put together. -/
theorem splitAt?_append
    {n : Nat}
    {first : Bytes}
    (hFirst : first.length = n)
    (rest : Bytes) :
    splitAt? n (first ++ rest) = some (first, rest) := by
  subst hFirst
  simp [splitAt?]

------------------------------------------------------------
-- Blocks
------------------------------------------------------------

theorem length_encodeBlocks_le
    (content : Bytes) :
    (encodeBlocks content).length ≤
      content.length + 3 * (content.length / maxBlock + 1) := by
  fun_induction encodeBlocks content with
  | case1 content hSmall =>
    simp only [blockHeader, List.length_append,
      Bytes.length_littleEndian]
    unfold maxBlock
    omega
  | case2 content hLarge ih =>
    simp only [blockHeader, List.length_append, List.length_take,
      List.length_drop, Bytes.length_littleEndian] at ih ⊢
    unfold maxBlock at *
    omega

/- A copied block is appended to the output. -/
theorem decodeBlocks_copied
    {room : Nat}
    {content : Bytes}
    {out : Tape}
    (hSize : content.length ≤ maxBlock)
    (hRoom : out.size + content.length ≤ room)
    (last : Bool)
    (rest : Bytes) :
    decodeBlocks room
        (blockHeader last content.length ++ content ++ rest)
        out =
      if last then ⟨out.append content, some rest⟩
      else decodeBlocks room rest (out.append content) := by
  unfold maxBlock at hSize
  obtain ⟨mark, hMark, hLast⟩ :
      ∃ mark,
        (if last then 1 else 0) = mark ∧
        (mark = 1 ∧ last = true ∨ mark = 0 ∧ last = false) := by
    cases last <;> simp
  obtain ⟨bits, hBits⟩ :
      ∃ bits, content.length * 8 + mark = bits :=
    ⟨_, rfl⟩
  have hHeader :
      blockHeader last content.length =
        [UInt8.ofNat bits, UInt8.ofNat (bits / 256),
          UInt8.ofNat (bits / 65536)] := by
    rw [blockHeader, hMark, hBits]
    simp [Bytes.littleEndian, Bytes.bigEndian, Bytes.wordCount]
  have hRead :
      (UInt8.ofNat bits).toNat +
          256 * (UInt8.ofNat (bits / 256)).toNat +
          65536 * (UInt8.ofNat (bits / 65536)).toNat =
        bits := by
    simp only [UInt8.toNat_ofNat']
    omega
  have hKind : bits / 2 % 4 = 0 := by omega
  have hLength : bits / 8 = content.length := by omega
  have hMarked : bits % 2 = mark := by omega
  rw [hHeader, decodeBlocks.eq_def]
  dsimp only [List.cons_append, List.nil_append]
  rw [hRead, hKind, hLength, hMarked,
    if_neg (Nat.not_lt.mpr hRoom), if_pos rfl, List.take_left,
    List.drop_left, if_neg (Nat.lt_irrefl _)]
  rcases hLast with ⟨rfl, rfl⟩ | ⟨rfl, rfl⟩
  · simp
  · simp

/- Copied blocks are appended one after another. -/
theorem decodeBlocks_encodeBlocks
    {room : Nat}
    {content : Bytes}
    {out : Tape}
    (hRoom : out.size + content.length ≤ room)
    (rest : Bytes) :
    ∃ tape,
      decodeBlocks room (encodeBlocks content ++ rest) out =
        ⟨tape, some rest⟩ ∧
      tape.toBytes = out.toBytes ++ content := by
  fun_induction encodeBlocks content generalizing out with
  | case1 content hSmall =>
    refine ⟨out.append content, ?_, Tape.toBytes_append _ _⟩
    rw [decodeBlocks_copied hSmall hRoom true rest]
    rfl
  | case2 content hLarge ih =>
    let first := content.take maxBlock
    have hFirst : first.length = maxBlock :=
      List.length_take_of_le (Nat.le_of_not_le hLarge)
    have hAll : first ++ content.drop maxBlock = content :=
      List.take_append_drop _ _
    have hBoth :
        first.length + (content.drop maxBlock).length =
          content.length := by
      rw [← List.length_append, hAll]
    have hSize :
        (out.append first).size = out.size + first.length :=
      rfl
    have hRest :
        (out.append first).size +
            (content.drop maxBlock).length ≤
          room := by
      omega
    have hFits : out.size + first.length ≤ room := by
      omega
    have hCopied :=
      decodeBlocks_copied (Nat.le_of_eq hFirst) hFits false
        (encodeBlocks (content.drop maxBlock) ++ rest)
    rcases ih hRest with ⟨tape, hDecode, hTape⟩
    refine ⟨tape, ?_, ?_⟩
    · rw [hFirst] at hCopied
      rw [List.append_assoc, hCopied]
      exact hDecode
    · rw [hTape, Tape.toBytes_append, List.append_assoc, hAll]

------------------------------------------------------------
-- Frames
------------------------------------------------------------

/- The descriptor of a frame that tells its size only. -/
def sizeOnly
    (size : Nat) : Descriptor where
  dictionary := 0
  checksum := false
  contentSize := some size

/-
  A descriptor of one segment, without a dictionary and
  without a checksum, is followed by the content size.
-/
theorem readDescriptor_single
    (flags : UInt8)
    {width n : Nat}
    (hSingle : flags.toNat / 32 % 2 = 1)
    (hPlain :
      flags.toNat % 4 = 0 ∧ flags.toNat / 8 % 2 = 0 ∧
        flags.toNat / 4 % 2 = 0)
    (hWidth : contentWidth true (flags.toNat / 64) = width)
    (hSome : width ≠ 0)
    (hLess : n < Bytes.wordCount width)
    (rest : Bytes) :
    readDescriptor (flags :: Bytes.littleEndian width n ++ rest) =
      some (sizeOnly (if width = 2 then n + 256 else n), rest) := by
  have hLength := Bytes.length_littleEndian width n
  have hSize := Bytes.ofLittleEndian_littleEndian_of_lt hLess
  generalize Bytes.littleEndian width n = word at *
  have hFlags : Bytes.ofLittleEndian [flags] = flags.toNat := by
    simp [Bytes.ofLittleEndian, Bytes.ofBigEndian,
      Bytes.wordCount]
  have hFirst :
      splitAt? 1 (flags :: word ++ rest) =
        some ([flags], word ++ rest) :=
    splitAt?_append List.length_singleton (word ++ rest)
  have hNone :
      splitAt? 0 (word ++ rest) = some ([], word ++ rest) :=
    splitAt?_append List.length_nil (word ++ rest)
  have hWord :
      splitAt? width (word ++ rest) = some (word, rest) :=
    splitAt?_append hLength rest
  have hWindow :
      ¬ (0 = 1 ∨ 31 < 10 + Bytes.ofLittleEndian [] / 8) := by
    decide
  rcases hPlain with ⟨hDictionary, hReserved, hChecksum⟩
  unfold readDescriptor
  simp only [hFirst, bind, Option.bind, hFlags, hSingle,
    decide_true, if_true, hNone, hDictionary, dictionaryWidth,
    hWidth, hWord, hReserved, hChecksum, if_neg hWindow,
    if_neg hSome, hSize, sizeOnly]
  split
  · rfl
  · rfl

/- A frame header tells the size of the content. -/
theorem readDescriptor_frameHeader
    {size : Nat}
    (hSize : size < Bytes.wordCount 4)
    (rest : Bytes) :
    ∃ fields,
      frameHeader size = magic ++ fields ∧
      readDescriptor (fields ++ rest) =
        some (sizeOnly size, rest) := by
  unfold frameHeader
  split
  · rename_i hByte
    have hRead :=
      readDescriptor_single 0x20 (by decide) (by decide) rfl
        (by decide) hByte rest
    exact ⟨0x20 :: Bytes.littleEndian 1 size, rfl, hRead⟩
  · rename_i hLong
    split
    · rename_i hWord
      have hLess : size - 256 < Bytes.wordCount 2 := by
        change size - 256 < 65536
        omega
      have hBack : size - 256 + 256 = size :=
        Nat.sub_add_cancel (Nat.not_lt.mp hLong)
      have hRead :=
        readDescriptor_single 0x60 (by decide) (by decide) rfl
          (by decide) hLess rest
      change _ = some (sizeOnly (size - 256 + 256), rest) at hRead
      rw [hBack] at hRead
      exact
        ⟨0x60 :: Bytes.littleEndian 2 (size - 256), rfl, hRead⟩
    · have hRead :=
        readDescriptor_single 0xA0 (by decide) (by decide) rfl
          (by decide) hSize rest
      exact ⟨0xA0 :: Bytes.littleEndian 4 size, rfl, hRead⟩

/- A frame is read as the content that it was made of. -/
theorem decodeFrame_encode
    {room : Nat}
    {content : Bytes}
    (hSize : content.length < Bytes.wordCount 4)
    (hRoom : content.length ≤ room) :
    ∃ fields tape,
      encode content = magic ++ fields ∧
      decodeFrame room fields .empty = ⟨tape, some []⟩ ∧
      tape.toBytes = content := by
  rcases readDescriptor_frameHeader hSize
    (encodeBlocks content) with ⟨fields, hHeader, hRead⟩
  have hEmpty : Tape.empty.size + content.length ≤ room := by
    change 0 + content.length ≤ room
    omega
  rcases decodeBlocks_encodeBlocks hEmpty [] with
    ⟨tape, hBlocks, hTape⟩
  rw [List.append_nil] at hBlocks
  rw [Tape.toBytes_empty, List.nil_append] at hTape
  have hLength : tape.size - Tape.empty.size = content.length := by
    rw [Tape.size_eq_length, hTape]
    rfl
  refine
    ⟨fields ++ encodeBlocks content, tape, ?_, ?_, hTape⟩
  · rw [encode, hHeader, List.append_assoc]
  · rw [decodeFrame, hRead]
    dsimp only [sizeOnly]
    rw [if_neg (by simp), hBlocks]
    dsimp only
    rw [if_pos hLength]

theorem length_frameHeader_le
    (size : Nat) :
    (frameHeader size).length ≤ 9 := by
  unfold frameHeader
  split
  · simp [magic]
  · split
    · simp [magic]
    · simp [magic]

/- A frame fits the room for its block. -/
theorem length_encode_le
    (content : Bytes) :
    (encode content).length ≤ bound content.length := by
  have hHeader := length_frameHeader_le content.length
  have hBlocks := length_encodeBlocks_le content
  rw [encode, List.length_append]
  unfold bound
  unfold maxBlock at *
  split
  · omega
  · omega

/- A frame is unpacked to its content. -/
theorem decode_encode
    {content : Bytes}
    (hSize : content.length < Bytes.wordCount 4) :
    decode (encode content) content.length =
      .success content := by
  rcases decodeFrame_encode hSize (Nat.le_refl _) with
    ⟨fields, tape, hEncode, hFrame, hTape⟩
  have hFirst : ((magic ++ fields).take 4 == magic) = true := by
    rw [beq_iff_eq]
    exact @List.take_left _ magic fields
  have hRest : (magic ++ fields).drop 4 = fields :=
    @List.drop_left _ magic fields
  have hLength :
      (magic ++ fields).length = fields.length + 3 + 1 := by
    rw [List.length_append, Nat.add_comm]
    rfl
  rw [decode, hEncode, hLength, decodeFrames, hFirst, hRest]
  · simp only [if_true, hFrame, decodeFrames, hTape]
  · simp [magic]

end Zstd

end SplitStream
