import SplitStream.FrameIndex.Basic

/-
  Layouts of indexes. An index is parsed back from its layout
  if each of its offsets fits into one word of eight bytes,
  and what is parsed is the layout of the index it gives.

  Main declarations:
    * `FrameIndex.ofOffsets_of_pairwise`
    * `FrameIndex.decodeOffsets_flatMap`
    * `FrameIndex.flatMap_decodeOffsets`
    * `FrameIndex.ofBytes_toBytes`
    * `FrameIndex.toBytes_of_ofBytes`
    * `FrameIndex.StoredAs`
-/

------------------------------------------------------------
-- Increasing Offsets
------------------------------------------------------------

namespace SplitStream

namespace FrameIndex

theorem disorderAfter?_of_pairwise
    {previous : Nat}
    {offsets : List Nat}
    (h : (previous :: offsets).Pairwise (· < ·)) :
    disorderAfter? previous offsets = none := by
  induction offsets generalizing previous with
  | nil => rfl
  | cons offset rest ih =>
    have hLess := (List.pairwise_cons.mp h).1 offset
      List.mem_cons_self
    rw [disorderAfter?, if_pos hLess]
    exact ih (List.pairwise_cons.mp h).2

/- Increasing offsets are accepted. -/
theorem ofOffsets_of_pairwise
    {offsets : List Nat}
    (h : offsets.Pairwise (· < ·)) :
    ofOffsets offsets = .ok ⟨offsets, h⟩ := by
  have hOrder : disorder? offsets = none := by
    cases offsets with
    | nil => rfl
    | cons offset rest => exact disorderAfter?_of_pairwise h
  unfold ofOffsets
  split
  · rfl
  · rename_i hSome
    rw [hOrder] at hSome
    contradiction

/- An index holds the offsets that it was made of. -/
theorem offsets_of_ofOffsets
    {offsets : List Nat}
    {index : FrameIndex}
    (h : ofOffsets offsets = .ok index) :
    index.offsets = offsets := by
  unfold ofOffsets at h
  split at h
  · cases h
    rfl
  · cases h

------------------------------------------------------------
-- Words
------------------------------------------------------------

/- Whole words are a first word and the others. -/
theorem exists_word_append
    {count : Nat}
    {bs : Bytes}
    (hWhole : bs.length = entrySize * (count + 1)) :
    ∃ word rest,
      bs = word ++ rest ∧
      word.length = entrySize ∧
      rest.length = entrySize * count := by
  refine
    ⟨bs.take entrySize, bs.drop entrySize,
      (List.take_append_drop _ _).symm, ?_, ?_⟩
  · rw [List.length_take, hWhole, Nat.mul_succ]
    omega
  · rw [List.length_drop, hWhole, Nat.mul_succ]
    omega

/- The first word is decoded, and then the others are. -/
theorem decodeOffsets_append
    {word : Bytes}
    (hWord : word.length = entrySize)
    (rest : Bytes) :
    decodeOffsets (word ++ rest) =
      Bytes.ofBigEndian word :: decodeOffsets rest := by
  match word, hWord with
  | [_, _, _, _, _, _, _, _], _ => rfl

/- Offsets are decoded if each of them fits into a word. -/
theorem decodeOffsets_flatMap
    {offsets : List Nat}
    (hSmall :
      ∀ offset ∈ offsets, offset < Bytes.wordCount entrySize) :
    decodeOffsets (offsets.flatMap encodeOffset) = offsets := by
  induction offsets with
  | nil => rfl
  | cons offset rest ih =>
    have hFirst := hSmall offset List.mem_cons_self
    have hRest := ih fun later hLater =>
      hSmall later (List.mem_cons_of_mem _ hLater)
    rw [List.flatMap_cons, encodeOffset,
      decodeOffsets_append (Bytes.length_bigEndian _ _), hRest,
      Bytes.ofBigEndian_bigEndian_of_lt hFirst]

/- Whole words are the layout of the offsets in them. -/
theorem flatMap_decodeOffsets
    (count : Nat)
    {bs : Bytes}
    (hWhole : bs.length = entrySize * count) :
    (decodeOffsets bs).flatMap encodeOffset = bs := by
  induction count generalizing bs with
  | zero =>
    rw [List.eq_nil_of_length_eq_zero hWhole]
    rfl
  | succ count ih =>
    rcases exists_word_append hWhole with
      ⟨word, rest, rfl, hWord, hRest⟩
    rw [decodeOffsets_append hWord, List.flatMap_cons, ih hRest,
      encodeOffset, ← hWord, Bytes.bigEndian_ofBigEndian]

theorem length_flatMap_encodeOffset
    (offsets : List Nat) :
    (offsets.flatMap encodeOffset).length =
      offsets.length * entrySize := by
  induction offsets with
  | nil => simp
  | cons offset rest ih =>
    rw [List.flatMap_cons, List.length_append, ih, encodeOffset,
      Bytes.length_bigEndian, List.length_cons, Nat.succ_mul,
      Nat.add_comm]

/- An index is parsed back from its layout. -/
theorem ofBytes_toBytes
    {index : FrameIndex}
    (hSmall :
      ∀ offset ∈ index.offsets,
        offset < Bytes.wordCount entrySize) :
    ofBytes index.toBytes = .ok index := by
  rw [ofBytes, toBytes, length_flatMap_encodeOffset,
    if_pos (Nat.mul_mod_left _ _), decodeOffsets_flatMap hSmall,
    ofOffsets_of_pairwise index.increasing]

/- An index is parsed from its layout only. -/
theorem toBytes_of_ofBytes
    {bs : Bytes}
    {index : FrameIndex}
    (h : ofBytes bs = .ok index) :
    index.toBytes = bs := by
  rw [ofBytes] at h
  split at h
  · rename_i hMod
    rcases Nat.dvd_of_mod_eq_zero hMod with ⟨count, hCount⟩
    rw [toBytes, offsets_of_ofOffsets h,
      flatMap_decodeOffsets count hCount]
  · cases h

/-
  Some bytes are the layout of the index of a stream of some
  size, and they are parsed to it if the stream is not longer
  than a word can tell.
-/
structure StoredAs
    (index : FrameIndex)
    (stored : Bytes)
    (size : Nat) : Prop where
  layout : index.toBytes = stored
  parsed :
    size ≤ Bytes.wordCount entrySize →
      ofBytes stored = .ok index

theorem storedAs_of_lt
    {index : FrameIndex}
    {stored : Bytes}
    {size : Nat}
    (hStored : stored = index.offsets.flatMap encodeOffset)
    (hInside : ∀ offset ∈ index.offsets, offset < size) :
    index.StoredAs stored size := by
  refine ⟨hStored.symm, ?_⟩
  intro hSize
  rw [hStored]
  apply ofBytes_toBytes
  intro offset hOffset
  exact Nat.lt_of_lt_of_le (hInside offset hOffset) hSize

end FrameIndex

end SplitStream
