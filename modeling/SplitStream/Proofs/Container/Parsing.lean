import SplitStream.Proofs.Container.Segments

/-
  Containers are parsed in one way only. Whatever follows two
  containers, as long as it is no further member, the bytes
  tell where each of them ends.

  Main declarations:
    * `Header.eq_of_encode`
    * `PackedBlock.eq_of_encode`
    * `Segment.Complete.tail_unique`
-/

------------------------------------------------------------
-- Headers And Frames
------------------------------------------------------------

namespace SplitStream

/- A header is told by the bytes at its front. -/
theorem Header.eq_of_encode
    {fields other : Header}
    {s t : Bytes}
    (hFields : fields.Regular)
    (hOther : other.Regular)
    (h : fields.encode ++ s = other.encode ++ t) :
    fields = other ∧ s = t := by
  let source := Source.atPosition (fields.encode ++ s) 0 none .prompt
  rcases Header.consumes_read hFields source s rfl rfl with
    ⟨next, hRead, _⟩
  rcases Header.consumes_read hOther source t rfl h with
    ⟨again, hAgain, _⟩
  rw [hRead] at hAgain
  have hSame : fields = other := by
    cases hAgain
    rfl
  subst hSame
  exact ⟨rfl, List.append_cancel_left h⟩

/- A length is told by the word at the front. -/
theorem Frame.eq_of_length
    {m n : Nat}
    {s t : Bytes}
    (hLeft : m ≤ maxBlockSize)
    (hRight : n ≤ maxBlockSize)
    (h : Frame.length m ++ s = Frame.length n ++ t) :
    m = n ∧ s = t := by
  have hWidth : (Frame.length m).length = (Frame.length n).length := by
    simp [Frame.length]
  rcases List.append_inj h hWidth with ⟨hWord, hRest⟩
  have hValue := congrArg Bytes.ofBigEndian hWord
  unfold Frame.length at hValue
  rw [Bytes.ofBigEndian_bigEndian_of_lt (lt_wordCount hLeft),
    Bytes.ofBigEndian_bigEndian_of_lt (lt_wordCount hRight)]
    at hValue
  exact ⟨hValue, hRest⟩

/- A frame ends where its lengths and checksums tell. -/
theorem PackedBlock.eq_of_encode
    {checksums : Selection}
    {content other : PackedBlock}
    {s t : Bytes}
    (hContent : content.Fits)
    (hOther : other.Fits)
    (h :
      content.encode checksums ++ s =
        other.encode checksums ++ t) :
    s = t := by
  have hParts := h
  rw [encode_eq, encode_eq, List.append_assoc,
    List.append_assoc] at hParts
  rcases Frame.eq_of_length hContent.block_le hOther.block_le hParts
    with ⟨hBlock, hAfter⟩
  have hLess := hContent.block_le
  have hLessOther := hOther.block_le
  rw [afterLength, afterLength, List.append_assoc,
    List.append_assoc] at hAfter
  rcases Frame.eq_of_length
    (by rw [length_payload]; omega)
    (by rw [length_payload]; omega) hAfter with ⟨hPayload, _⟩
  refine (List.append_inj h ?_).2
  rw [length_encode, length_encode, hBlock, hPayload]

------------------------------------------------------------
-- Containers
------------------------------------------------------------

namespace Segment

/- No frame starts with a terminator. -/
theorem terminator_ne_frame
    {checksums : Selection}
    {content : PackedBlock}
    {s t : Bytes}
    (hFits : content.Fits)
    (h :
      Frame.terminator ++ s = content.encode checksums ++ t) :
    False := by
  rw [PackedBlock.encode_eq, List.append_assoc] at h
  have hLength :=
    (Frame.eq_of_length (Nat.zero_le _) hFits.block_le h).1
  exact Nat.ne_of_lt hFits.block_pos hLength

/-
  Two ways to go on from the frames of a member end at the
  same place. The cases follow the first one; in each, the
  second one has to start with the same segment.
-/
theorem Framed.tail_unique
    {checksums : Selection}
    {front other : List Segment}
    {s t : Bytes}
    (hFront : Framed checksums front)
    (hOther : Framed checksums other)
    (h : layout front ++ s = layout other ++ t)
    (hLeft : s.take 9 ≠ Container.magic)
    (hRight : t.take 9 ≠ Container.magic) :
    s = t := by
  induction hFront generalizing other with
  | last checksums =>
    cases hOther with
    | last _ => exact List.append_cancel_left h
    | @next _ fields rest _ _ =>
      simp only [layout_cons, layout_nil, List.append_nil,
        List.append_assoc] at h
      have hRest := List.append_cancel_left h
      rw [hRest] at hLeft
      exact absurd (fields.take_encode _) hLeft
    | frame hFits _ =>
      simp only [layout_cons, layout_nil, List.append_nil,
        List.append_assoc] at h
      exact (terminator_ne_frame hFits h).elim
  | @next _ fields rest hRegular _ ih =>
    cases hOther with
    | last _ =>
      simp only [layout_cons, layout_nil, List.append_nil,
        List.append_assoc] at h
      have hRest := List.append_cancel_left h
      rw [← hRest] at hRight
      exact absurd (fields.take_encode _) hRight
    | next hRegular' hRest' =>
      simp only [layout_cons, List.append_assoc] at h
      rcases Header.eq_of_encode hRegular hRegular'
        (List.append_cancel_left h) with ⟨rfl, hRest⟩
      exact ih hRest' hRest
    | frame hFits _ =>
      simp only [layout_cons, List.append_assoc] at h
      exact (terminator_ne_frame hFits h).elim
  | frame hFits _ ih =>
    cases hOther with
    | last _ =>
      simp only [layout_cons, layout_nil, List.append_nil,
        List.append_assoc] at h
      exact (terminator_ne_frame hFits h.symm).elim
    | next _ _ =>
      simp only [layout_cons, List.append_assoc] at h
      exact (terminator_ne_frame hFits h.symm).elim
    | frame hFits' hRest' =>
      simp only [layout_cons, List.append_assoc] at h
      exact ih hRest' (PackedBlock.eq_of_encode hFits hFits' h)

/- The bytes tell where a container ends. -/
theorem Complete.tail_unique
    {front other : List Segment}
    {s t : Bytes}
    (hFront : Complete front)
    (hOther : Complete other)
    (h : layout front ++ s = layout other ++ t)
    (hLeft : s.take 9 ≠ Container.magic)
    (hRight : t.take 9 ≠ Container.magic) :
    s = t := by
  rcases hFront with ⟨hRegular, hFramed⟩
  rcases hOther with ⟨hRegular', hFramed'⟩
  simp only [layout_cons, List.append_assoc] at h
  rcases Header.eq_of_encode hRegular hRegular' h with ⟨rfl, hRest⟩
  exact hFramed.tail_unique hFramed' hRest hLeft hRight

end Segment

end SplitStream
