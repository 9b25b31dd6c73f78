import SplitStream.Proofs.Scan.RawAgreement
import SplitStream.Proofs.Scan.Truncation

/-
  Raw streams that have been cut short. Nothing but the end of
  the source tells where a raw stream ends, so what is left is
  a raw stream again exactly if the cut is behind a frame.

  Main declarations:
    * `RawStream.inside`
    * `RawStream.EndsAt`
    * `RawStream.Remains`
    * `RawReader.truncates_readFrame`
    * `Scan.truncates_rawRound`
    * `Scan.CopesWithRaw`
    * `Scan.copesWith_of_contents`
-/

------------------------------------------------------------
-- Frames Inside A Cut
------------------------------------------------------------

namespace SplitStream

namespace RawStream

/- The frames that lie wholly in the first `n` bytes. -/
def inside
    (n : Nat) : List PackedBlock → List PackedBlock
  | [] => []
  | content :: rest =>
      if content.rawEncode.length ≤ n then
        content :: inside (n - content.rawEncode.length) rest
      else
        []

/- The first `n` bytes end in front of a frame or behind one. -/
def EndsAt
    (n : Nat)
    (contents : List PackedBlock) : Prop :=
  ∃ front back,
    contents = front ++ back ∧ (layout front).length = n

/- Behind a whole frame, the same ends are found. -/
theorem endsAt_cons_iff
    (content : PackedBlock)
    (rest : List PackedBlock)
    (n : Nat) :
    EndsAt (content.rawEncode.length + n) (content :: rest) ↔
      EndsAt n rest := by
  constructor
  · rintro ⟨front, back, hSplit, hLength⟩
    cases front with
    | nil =>
      have hSome := content.length_rawEncode_pos
      rw [layout_nil, List.length_nil] at hLength
      omega
    | cons first front =>
      cases hSplit
      rw [layout_cons, List.length_append] at hLength
      exact ⟨front, back, rfl, by omega⟩
  · rintro ⟨front, back, rfl, rfl⟩
    exact ⟨content :: front, back, rfl, List.length_append⟩

/- There is no end inside a frame. -/
theorem not_endsAt_of_lt
    {content : PackedBlock}
    {n : Nat}
    (hSome : 0 < n)
    (hShort : n < content.rawEncode.length)
    (rest : List PackedBlock) :
    ¬ EndsAt n (content :: rest) := by
  rintro ⟨front, back, hSplit, hLength⟩
  cases front with
  | nil =>
    rw [layout_nil, List.length_nil] at hLength
    omega
  | cons first front =>
    cases hSplit
    rw [layout_cons, List.length_append] at hLength
    omega

/- A part of a frame is left, but not all of it. -/
structure Severed
    (content : PackedBlock)
    (left : Bytes) : Prop where
  some_left : left ≠ []
  some_missing :
    ∃ missing, missing ≠ [] ∧ left ++ missing = content.rawEncode

/-
  What a cut leaves of frames: those that are inside, and
  nothing else or a part of the next one.
-/
inductive Remains
    (contents : List PackedBlock)
    (rest : Bytes) : Prop where
  | whole {front : List PackedBlock} :
      front ⊆ contents →
      rest = layout front →
      EndsAt rest.length contents →
      inside rest.length contents = front →
        Remains contents rest
  | severed {front : List PackedBlock} {content : PackedBlock}
      {left : Bytes} :
      front ⊆ contents →
      content ∈ contents →
      Severed content left →
      rest = layout front ++ left →
      ¬ EndsAt rest.length contents →
      inside rest.length contents = front →
        Remains contents rest

/- A cut behind a frame is a cut of what follows. -/
theorem Remains.behind
    {contents : List PackedBlock}
    {rest : Bytes}
    (content : PackedBlock)
    (h : Remains contents rest) :
    Remains (content :: contents) (content.rawEncode ++ rest) := by
  have hLength :
      (content.rawEncode ++ rest).length =
        content.rawEncode.length + rest.length :=
    List.length_append
  have hEnds := endsAt_cons_iff content contents rest.length
  have hInside :
      inside (content.rawEncode.length + rest.length)
          (content :: contents) =
        content :: inside rest.length contents := by
    rw [inside, if_pos (Nat.le_add_right _ _),
      Nat.add_sub_cancel_left]
  rw [← hLength] at hEnds hInside
  cases h with
  | @whole front hSubset hRest hEnd hFront =>
    exact
      .whole (List.cons_subset_cons content hSubset)
        (by rw [hRest, layout_cons]) (hEnds.mpr hEnd)
        (by rw [hInside, hFront])
  | @severed front other left hSubset hMem hSevered hRest hFar
      hFront =>
    exact
      .severed (List.cons_subset_cons content hSubset)
        (List.mem_cons_of_mem content hMem) hSevered
        (by rw [hRest, layout_cons, List.append_assoc])
        (mt hEnds.mp hFar) (by rw [hInside, hFront])

/- Whatever a cut leaves, frames or a part of one is left. -/
theorem remains_of_layout
    {contents : List PackedBlock}
    {rest more : Bytes}
    (hRest : rest ++ more = layout contents) :
    Remains contents rest := by
  induction contents generalizing rest with
  | nil =>
    rcases List.append_eq_nil_iff.mp hRest with ⟨rfl, _⟩
    exact
      .whole (List.Subset.refl []) rfl ⟨[], [], rfl, rfl⟩ rfl
  | cons content contents ih =>
    rw [layout_cons] at hRest
    rcases Reading.cut_of_append hRest with
      ⟨missing, hMissing, hCut⟩ | ⟨left, rfl, hLeft⟩
    · have hShort :
          rest.length < content.rawEncode.length := by
        have hSome := List.length_pos_iff.mpr hMissing
        rw [← hCut, List.length_append]
        omega
      have hNone :
          inside rest.length (content :: contents) = [] := by
        rw [inside, if_neg (Nat.not_le.mpr hShort)]
      by_cases hEmpty : rest = []
      · subst hEmpty
        exact
          .whole (List.nil_subset _) rfl
            ⟨[], content :: contents, rfl, rfl⟩ hNone
      · have hSome := List.length_pos_iff.mpr hEmpty
        exact
          .severed (List.nil_subset _) List.mem_cons_self
            ⟨hEmpty, missing, hMissing, hCut⟩ rfl
            (not_endsAt_of_lt hSome hShort contents) hNone
    · exact (ih hLeft).behind content

end RawStream

------------------------------------------------------------
-- Readers
------------------------------------------------------------

namespace RawReader

open FrameReader Reading RawStream

variable {codec : Codec} {reader : RawReader}

theorem truncates_onSource
    {α : Type}
    {reading : Reading α}
    {bs missing : Bytes}
    (hReading : reading.Starves bs)
    (reader : RawReader)
    (hFault : reader.source.fault = none)
    (hMissing : missing ≠ [])
    (hRest : reader.source.rest ++ missing = bs) :
    Step.Truncates (onSource reading) reader :=
  hReading.within reader hFault hMissing hRest

/- A frame is cut short in one of its words or its payload. -/
theorem truncates_readFrame
    {content : PackedBlock}
    (hReadable : Readable reader.codec content)
    (hFault : reader.source.fault = none)
    (hSevered : Severed content reader.source.rest) :
    Step.Truncates readFrame reader := by
  rcases hReadable with ⟨hFits, hBound, _⟩
  rcases hSevered with ⟨hSome, missing, hMissing, hRest⟩
  have hPlain := hFits.block_le
  rw [PackedBlock.rawEncode_eq] at hRest
  unfold readFrame
  refine .behind ?_ (perform_clear reader)
  rcases cut_of_append hRest with
    ⟨short, hShort, hCut⟩ | ⟨rest₁, hRest₁, hMore₁⟩
  · rcases truncates_frameStart reader.source hFault hShort hCut
      with ⟨next, hStart⟩ | hStart
    · exact absurd (rest_of_frameStart hFault hStart) hSome
    · rcases hStart with ⟨cut, next, hStart⟩
      refine Step.Truncates.bind ?_
      exact ⟨cut, _, by simp [onSource, hStart]; rfl⟩
  rcases perform_onSource
    (consumes_frameStart (lt_wordCount hPlain))
    { reader with staging := reader.staging.clear } hFault hRest₁
    with ⟨s₁, hStart, hAhead₁⟩
  have hFault₁ := hAhead₁.fault.trans hFault
  rw [← hAhead₁.rest_of_eq hRest₁ rfl] at hMore₁
  refine .behind ?_ hStart
  rcases cut_of_append hMore₁ with
    ⟨short, hShort, hCut⟩ | ⟨rest₂, hRest₂, hMore₂⟩
  · exact
      (truncates_onSource (starves_frameLength hFits.packed_lt)
        { reader with
          source := s₁
          staging := reader.staging.clear } hFault₁ hShort
        hCut).bind
  rcases perform_onSource (consumes_frameLength hFits.packed_lt)
    { reader with
      source := s₁
      staging := reader.staging.clear } hFault₁ hRest₂ with
    ⟨s₂, hLength, hAhead₂⟩
  have hFault₂ := hAhead₂.fault.trans hFault₁
  rw [← hAhead₂.rest_of_eq hRest₂ rfl] at hMore₂
  refine .behind ?_ hLength
  rw [if_neg (Nat.not_lt.mpr hPlain)]
  refine .behind ?_ (Step.perform_get _)
  dsimp only
  rw [if_neg (Nat.not_lt.mpr hBound)]
  exact
    (truncates_onSource (starves_framePayload content.packed)
      { reader with
        source := s₂
        staging := reader.staging.clear } hFault₂ hMissing
      hMore₂).bind

/-
  All blocks before a frame that is cut are delivered, and
  then the reader is cut short.
-/
theorem delivers_of_severed
    {front : List PackedBlock}
    {content : PackedBlock}
    {left : Bytes}
    (reader : RawReader)
    (hFault : reader.source.fault = none)
    (hRest : reader.source.rest = layout front ++ left)
    (hReadable :
      ∀ content ∈ front, Readable reader.codec content)
    (hCut : Readable reader.codec content)
    (hSevered : Severed content left) :
    ∃ cut,
      Delivers reader (front.map PackedBlock.block)
        (some (.truncated cut)) := by
  induction front generalizing reader with
  | nil =>
    have hLeft : reader.source.rest = left := hRest
    rw [← hLeft] at hSevered
    rcases truncates_readFrame hCut hFault hSevered with
      ⟨cut, next, hRead⟩
    exact ⟨cut, .failed hRead⟩
  | cons first front ih =>
    rw [layout_cons, List.append_assoc] at hRest
    rcases perform_readFrame_of_frame reader first
      (hReadable first List.mem_cons_self) hFault hRest with
      ⟨source, area, hRead, hAhead⟩
    rcases ih
      { reader with
        source := source
        staging := { area := area, ready := first.block }
        frames := reader.frames + 1 }
      (hAhead.fault.trans hFault)
      (hAhead.rest_of_eq hRest rfl)
      (fun later hLater =>
        hReadable later (List.mem_cons_of_mem _ hLater))
      hCut with ⟨cut, hDelivers⟩
    exact ⟨cut, .frame hRead hDelivers⟩

/- A reader walks over the frames of what it delivers. -/
theorem reads_of_delivers
    {source : Source}
    {blocks : List Bytes}
    {failure : Option Error}
    (hFault : source.fault = none)
    (hDelivers : Delivers (new source codec) blocks failure) :
    ∃ found,
      Reads codec source found failure ∧
      found.map Prod.snd = blocks := by
  rcases exists_reads codec hFault with ⟨found, other, hReads⟩
  rcases hReads.delivers.unique hDelivers with ⟨hBlocks, rfl⟩
  exact ⟨found, hReads, hBlocks⟩

end RawReader

------------------------------------------------------------
-- Scans
------------------------------------------------------------

namespace Scan

open Reading RawStream

variable {source : Source}

/- A round does not pass a frame that is cut. -/
theorem truncates_rawRound
    {content : PackedBlock}
    (hFits : content.RawFits)
    (hFault : source.fault = none)
    (hSevered : Severed content source.rest)
    (start : Nat)
    (found : List Nat) :
    Step.Truncates
      (rawRound start source.size ⟨source.position, found⟩)
      source := by
  rcases hSevered with ⟨hSome, missing, hMissing, hRest⟩
  have hHeader : Frame.headerSize = 8 := rfl
  have hSize := content.length_rawEncode
  have hLeft := source.remaining_eq
  have hFew := List.length_pos_iff.mpr hSome
  have hLost := List.length_pos_iff.mpr hMissing
  have hBoth := congrArg List.length hRest
  rw [List.length_append] at hBoth
  rw [Source.remaining] at hLeft
  rw [PackedBlock.rawEncode_eq, ← List.append_assoc] at hRest
  have hMore : ¬ source.size ≤ source.position := by
    omega
  rw [rawRound, if_neg hMore]
  by_cases hShort :
      source.size - source.position < Frame.headerSize
  · rw [if_pos hShort]
    exact ⟨.frameLength, source, rfl⟩
  rw [if_neg hShort]
  rcases cut_of_append hRest with
    ⟨short, hNone, hCut⟩ | ⟨rest, hRest₁, _⟩
  · have hLengths := congrArg List.length hCut
    have hPositive := List.length_pos_iff.mpr hNone
    simp only [List.length_append, Frame.length,
      Bytes.length_bigEndian] at hLengths
    omega
  rw [List.append_assoc] at hRest₁
  rcases consumes_frameLength (lt_wordCount hFits.block_le) source
    _ hFault hRest₁ with ⟨s₁, hPlain, hAhead₁⟩
  rcases consumes_frameLength hFits.packed_lt s₁ _
    (hAhead₁.fault.trans hFault) (hAhead₁.rest_of_eq hRest₁ rfl)
    with ⟨s₂, hPacked, _⟩
  have hExtent :
      source.size <
        source.position + Frame.headerSize +
          content.packed.length := by
    omega
  refine .behind ?_ hPlain
  refine .behind ?_ hPacked
  rw [if_neg (Nat.not_lt.mpr hFits.block_le)]
  dsimp only
  rw [if_pos hExtent]
  exact ⟨.framePayload, s₂, rfl⟩

/- The loop moves over all frames before the one that is cut. -/
theorem truncates_rawRounds
    {front : List PackedBlock}
    {content : PackedBlock}
    {left : Bytes}
    (hFits : ∀ content ∈ front, content.RawFits)
    (hCut : content.RawFits)
    (hSevered : Severed content left)
    (source : Source)
    (hFault : source.fault = none)
    (hRest : source.rest = layout front ++ left)
    (start n : Nat)
    (hRounds : front.length < n)
    (found : List Nat) :
    Step.Truncates
      (rounds (rawRound start source.size) n
        ⟨source.position, found⟩)
      source := by
  induction front generalizing source n found with
  | nil =>
    have hLeft : source.rest = left := hRest
    rw [← hLeft] at hSevered
    cases n with
    | zero => cases hRounds
    | succ n =>
      exact
        (truncates_rawRound hCut hFault hSevered start found).bind
  | cons first front ih =>
    rw [layout_cons, List.append_assoc] at hRest
    cases n with
    | zero => cases hRounds
    | succ n =>
      rcases perform_rawRound_of_frame
        (hFits first List.mem_cons_self) hFault hRest start found
        with ⟨later, hRound, hAhead⟩
      have hMore :=
        ih
          (fun later hLater =>
            hFits later (List.mem_cons_of_mem _ hLater))
          later (hAhead.fault.trans hFault)
          (hAhead.rest_of_eq hRest rfl) n
          (by simp at hRounds; omega)
          ((source.position - start) :: found)
      rw [hAhead.size] at hMore
      rw [rounds]
      refine .behind ?_ hRound
      exact hMore

------------------------------------------------------------
-- Cut Streams
------------------------------------------------------------

/-
  A raw stream whose first bytes are there. It ends wherever
  a frame does.
-/
def CopesWithRaw
    (codec : Codec)
    (contents : List PackedBlock)
    (source : Source) : Prop :=
  CopesWith source raw (RawReader.Reads codec source)
    (EndsAt source.rest.length contents)
    ((inside source.rest.length contents).map PackedBlock.block)
    (.ofContents (inside source.rest.length contents))

/- Whatever a cut leaves of a raw stream, it is recognised. -/
theorem copesWith_of_contents
    {codec : Codec}
    {contents : List PackedBlock}
    {more : Bytes}
    (hReadable :
      ∀ content ∈ contents, RawReader.Readable codec content)
    (hFault : source.fault = none)
    (hRest : source.rest ++ more = layout contents) :
    CopesWithRaw codec contents source := by
  cases remains_of_layout hRest with
  | @whole front hSubset hLayout hEnds hInside =>
    have hFront :
        ∀ content ∈ front, RawReader.Readable codec content :=
      fun content hContent =>
        hReadable content (hSubset hContent)
    refine ⟨fun _ => ⟨?_, ?_⟩, fun hFar => absurd hEnds hFar⟩
    · rw [hInside]
      have hBefore : (RawReader.new source codec).Before front :=
        ⟨hFault, hLayout, hFront⟩
      exact
        RawReader.reads_of_delivers hFault
          (RawReader.delivers_of_before hBefore)
    · rw [hInside]
      exact
        perform_raw
          (fun content hContent => (hFront content hContent).fits)
          source hFault hLayout
  | @severed front content left hSubset hMem hSevered hLayout hFar
      hInside =>
    have hFront :
        ∀ content ∈ front, RawReader.Readable codec content :=
      fun content hContent =>
        hReadable content (hSubset hContent)
    refine ⟨fun hEnds => absurd hEnds hFar, fun _ => ⟨?_, ?_⟩⟩
    · rw [hInside]
      rcases RawReader.delivers_of_severed (.new source codec)
        hFault hLayout hFront (hReadable content hMem) hSevered
        with ⟨cut, hDelivers⟩
      rcases RawReader.reads_of_delivers hFault hDelivers with
        ⟨found, hReads, hBlocks⟩
      exact ⟨found, cut, hReads, hBlocks⟩
    · have hRounds : front.length < source.remaining + 1 := by
        have hLength := length_le_layout front
        rw [source.remaining_eq, hLayout, List.length_append]
        omega
      have hLoop :=
        truncates_rawRounds
          (fun content hContent => (hFront content hContent).fits)
          (hReadable content hMem).fits hSevered source hFault
          hLayout source.position _ hRounds []
      unfold raw
      refine .behind ?_ (Step.perform_get source)
      exact hLoop.bind

end Scan

end SplitStream
