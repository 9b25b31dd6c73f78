import SplitStream.Proofs.Container.HeaderLayout
import SplitStream.Proofs.Source.Yielding
import SplitStream.Proofs.Writer.Delivery

/-
  Headers that are written and read. A reader takes a header
  from a source exactly where the bytes of a regular header
  stand, and these are the bytes that a writer makes of it.

  Main declarations:
    * `Header.yields_readFields`
    * `Header.yields_read`
    * `Header.WrittenAs`
    * `Header.writtenAs_encode`
    * `Header.read_putHeader_inverse`
-/

------------------------------------------------------------
-- Fields
------------------------------------------------------------

namespace SplitStream

namespace Header

open Reading

theorem yields_readHalf :
    readHalf.Yields fun bs w => bs = Bytes.bigEndian 2 w.toNat := by
  apply ((yields_number cutShort 2).map UInt16.ofNat).mono
  rintro bs w ⟨n, ⟨rfl, hLess⟩, rfl⟩
  rw [UInt16.toNat_ofNat_of_lt' hLess]

theorem yields_readByte :
    readByte.Yields fun bs w => bs = [w] := by
  apply ((yields_number cutShort 1).map UInt8.ofNat).mono
  rintro bs w ⟨n, ⟨rfl, hLess⟩, rfl⟩
  simp [Bytes.bigEndian, Bytes.wordCount]

/- A field of full versions only has its default otherwise. -/
theorem yields_ifFull
    {α : Type}
    {full : Bool}
    {field : Reading α}
    {layout : α → Bytes}
    (default : α)
    (hField : field.Yields fun bs a => bs = layout a) :
    (if full = true then field else pure default).Yields
      fun bs a =>
        bs = (if full then layout a else []) ∧
          (full = false → a = default) := by
  rcases full with _ | _
  · exact yields_return ⟨rfl, fun _ => rfl⟩
  · apply hField.mono
    intro bs a hLayout
    exact ⟨hLayout, fun hPartial => by contradiction⟩

/- A filter is read only where its flag is set. -/
theorem yields_filter
    (flags : UInt32) :
    (if flags &&& Container.filterFlag ≠ 0 then
        some <$> word cutShort
      else
        pure none).Yields fun bs filter =>
      bs =
          (match filter with
            | none => []
            | some filter => Bytes.bigEndian 4 filter.toNat) ∧
        (filter = none → flags &&& Container.filterFlag = 0) := by
  by_cases hFlag : flags &&& Container.filterFlag = 0
  · rw [if_neg (not_not_intro hFlag)]
    exact yields_return ⟨rfl, fun _ => hFlag⟩
  · rw [if_pos hFlag]
    apply ((yields_word cutShort).map some).mono
    rintro bs filter ⟨w, rfl, rfl⟩
    exact ⟨rfl, by simp⟩

/- An extra field stands where its flag says so. -/
def ExtraFits
    (header : Header)
    (extra : Option Bytes) : Prop :=
  match extra with
  | none => header.hasFlag Container.extraFlag = false
  | some extra =>
      header.hasFlag Container.extraFlag = true ∧
        extra.length ≤ maxBlockSize

/-
  The fields that are read are those of a regular header, if
  there is no filter and the extra field fits.
-/
theorem yields_readFields :
    readFields.Yields fun bs header =>
      bs = header.body ∧
        (header.filter = none →
          ∀ extra,
            header.ExtraFits extra →
              { header with extra := extra }.Regular) := by
  unfold readFields
  apply yields_readHalf.andThen
  rintro _ version rfl
  apply Yields.unless
  intro hVersion
  apply yields_readHalf.andThen
  rintro _ libraryVersion rfl
  apply Yields.choose (yields_ifFull 0 yields_readHalf)
  rintro _ versionNeeded ⟨rfl, hPartNeeded⟩
  apply Yields.unless
  intro hNeeded
  apply yields_readByte.andThen
  rintro _ method rfl
  apply Yields.choose (yields_ifFull 0 yields_readByte)
  rintro _ level ⟨rfl, hPartLevel⟩
  apply (yields_word cutShort).andThen
  rintro _ flags rfl
  apply Yields.unless
  intro hReserved
  apply Yields.unless
  intro hMultipart
  apply Yields.choose (yields_filter flags)
  rintro _ filter ⟨rfl, hFilter⟩
  apply (yields_word cutShort).andThen
  rintro _ mode rfl
  apply (yields_word cutShort).andThen
  rintro _ time rfl
  apply Yields.choose (yields_ifFull 0 (yields_word cutShort))
  rintro _ gmtDiff ⟨rfl, hPartGmt⟩
  apply (yields_number cutShort 1).andThen
  rintro _ nameLength ⟨rfl, hName⟩
  apply (yields_exactly cutShort nameLength).andThen
  rintro _ name ⟨rfl, rfl⟩
  apply yields_return
  constructor
  · rcases filter with _ | filter <;> simp [body, isFull]
  · intro hNone extra hExtra
    exact
      { version := UInt16.not_lt.mp hVersion
        versionNeeded := UInt16.not_lt.mp hNeeded
        partial_fields := fun hPartial =>
          ⟨hPartNeeded hPartial, hPartLevel hPartial,
            hPartGmt hPartial⟩
        reserved := Decidable.not_not.mp hReserved
        multipart := Decidable.not_not.mp hMultipart
        filterFlag := hFilter hNone
        filter := hNone
        name := hName
        extra := hExtra }

------------------------------------------------------------
-- Headers
------------------------------------------------------------

/- A checksum is passed only if it is that of the bytes. -/
theorem yields_checkSum
    (header : Header)
    (bs : Bytes) :
    (checkSum header.checksumKind bs).Yields fun found _ =>
      found = header.sum bs := by
  unfold checkSum
  apply (yields_word cutShort).andThen
  rintro _ expected rfl
  apply Yields.unless
  intro hEqual
  apply yields_return
  rw [List.append_nil, Decidable.not_not.mp hEqual, sum]

theorem yields_readExtraField :
    readExtraField.Yields fun bs extra =>
      bs = extraField extra ∧ extra.length ≤ maxBlockSize := by
  unfold readExtraField
  apply (yields_number cutShort 4).andThen
  rintro _ length ⟨rfl, _⟩
  apply Yields.unless
  intro hLength
  apply (yields_exactly cutShort length).mono
  rintro _ extra ⟨rfl, rfl⟩
  exact ⟨rfl, Nat.not_lt.mp hLength⟩

theorem yields_readExtra
    (header : Header) :
    (readExtra header.checksumKind).Yields fun bs extra =>
      bs = extraField extra ++ header.sum (extraField extra) ∧
        extra.length ≤ maxBlockSize := by
  unfold readExtra
  apply yields_readExtraField.recorded.andThen
  rintro _ _ ⟨extra, rfl, rfl, hLength⟩
  apply (yields_checkSum header _).andThen
  rintro _ _ rfl
  apply yields_return
  rw [List.append_nil]
  exact ⟨rfl, hLength⟩

theorem yields_extra
    (header : Header) :
    (if header.hasFlag Container.extraFlag = true then
        some <$> readExtra header.checksumKind
      else
        pure none).Yields fun bs extra =>
      bs = { header with extra := extra }.trailer ∧
        header.ExtraFits extra := by
  by_cases hFlag : header.hasFlag Container.extraFlag = true
  · rw [if_pos hFlag]
    apply ((yields_readExtra header).map some).mono
    rintro bs _ ⟨extra, ⟨rfl, hLength⟩, rfl⟩
    exact ⟨rfl, hFlag, hLength⟩
  · rw [if_neg hFlag]
    exact yields_return ⟨rfl, eq_false_of_ne_true hFlag⟩

theorem yields_readAfterMagic :
    readAfterMagic.Yields fun bs header =>
      bs = header.afterMagic ∧ header.Regular := by
  unfold readAfterMagic
  apply yields_readFields.recorded.andThen
  rintro _ _ ⟨header, rfl, rfl, hRegular⟩
  apply (yields_checkSum header _).andThen
  rintro _ _ rfl
  apply Yields.choose (yields_extra header)
  rintro _ extra ⟨rfl, hExtra⟩
  apply Yields.unless
  intro hFilter
  apply yields_return
  constructor
  · rw [List.append_nil]
    rfl
  · exact hRegular (Option.not_isSome_iff_eq_none.mp hFilter)
      extra hExtra

/- A header is read only from the bytes of a regular one. -/
theorem yields_read :
    read.Yields fun bs header =>
      bs = header.encode ∧ header.Regular := by
  unfold read
  apply (yields_exactly (.truncated .magic) 9).andThen
  rintro _ found ⟨rfl, _⟩
  apply Yields.unless
  intro hMagic
  apply yields_readAfterMagic.mono
  rintro _ header ⟨rfl, hRegular⟩
  rw [Decidable.not_not.mp hMagic, encode_eq]
  exact ⟨rfl, hRegular⟩

------------------------------------------------------------
-- Writing
------------------------------------------------------------

/-
  Whatever takes all bytes it is given, and in whatever
  pieces: writing the header delivers these bytes, counts
  them, and returns their number.
-/
def WrittenAs
    (header : Header)
    (bs : Bytes) : Prop :=
  ∀ (ω : Type) (Holds : ω → Bytes → Prop)
    (outlet : Outlet ω) (world : ω) (held : Bytes),
    outlet.channel.Accepts Holds →
    Holds world held →
      ∃ next,
        (Outlet.putHeader header).perform (outlet, world) =
          (.ok bs.length,
            { outlet with written := outlet.written + bs.length },
            next) ∧
        Holds next (held ++ bs)

theorem writtenAs_encode
    {header : Header}
    (hName : header.name.length ≤ 255) :
    header.WrittenAs header.encode := by
  intro ω Holds outlet world held hAccepts hHolds
  rcases outlet.perform_putAll_of_accepts hAccepts header.pieces
    world rfl hHolds with ⟨next, hPut, hNext⟩
  refine ⟨next, ?_, hNext⟩
  unfold Outlet.putHeader
  rw [if_neg (Nat.not_lt.mpr hName), Step.perform_bind_of_ok hPut,
    Step.perform_pure, length_encode, writtenLength_eq]
  rw [← length_encode, encode]

/-
  Reading and writing headers are inverse. Whatever is read
  as a header are the bytes that writing it produces, and no
  others; and a regular header that is written is read back,
  whatever follows it.
-/
theorem read_putHeader_inverse :
    (∀ (source next : Source) (header : Header),
      source.fault = none →
      read.perform source = (.ok header, next) →
        header.Regular ∧
          source.rest = header.encode ++ next.rest ∧
          source.Ahead next header.encodedLength ∧
          header.encode.length = header.encodedLength ∧
          read.Consumes header.encode header ∧
          header.WrittenAs header.encode) ∧
    (∀ header : Header,
      header.Regular →
        header.WrittenAs header.encode ∧
          header.encode.length = header.encodedLength ∧
          ∀ (source : Source) (tail : Bytes),
            source.fault = none →
            source.rest = header.encode ++ tail →
              ∃ next,
                read.perform source = (.ok header, next) ∧
                source.Ahead next header.encodedLength ∧
                next.rest = tail) := by
  constructor
  · intro source next header hFault hRead
    rcases yields_read source next header hFault hRead with
      ⟨_, ⟨rfl, hRegular⟩, hRest, hAhead⟩
    rw [length_encode] at hAhead
    exact
      ⟨hRegular, hRest, hAhead, header.length_encode,
        consumes_read hRegular,
        writtenAs_encode (Nat.le_of_lt_succ hRegular.name)⟩
  · intro header hRegular
    refine
      ⟨writtenAs_encode (Nat.le_of_lt_succ hRegular.name),
        header.length_encode, ?_⟩
    intro source tail hFault hRest
    rcases consumes_read hRegular source tail hFault hRest with
      ⟨next, hRead, hAhead⟩
    have hTail := hAhead.rest_of_eq hRest rfl
    rw [length_encode] at hAhead
    exact ⟨next, hRead, hAhead, hTail⟩

/- A header with a name, an extra field and CRC-32 checksums. -/
def tagged : Header :=
  { new 1 5 (Container.crcFlag ||| Container.extraFlag) 0 with
    name := [97]
    extra := some [1, 2, 3] }

/- The bytes of this header. -/
def taggedBytes : Bytes :=
  [137, 76, 90, 79, 0, 13, 10, 26, 10, 16, 16, 32, 96, 9, 64, 1,
    5, 0, 0, 16, 64, 0, 0, 129, 164, 0, 0, 0, 0, 0, 0, 0, 0, 1, 97,
    16, 131, 95, 18, 0, 0, 0, 3, 1, 2, 3, 37, 36, 41, 159]

theorem read_putHeader_inverse_of_tagged :
    tagged.WrittenAs taggedBytes ∧
      ∃ next,
        read.perform (.ofBytes (taggedBytes ++ [7])) =
          (.ok tagged, next) ∧
        next.position = 50 ∧
        next.rest = [7] ∧
        taggedBytes ++ [7] = tagged.encode ++ next.rest := by
  have hBytes : tagged.encode = taggedBytes := by decide +kernel
  have hRegular : tagged.Regular :=
    { version := by decide
      versionNeeded := by decide
      partial_fields := by decide
      reserved := by decide
      multipart := by decide
      filterFlag := by decide
      filter := by decide
      name := by decide
      extra := by
        change
          tagged.hasFlag Container.extraFlag = true ∧
            [1, 2, 3].length ≤ maxBlockSize
        decide }
  rcases read_putHeader_inverse.2 tagged hRegular with
    ⟨hWritten, hLength, hReads⟩
  rw [hBytes] at hWritten hLength hReads
  have hSource :
      (Source.ofBytes (taggedBytes ++ [7])).rest =
        taggedBytes ++ [7] :=
    List.drop_zero
  rcases hReads _ [7] rfl hSource with
    ⟨next, hRead, hAhead, hTail⟩
  rcases read_putHeader_inverse.1 _ next tagged rfl hRead with
    ⟨_, hRest, _⟩
  rw [hSource] at hRest
  refine ⟨hWritten, next, hRead, ?_, hTail, hRest⟩
  rw [hAhead.position, ← hLength]
  decide

end Header

end SplitStream
