import SplitStream.Checksum.Selection
import SplitStream.Container.Header
import SplitStream.Proofs.Source.Consumption

/-
  Layout and reading of headers. A header that a reader
  accepts is read back from its layout, whatever follows it.

  Main declarations:
    * `Header.Regular`
    * `Header.length_encode`
    * `Header.consumes_read`
    * `Header.consumes_readAfterMagic`
    * `Header.regular_new`
-/

------------------------------------------------------------
-- Regular Headers
------------------------------------------------------------

namespace SplitStream

/- The length of a block fits a word. -/
theorem lt_wordCount
    {n : Nat}
    (h : n ≤ maxBlockSize) :
    n < Bytes.wordCount 4 :=
  Nat.lt_of_le_of_lt h (by decide)

namespace Header

/-
  The headers that are read back as they are: the version
  can be read, fields that are not laid out have their
  default values, and the flags agree with the fields.
-/
structure Regular
    (header : Header) : Prop where
  version : Container.firstVersion ≤ header.version
  versionNeeded :
    header.versionNeeded ≤ Container.currentVersion
  partial_fields :
    header.isFull = false →
      header.versionNeeded = 0 ∧
        header.level = 0 ∧
        header.gmtDiff = 0
  reserved : header.flags &&& Container.reservedMask = 0
  multipart : header.flags &&& Container.multipartFlag = 0
  filterFlag : header.flags &&& Container.filterFlag = 0
  filter : header.filter = none
  name : header.name.length < 256
  extra :
    match header.extra with
    | none => header.hasFlag Container.extraFlag = false
    | some extra =>
        header.hasFlag Container.extraFlag = true ∧
          extra.length ≤ maxBlockSize

------------------------------------------------------------
-- Layout
------------------------------------------------------------

/- What is laid out behind the body. -/
def trailer
    (header : Header) : Bytes :=
  match header.extra with
  | none => []
  | some extra =>
      extraField extra ++ header.sum (extraField extra)

/- What is laid out behind the magic number. -/
def afterMagic
    (header : Header) : Bytes :=
  header.body ++ (header.sum header.body ++ header.trailer)

theorem encode_eq
    (header : Header) :
    header.encode = Container.magic ++ header.afterMagic := by
  rcases hExtra : header.extra with _ | extra <;>
    simp [encode, pieces, afterMagic, trailer, hExtra]

/- Every header starts with the magic number. -/
theorem take_encode
    (header : Header)
    (bs : Bytes) :
    (header.encode ++ bs).take 9 = Container.magic := by
  rw [encode_eq, List.append_assoc]
  exact List.take_left' rfl

/- Nothing is no magic number. -/
theorem take_nil_ne_magic :
    ([] : Bytes).take 9 ≠ Container.magic := by
  decide

/- Too few bytes are no magic number. -/
theorem take_short_ne_magic
    {bs : Bytes}
    (hShort : bs.length < 9) :
    bs.take 9 ≠ Container.magic := by
  intro hMagic
  have hNine := congrArg List.length hMagic
  rw [List.length_take] at hNine
  change _ = 9 at hNine
  omega

/- Bytes that start otherwise are no magic number. -/
theorem take_ne_magic
    {bs : Bytes}
    (hHead : bs.head? ≠ some 0x89) :
    bs.take 9 ≠ Container.magic := by
  intro hMagic
  apply hHead
  cases bs with
  | nil => cases hMagic
  | cons b rest => exact congrArg List.head? hMagic

theorem length_body
    (header : Header) :
    header.body.length =
      18 + (if header.isFull then 7 else 0) +
        (if header.filter.isSome then 4 else 0) +
        header.name.length := by
  rcases hFilter : header.filter with _ | filter <;>
    rcases hFull : header.isFull with _ | _ <;>
    simp [body, hFilter, hFull] <;>
    omega

/- What is counted while writing is the length of the layout. -/
theorem writtenLength_eq
    (header : Header) :
    header.writtenLength = header.encodedLength := by
  rw [writtenLength, encodedLength, length_body]
  rcases header.extra with _ | extra <;>
    simp [extraField, Container.magic] <;>
    omega

theorem length_encode
    (header : Header) :
    header.encode.length = header.encodedLength := by
  rw [encode_eq, afterMagic]
  rcases hExtra : header.extra with _ | extra <;>
    simp [trailer, sum, extraField, encodedLength, length_body,
      Container.magic, hExtra] <;>
    omega

------------------------------------------------------------
-- Reading Fields
------------------------------------------------------------

open Reading

theorem consumes_readHalf
    (w : UInt16) :
    readHalf.Consumes (Bytes.bigEndian 2 w.toNat) w := by
  have hFits : w.toNat < Bytes.wordCount 2 := w.toNat_lt
  have hRead := (consumes_number cutShort hFits).map UInt16.ofNat
  rw [UInt16.ofNat_toNat] at hRead
  exact hRead

theorem consumes_readByte
    (w : UInt8) :
    readByte.Consumes [w] w := by
  have hFits : w.toNat < Bytes.wordCount 1 := w.toNat_lt
  have hRead := (consumes_number cutShort hFits).map UInt8.ofNat
  have hLayout : Bytes.bigEndian 1 w.toNat = [w] := by
    simp [Bytes.bigEndian, Bytes.wordCount]
  rw [UInt8.ofNat_toNat, hLayout] at hRead
  exact hRead

/- A field of full versions only has its default otherwise. -/
theorem consumes_ifFull
    {α : Type}
    {full : Bool}
    {field : Reading α}
    {bs : Bytes}
    {a default : α}
    (hField : field.Consumes bs a)
    (hDefault : full = false → a = default) :
    (if full = true then field else pure default).Consumes
      (if full then bs else []) a := by
  rcases full with _ | _
  · rw [hDefault rfl]
    exact consumes_pure default
  · exact hField

/- No filter is read if its flag is not set. -/
theorem consumes_noFilter
    {flags : UInt32}
    (hFlag : flags &&& Container.filterFlag = 0) :
    (if flags &&& Container.filterFlag ≠ 0 then
        some <$> word cutShort
      else
        pure none).Consumes [] none := by
  simpa [hFlag] using consumes_pure (none : Option UInt32)

theorem consumes_readFields
    {header : Header}
    (h : header.Regular) :
    readFields.Consumes header.body
      { header with extra := none } := by
  have hVersion : ¬ header.version < Container.firstVersion :=
    Nat.not_lt.mpr h.version
  have hNeeded :
      ¬ Container.currentVersion < header.versionNeeded :=
    Nat.not_lt.mpr h.versionNeeded
  have hName : header.name.length < Bytes.wordCount 1 := h.name
  simp only [body, h.filter, List.append_assoc]
  unfold readFields
  apply (consumes_readHalf header.version).bind
  apply Consumes.unless hVersion
  apply (consumes_readHalf header.libraryVersion).bind
  apply Consumes.choose
    (consumes_ifFull (consumes_readHalf header.versionNeeded)
      fun hPartial => (h.partial_fields hPartial).1)
  apply Consumes.unless hNeeded
  apply (consumes_readByte header.method).bind
  apply Consumes.choose
    (consumes_ifFull (consumes_readByte header.level)
      fun hPartial => (h.partial_fields hPartial).2.1)
  apply (consumes_word cutShort header.flags).bind
  apply Consumes.unless (not_not_intro h.reserved)
  apply Consumes.unless (not_not_intro h.multipart)
  apply Consumes.choose (consumes_noFilter h.filterFlag)
  apply (consumes_word cutShort header.mode).bind
  apply (consumes_word cutShort header.time).bind
  apply Consumes.choose
    (consumes_ifFull (consumes_word cutShort header.gmtDiff)
      fun hPartial => (h.partial_fields hPartial).2.2)
  apply (consumes_number cutShort hName).bind
  apply (consumes_exactly cutShort rfl).bind_nil
  rw [← h.filter]
  exact consumes_pure _

------------------------------------------------------------
-- Reading Headers
------------------------------------------------------------

theorem consumes_checkSum
    (header : Header)
    (bs : Bytes) :
    (checkSum header.checksumKind bs).Consumes
      (header.sum bs) () := by
  unfold checkSum
  apply
    (consumes_word cutShort
      (header.checksumKind.compute bs)).bind_nil
  exact Consumes.unless (by simp) (consumes_pure ())

theorem consumes_readExtraField
    {extra : Bytes}
    (hLength : extra.length ≤ maxBlockSize) :
    readExtraField.Consumes (extraField extra) extra := by
  unfold readExtraField extraField
  apply (consumes_number cutShort (lt_wordCount hLength)).bind
  exact
    Consumes.unless (Nat.not_lt.mpr hLength)
      (consumes_exactly cutShort rfl)

theorem consumes_readExtra
    (header : Header)
    {extra : Bytes}
    (hLength : extra.length ≤ maxBlockSize) :
    (readExtra header.checksumKind).Consumes
      (extraField extra ++ header.sum (extraField extra))
      extra := by
  unfold readExtra
  apply (consumes_readExtraField hLength).recorded.bind
  exact
    (consumes_checkSum header _).bind_nil (consumes_pure extra)

theorem consumes_extra
    {header : Header}
    (h : header.Regular) :
    (if header.hasFlag Container.extraFlag = true then
        some <$> readExtra header.checksumKind
      else
        pure none).Consumes
      header.trailer header.extra := by
  have hFlag := h.extra
  unfold trailer
  rcases hExtra : header.extra with _ | extra <;>
    rw [hExtra] at hFlag
  · simpa [hFlag] using
      consumes_pure (none : Option Bytes)
  · simpa [hFlag.1] using
      (consumes_readExtra header hFlag.2).map some

theorem consumes_readAfterMagic
    {header : Header}
    (h : header.Regular) :
    readAfterMagic.Consumes header.afterMagic header := by
  have hFilter : ¬ header.filter.isSome = true := by
    simp [h.filter]
  unfold readAfterMagic afterMagic
  apply (consumes_readFields h).recorded.bind
  apply (consumes_checkSum header header.body).bind
  rw [← List.append_nil header.trailer]
  apply Consumes.choose (consumes_extra h)
  exact Consumes.unless hFilter (consumes_pure header)

/- A regular header is read back, whatever follows it. -/
theorem consumes_read
    {header : Header}
    (h : header.Regular) :
    read.Consumes header.encode header := by
  rw [encode_eq]
  unfold read
  apply (consumes_exactly _ rfl).bind
  exact Consumes.unless (by simp) (consumes_readAfterMagic h)

------------------------------------------------------------
-- Written Headers
------------------------------------------------------------

/- The flags that writers record. -/
def writtenFlags
    (checksums : Selection) : UInt32 :=
  checksums.toFlags ||| Container.unixSystem

/- The recorded flags hold the selection and nothing else. -/
theorem writtenFlags_spec
    (checksums : Selection) :
    Selection.ofFlags (writtenFlags checksums) = checksums ∧
      writtenFlags checksums &&& Container.reservedMask = 0 ∧
      writtenFlags checksums &&& Container.multipartFlag = 0 ∧
      writtenFlags checksums &&& Container.filterFlag = 0 ∧
      writtenFlags checksums &&& Container.extraFlag = 0 := by
  rcases checksums with ⟨_ | _, _ | _, _ | _, _ | _⟩ <;> decide

/- The headers that writers make are regular. -/
theorem regular_new
    (method level : UInt8)
    (checksums : Selection)
    (time : UInt32) :
    (new method level (writtenFlags checksums) time).Regular := by
  rcases writtenFlags_spec checksums with
    ⟨_, hReserved, hMultipart, hFilter, hExtra⟩
  exact
    { version := by change (0x0900 : UInt16) ≤ 0x1010; decide
      versionNeeded := by
        change (0x0940 : UInt16) ≤ 0x1010
        decide
      partial_fields := fun hPartial => by
        change decide ((0x0940 : UInt16) ≤ 0x1010) = false
          at hPartial
        exact absurd hPartial (by decide)
      reserved := hReserved
      multipart := hMultipart
      filterFlag := hFilter
      filter := rfl
      name := by change 0 < 256; decide
      extra := by
        change (writtenFlags checksums &&&
          Container.extraFlag != 0) = false
        rw [hExtra]
        rfl }

end Header

end SplitStream
