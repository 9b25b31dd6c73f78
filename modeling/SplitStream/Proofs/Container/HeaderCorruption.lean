import SplitStream.Proofs.Checksum.Standard
import SplitStream.Proofs.Container.HeaderExchange

/-
  Headers with one wrong byte. As long as the wrong byte does
  not move the other fields, a reader finds them where they
  were written, and then the body or the extra field does not
  have the checksum that stands behind it.

  Main declarations:
    * `Bytes.Altered.append_cases`
    * `Header.not_altered_sealed`
    * `Header.Moves`
    * `Header.same_layout`
    * `Header.rejects_wrong_byte`
-/

------------------------------------------------------------
-- Words
------------------------------------------------------------

namespace SplitStream

namespace Bytes

/- The word of `width` bytes at a place. -/
def wordAt
    (place width : Nat)
    (bs : Bytes) : Nat :=
  ofBigEndian ((bs.drop place).take width)

/- The word that is laid out at a place. -/
theorem wordAt_of_layout
    {place width n : Nat}
    {bs : Bytes}
    (front back : Bytes)
    (hPlace : front.length = place)
    (hBytes : bs = front ++ (bigEndian width n ++ back))
    (hFits : n < wordCount width) :
    wordAt place width bs = n := by
  have hTake :
      (bigEndian width n ++ back).take width =
        bigEndian width n :=
    List.take_left' (length_bigEndian width n)
  rw [wordAt, hBytes, List.drop_left' hPlace, hTake,
    ofBigEndian_bigEndian_of_lt hFits]

/- A word within some bytes does not depend on more bytes. -/
theorem wordAt_append
    {place width : Nat}
    {bs : Bytes}
    (hInside : place + width ≤ bs.length)
    (more : Bytes) :
    wordAt place width (bs ++ more) = wordAt place width bs := by
  have hDrop : place ≤ bs.length := by omega
  have hTake : width ≤ (bs.drop place).length := by
    rw [List.length_drop]
    omega
  rw [wordAt, List.drop_append_of_le_length hDrop,
    List.take_append_of_le_length hTake, wordAt]

/- A byte outside of a word does not change it. -/
theorem wordAt_set
    {place width k : Nat}
    (hOutside : k < place ∨ place + width ≤ k)
    (bs : Bytes)
    (b : UInt8) :
    wordAt place width (bs.set k b) = wordAt place width bs := by
  have hSame :
      ((bs.set k b).drop place).take width =
        (bs.drop place).take width := by
    apply List.ext_getElem?
    intro i
    rw [List.getElem?_take, List.getElem?_take]
    split
    · rw [List.getElem?_drop, List.getElem?_drop,
        List.getElem?_set_ne (by omega)]
    · rfl
  rw [wordAt, hSame, wordAt]

/- The altered byte is in the one part or in the other. -/
theorem Altered.append_cases
    {front back cs : Bytes}
    (h : Altered (front ++ back) cs) :
    ∃ front' back',
      cs = front' ++ back' ∧
      (Altered front front' ∧ back' = back ∨
        front' = front ∧ Altered back back') := by
  generalize hBytes : front ++ back = bs at h
  rcases h with ⟨first, last, hOther⟩
  rename_i a b
  rcases List.append_eq_append_iff.mp hBytes with
    ⟨middle, rfl, rfl⟩ | ⟨middle, rfl, hBack⟩
  · exact
      ⟨front, middle ++ b :: last, List.append_assoc _ _ _,
        .inr ⟨rfl, .intro middle last hOther⟩⟩
  · cases middle with
    | nil =>
      cases hBack
      exact
        ⟨first, b :: last, rfl,
          .inr ⟨(List.append_nil first).symm,
            .intro [] last hOther⟩⟩
    | cons c middle =>
      cases hBack
      exact
        ⟨first ++ b :: middle, back, by simp,
          .inl ⟨.intro first middle hOther, rfl⟩⟩

end Bytes

------------------------------------------------------------
-- Places
------------------------------------------------------------

namespace Header

variable {header found : Header}

/- The place of the version. -/
def versionAt : Nat :=
  9

/- The place of the flags. -/
def flagsAt
    (header : Header) : Nat :=
  if header.isFull then 17 else 14

/- The place of the length of the name. -/
def nameLengthAt
    (header : Header) : Nat :=
  if header.isFull then 33 else 26

/- The place of the length of the extra field. -/
def extraLengthAt
    (header : Header) : Nat :=
  13 + header.body.length

/- The fields before the flags. -/
def beforeFlags
    (header : Header) : Bytes :=
  Bytes.bigEndian 2 header.version.toNat ++
  Bytes.bigEndian 2 header.libraryVersion.toNat ++
  (if header.isFull then
    Bytes.bigEndian 2 header.versionNeeded.toNat else []) ++
  [header.method] ++
  (if header.isFull then [header.level] else [])

/- The fields between the flags and the name. -/
def afterFlags
    (header : Header) : Bytes :=
  Bytes.bigEndian 4 header.mode.toNat ++
  Bytes.bigEndian 4 header.time.toNat ++
  (if header.isFull then
    Bytes.bigEndian 4 header.gmtDiff.toNat else [])

theorem body_eq
    (hFilter : header.filter = none) :
    header.body =
      header.beforeFlags ++
        (Bytes.bigEndian 4 header.flags.toNat ++
          (header.afterFlags ++
            (Bytes.bigEndian 1 header.name.length ++
              header.name))) := by
  simp [body, beforeFlags, afterFlags, hFilter]

theorem length_beforeFlags
    (header : Header) :
    9 + header.beforeFlags.length = header.flagsAt := by
  rcases hFull : header.isFull with _ | _ <;>
    simp [beforeFlags, flagsAt, hFull]

theorem length_afterFlags
    (header : Header) :
    header.flagsAt + 4 + header.afterFlags.length =
      header.nameLengthAt := by
  rcases hFull : header.isFull with _ | _ <;>
    simp [afterFlags, flagsAt, nameLengthAt, hFull]

/- The version is where it is looked for. -/
theorem wordAt_version
    (header : Header)
    (more : Bytes) :
    Bytes.wordAt versionAt 2
        (Container.magic ++ (header.body ++ more)) =
      header.version.toNat := by
  have hFits : header.version.toNat < Bytes.wordCount 2 :=
    header.version.toNat_lt
  unfold body
  simp only [List.append_assoc]
  exact Bytes.wordAt_of_layout Container.magic _ rfl rfl hFits

theorem wordAt_flags
    (hFilter : header.filter = none)
    (more : Bytes) :
    Bytes.wordAt header.flagsAt 4
        (Container.magic ++ (header.body ++ more)) =
      header.flags.toNat := by
  have hFits : header.flags.toNat < Bytes.wordCount 4 :=
    header.flags.toNat_lt
  refine
    Bytes.wordAt_of_layout (Container.magic ++ header.beforeFlags)
      (header.afterFlags ++
        (Bytes.bigEndian 1 header.name.length ++
          header.name) ++ more) ?_ ?_ hFits
  · rw [List.length_append]
    exact header.length_beforeFlags
  · simp only [body_eq hFilter, List.append_assoc]

theorem wordAt_nameLength
    (hRegular : header.Regular)
    (more : Bytes) :
    Bytes.wordAt header.nameLengthAt 1
        (Container.magic ++ (header.body ++ more)) =
      header.name.length := by
  refine
    Bytes.wordAt_of_layout
      (Container.magic ++ header.beforeFlags ++
        Bytes.bigEndian 4 header.flags.toNat ++
        header.afterFlags)
      (header.name ++ more) ?_ ?_ hRegular.name
  · simp only [List.length_append, Bytes.length_bigEndian]
    rw [← length_afterFlags, ← length_beforeFlags]
    rfl
  · simp only [body_eq hRegular.filter, List.append_assoc]

/- The extra field starts with its length. -/
theorem wordAt_extraLength
    {extra : Bytes}
    (hExtra : header.extra = some extra)
    (hLength : extra.length ≤ maxBlockSize)
    (more : Bytes) :
    Bytes.wordAt header.extraLengthAt 4 (header.encode ++ more) =
      extra.length := by
  refine
    Bytes.wordAt_of_layout
      (Container.magic ++ header.body ++ header.sum header.body)
      (extra ++ header.sum (extraField extra) ++ more)
      ?_ ?_ (lt_wordCount hLength)
  · simp only [List.length_append, sum, Bytes.length_bigEndian,
      extraLengthAt]
    change 9 + header.body.length + 4 = 13 + header.body.length
    omega
  · simp only [encode_eq, afterMagic, trailer, hExtra, extraField,
      List.append_assoc]

------------------------------------------------------------
-- Sealed Bytes
------------------------------------------------------------

/- Bytes with their checksum are one word longer. -/
theorem length_sealed
    (header : Header)
    (bs : Bytes) :
    (bs ++ header.sum bs).length = bs.length + 4 := by
  rw [List.length_append, sum, Bytes.length_bigEndian]

theorem sum_injective
    {bs cs : Bytes}
    (h : header.sum bs = header.sum cs) :
    header.checksumKind.compute bs =
      header.checksumKind.compute cs := by
  have hWords := congrArg Bytes.ofBigEndian h
  have hLeft :
      (header.checksumKind.compute bs).toNat < Bytes.wordCount 4 :=
    UInt32.toNat_lt _
  have hRight :
      (header.checksumKind.compute cs).toNat < Bytes.wordCount 4 :=
    UInt32.toNat_lt _
  rw [sum, sum, Bytes.ofBigEndian_bigEndian_of_lt hLeft,
    Bytes.ofBigEndian_bigEndian_of_lt hRight] at hWords
  exact UInt32.toNat_inj.mp hWords

/-
  One wrong byte in some bytes or in the checksum behind them
  does not make other bytes with their checksum.
-/
theorem not_altered_sealed
    {bs cs : Bytes}
    (hLength : cs.length = bs.length) :
    ¬ Bytes.Altered (bs ++ header.sum bs) (cs ++ header.sum cs) := by
  intro h
  rcases h.append_cases with
    ⟨front, back, hSealed, ⟨hFront, rfl⟩ | ⟨rfl, hBack⟩⟩
  · have hParts :=
      List.append_inj hSealed (hLength.trans hFront.length_eq.symm)
    rcases hParts with ⟨rfl, hSum⟩
    exact
      header.checksumKind.compute_ne_of_altered hFront
        (sum_injective hSum.symm)
  · rcases List.append_inj hSealed hLength with ⟨rfl, hSum⟩
    rw [← hSum] at hBack
    exact hBack.ne rfl

------------------------------------------------------------
-- Wrong Bytes
------------------------------------------------------------

/- The flags that are found at their place. -/
def flagsIn
    (header : Header)
    (bs : Bytes) : UInt32 :=
  UInt32.ofNat (Bytes.wordAt header.flagsAt 4 bs)

/-
  A wrong byte that moves other fields or has another kind of
  checksum computed: one in the length of the name or of the
  extra field, or one that takes the version to the other
  side of the first full one or alters the flag of CRC-32.
-/
inductive Moves
    (header : Header)
    (place : Nat)
    (wrong : Bytes) : Prop where
  | nameLength :
      place = header.nameLengthAt →
        Moves header place wrong
  | extraLength :
      header.extra.isSome →
      header.extraLengthAt ≤ place →
      place < header.extraLengthAt + 4 →
        Moves header place wrong
  | version :
      ¬ (Container.fullVersion.toNat ≤
            Bytes.wordAt versionAt 2 wrong ↔
          Container.fullVersion.toNat ≤ header.version.toNat) →
        Moves header place wrong
  | crc :
      header.flagsIn wrong &&& Container.crcFlag ≠
          header.flags &&& Container.crcFlag →
        Moves header place wrong

/- The bytes of a header with others behind them. -/
theorem encode_append
    (header : Header)
    (more : Bytes) :
    header.encode ++ more =
      Container.magic ++
        (header.body ++
          (header.sum header.body ++ (header.trailer ++ more))) := by
  rw [encode_eq, afterMagic]
  simp only [List.append_assoc]

theorem isFull_eq_of_iff
    (h :
      Container.fullVersion.toNat ≤ found.version.toNat ↔
        Container.fullVersion.toNat ≤ header.version.toNat) :
    found.isFull = header.isFull := by
  rw [isFull, isFull]
  exact decide_eq_decide.mpr h

theorem checksumKind_eq_of_and
    (h :
      found.flags &&& Container.crcFlag =
        header.flags &&& Container.crcFlag) :
    found.checksumKind = header.checksumKind := by
  rw [checksumKind, checksumKind, hasFlag, hasFlag, h]

variable {place : Nat} {b : UInt8} {tail rest : Bytes}

/- Words are found where the header has its fields. -/
theorem wordAt_found
    (hBytes :
      header.encode.set place b ++ tail = found.encode ++ rest)
    {start width : Nat}
    (hInside : start + width ≤ header.encode.length) :
    Bytes.wordAt start width (header.encode.set place b) =
      Bytes.wordAt start width (found.encode ++ rest) := by
  rw [← hBytes, Bytes.wordAt_append]
  rw [List.length_set]
  exact hInside

/-
  A header that is read in place of another one has its fields
  in the same places, and the same kind of checksum.
-/
theorem same_layout
    (hRegular : header.Regular)
    (hFound : found.Regular)
    (hBytes :
      header.encode.set place b ++ tail = found.encode ++ rest)
    (hMoves : ¬ header.Moves place (header.encode.set place b)) :
    found.checksumKind = header.checksumKind ∧
      found.body.length = header.body.length := by
  have hFits : header.nameLengthAt + 1 ≤ header.encode.length := by
    rw [length_encode, encodedLength, nameLengthAt]
    split <;> omega
  have hFlagsFit : header.flagsAt + 4 ≤ header.nameLengthAt := by
    rw [← length_afterFlags]
    omega
  have hVersionFits : versionAt + 2 ≤ header.flagsAt := by
    rw [flagsAt, versionAt]
    split <;> omega
  have hVersion :
      Bytes.wordAt versionAt 2 (header.encode.set place b) =
        found.version.toNat := by
    rw [wordAt_found hBytes (by omega), encode_append,
      wordAt_version]
  have hFull : found.isFull = header.isFull := by
    apply isFull_eq_of_iff
    rw [← hVersion]
    exact Decidable.not_not.mp fun hOther =>
      hMoves (.version hOther)
  have hFlagsAt : found.flagsAt = header.flagsAt := by
    rw [flagsAt, flagsAt, hFull]
  have hFlags :
      header.flagsIn (header.encode.set place b) = found.flags := by
    rw [flagsIn, wordAt_found hBytes (by omega), ← hFlagsAt,
      encode_append, wordAt_flags hFound.filter,
      UInt32.ofNat_toNat]
  have hKind : found.checksumKind = header.checksumKind := by
    apply checksumKind_eq_of_and
    rw [← hFlags]
    exact Decidable.not_not.mp fun hOther => hMoves (.crc hOther)
  have hNameAt : found.nameLengthAt = header.nameLengthAt := by
    rw [nameLengthAt, nameLengthAt, hFull]
  have hName : found.name.length = header.name.length := by
    have hElsewhere : place ≠ header.nameLengthAt := fun hHere =>
      hMoves (.nameLength hHere)
    have hWord := wordAt_found hBytes hFits
    rw [Bytes.wordAt_set (by omega), ← hNameAt, encode_append,
      wordAt_nameLength hFound, hNameAt,
      ← List.append_nil header.encode, encode_append,
      wordAt_nameLength hRegular] at hWord
    exact hWord.symm
  refine ⟨hKind, ?_⟩
  rw [length_body, length_body, hFull, hName, hFound.filter,
    hRegular.filter]

theorem sum_eq_of_kind
    (hKind : found.checksumKind = header.checksumKind)
    (bs : Bytes) :
    found.sum bs = header.sum bs := by
  rw [sum, sum, hKind]

/- The flags are part of the body. -/
theorem flags_eq_of_body
    (hRegular : header.Regular)
    (hFound : found.Regular)
    (hBody : found.body = header.body) :
    found.flags = header.flags := by
  have hVersion := found.wordAt_version []
  rw [hBody, wordAt_version] at hVersion
  have hFull : found.isFull = header.isFull :=
    isFull_eq_of_iff (by rw [hVersion])
  have hFlags := wordAt_flags hFound.filter []
  rw [hBody, flagsAt, hFull, ← flagsAt,
    wordAt_flags hRegular.filter] at hFlags
  exact (UInt32.toNat_inj.mp hFlags).symm

/- A header has an extra field if its flags say so. -/
theorem Regular.isSome_extra
    (hRegular : header.Regular) :
    header.extra.isSome = header.hasFlag Container.extraFlag := by
  have hExtra := hRegular.extra
  cases hField : header.extra with
  | none =>
    rw [hField] at hExtra
    exact hExtra.symm
  | some extra =>
    rw [hField] at hExtra
    exact hExtra.1.symm

theorem trailer_of_extra
    {extra : Bytes}
    (hExtra : header.extra = some extra) :
    header.trailer =
      extraField extra ++ header.sum (extraField extra) := by
  rw [trailer, hExtra]

/- The extra field that is found is as long as the written one. -/
theorem same_extra
    (hRegular : header.Regular)
    (hFound : found.Regular)
    (hBytes :
      header.encode.set place b ++ tail = found.encode ++ rest)
    (hMoves : ¬ header.Moves place (header.encode.set place b))
    (hBody : found.body = header.body)
    {extra : Bytes}
    (hExtra : header.extra = some extra) :
    ∃ other,
      found.extra = some other ∧ other.length = extra.length := by
  have hFlags := flags_eq_of_body hRegular hFound hBody
  have hSome : found.extra.isSome = true := by
    rw [hFound.isSome_extra, hasFlag, hFlags, ← hasFlag,
      ← hRegular.isSome_extra, hExtra]
    rfl
  rcases Option.isSome_iff_exists.mp hSome with ⟨other, hOther⟩
  have hLength := hRegular.extra
  rw [hExtra] at hLength
  have hOtherLength := hFound.extra
  rw [hOther] at hOtherLength
  have hFits : header.extraLengthAt + 4 ≤ header.encode.length := by
    rw [length_encode, encodedLength, extraLengthAt, length_body,
      hExtra, hRegular.filter]
    simp only [Option.isSome_none, Bool.false_eq_true, if_false]
    omega
  have hElsewhere :
      place < header.extraLengthAt ∨
        header.extraLengthAt + 4 ≤ place := by
    by_contra hHere
    have hField : header.extra.isSome = true := by
      rw [hExtra]
      rfl
    exact hMoves (.extraLength hField (by omega) (by omega))
  have hPlaces : found.extraLengthAt = header.extraLengthAt := by
    rw [extraLengthAt, extraLengthAt, hBody]
  have hWord := wordAt_found hBytes hFits
  rw [Bytes.wordAt_set hElsewhere, ← hPlaces,
    wordAt_extraLength hOther hOtherLength.2, hPlaces,
    ← List.append_nil header.encode,
    wordAt_extraLength hExtra hLength.2] at hWord
  exact ⟨other, hOther, hWord.symm⟩

/- No header is read in place of one with a wrong byte. -/
theorem not_found
    (hRegular : header.Regular)
    (hFound : found.Regular)
    (hOther : header.encode.set place b ≠ header.encode)
    (hMoves : ¬ header.Moves place (header.encode.set place b)) :
    header.encode.set place b ++ tail ≠ found.encode ++ rest := by
  intro hBytes
  rcases same_layout hRegular hFound hBytes hMoves with
    ⟨hKind, hBodyLength⟩
  have hExtra := same_extra hRegular hFound hBytes hMoves
  have hAltered := Bytes.altered_set hOther
  generalize header.encode.set place b = wrong at hBytes hAltered
  rw [encode_eq, afterMagic, ← List.append_assoc header.body]
    at hAltered
  rw [encode_append] at hBytes
  rcases hAltered.append_cases with
    ⟨magic, after, rfl, ⟨hMagic, rfl⟩ | ⟨rfl, hAfter⟩⟩
  · -- The magic number is always the same.
    rw [List.append_assoc] at hBytes
    have hSame := List.append_inj_left hBytes hMagic.length_eq
    exact hMagic.ne hSame.symm
  rw [List.append_assoc] at hBytes
  have hRest := List.append_cancel_left hBytes
  rw [← List.append_assoc found.body, sum_eq_of_kind hKind]
    at hRest
  rcases hAfter.append_cases with
    ⟨body, trailer, rfl, ⟨hBody, rfl⟩ | ⟨rfl, hTrailer⟩⟩
  · -- The wrong byte is in the body or in its checksum.
    rw [List.append_assoc] at hRest
    have hLength := hBody.length_eq
    rw [length_sealed, ← hBodyLength, ← header.length_sealed]
      at hLength
    rw [List.append_inj_left hRest hLength] at hBody
    exact not_altered_sealed hBodyLength hBody
  · -- The wrong byte is in the extra field or in its checksum.
    rw [List.append_assoc] at hRest
    have hLength := header.length_sealed header.body
    rw [← hBodyLength, ← header.length_sealed found.body] at hLength
    have hSealed := List.append_inj hRest hLength
    have hBody := List.append_inj_left hSealed.1 hBodyLength.symm
    cases hField : header.extra with
    | none =>
      rw [Header.trailer, hField] at hTrailer
      have hEmpty := List.eq_nil_of_length_eq_zero hTrailer.length_eq
      exact hTrailer.ne hEmpty.symm
    | some extra =>
      rcases hExtra hBody.symm hField with ⟨other, hSome, hSize⟩
      have hFields :
          (extraField other).length = (extraField extra).length := by
        simp [extraField, hSize]
      rw [trailer_of_extra hField] at hTrailer
      have hTail := hSealed.2
      rw [trailer_of_extra hSome, sum_eq_of_kind hKind] at hTail
      have hLong := hTrailer.length_eq
      rw [length_sealed, ← hFields, ← header.length_sealed] at hLong
      rw [List.append_inj_left hTail hLong] at hTrailer
      exact not_altered_sealed hFields hTrailer

/- A header comes back when what is written of it is read. -/
def RoundTrips
    (header : Header) : Prop :=
  header.WrittenAs header.encode ∧
    (read.perform (.ofBytes header.encode)).1 = .ok header

theorem roundTrips_iff :
    header.RoundTrips ↔ header.Regular := by
  constructor
  · intro hRoundTrips
    have hRead :
        read.perform (.ofBytes header.encode) =
          (.ok header, (read.perform (.ofBytes header.encode)).2) :=
      Prod.ext hRoundTrips.2 rfl
    rcases yields_read _ _ header rfl hRead with
      ⟨_, ⟨_, hRegular⟩, _⟩
    exact hRegular
  · intro hRegular
    have hRest :
        (Source.ofBytes header.encode).rest = header.encode ++ [] := by
      rw [List.append_nil]
      exact List.drop_zero
    rcases consumes_read hRegular _ [] rfl hRest with
      ⟨next, hRead, _⟩
    exact
      ⟨writtenAs_encode (Nat.le_of_lt_succ hRegular.name),
        congrArg Prod.fst hRead⟩

/-
  A header in which one byte is wrong is not read, whatever
  follows it, unless the wrong byte moves other fields or has
  another kind of checksum computed. The checksums are the
  standard ones.
-/
theorem rejects_wrong_byte
    (hRoundTrips : header.RoundTrips) :
    (∀ (kind : Checksum) (bs : Bytes),
      kind.compute bs = kind.standard bs) ∧
    ∀ (place : Nat) (b : UInt8) (tail : Bytes) (source : Source),
      place < header.encode.length →
      header.encode[place]? ≠ some b →
      ¬ header.Moves place (header.encode.set place b) →
      source.fault = none →
      source.rest = header.encode.set place b ++ tail →
        ∃ e next, read.perform source = (.error e, next) := by
  refine ⟨Checksum.compute_eq_standard, ?_⟩
  intro place b tail source hInside hOther hMoves hFault hRest
  rcases hRead : read.perform source with ⟨e | found, next⟩
  · exact ⟨e, next, rfl⟩
  · rcases yields_read source next found hFault hRead with
      ⟨_, ⟨rfl, hFound⟩, hAll, _⟩
    rw [hRest] at hAll
    exact
      absurd hAll
        (not_found (roundTrips_iff.mp hRoundTrips) hFound
          (Bytes.set_ne hInside hOther) hMoves)

theorem regular_tagged :
    tagged.Regular where
  version := by decide
  versionNeeded := by decide
  partial_fields := by decide
  reserved := by decide
  multipart := by decide
  filterFlag := by decide
  filter := rfl
  name := by decide
  extra := by
    change
      tagged.hasFlag Container.extraFlag = true ∧
        [1, 2, 3].length ≤ maxBlockSize
    decide

/-
  The flag of a filter, set by a wrong byte, has a reader look
  for one more field.
-/
theorem rejects_wrong_byte_of_filterFlag :
    tagged.RoundTrips ∧
      19 < tagged.encode.length ∧
      tagged.encode[19]? ≠ some 0x18 ∧
      ¬ tagged.Moves 19 (tagged.encode.set 19 0x18) ∧
      tagged.flagsIn (tagged.encode.set 19 0x18) &&&
          Container.filterFlag ≠ 0 ∧
      ∃ e next,
        read.perform
            (.ofBytes (tagged.encode.set 19 0x18 ++ [7])) =
          (.error e, next) := by
  have hRoundTrips : tagged.RoundTrips :=
    roundTrips_iff.mpr regular_tagged
  have hInside : 19 < tagged.encode.length := by decide +kernel
  have hOther : tagged.encode[19]? ≠ some 0x18 := by decide +kernel
  have hMoves :
      ¬ tagged.Moves 19 (tagged.encode.set 19 0x18) := by
    intro hMoves
    cases hMoves with
    | nameLength hPlace => exact absurd hPlace (by decide +kernel)
    | extraLength _ hFrom _ => exact absurd hFrom (by decide +kernel)
    | version hVersion => exact hVersion (by decide +kernel)
    | crc hCrc => exact hCrc (by decide +kernel)
  refine
    ⟨hRoundTrips, hInside, hOther, hMoves, by decide +kernel, ?_⟩
  exact
    (rejects_wrong_byte hRoundTrips).2 19 0x18 [7] _ hInside hOther
      hMoves rfl List.drop_zero

end Header

end SplitStream
