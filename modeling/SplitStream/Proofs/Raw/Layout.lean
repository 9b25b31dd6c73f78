import SplitStream.FrameIndex.Basic
import SplitStream.Proofs.Container.Segments

/-
  Raw streams as sequences of frames. There is nothing else
  in them, so a raw stream ends wherever its last frame does.

  Main declarations:
    * `PackedBlock.rawEncode`
    * `PackedBlock.RawFits`
    * `RawStream.layout`
    * `RawStream.offsets`
    * `RawStream.pairwise_offsets`
    * `FrameIndex.ofContents`
-/

------------------------------------------------------------
-- Single Frames
------------------------------------------------------------

namespace SplitStream

namespace PackedBlock

/- The layout of the raw frame of a block. -/
def rawEncode
    (content : PackedBlock) : Bytes :=
  (Frame.rawPieces content.block content.packed).flatten

/- The sizes that a raw frame may declare. -/
structure RawFits
    (content : PackedBlock) : Prop where
  block_le : content.block.length ≤ maxBlockSize
  packed_lt : content.packed.length < Bytes.wordCount 4

theorem rawEncode_eq
    (content : PackedBlock) :
    content.rawEncode =
      Frame.length content.block.length ++
        (Frame.length content.packed.length ++
          content.packed) := by
  simp [rawEncode, Frame.rawPieces]

@[simp]
theorem length_rawEncode
    (content : PackedBlock) :
    content.rawEncode.length =
      Frame.headerSize + content.packed.length := by
  simp [rawEncode_eq, Frame.length, Frame.headerSize]
  omega

theorem length_rawEncode_pos
    (content : PackedBlock) :
    0 < content.rawEncode.length := by
  rw [length_rawEncode, Frame.headerSize]
  omega

end PackedBlock

------------------------------------------------------------
-- Whole Streams
------------------------------------------------------------

namespace RawStream

/- The layout of frames one after another. -/
def layout
    (contents : List PackedBlock) : Bytes :=
  contents.flatMap PackedBlock.rawEncode

/- The data of all frames. -/
def data
    (contents : List PackedBlock) : Bytes :=
  contents.flatMap PackedBlock.block

/- The positions of frames laid out from a position on. -/
def offsets
    (start : Nat) : List PackedBlock → List Nat
  | [] => []
  | content :: rest =>
      start :: offsets (start + content.rawEncode.length) rest

@[simp]
theorem layout_nil : layout [] = [] :=
  rfl

@[simp]
theorem layout_cons
    (content : PackedBlock)
    (rest : List PackedBlock) :
    layout (content :: rest) = content.rawEncode ++ layout rest :=
  rfl

@[simp]
theorem layout_append
    (front back : List PackedBlock) :
    layout (front ++ back) = layout front ++ layout back :=
  List.flatMap_append

@[simp]
theorem data_cons
    (content : PackedBlock)
    (rest : List PackedBlock) :
    data (content :: rest) = content.block ++ data rest :=
  rfl

@[simp]
theorem data_append
    (front back : List PackedBlock) :
    data (front ++ back) = data front ++ data back :=
  List.flatMap_append

theorem offsets_append
    (start : Nat)
    (front back : List PackedBlock) :
    offsets start (front ++ back) =
      offsets start front ++
        offsets (start + (layout front).length) back := by
  induction front generalizing start with
  | nil => rfl
  | cons content front ih =>
    simp only [List.cons_append, offsets, ih, layout_cons,
      List.length_append, Nat.add_assoc]

@[simp]
theorem length_offsets
    (start : Nat)
    (contents : List PackedBlock) :
    (offsets start contents).length = contents.length := by
  induction contents generalizing start with
  | nil => rfl
  | cons content contents ih =>
    rw [offsets, List.length_cons, List.length_cons, ih]

theorem length_le_layout
    (contents : List PackedBlock) :
    contents.length ≤ (layout contents).length := by
  induction contents with
  | nil => simp
  | cons content contents ih =>
    have hSome := content.length_rawEncode_pos
    simp only [layout_cons, List.length_cons,
      List.length_append]
    omega

/- Frames behind a position stand behind each later one. -/
theorem offsets_add
    (start more : Nat)
    (contents : List PackedBlock) :
    offsets (start + more) contents =
      (offsets more contents).map (start + ·) := by
  induction contents generalizing more with
  | nil => rfl
  | cons content contents ih =>
    rw [offsets, offsets, List.map_cons, Nat.add_assoc, ih]

/- An offset is that of the layout before some frame. -/
theorem mem_offsets_iff
    {start offset : Nat}
    {contents : List PackedBlock} :
    offset ∈ offsets start contents ↔
      ∃ front content back,
        contents = front ++ content :: back ∧
        offset = start + (layout front).length := by
  induction contents generalizing start with
  | nil => simp [offsets]
  | cons first rest ih =>
    rw [offsets, List.mem_cons, ih]
    constructor
    · rintro (rfl | ⟨front, content, back, rfl, rfl⟩)
      · exact ⟨[], first, rest, rfl, rfl⟩
      · refine ⟨first :: front, content, back, rfl, ?_⟩
        rw [layout_cons, List.length_append, Nat.add_assoc]
    · rintro ⟨front, content, back, hSplit, rfl⟩
      cases front with
      | nil => exact .inl rfl
      | cons _ front =>
        cases hSplit
        refine .inr ⟨front, content, back, rfl, ?_⟩
        rw [layout_cons, List.length_append, Nat.add_assoc]

/- Every frame stands before the end of the stream. -/
theorem lt_of_mem_offsets
    {start offset : Nat}
    {contents : List PackedBlock}
    (h : offset ∈ offsets start contents) :
    offset < start + (layout contents).length := by
  rcases mem_offsets_iff.mp h with
    ⟨front, content, back, rfl, rfl⟩
  have hSome := content.length_rawEncode_pos
  simp only [layout_append, layout_cons, List.length_append]
  omega

/- The positions of the frames increase. -/
theorem pairwise_offsets
    (start : Nat)
    (contents : List PackedBlock) :
    (offsets start contents).Pairwise (· < ·) := by
  induction contents generalizing start with
  | nil => exact .nil
  | cons content contents ih =>
    refine List.pairwise_cons.mpr ⟨?_, ih _⟩
    intro offset hOffset
    rcases mem_offsets_iff.mp hOffset with ⟨_, _, _, _, rfl⟩
    have hSome := content.length_rawEncode_pos
    omega

/- Entry number `i` is the position of frame number `i`. -/
theorem getElem?_offsets
    (start : Nat)
    (front : List PackedBlock)
    (content : PackedBlock)
    (back : List PackedBlock) :
    (offsets start (front ++ content :: back))[front.length]? =
      some (start + (layout front).length) := by
  have hCount := length_offsets start front
  rw [offsets_append,
    List.getElem?_append_right (Nat.le_of_eq hCount), hCount,
    Nat.sub_self]
  rfl

end RawStream

/- The index of raw frames that are laid out from the start. -/
def FrameIndex.ofContents
    (contents : List PackedBlock) : FrameIndex where
  offsets := RawStream.offsets 0 contents
  increasing := RawStream.pairwise_offsets 0 contents

end SplitStream
