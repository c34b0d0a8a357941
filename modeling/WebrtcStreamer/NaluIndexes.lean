import WebrtcStreamer.BufferAccess
import WebrtcStreamer.LiveVideo

/-! The buffer under the NAL units of `onH264Data` and `onH265Data`: which of its bytes
are read and copied, by the indexes that `FindNaluIndices` returns. -/

set_option autoImplicit false

namespace WebrtcStreamer

open BufferAccess

structure NaluIndex where
  startOffset : Nat
  payloadStartOffset : Nat
  payloadSize : Nat
  deriving DecidableEq, Repr

namespace NaluIndex

variable (buffer : List UInt8) (i : NaluIndex)

def endOffset : Nat := i.payloadSize + i.payloadStartOffset

def nalu : Nalu :=
  ⟨(buffer.drop i.startOffset).take (i.payloadStartOffset - i.startOffset),
    (buffer.drop i.payloadStartOffset).take i.payloadSize⟩

/-- `FindNaluIndices`: start codes one after the other, each payload up to the next
one or to the end of the buffer. -/
def Delimits : List NaluIndex → Prop
  | [] => True
  | i :: rest => (i.nalu buffer).startCode ∈ [[0, 0, 1], [0, 0, 0, 1]] ∧
      i.endOffset = (match rest with
        | [] => buffer.length
        | j :: _ => j.startOffset) ∧ Delimits rest

def range : Access := .copy i.startOffset i.endOffset

/-- A round of the loop; `past` says whether frames are dropped. -/
def accesses (c : Codec) (past : Bool) : List Access :=
  if c = .h264 ∧ i.payloadSize = 0 then []
  else .read i.payloadStartOffset :: match c.role (i.nalu buffer) with
    | .parameters _ format => i.range :: if format then
        [.pass (i.payloadStartOffset + c.headerSize) (i.payloadSize - c.headerSize)] else []
    | .skipped => []
    | .idr => [i.range]
    | .other => if past then [] else [i.range]

variable {buffer} {i} {indexes : List NaluIndex}

theorem startCode_bounds (h : (i.nalu buffer).startCode ∈ [[0, 0, 1], [0, 0, 0, 1]]) :
    i.startOffset + 3 ≤ i.payloadStartOffset ∧ i.startOffset < buffer.length ∧
      buffer[i.startOffset]? = some 0 := by
  have hlength : (i.nalu buffer).startCode.length =
      min (i.payloadStartOffset - i.startOffset) (buffer.length - i.startOffset) := by
    simp [nalu]
  have hthree : 3 ≤ (i.nalu buffer).startCode.length := by
    rcases List.mem_pair.mp h with h | h <;> rw [h] <;> decide
  have hfirst : (i.nalu buffer).startCode[0]? = some 0 := by
    rcases List.mem_pair.mp h with h | h <;> rw [h] <;> rfl
  refine ⟨by omega, by omega, ?_⟩
  simp only [nalu] at hfirst
  rw [List.getElem?_take_of_lt (by omega), List.getElem?_drop, Nat.add_zero] at hfirst
  exact hfirst

theorem Delimits.bounds (h : Delimits buffer indexes) (hi : i ∈ indexes) :
    i.startOffset + 3 ≤ i.payloadStartOffset ∧ i.endOffset ≤ buffer.length ∧
      (i.endOffset < buffer.length → buffer[i.endOffset]? = some 0) := by
  induction indexes with
  | nil => cases hi
  | cons j rest ih =>
    obtain ⟨hstart, hend, hrest⟩ := h
    rcases List.mem_cons.mp hi with rfl | hi
    · refine ⟨(startCode_bounds hstart).1, ?_⟩
      cases rest with
      | nil => exact ⟨hend.le, fun hlt => absurd hend hlt.ne⟩
      | cons k rest =>
        obtain ⟨-, hlt, hzero⟩ := startCode_bounds hrest.1
        have hnext : i.endOffset = k.startOffset := hend
        rw [hnext]
        exact ⟨hlt.le, fun _ => hzero⟩
    · exact ih hrest hi

/-- The byte that is read for the type of a unit is its header. An empty payload is
followed by a start code, whose first byte counts as one. -/
theorem Delimits.header (h : Delimits buffer indexes) (hi : i ∈ indexes)
    (hlt : i.payloadStartOffset < buffer.length) :
    buffer[i.payloadStartOffset]? = some (i.nalu buffer).header := by
  obtain ⟨-, hend, hzero⟩ := h.bounds hi
  rw [Nalu.header, nalu, List.headD_eq_head?_getD, List.head?_take]
  by_cases hempty : i.payloadSize = 0
  · have hsame : i.endOffset = i.payloadStartOffset := by rw [endOffset, hempty, Nat.zero_add]
    rw [hsame] at hzero
    simp [hempty, hzero hlt]
  · simp [hempty, List.head?_drop, List.getElem?_eq_getElem hlt]

theorem nalu_bytes (h : i.startOffset ≤ i.payloadStartOffset) :
    (i.nalu buffer).bytes = (buffer.drop i.startOffset).take (i.endOffset - i.startOffset) := by
  have hsplit : i.endOffset - i.startOffset =
      (i.payloadStartOffset - i.startOffset) + i.payloadSize := by
    rw [endOffset]
    omega
  have hnext : i.startOffset + (i.payloadStartOffset - i.startOffset) = i.payloadStartOffset := by
    omega
  rw [Nalu.bytes, nalu, hsplit, List.take_add, List.drop_drop, hnext]

theorem inBounds_range (h : Delimits buffer indexes) (hi : i ∈ indexes) :
    i.range.InBounds buffer.length := by
  obtain ⟨hstart, hend, -⟩ := h.bounds hi
  have hle : i.payloadStartOffset ≤ i.endOffset := Nat.le_add_left ..
  rw [range, inBounds_copy]
  omega

theorem inBounds_role (h : Delimits buffer indexes) (hi : i ∈ indexes) {c : Codec}
    (past : Bool) :
    InBounds buffer.length (match c.role (i.nalu buffer) with
      | .parameters _ format => i.range :: if format then
          [.pass (i.payloadStartOffset + c.headerSize) (i.payloadSize - c.headerSize)] else []
      | .skipped => []
      | .idr => [i.range]
      | .other => if past then [] else [i.range]) ↔
      (∀ clears, c.role (i.nalu buffer) = .parameters clears true →
        c.headerSize ≤ i.payloadSize) := by
  have hrange := inBounds_range h hi
  cases hrole : c.role (i.nalu buffer) with
  | parameters clears format =>
    cases format with
    | false => simp [hrange]
    | true =>
      simp [hrange]
  | skipped => simp
  | idr => simp [hrange]
  | other => cases past <;> simp [hrange]

theorem role_h265_iff {u : Nalu} :
    (∃ clears, Codec.h265.role u = .parameters clears true) ↔ Codec.h265.naluType u = 33 := by
  simp only [Codec.role]
  split_ifs with h32 h33 h34 hidr
  · simp [h32]
  · simp [h33]
  · simp [h34]
  · simp [h33]
  · simp [h33]

theorem inBounds_accesses (h : Delimits buffer indexes) (hi : i ∈ indexes) {c : Codec}
    (past : Bool) :
    InBounds buffer.length (i.accesses buffer c past) ↔
      (c = .h265 → i.payloadStartOffset < buffer.length ∧
        (c.naluType (i.nalu buffer) = 33 → 2 ≤ i.payloadSize)) := by
  have hend := (h.bounds hi).2.1
  rw [endOffset] at hend
  rw [accesses]
  cases c with
  | h264 =>
    by_cases hempty : i.payloadSize = 0
    · simp [hempty]
    · rw [if_neg (by simp [hempty]), inBounds_cons, inBounds_role h hi]
      simp [Codec.headerSize]
      omega
  | h265 =>
    have hsps : (∀ clears, Codec.h265.role (i.nalu buffer) = .parameters clears true →
        Codec.h265.headerSize ≤ i.payloadSize) ↔
          (Codec.h265.naluType (i.nalu buffer) = 33 → 2 ≤ i.payloadSize) := by
      rw [← role_h265_iff, forall_exists_index]
      rfl
    rw [if_neg (by simp), inBounds_cons, inBounds_role h hi, inBounds_read, hsps]
    simp

/-- With H264 no byte outside of the buffer is read and no length is negative; with
H265 exactly when there is no empty unit at the end of the buffer and no SPS of one
byte. -/
theorem indexing_in_bounds_iff (h : Delimits buffer indexes) (c : Codec) (past : Bool) :
    InBounds buffer.length (indexes.flatMap fun i => i.accesses buffer c past) ↔
      (c = .h265 → ∀ i ∈ indexes, i.payloadStartOffset < buffer.length ∧
        (c.naluType (i.nalu buffer) = 33 → 2 ≤ i.payloadSize)) := by
  rw [inBounds_flatMap]
  constructor
  · exact fun hall hc i hi => (inBounds_accesses h hi past).mp (hall i hi) hc
  · exact fun hall i hi => (inBounds_accesses h hi past).mpr fun hc => hall hc i hi

theorem indexing_in_bounds_sps :
    InBounds 9 ([⟨0, 3, 0⟩, ⟨3, 7, 2⟩].flatMap fun i : NaluIndex =>
      i.accesses [0, 0, 1, 0, 0, 0, 1, 0x42, 0x01] .h265 false) := by
  have hdelimits : Delimits [0, 0, 1, 0, 0, 0, 1, 0x42, 0x01] [⟨0, 3, 0⟩, ⟨3, 7, 2⟩] :=
    ⟨by decide, rfl, by decide, rfl, trivial⟩
  exact (indexing_in_bounds_iff hdelimits .h265 false).mpr fun _ => by decide

/-- An SPS of one byte: the length of what the parser gets is -1. -/
theorem indexing_out_of_bounds : ¬ ∀ (buffer : List UInt8) (indexes : List NaluIndex) (c : Codec)
    (past : Bool), Delimits buffer indexes →
    InBounds buffer.length (indexes.flatMap fun i => i.accesses buffer c past) := by
  intro halways
  have hbounds := halways [0, 0, 0, 1, 0x42] [⟨0, 4, 1⟩] .h265 false ⟨by decide, rfl, trivial⟩
  exact absurd hbounds (by decide)

end NaluIndex

end WebrtcStreamer
