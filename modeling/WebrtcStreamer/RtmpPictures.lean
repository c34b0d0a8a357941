import WebrtcStreamer.RtmpVideo

/-! The pictures of an RTMP stream: units behind their lengths become units behind
start codes. -/

set_option autoImplicit false

namespace WebrtcStreamer

def annexB (marker : List UInt8) (units : List (List UInt8)) : List UInt8 :=
  units.flatMap fun u => marker ++ u

def unitLength (u : List UInt8) : List UInt8 :=
  [UInt8.ofNat (u.length / 2 ^ 24), UInt8.ofNat (u.length / 2 ^ 16), UInt8.ofNat (u.length / 2 ^ 8),
    UInt8.ofNat u.length]

/-- A packet of NAL units, with the composition time in front of them. -/
structure PicturePacket where
  codec : Codec
  frameType : VideoFrameType
  time : List UInt8
  units : List (List UInt8)
  deriving DecidableEq, Repr

namespace PicturePacket

def first (pic : PicturePacket) : UInt8 :=
  match pic.frameType, pic.codec with
  | .key, .h264 => 0x17
  | .key, .h265 => 0x1C
  | .delta, .h264 => 0x27
  | .delta, .h265 => 0x2C

def bytes (pic : PicturePacket) : List UInt8 :=
  [pic.first, 1] ++ pic.time ++ pic.units.flatMap fun u => unitLength u ++ u

def parameters (pic : PicturePacket) (cfg : List UInt8) : List UInt8 :=
  match pic.frameType with
  | .key => cfg
  | .delta => []

theorem first_codes (pic : PicturePacket) :
    pic.first >>> 4 = (match pic.frameType with | .key => 1 | .delta => 2) ∧
      pic.first &&& 0x0F = (match pic.codec with | .h264 => 7 | .h265 => 12) := by
  rcases pic with ⟨codec, frameType, time, units⟩
  cases codec <;> cases frameType <;> simp only [first] <;> decide

end PicturePacket

theorem unitLength_eq_iff {u : List UInt8} (h : u.length < 2 ^ 32) :
    unitLength u = [0, 0, 0, 1] ↔ u.length = 1 := by
  constructor
  · intro heq
    simp only [unitLength, List.cons.injEq, and_true] at heq
    obtain ⟨h24, h16, h8, h0⟩ := heq
    have h24 := congrArg UInt8.toNat h24
    have h16 := congrArg UInt8.toNat h16
    have h8 := congrArg UInt8.toNat h8
    have h0 := congrArg UInt8.toNat h0
    simp at h24 h16 h8 h0
    omega
  · intro hone
    rw [unitLength, hone]
    rfl

theorem flatMap_unitLength_iff {units : List (List UInt8)} (h : ∀ u ∈ units, u.length < 2 ^ 32) :
    (units.flatMap fun u => unitLength u ++ u) = annexB [0, 0, 0, 1] units ↔
      ∀ u ∈ units, u.length = 1 := by
  induction units with
  | nil => simp [annexB]
  | cons u units ih =>
    have hu := unitLength_eq_iff (h u List.mem_cons_self)
    have hunits := ih fun v hv => h v (List.mem_cons_of_mem u hv)
    rw [annexB, List.flatMap_cons, List.flatMap_cons, List.forall_mem_cons, ← hu, ← hunits, annexB,
      List.append_assoc, List.append_assoc]
    constructor
    · intro heq
      obtain ⟨hlength, heq⟩ := List.append_inj heq rfl
      exact ⟨hlength, List.append_cancel_left heq⟩
    · rintro ⟨hlength, hrest⟩
      rw [hlength, hrest]

section Picture

variable {marker : List UInt8} {parseSps : Codec → List UInt8 → Option (Int × Int)}
  {p : RtmpPacket} {ts : UInt64} {pic : PicturePacket}

theorem PicturePacket.onVideo {u : List UInt8}
    {config : RtmpPacket → RtmpVideoSource → Option RtmpVideoSource} (src : RtmpVideoSource)
    (hfirst : p.body 0 = pic.first) (htype : p.body 1 = 1) (hunit : p.bytes 9 p.size = some u) :
    src.onVideo marker p ts config =
      some (src.postFrame ts (pic.parameters src.cfg ++ marker ++ u) pic.frameType) := by
  have hkind := pic.first_codes.1
  rw [RtmpVideoSource.onVideo, hfirst, htype, hunit, hkind, parameters]
  cases pic.frameType with
  | key => simp
  | delta => simp

/-- The first unit loses its length, the others keep theirs. -/
theorem PicturePacket.posted {u : List UInt8} {units : List (List UInt8)}
    (hunits : pic.units = u :: units) (htime : pic.time.length = 3) (hp : p.Holds pic.bytes)
    (hsize : p.size = pic.bytes.length) (src : RtmpVideoSource) :
    src.processVideoPacket marker parseSps p ts = some (src.postFrame ts
      (pic.parameters src.cfg ++ marker ++ (u ++ units.flatMap fun v => unitLength v ++ v))
      pic.frameType) := by
  have hfirst : p.body 0 = pic.first := hp 0 pic.first rfl
  have htype : p.body 1 = 1 := hp 1 1 rfl
  have hholds : p.Holds ([pic.first, 1] ++ pic.time ++ unitLength u ++
      (u ++ units.flatMap fun v => unitLength v ++ v) ++ []) := by
    simpa [bytes, hunits] using hp
  have hstart : ([pic.first, 1] ++ pic.time ++ unitLength u).length = 9 := by
    simp [htime, unitLength]
  have hend : p.size = 9 + (u ++ units.flatMap fun v => unitLength v ++ v).length := by
    rw [hsize, ← hstart, ← List.length_append]
    simp [bytes, hunits]
  have hgiven := hholds.bytes
  rw [hstart] at hgiven
  have hunit : p.bytes 9 p.size = some (u ++ units.flatMap fun v => unitLength v ++ v) := by
    rw [hend]
    exact_mod_cast hgiven
  have hid := pic.first_codes.2
  rw [RtmpVideoSource.processVideoPacket, hfirst, hid]
  cases pic.codec with
  | h264 => exact onVideo src hfirst htype hunit
  | h265 => exact onVideo src hfirst htype hunit

/-- The frame is in the Annex B format exactly when every unit but the first is one
byte long: then its length is a start code. -/
theorem picture_annexB_iff (pic : PicturePacket) (hmarker : marker = [0, 0, 0, 1])
    (hunits : pic.units ≠ []) (hlength : ∀ u ∈ pic.units, u.length < 2 ^ 32)
    (htime : pic.time.length = 3) (hp : p.Holds pic.bytes) (hsize : p.size = pic.bytes.length)
    (src : RtmpVideoSource) :
    (∃ src', src.processVideoPacket marker parseSps p ts = some src' ∧
      src'.queue = src.queue ++
        [.content (pic.parameters src.cfg ++ annexB marker pic.units) ts pic.frameType]) ↔
      ∀ u ∈ pic.units.tail, u.length = 1 := by
  obtain ⟨u, units, hcons⟩ := List.exists_cons_of_ne_nil hunits
  rw [hcons] at hlength
  have hposted : src.processVideoPacket marker parseSps p ts = some (src.postFrame ts
      (pic.parameters src.cfg ++ marker ++ (u ++ units.flatMap fun v => unitLength v ++ v))
      pic.frameType) := pic.posted hcons htime hp hsize src
  have hrest := flatMap_unitLength_iff fun v hv => hlength v (List.mem_cons_of_mem u hv)
  rw [hcons, List.tail_cons, ← hrest, hposted, ← hmarker]
  constructor
  · rintro ⟨src', hsrc, hqueue⟩
    cases hsrc
    simpa [RtmpVideoSource.postFrame, annexB] using hqueue
  · intro heq
    refine ⟨_, rfl, ?_⟩
    simp [RtmpVideoSource.postFrame, annexB, heq]

end Picture

/-- A slice and the end of its sequence, a unit of one byte. -/
theorem picture_annexB_slice : ∃ src',
    (⟨[0, 0, 0, 1, 0x67], []⟩ : RtmpVideoSource).processVideoPacket [0, 0, 0, 1] (fun _ _ => none)
      (.ofBytes [0x17, 1, 0, 0, 0, 0, 0, 0, 2, 0x65, 0x88, 0, 0, 0, 1, 0x0A]) 40 = some src' ∧
    src'.queue =
      [.content [0, 0, 0, 1, 0x67, 0, 0, 0, 1, 0x65, 0x88, 0, 0, 0, 1, 0x0A] 40 .key] :=
  (picture_annexB_iff ⟨.h264, .key, [0, 0, 0], [[0x65, 0x88], [0x0A]]⟩ rfl (by decide) (by decide)
    rfl (RtmpPacket.holds_ofBytes _) rfl ⟨[0, 0, 0, 1, 0x67], []⟩).mpr (by decide)

/-- An SEI unit in front of the slice: the length of the slice stays in the frame. -/
theorem picture_length_left : ¬ ∀ (parseSps : Codec → List UInt8 → Option (Int × Int))
    (p : RtmpPacket) (ts : UInt64) (pic : PicturePacket) (src : RtmpVideoSource),
    pic.units ≠ [] → (∀ u ∈ pic.units, u.length < 2 ^ 32) → pic.time.length = 3 →
    p.Holds pic.bytes → p.size = pic.bytes.length →
    ∃ src', src.processVideoPacket [0, 0, 0, 1] parseSps p ts = some src' ∧
      src'.queue = src.queue ++ [.content (pic.parameters src.cfg ++
        annexB [0, 0, 0, 1] pic.units) ts pic.frameType] := by
  intro halways
  obtain ⟨src', hsrc, hqueue⟩ := halways (fun _ _ => none)
    (.ofBytes (PicturePacket.bytes ⟨.h264, .key, [0, 0, 0], [[0x06, 0x05], [0x65, 0x88]]⟩)) 40
    ⟨.h264, .key, [0, 0, 0], [[0x06, 0x05], [0x65, 0x88]]⟩ ⟨[], []⟩ (by decide) (by decide) rfl
    (RtmpPacket.holds_ofBytes _) rfl
  have hposted : (⟨[], []⟩ : RtmpVideoSource).processVideoPacket [0, 0, 0, 1] (fun _ _ => none)
      (.ofBytes (PicturePacket.bytes ⟨.h264, .key, [0, 0, 0], [[0x06, 0x05], [0x65, 0x88]]⟩)) 40 =
        some ⟨[], [.content [0, 0, 0, 1, 0x06, 0x05, 0, 0, 0, 2, 0x65, 0x88] 40 .key]⟩ := by
    decide
  rw [hposted, Option.some.injEq] at hsrc
  rw [← hsrc] at hqueue
  exact absurd hqueue (by decide)

end WebrtcStreamer
