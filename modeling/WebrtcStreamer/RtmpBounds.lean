import WebrtcStreamer.BufferAccess
import WebrtcStreamer.DecoderRecovery

/-! The bytes of a packet that `RtmpVideoSource` reads, copies and hands to the SPS
parser, for packets of any content and size. -/

set_option autoImplicit false

namespace WebrtcStreamer

open BufferAccess

namespace RtmpPacket

open RtmpVideoSource (announcing codecOf isRecord)

variable (parseSps : Codec → List UInt8 → Option (Int × Int)) (p : RtmpPacket)

def unitHead (start : Int) : List Access := [.read start, .read (start + 1), .read (start + 2)]

def stored (start : Int) : Access := .copy (start + 2) (start + 2 + p.sizeAt start + 1)

def configH264 : List Access :=
  let startSps := 11
  let spssize := p.sizeAt startSps
  unitHead startSps ++
    if p.naluTypeAt .h264 (startSps + 2) = 7 then
      .pass (startSps + 3) spssize ::
        if announcing parseSps p .h264 then
          let startPps := startSps + spssize + 3
          p.stored startSps :: (unitHead startPps ++ [p.stored startPps])
        else []
    else []

def configH265 : List Access :=
  let startVps := 31
  let vpssize := p.sizeAt startVps
  unitHead startVps ++
    if p.naluTypeAt .h265 (startVps + 2) = 32 then
      let startSps := startVps + vpssize + 3 + 2
      let spssize := p.sizeAt startSps
      p.stored startVps :: (unitHead startSps ++
        if p.naluTypeAt .h265 (startSps + 2) = 33 then
          let startPps := startSps + spssize + 3 + 2
          .pass (startSps + 3) spssize :: p.stored startSps ::
            (unitHead startPps ++ [p.stored startPps])
        else [])
    else []

/-- The type of the packet is looked at after the frame type 1 only. -/
def onVideo (config : List Access) : List Access :=
  let frameType := p.body 0 >>> 4
  (if frameType = 1 then [.read 1] else []) ++
    if frameType = 1 ∧ p.body 1 = 0 then config
    else if frameType = 1 ∧ p.body 1 = 1 then [.read 9, .copy 9 p.size]
    else if frameType = 2 then [.read 9, .copy 9 p.size]
    else []

def accesses : List Access :=
  .read 0 :: match codecOf p with
    | some .h264 => p.onVideo (p.configH264 parseSps)
    | some .h265 => p.onVideo p.configH265
    | none => []

/-! ### Nothing else is looked at -/

variable {parseSps} {p} {p' : RtmpPacket}

theorem bytes_congr {first last : Int}
    (h : ∀ i, first ≤ i ∧ i < last → p.body i = p'.body i) :
    p.bytes first last = p'.bytes first last := by
  rw [bytes, bytes]
  split
  · rfl
  · rw [Option.some.injEq]
    apply List.map_congr_left
    intro i hi
    have hlt := List.mem_range.mp hi
    exact h _ (by omega)

theorem Agree.unitHead {start : Int} (h : Agree p.body p'.body (unitHead start)) :
    p.sizeAt start = p'.sizeAt start ∧
      ∀ c, p.naluTypeAt c (start + 2) = p'.naluTypeAt c (start + 2) := by
  simp only [RtmpPacket.unitHead, agree_cons, agree_read] at h
  obtain ⟨hhigh, hlow, htype, -⟩ := h
  exact ⟨by rw [sizeAt, sizeAt, hhigh, hlow], fun c => by rw [naluTypeAt, naluTypeAt, htype]⟩

theorem store_congr {marker : List UInt8} {start : Int} (src : RtmpVideoSource)
    (hsize : p.sizeAt start = p'.sizeAt start)
    (h : ∀ i, (p.stored start).Touches i → p.body i = p'.body i) :
    src.store marker p start = src.store marker p' start := by
  have hunit : p.bytes (start + 2) (start + 2 + p.sizeAt start + 1) =
      p'.bytes (start + 2) (start + 2 + p.sizeAt start + 1) := bytes_congr h
  rw [RtmpVideoSource.store, RtmpVideoSource.store, hunit, hsize]

theorem configH264_congr {marker : List UInt8} (src : RtmpVideoSource)
    (h : Agree p.body p'.body (p.configH264 parseSps)) :
    RtmpVideoSource.configH264 marker parseSps p src =
      RtmpVideoSource.configH264 marker parseSps p' src := by
  rw [configH264, agree_append] at h
  obtain ⟨hhead, h⟩ := h
  obtain ⟨hsize, htype⟩ := Agree.unitHead hhead
  unfold RtmpVideoSource.configH264
  by_cases hsps : p.naluTypeAt .h264 (11 + 2) = 7
  · rw [if_pos hsps, agree_cons] at h
    obtain ⟨hpass, h⟩ := h
    have hgiven : p.bytes (11 + 3) (11 + 3 + p.sizeAt 11) =
        p'.bytes (11 + 3) (11 + 3 + p.sizeAt 11) := bytes_congr hpass
    simp only [← htype, hsps, if_true, ← hsize, ← hgiven]
    cases hbytes : p.bytes (11 + 3) (11 + 3 + p.sizeAt 11) with
    | none => rfl
    | some bytes =>
      cases hparse : parseSps .h264 bytes with
      | none => simp [hparse]
      | some size =>
        have hann : announcing parseSps p .h264 = true := by
          rw [announcing, p.spsBytes_h264, if_pos hsps, hbytes, Option.any_some, hparse]
          rfl
        rw [if_pos hann, agree_cons, agree_append, agree_cons] at h
        obtain ⟨hstored, hheadPps, hstoredPps, -⟩ := h
        have hsizePps := (Agree.unitHead hheadPps).1
        simp only [Option.bind_eq_bind, Option.bind_some, hparse, store_congr _ hsize hstored]
        exact Option.bind_congr fun src _ => store_congr src hsizePps hstoredPps
  · simp only [← htype, hsps, if_false]

theorem configH265_congr {marker : List UInt8} (src : RtmpVideoSource)
    (h : Agree p.body p'.body p.configH265) :
    RtmpVideoSource.configH265 marker parseSps p src =
      RtmpVideoSource.configH265 marker parseSps p' src := by
  rw [configH265, agree_append] at h
  obtain ⟨hhead, h⟩ := h
  obtain ⟨hsize, htype⟩ := Agree.unitHead hhead
  unfold RtmpVideoSource.configH265
  by_cases hvps : p.naluTypeAt .h265 (31 + 2) = 32
  · rw [if_pos hvps, agree_cons, agree_append] at h
    obtain ⟨hstored, hheadSps, h⟩ := h
    obtain ⟨hsizeSps, htypeSps⟩ := Agree.unitHead hheadSps
    simp only [← htype, hvps, if_true, store_congr _ hsize hstored, ← hsize, ← htypeSps,
      ← hsizeSps]
    apply Option.bind_congr
    intro src' _
    by_cases hsps : p.naluTypeAt .h265 (31 + p.sizeAt 31 + 3 + 2 + 2) = 33
    · rw [if_pos hsps, agree_cons, agree_cons, agree_append, agree_cons] at h
      obtain ⟨hpass, hstoredSps, hheadPps, hstoredPps, -⟩ := h
      have hsizePps := (Agree.unitHead hheadPps).1
      have hgiven := bytes_congr hpass
      simp only [hsps, if_true, ← hgiven]
      apply Option.bind_congr
      intro bytes _
      rw [store_congr _ hsizeSps hstoredSps]
      exact Option.bind_congr fun src _ => store_congr src hsizePps hstoredPps
    · simp only [hsps, if_false]
  · simp only [← htype, hvps, if_false]

theorem onVideo_congr {marker : List UInt8} {ts : UInt64} {src : RtmpVideoSource}
    {config : RtmpPacket → RtmpVideoSource → Option RtmpVideoSource} {trace : List Access}
    (hbody : p.body 0 = p'.body 0) (hsize : p.size = p'.size)
    (hconfig : Agree p.body p'.body trace → config p src = config p' src)
    (h : Agree p.body p'.body (p.onVideo trace)) :
    src.onVideo marker p ts config = src.onVideo marker p' ts config := by
  rw [onVideo, agree_append] at h
  obtain ⟨htype, h⟩ := h
  have hpicture : Agree p.body p'.body [.read 9, .copy 9 p.size] →
      p.bytes 9 p.size = p'.bytes 9 p'.size := by
    intro h
    rw [agree_cons, agree_cons] at h
    rw [← hsize]
    exact bytes_congr h.2.1
  unfold RtmpVideoSource.onVideo
  rw [← hbody]
  by_cases hkey : p.body 0 >>> 4 = 1
  · have hone : p.body 1 = p'.body 1 := by simpa [hkey] using htype
    rw [← hone]
    by_cases hrecord : p.body 1 = 0
    · rw [if_pos ⟨hkey, hrecord⟩] at h
      simp only [hkey, hrecord, and_self, if_true, hconfig h]
    · by_cases hframe : p.body 1 = 1
      · rw [if_neg (by simp [hrecord]), if_pos ⟨hkey, hframe⟩] at h
        simp [hkey, hframe, hpicture h]
      · simp [hkey, hrecord, hframe]
  · by_cases hdelta : p.body 0 >>> 4 = 2
    · rw [if_neg (by simp [hkey]), if_neg (by simp [hkey]), if_pos hdelta] at h
      simp [hdelta, hpicture h]
    · simp [hkey, hdelta]

/-- Packets of one size that agree on these bytes are processed alike. -/
theorem processVideoPacket_accesses {marker : List UInt8} {ts : UInt64} (src : RtmpVideoSource)
    (hsize : p.size = p'.size) (h : Agree p.body p'.body (p.accesses parseSps)) :
    src.processVideoPacket marker parseSps p ts = src.processVideoPacket marker parseSps p' ts := by
  rw [accesses, agree_cons, agree_read, codecOf] at h
  obtain ⟨hbody, h⟩ := h
  unfold RtmpVideoSource.processVideoPacket
  rw [← hbody]
  by_cases havc : p.body 0 &&& 0x0F = 7
  · simp only [havc, if_true] at h ⊢
    exact onVideo_congr hbody hsize (configH264_congr src) h
  · by_cases hhevc : p.body 0 &&& 0x0F = 12
    · simp only [hhevc, if_true] at h ⊢
      exact onVideo_congr hbody hsize (configH265_congr src) h
    · simp only [havc, hhevc, if_false]

/-! ### Packets that are long enough -/

variable (parseSps) (p)

/-- The unit whose size is read here ends in front of the last byte of the packet:
the byte behind it goes into `m_cfg` too. -/
def Fits (start : Int) : Prop :=
  start + 3 ≤ p.size ∧ -1 ≤ p.sizeAt start ∧ start + 3 + p.sizeAt start ≤ p.size

def FitsH264 : Prop :=
  14 ≤ p.size ∧ (p.naluTypeAt .h264 13 = 7 → 0 ≤ p.sizeAt 11 ∧
    (announcing parseSps p .h264 = true → p.Fits 11 ∧ p.Fits (11 + p.sizeAt 11 + 3)))

def FitsH265 : Prop :=
  34 ≤ p.size ∧ (p.naluTypeAt .h265 33 = 32 → p.Fits 31 ∧
    let startSps := 31 + p.sizeAt 31 + 3 + 2
    startSps + 3 ≤ p.size ∧ (p.naluTypeAt .h265 (startSps + 2) = 33 →
      0 ≤ p.sizeAt startSps ∧ p.Fits startSps ∧ p.Fits (startSps + p.sizeAt startSps + 3 + 2)))

def FitsVideo (config : Prop) : Prop :=
  let frameType := p.body 0 >>> 4
  (frameType = 1 → 2 ≤ p.size) ∧ (frameType = 1 ∧ p.body 1 = 0 → config) ∧
    (frameType = 1 ∧ p.body 1 = 1 ∨ frameType = 2 → 10 ≤ p.size)

def LongEnough : Prop :=
  1 ≤ p.size ∧ match codecOf p with
    | some .h264 => p.FitsVideo (p.FitsH264 parseSps)
    | some .h265 => p.FitsVideo p.FitsH265
    | none => True

variable {parseSps} {p}

theorem inBounds_unitHead {start : Int} (h : 0 ≤ start) :
    InBounds p.size (unitHead start) ↔ start + 3 ≤ p.size := by
  simp only [unitHead, inBounds_cons, inBounds_read, inBounds_nil, and_true]
  omega

theorem inBounds_stored {start : Int} (h : 0 ≤ start) (hhead : start + 3 ≤ p.size) :
    (p.stored start).InBounds p.size ↔ p.Fits start := by
  rw [stored, inBounds_copy, Fits]
  omega

theorem inBounds_unit {start : Int} (h : 0 ≤ start) :
    InBounds p.size (unitHead start ++ [p.stored start]) ↔ p.Fits start := by
  rw [inBounds_append, inBounds_unitHead h, inBounds_cons, and_iff_left inBounds_nil]
  constructor
  · exact fun ⟨hhead, hstored⟩ => (inBounds_stored h hhead).mp hstored
  · exact fun hfits => ⟨hfits.1, (inBounds_stored h hfits.1).mpr hfits⟩

theorem inBounds_configH264 :
    InBounds p.size (p.configH264 parseSps) ↔ p.FitsH264 parseSps := by
  have hlong : (11 : Int) + 3 ≤ p.size ↔ 14 ≤ p.size := by omega
  rw [configH264, FitsH264, inBounds_append, inBounds_unitHead (by omega), hlong]
  apply and_congr_right
  intro hsize
  by_cases hsps : p.naluTypeAt .h264 13 = 7
  · have hsps' : p.naluTypeAt .h264 (11 + 2) = 7 := hsps
    rw [if_pos hsps', inBounds_cons, inBounds_pass]
    simp only [hsps, true_imp_iff]
    apply and_congr_right
    intro hspssize
    by_cases hann : announcing parseSps p .h264 = true
    · simp only [hann, if_true, true_imp_iff]
      rw [inBounds_cons, inBounds_stored (by omega) (by omega), inBounds_unit (by omega)]
    · simp [hann]
  · simp [hsps]

theorem inBounds_configH265 : InBounds p.size p.configH265 ↔ p.FitsH265 := by
  have hlong : (31 : Int) + 3 ≤ p.size ↔ 34 ≤ p.size := by omega
  rw [configH265, FitsH265, inBounds_append, inBounds_unitHead (by omega), hlong]
  apply and_congr_right
  intro hsize
  by_cases hvps : p.naluTypeAt .h265 33 = 32
  · have hvps' : p.naluTypeAt .h265 (31 + 2) = 32 := hvps
    rw [if_pos hvps', inBounds_cons, inBounds_stored (by omega) (by omega)]
    simp only [hvps, true_imp_iff]
    apply and_congr_right
    intro hfits
    have hvpssize := hfits.2.1
    rw [inBounds_append, inBounds_unitHead (by omega)]
    apply and_congr_right
    intro hhead
    by_cases hsps : p.naluTypeAt .h265 (31 + p.sizeAt 31 + 3 + 2 + 2) = 33
    · simp only [hsps, if_true, true_imp_iff]
      rw [inBounds_cons, inBounds_pass, inBounds_cons, inBounds_stored (by omega) hhead]
      apply and_congr_right
      intro hspssize
      rw [inBounds_unit (by omega)]
    · simp [hsps]
  · simp [hvps]

theorem inBounds_onVideo {config : List Access} {fits : Prop}
    (hconfig : InBounds p.size config ↔ fits) :
    InBounds p.size (p.onVideo config) ↔ p.FitsVideo fits := by
  have hpicture : InBounds p.size [.read 9, .copy 9 p.size] ↔ 10 ≤ p.size := by
    simp only [inBounds_cons, inBounds_read, inBounds_copy, inBounds_nil, and_true]
    omega
  rw [onVideo, FitsVideo, inBounds_append]
  by_cases hkey : p.body 0 >>> 4 = 1
  · have htype : InBounds p.size [.read 1] ↔ 2 ≤ p.size := by
      simp only [inBounds_cons, inBounds_read, inBounds_nil, and_true]
      omega
    simp only [hkey, if_true, htype, true_and, true_imp_iff]
    apply and_congr_right
    intro _
    by_cases hrecord : p.body 1 = 0
    · simp [hrecord, hconfig]
    · by_cases hframe : p.body 1 = 1
      · simp [hframe, hpicture]
      · simp [hrecord, hframe]
  · by_cases hdelta : p.body 0 >>> 4 = 2
    · simp [hdelta, hpicture]
    · simp [hkey, hdelta]

theorem packet_in_bounds_iff (parseSps : Codec → List UInt8 → Option (Int × Int))
    (p : RtmpPacket) :
    InBounds p.size (p.accesses parseSps) ↔ p.LongEnough parseSps := by
  have hfirst : (Access.read 0).InBounds p.size ↔ 1 ≤ p.size := by
    rw [inBounds_read]
    omega
  rw [accesses, LongEnough, inBounds_cons, hfirst]
  apply and_congr_right
  intro _
  cases codecOf p with
  | none => simp
  | some c =>
    cases c with
    | h264 => exact inBounds_onVideo inBounds_configH264
    | h265 => exact inBounds_onVideo inBounds_configH265

/-- The record of a camera ends with its PPS: one byte more is copied. -/
theorem packet_out_of_bounds : ¬ ∀ (parseSps : Codec → List UInt8 → Option (Int × Int))
    (p : RtmpPacket), InBounds p.size (p.accesses parseSps) := by
  intro halways
  have hbounds := halways (fun _ _ => some (640, 480)) (.ofBytes (ConfigRecord.camera.bytes .h264))
  exact absurd hbounds (by decide)

end RtmpPacket

end WebrtcStreamer
