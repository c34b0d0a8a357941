import WebrtcStreamer.DecoderThread

/-! `RtmpVideoSource`: the video packets of an RTMP stream on their way to the
decoder queue, and the SPS that their configuration records bring. -/

set_option autoImplicit false

namespace WebrtcStreamer

/-- The body of a packet: what `body[i]` reads, inside of the packet or not. -/
structure RtmpPacket where
  body : Int → UInt8
  size : Nat

namespace RtmpPacket

/-- The bytes from `&body[first]` up to `&body[last]`; `none` where the end comes
before the start, which is undefined. -/
def bytes (p : RtmpPacket) (first last : Int) : Option (List UInt8) :=
  if last < first then none
  else some ((List.range (last - first).toNat).map fun i : Nat => p.body (first + i))

/-- `(body[i]<<8) + body[i+1]`; `char` is signed. -/
def sizeAt (p : RtmpPacket) (i : Int) : Int :=
  256 * (p.body i).toInt8.toInt + (p.body (i + 1)).toInt8.toInt

def naluTypeAt (p : RtmpPacket) (c : Codec) (i : Int) : Nat := c.naluType ⟨[], [p.body i]⟩

def startSps (p : RtmpPacket) : Codec → Option Int
  | .h264 => if p.naluTypeAt .h264 13 = 7 then some 11 else none
  | .h265 =>
    if p.naluTypeAt .h265 33 = 32 then
      let startSps := 31 + p.sizeAt 31 + 3 + 2
      if p.naluTypeAt .h265 (startSps + 2) = 33 then some startSps else none
    else none

def spsBytes (p : RtmpPacket) (c : Codec) : Option (List UInt8) :=
  (p.startSps c).bind fun start => p.bytes (start + 3) (start + 3 + p.sizeAt start)

end RtmpPacket

structure RtmpVideoSource where
  /-- `m_cfg` -/
  cfg : List UInt8
  /-- `m_queue` -/
  queue : List VideoDecoder.Frame
  deriving DecidableEq, Repr

namespace RtmpVideoSource

/-! `H26X_marker` and the SPS parsers are those of the libraries. -/

variable (marker : List UInt8) (parseSps : Codec → List UInt8 → Option (Int × Int))
  (p : RtmpPacket) (ts : UInt64) (src : RtmpVideoSource)

def postFormat (format : String) (width height : Int) : RtmpVideoSource :=
  { src with queue := src.queue ++ [.format format width height] }

def postFrame (content : List UInt8) (frameType : VideoFrameType) : RtmpVideoSource :=
  { src with queue := src.queue ++ [.content content ts frameType] }

/-- A unit with its size in front goes into `m_cfg`, together with the byte
behind it. -/
def store (start : Int) : Option RtmpVideoSource := do
  let unit ← p.bytes (start + 2) (start + 2 + p.sizeAt start + 1)
  some { src with cfg := src.cfg ++ marker ++ unit }

def configH264 : Option RtmpVideoSource :=
  let startSps := 11
  let spssize := p.sizeAt startSps
  if p.naluTypeAt .h264 (startSps + 2) = 7 then do
    let src : RtmpVideoSource := { src with cfg := [] }
    let spsBuffer ← p.bytes (startSps + 3) (startSps + 3 + spssize)
    match parseSps .h264 spsBuffer with
    | none => some src
    | some (width, height) =>
      let src ← (src.postFormat "H264" width height).store marker p startSps
      src.store marker p (startSps + spssize + 3)
  else some src

/-- The configuration record of H265, with its arrays in the order VPS, SPS, PPS. -/
def configH265 : Option RtmpVideoSource :=
  let startVps := 31
  let vpssize := p.sizeAt startVps
  if p.naluTypeAt .h265 (startVps + 2) = 32 then do
    let src ← ({ src with cfg := [] } : RtmpVideoSource).store marker p startVps
    let startSps := startVps + vpssize + 3 + 2
    let spssize := p.sizeAt startSps
    if p.naluTypeAt .h265 (startSps + 2) = 33 then do
      let spsBuffer ← p.bytes (startSps + 3) (startSps + 3 + spssize)
      let src := match parseSps .h265 spsBuffer with
        | none => src
        | some (width, height) => src.postFormat "H265" width height
      let src ← src.store marker p startSps
      src.store marker p (startSps + spssize + 3 + 2)
    else some src
  else some src

/-- What the two codecs have in common: the frame type, 1 for a key frame and 2
for another one, and the type of the packet, 0 for a record. -/
def onVideo (config : RtmpPacket → RtmpVideoSource → Option RtmpVideoSource) :
    Option RtmpVideoSource :=
  let frameType := p.body 0 >>> 4
  if frameType = 1 ∧ p.body 1 = 0 then config p src
  else if frameType = 1 ∧ p.body 1 = 1 then do
    let unit ← p.bytes 9 p.size
    some (src.postFrame ts (src.cfg ++ marker ++ unit) .key)
  else if frameType = 2 then do
    let unit ← p.bytes 9 p.size
    some (src.postFrame ts (marker ++ unit) .delta)
  else some src

/-- `processVideoPacket`; `none` where it reads or copies a piece of negative length. -/
def processVideoPacket : Option RtmpVideoSource :=
  let codecId := p.body 0 &&& 0x0F
  if codecId = 7 then src.onVideo marker p ts (configH264 marker parseSps)
  else if codecId = 12 then src.onVideo marker p ts (configH265 marker parseSps)
  else some src

end RtmpVideoSource

/-! ### What the parser gets -/

/-- The bytes that `LiveVideoSource` gives to the SPS parser, without the header. -/
def LiveVideoSource.spsBytes (c : Codec) (u : Nalu) : List UInt8 := u.payload.drop c.headerSize

section Parser

variable {marker : List UInt8} {parseSps parseSps' : Codec → List UInt8 → Option (Int × Int)}
  {p : RtmpPacket} {ts : UInt64}

theorem RtmpPacket.spsBytes_h264 (p : RtmpPacket) : p.spsBytes .h264 =
    if p.naluTypeAt .h264 (11 + 2) = 7 then p.bytes (11 + 3) (11 + 3 + p.sizeAt 11) else none := by
  have hfirst : p.naluTypeAt .h264 (11 + 2) = p.naluTypeAt .h264 13 := rfl
  rw [spsBytes, startSps, hfirst]
  split <;> rfl

theorem RtmpPacket.spsBytes_h265 (p : RtmpPacket) : p.spsBytes .h265 =
    if p.naluTypeAt .h265 (31 + 2) = 32 then
      if p.naluTypeAt .h265 (31 + p.sizeAt 31 + 3 + 2 + 2) = 33 then
        p.bytes (31 + p.sizeAt 31 + 3 + 2 + 3)
          (31 + p.sizeAt 31 + 3 + 2 + 3 + p.sizeAt (31 + p.sizeAt 31 + 3 + 2))
      else none
    else none := by
  have hfirst : p.naluTypeAt .h265 (31 + 2) = p.naluTypeAt .h265 33 := rfl
  rw [spsBytes, startSps, hfirst]
  split
  · dsimp only
    split <;> rfl
  · rfl

theorem RtmpVideoSource.processVideoPacket_congr (src : RtmpVideoSource)
    (h : ∀ c bytes, p.spsBytes c = some bytes → parseSps c bytes = parseSps' c bytes) :
    src.processVideoPacket marker parseSps p ts = src.processVideoPacket marker parseSps' p ts := by
  have h264 : configH264 marker parseSps p src = configH264 marker parseSps' p src := by
    have hparse := h .h264
    rw [p.spsBytes_h264] at hparse
    unfold configH264
    by_cases htype : p.naluTypeAt .h264 (11 + 2) = 7
    · rw [if_pos htype] at hparse
      simp only [htype, if_true]
      cases hgiven : p.bytes (11 + 3) (11 + 3 + p.sizeAt 11) with
      | none => rfl
      | some bytes => simp only [Option.bind_eq_bind, Option.bind_some, hparse _ hgiven]
    · simp only [htype, if_false]
  have h265 : configH265 marker parseSps p src = configH265 marker parseSps' p src := by
    have hparse := h .h265
    rw [p.spsBytes_h265] at hparse
    unfold configH265
    by_cases hvps : p.naluTypeAt .h265 (31 + 2) = 32
    · by_cases hsps : p.naluTypeAt .h265 (31 + p.sizeAt 31 + 3 + 2 + 2) = 33
      · rw [if_pos hvps, if_pos hsps] at hparse
        simp only [hvps, hsps, if_true]
        cases hgiven : p.bytes (31 + p.sizeAt 31 + 3 + 2 + 3)
            (31 + p.sizeAt 31 + 3 + 2 + 3 + p.sizeAt (31 + p.sizeAt 31 + 3 + 2)) with
        | none => rfl
        | some bytes => simp only [Option.bind_eq_bind, Option.bind_some, hparse _ hgiven]
      · simp only [hsps, if_false]
    · simp only [hvps, if_false]
  unfold processVideoPacket onVideo
  simp only [h264, h265]

theorem LiveVideoSource.postSps_congr {d d' : Decoding} {c : Codec} {u : Nalu}
    (src : LiveVideoSource)
    (h : d.parseSps c (spsBytes c u) = d'.parseSps c (spsBytes c u)) :
    src.postSps d c u = src.postSps d' c u := by
  rw [spsBytes] at h
  simp only [postSps, h]

end Parser

/-! ### Configuration records -/

def sized (u : List UInt8) : List UInt8 :=
  UInt8.ofNat (u.length / 256) :: UInt8.ofNat (u.length % 256) :: u

/-- A configuration record with the tag in front of it: the composition time, the
fixed fields, the number of SPS or of arrays, the first SPS, and what follows it.
An H265 record has an array with one VPS in front of the array with the SPS. -/
structure ConfigRecord where
  time : List UInt8
  fields : List UInt8
  count : UInt8
  vpsArray : UInt8
  vps : List UInt8
  spsArray : UInt8
  spsCount : UInt8
  sps : List UInt8
  rest : List UInt8
  deriving DecidableEq, Repr

namespace ConfigRecord

def before (r : ConfigRecord) : Codec → List UInt8
  | .h264 => [0x17, 0] ++ r.time ++ r.fields ++ [r.count]
  | .h265 => [0x1C, 0] ++ r.time ++ r.fields ++ [r.count] ++ [r.vpsArray, 0, 1] ++ sized r.vps ++
      [r.spsArray, 0, r.spsCount]

def bytes (r : ConfigRecord) (c : Codec) : List UInt8 := r.before c ++ sized r.sps ++ r.rest

def spsType : Codec → Nat
  | .h264 => 7
  | .h265 => 33

def fieldsSize : Codec → Nat
  | .h264 => 5
  | .h265 => 22

structure WellFormed (r : ConfigRecord) (c : Codec) : Prop where
  time : r.time.length = 3
  fields : r.fields.length = fieldsSize c
  sps : c.naluType ⟨[], r.sps⟩ = spsType c
  header : c.headerSize ≤ r.sps.length
  short : r.sps.length < 128
  vps : c = .h265 → c.naluType ⟨[], r.vps⟩ = 32 ∧ r.vps ≠ [] ∧ r.vps.length < 2 ^ 16

end ConfigRecord

/-- `sizeAt` reads the size of the unit as it is: none of its two bytes is negative. -/
def SizeRead (u : List UInt8) : Prop := u.length < 2 ^ 15 ∧ u.length % 256 < 128

def RtmpPacket.Holds (p : RtmpPacket) (bytes : List UInt8) : Prop :=
  ∀ (i : Nat) (b : UInt8), bytes[i]? = some b → p.body i = b

section Record

variable {p : RtmpPacket} {c : Codec} {r : ConfigRecord}

theorem RtmpPacket.Holds.body {before rest : List UInt8} {b : UInt8}
    (h : p.Holds (before ++ b :: rest)) : p.body before.length = b :=
  h before.length b (by simp)

theorem toInt8_ofNat {n : Nat} (h : n < 128) : (UInt8.ofNat n).toInt8.toInt = n := by
  rw [UInt8.toInt8_ofNat', Int8.toInt_ofNat_of_lt]
  simpa using h

theorem RtmpPacket.Holds.size_body {before u rest : List UInt8}
    (h : p.Holds (before ++ sized u ++ rest)) :
    p.body before.length = UInt8.ofNat (u.length / 256) ∧
      p.body (before.length + 1) = UInt8.ofNat (u.length % 256) := by
  have hfirst : p.Holds (before ++
      UInt8.ofNat (u.length / 256) :: (UInt8.ofNat (u.length % 256) :: u ++ rest)) := by
    simpa [sized] using h
  have hsecond : p.Holds ((before ++ [UInt8.ofNat (u.length / 256)]) ++
      UInt8.ofNat (u.length % 256) :: (u ++ rest)) := by
    simpa [sized] using h
  exact ⟨hfirst.body, by simpa using hsecond.body⟩

theorem RtmpPacket.Holds.sizeAt {before u rest : List UInt8}
    (h : p.Holds (before ++ sized u ++ rest)) (hu : SizeRead u) :
    p.sizeAt before.length = u.length := by
  obtain ⟨hhigh', hlow'⟩ := hu
  obtain ⟨hhigh, hlow⟩ := h.size_body
  rw [RtmpPacket.sizeAt, hhigh, hlow, toInt8_ofNat (by omega), toInt8_ofNat (by omega)]
  omega

theorem RtmpPacket.Holds.naluTypeAt {before u rest : List UInt8}
    (h : p.Holds (before ++ sized u ++ rest)) (hu : u ≠ []) :
    p.naluTypeAt c (before.length + 2) = c.naluType ⟨[], u⟩ := by
  obtain ⟨b, tail, rfl⟩ := List.exists_cons_of_ne_nil hu
  have hholds : p.Holds ((before ++ [UInt8.ofNat ((b :: tail).length / 256),
      UInt8.ofNat ((b :: tail).length % 256)]) ++ b :: (tail ++ rest)) := by
    simpa [sized] using h
  have hbody : p.body (before.length + 2) = b := by
    simpa using hholds.body
  rw [RtmpPacket.naluTypeAt, hbody]
  cases c <;> rfl

theorem RtmpPacket.Holds.bytes {before u rest : List UInt8} (h : p.Holds (before ++ u ++ rest)) :
    p.bytes before.length (before.length + u.length) = some u := by
  rw [RtmpPacket.bytes, if_neg (by omega), Option.some.injEq]
  have hlen : ((before.length : Int) + u.length - before.length).toNat = u.length := by omega
  rw [hlen]
  apply List.ext_getElem?
  intro i
  rw [List.getElem?_map]
  by_cases hi : i < u.length
  · rw [List.getElem?_range hi, Option.map_some, List.getElem?_eq_getElem hi, Option.some.injEq]
    have hbody := h (before.length + i) u[i] (by
      rw [List.append_assoc, List.getElem?_append_right (by omega), Nat.add_sub_cancel_left,
        List.getElem?_append_left hi, List.getElem?_eq_getElem hi])
    simpa using hbody
  · rw [List.getElem?_eq_none (by simpa using hi), List.getElem?_eq_none (by omega),
      Option.map_none]

theorem RtmpPacket.bytes_succ (p : RtmpPacket) {first last : Int} (h : first ≤ last) :
    p.bytes first (last + 1) = (p.bytes first last).map (· ++ [p.body last]) := by
  have hlen : (last + 1 - first).toNat = (last - first).toNat + 1 := by omega
  rw [RtmpPacket.bytes, RtmpPacket.bytes, if_neg (by omega), if_neg (by omega), hlen,
    List.range_succ, List.map_append, List.map_singleton, Option.map_some]
  have hlast : first + ((last - first).toNat : Int) = last := by omega
  rw [hlast]

theorem ConfigRecord.WellFormed.startSps (hr : r.WellFormed c) (hp : p.Holds (r.bytes c))
    (hread : c = .h265 → SizeRead r.vps) :
    p.startSps c = some ((r.before c).length : Int) := by
  have hsps : r.sps ≠ [] := by
    intro hnil
    have hheader := hr.header
    rw [hnil] at hheader
    cases c <;> simp [Codec.headerSize] at hheader
  have hrecord : p.Holds (r.before c ++ sized r.sps ++ r.rest) := hp
  have htype := hrecord.naluTypeAt (c := c) hsps
  rw [hr.sps] at htype
  cases c with
  | h264 =>
    have hlen : (r.before .h264).length = 11 := by
      simp [ConfigRecord.before, hr.time, hr.fields, fieldsSize]
    rw [hlen] at htype ⊢
    have htype' : p.naluTypeAt .h264 13 = 7 := htype
    simp only [RtmpPacket.startSps, htype', if_true]
    rfl
  | h265 =>
    obtain ⟨hvps, hsome, -⟩ := hr.vps rfl
    have hholds : p.Holds (([0x1C, 0] ++ r.time ++ r.fields ++ [r.count] ++ [r.vpsArray, 0, 1]) ++
        sized r.vps ++ ([r.spsArray, 0, r.spsCount] ++ sized r.sps ++ r.rest)) := by
      simpa [ConfigRecord.bytes, ConfigRecord.before] using hp
    have hstart : ([0x1C, 0] ++ r.time ++ r.fields ++ [r.count] ++ [r.vpsArray, 0, 1]).length =
        31 := by
      simp [hr.time, hr.fields, fieldsSize]
    have hvpsType := hholds.naluTypeAt (c := .h265) hsome
    have hvpsSize := hholds.sizeAt (hread rfl)
    rw [hvps, hstart] at hvpsType
    rw [hstart] at hvpsSize
    have hvpsType' : p.naluTypeAt .h265 33 = 32 := hvpsType
    have hvpsSize' : p.sizeAt 31 = r.vps.length := hvpsSize
    have hlen : (((r.before .h265).length : Nat) : Int) = 31 + p.sizeAt 31 + 3 + 2 := by
      rw [hvpsSize']
      simp [ConfigRecord.before, sized, hr.time, hr.fields, fieldsSize]
      omega
    rw [hlen] at htype ⊢
    simp only [RtmpPacket.startSps, hvpsType', htype, spsType, if_true]

/-- The parser gets the SPS without its first byte, and the byte that comes after it. -/
theorem ConfigRecord.WellFormed.spsBytes (hr : r.WellFormed c) (hp : p.Holds (r.bytes c))
    (hread : c = .h265 → SizeRead r.vps) :
    p.spsBytes c =
      some (r.sps.drop 1 ++ [p.body ((r.before c).length + 2 + r.sps.length)]) := by
  have hheader := hr.header
  have hshort := hr.short
  have hpos : 1 ≤ c.headerSize := by cases c <;> decide
  obtain ⟨b, tail, hsps⟩ := List.exists_cons_of_length_pos (show 0 < r.sps.length by omega)
  have hrecord : p.Holds (r.before c ++ sized r.sps ++ r.rest) := hp
  have hsize := hrecord.sizeAt ⟨by omega, by omega⟩
  have htail : p.bytes ((r.before c).length + 3) ((r.before c).length + 3 + tail.length) =
      some tail := by
    have hholds : p.Holds ((r.before c ++ [UInt8.ofNat (r.sps.length / 256),
        UInt8.ofNat (r.sps.length % 256), b]) ++ tail ++ r.rest) := by
      simpa [ConfigRecord.bytes, sized, hsps] using hp
    have hbytes := hholds.bytes
    rw [List.length_append] at hbytes
    simpa using hbytes
  have hend : ((r.before c).length : Int) + 3 + r.sps.length =
      (r.before c).length + 3 + tail.length + 1 := by
    rw [hsps, List.length_cons]
    omega
  have hlast : ((r.before c).length : Int) + 3 + tail.length =
      (r.before c).length + 2 + r.sps.length := by
    rw [hsps, List.length_cons]
    omega
  rw [RtmpPacket.spsBytes, hr.startSps hp hread, Option.bind_some, hsize, hend,
    p.bytes_succ (by omega), htail, Option.map_some, hlast, hsps, List.drop_one, List.tail_cons]

theorem ConfigRecord.WellFormed.spsBytes_ne (hr : r.WellFormed c) (hp : p.Holds (r.bytes c))
    (hread : c = .h265 → SizeRead r.vps) (startCode : List UInt8) :
    p.spsBytes c ≠ some (LiveVideoSource.spsBytes c ⟨startCode, r.sps⟩) := by
  have hheader := hr.header
  have hpos : 1 ≤ c.headerSize := by cases c <;> decide
  intro hsame
  rw [hr.spsBytes hp hread, Option.some.injEq] at hsame
  have hlen := congrArg List.length hsame
  simp only [LiveVideoSource.spsBytes, List.length_append, List.length_drop,
    List.length_singleton] at hlen
  omega

end Record

def RtmpPacket.ofBytes (bytes : List UInt8) : RtmpPacket :=
  ⟨fun i => bytes.getD i.toNat 0, bytes.length⟩

theorem RtmpPacket.holds_ofBytes (bytes : List UInt8) : (ofBytes bytes).Holds bytes := by
  intro i b hb
  simp [ofBytes, List.getD_eq_getElem?_getD, hb]

def ConfigRecord.ofSps (c : Codec) (sps : List UInt8) : ConfigRecord where
  time := [0, 0, 0]
  fields := List.replicate (fieldsSize c) 0
  count := 1
  vpsArray := 0x20
  vps := [0x40]
  spsArray := 0x21
  spsCount := 1
  sps := sps
  rest := []

theorem ConfigRecord.wellFormed_ofSps {c : Codec} {sps : List UInt8}
    (htype : c.naluType ⟨[], sps⟩ = spsType c) (hheader : c.headerSize ≤ sps.length)
    (hshort : sps.length < 128) : (ofSps c sps).WellFormed c where
  time := rfl
  fields := List.length_replicate
  sps := htype
  header := hheader
  short := hshort
  vps := by
    rintro rfl
    show Codec.h265.naluType ⟨[], [0x40]⟩ = 32 ∧ [(0x40 : UInt8)] ≠ [] ∧ 1 < 2 ^ 16
    decide

/-- A record in which the size of the VPS is read as it is gives the SPS parser the
SPS without its first byte, and the byte that comes after it; `LiveVideoSource` gives
it the SPS without its header, which never is the same. There are such records for
every SPS. -/
theorem sps_bytes_differ {c : Codec} {sps : List UInt8}
    (htype : c.naluType ⟨[], sps⟩ = ConfigRecord.spsType c)
    (hheader : c.headerSize ≤ sps.length) (hshort : sps.length < 128) :
    (∀ (r : ConfigRecord) (p : RtmpPacket) (startCode : List UInt8), r.WellFormed c →
      r.sps = sps → p.Holds (r.bytes c) → (c = .h265 → SizeRead r.vps) →
      p.spsBytes c = some (sps.drop 1 ++ [p.body ((r.before c).length + 2 + sps.length)]) ∧
      p.spsBytes c ≠ some (LiveVideoSource.spsBytes c ⟨startCode, sps⟩)) ∧
    ∃ (r : ConfigRecord) (p : RtmpPacket), r.WellFormed c ∧ r.sps = sps ∧ p.Holds (r.bytes c) ∧
      ∀ startCode, p.spsBytes c ≠ some (LiveVideoSource.spsBytes c ⟨startCode, sps⟩) := by
  constructor
  · rintro r p startCode hr rfl hp hread
    exact ⟨hr.spsBytes hp hread, hr.spsBytes_ne hp hread startCode⟩
  · have hr := ConfigRecord.wellFormed_ofSps htype hheader hshort
    have hp := RtmpPacket.holds_ofBytes ((ConfigRecord.ofSps c sps).bytes c)
    have hread : SizeRead [0x40] := ⟨by decide, by decide⟩
    exact ⟨_, _, hr, rfl, hp, hr.spsBytes_ne hp fun _ => hread⟩

def ConfigRecord.camera : ConfigRecord where
  time := [0, 0, 0]
  fields := [1, 0x42, 0, 0x1F, 0xFF]
  count := 0xE1
  vpsArray := 0
  vps := []
  spsArray := 0
  spsCount := 0
  sps := [0x67, 0x42, 0x00]
  rest := [1, 0, 2, 0x68, 0xCE]

theorem sps_bytes_camera :
    (RtmpPacket.ofBytes (ConfigRecord.camera.bytes .h264)).spsBytes .h264 =
      some [0x42, 0x00, 1] :=
  ((sps_bytes_differ (c := .h264) (by decide) (by decide) (by decide)).1 .camera _ []
    ⟨rfl, rfl, by decide, by decide, by decide, nofun⟩ rfl (RtmpPacket.holds_ofBytes _) nofun).1

theorem sps_bytes_unequal : ¬ ∀ (c : Codec) (r : ConfigRecord) (p : RtmpPacket)
    (startCode : List UInt8), r.WellFormed c → p.Holds (r.bytes c) →
    p.spsBytes c = some (LiveVideoSource.spsBytes c ⟨startCode, r.sps⟩) := by
  intro halways
  have hsame := halways .h264 .camera (.ofBytes (ConfigRecord.camera.bytes .h264)) []
    ⟨rfl, rfl, by decide, by decide, by decide, nofun⟩ (RtmpPacket.holds_ofBytes _)
  exact absurd hsame (by decide)

end WebrtcStreamer
