import WebrtcStreamer.DecoderThread
import WebrtcStreamer.VideoScaler

/-! The null codec: an encoded frame that goes through `NullDecoder`, `VideoScaler`
and `NullEncoder` without being decoded. -/

set_option autoImplicit false

namespace WebrtcStreamer

structure SdpVideoFormat where
  name : String
  parameters : Options

structure EncodedImage where
  data : List UInt8
  frameType : VideoFrameType
  rtpTimestamp : UInt32
  ntpTimeMs : Int64
  deriving DecidableEq, Repr

structure EncodedVideoFrameBuffer where
  width : Int
  height : Int
  encodedData : List UInt8
  frameType : VideoFrameType
  format : SdpVideoFormat

/-- `ntptime` is an `int`. -/
def EncodedVideoFrameBuffer.getEncodedImage (b : EncodedVideoFrameBuffer) (rtptime : UInt32)
    (ntptime : Int32) : EncodedImage :=
  ⟨b.encodedData, b.frameType, rtptime, ntptime.toInt64⟩

inductive VideoFrameBuffer where
  | native (buffer : EncodedVideoFrameBuffer)
  | i420 (width height : Int)

structure BuiltFrame where
  buffer : VideoFrameBuffer
  rotation : VideoRotation
  timestampRtp : UInt32
  timestampUs : Int64
  ntpTimeMs : Int64
  id : UInt16

namespace BuiltFrame

def width (frame : BuiltFrame) : Int :=
  match frame.buffer with
  | .native buffer => buffer.width
  | .i420 width _ => width

def height (frame : BuiltFrame) : Int :=
  match frame.buffer with
  | .native buffer => buffer.height
  | .i420 _ height => height

def native (frame : BuiltFrame) : Bool :=
  match frame.buffer with
  | .native _ => true
  | .i420 _ _ => false

end BuiltFrame

inductive CodecResult where
  | ok | uninitialized | errParameter
  deriving DecidableEq, Repr

/-! ### The decoder -/

structure NullDecoder where
  format : SdpVideoFormat
  /-- `m_settings.max_render_resolution()` -/
  width : Int
  height : Int
  /-- `m_decoded_image_callback` is set -/
  registered : Bool

def NullDecoder.decode (d : NullDecoder) (image : EncodedImage) (renderTimeMs : Int64) :
    CodecResult × Option BuiltFrame :=
  if !d.registered then (.uninitialized, none)
  else
    let buffer : EncodedVideoFrameBuffer :=
      ⟨d.width, d.height, image.data, image.frameType, d.format⟩
    (.ok, some {
      buffer := .native buffer
      rotation := .rotation0
      timestampRtp := image.rtpTimestamp
      timestampUs := renderTimeMs * 1000
      ntpTimeMs := image.ntpTimeMs
      id := 0 })

namespace VideoDecoder

def Format.nullDecoder (f : Format) : NullDecoder := ⟨⟨f.name, ∅⟩, f.width, f.height, true⟩

/-- The image that `DecoderThread` makes of an entry with data, and the time that
it gives to `Decode`. -/
def Frame.image : Frame → Option (EncodedImage × Int64)
  | .content data ts frameType =>
    if data.isEmpty then none
    else some (⟨data, frameType, ts.toUInt32, ts.toInt64⟩, ts.toInt64)
  | _ => none

/-- `Decoded`, up to the scaler. The product is one of `uint32_t`. -/
def decoded (frame : BuiltFrame) : BuiltFrame :=
  if frame.timestampUs = 0 then
    { frame with timestampUs := (frame.timestampRtp * 1000).toUInt64.toInt64 }
  else frame

end VideoDecoder

/-! ### The scaler -/

namespace VideoScaler

/-- `adjust` for any size: the region after the first part of `OnFrame`. -/
def fitted (s : VideoScaler) (width height : Int) : VideoScaler :=
  { s with
    roiX := (fit s.across width).1
    roiWidth := (fit s.across width).2
    roiY := (fit s.down height).1
    roiHeight := (fit s.down height).2 }

def deliver (s : VideoScaler) (frame : BuiltFrame) : VideoScaler × BuiltFrame :=
  let s := s.fitted frame.width frame.height
  if (s.roiWidth ≠ frame.width ∧ s.roiHeight = frame.height ∧ s.rotation = .rotation0) ∨
      frame.native then (s, frame)
  else
    let scaled := s.createOutputBuffer
    (s, { frame with
      buffer := .i420 scaled.1 scaled.2
      rotation := s.rotation
      ntpTimeMs := 0 })

theorem adjust_eq_fitted (s : VideoScaler) (frame : VideoFrame) :
    s.adjust frame = s.fitted frame.width frame.height := rfl

def Handling.apply (frame : BuiltFrame) : Handling → BuiltFrame
  | .forwarded => frame
  | .scaled _ width height rotation =>
    { frame with buffer := .i420 width height, rotation := rotation, ntpTimeMs := 0 }

theorem deliver_eq_onFrame (s : VideoScaler) {frame : BuiltFrame} {v : VideoFrame}
    (hwidth : v.width = frame.width) (hheight : v.height = frame.height)
    (hnative : v.native = frame.native) :
    s.deliver frame =
      ((s.onFrame v).1, Handling.apply frame (s.onFrame v).2.handling) := by
  simp only [deliver, onFrame, handle, adjust_eq_fitted, hwidth, hheight, hnative]
  split <;> rfl

theorem deliver_native (s : VideoScaler) {frame : BuiltFrame} (h : frame.native = true) :
    (s.deliver frame).2 = frame := by
  simp [deliver, h]

end VideoScaler

/-! ### The encoder -/

inductive H264PacketizationMode where
  | nonInterleaved | singleNalUnit
  deriving DecidableEq, Repr

inductive CodecSpecificInfo where
  | generic
  | h264 (packetizationMode : H264PacketizationMode)
  | h265
  deriving DecidableEq, Repr

structure NullEncoder where
  format : SdpVideoFormat
  /-- `m_encoded_image_callback` is set -/
  registered : Bool

namespace NullEncoder

/-- An absent parameter means mode 0. -/
def codecSpecific (e : NullEncoder) : CodecSpecificInfo :=
  if e.format.name = "H264" then
    .h264 (if e.format.parameters["packetization-mode"]? = some "1" then .nonInterleaved
      else .singleNalUnit)
  else if e.format.name = "H265" then .h265
  else .generic

def encode (e : NullEncoder) (frame : BuiltFrame) :
    CodecResult × Option (EncodedImage × CodecSpecificInfo) :=
  if !e.registered then (.uninitialized, none)
  else
    match frame.buffer with
    | .i420 _ _ => (.errParameter, none)
    | .native buffer =>
      if buffer.format.name ≠ e.format.name then (.errParameter, none)
      else
        (.ok, some (buffer.getEncodedImage frame.timestampRtp frame.ntpTimeMs.toInt32,
          e.codecSpecific))

end NullEncoder

/-! ### The whole way -/

/-- An entry of the queue, from `DecoderThread` to the callback of the encoder. -/
def nullCodec (t : VideoDecoder.DecoderThread) (created : Bool) (frame : VideoDecoder.Frame)
    (s : VideoScaler) (e : NullEncoder) : Option EncodedImage := do
  let f ← t.decodes frame created
  let (image, renderTimeMs) ← frame.image
  let delivered ← (f.nullDecoder.decode image renderTimeMs).2
  let (encoded, _) ← (e.encode (s.deliver (VideoDecoder.decoded delivered)).2).2
  some encoded

def fitsInt (ms : Int64) : Prop := -2 ^ 31 ≤ ms.toInt ∧ ms.toInt < 2 ^ 31

theorem toInt32_toInt64_iff (ms : Int64) : ms.toInt32.toInt64 = ms ↔ fitsInt ms := by
  rw [← Int64.toInt_inj, Int32.toInt_toInt64, Int64.toInt_toInt32, fitsInt]
  constructor
  · intro heq
    have hlow := Int.le_bmod (x := ms.toInt) (m := 2 ^ 32) (by decide)
    have hhigh := Int.bmod_lt (x := ms.toInt) (m := 2 ^ 32) (by decide)
    omega
  · rintro ⟨hlow, hhigh⟩
    exact Int.bmod_eq_of_le (by omega) (by omega)

section Native

variable {frame : BuiltFrame} {buffer : EncodedVideoFrameBuffer} {e : NullEncoder}

theorem VideoDecoder.decoded_fields (frame : BuiltFrame) :
    (VideoDecoder.decoded frame).buffer = frame.buffer ∧
    (VideoDecoder.decoded frame).timestampRtp = frame.timestampRtp ∧
    (VideoDecoder.decoded frame).ntpTimeMs = frame.ntpTimeMs := by
  unfold VideoDecoder.decoded
  split
  · exact ⟨rfl, rfl, rfl⟩
  · exact ⟨rfl, rfl, rfl⟩

theorem NullEncoder.encode_native (hregistered : e.registered = true)
    (hbuffer : frame.buffer = .native buffer) (hname : buffer.format.name = e.format.name) :
    e.encode frame = (.ok, some (buffer.getEncodedImage frame.timestampRtp
      frame.ntpTimeMs.toInt32, e.codecSpecific)) := by
  simp [encode, hregistered, hbuffer, hname]

/-- The decoder, the scaler and the encoder hand every image on; its time goes
through an `int`. -/
theorem NullDecoder.decode_encode {d : NullDecoder} (image : EncodedImage) (ms : Int64)
    (s : VideoScaler) (hcallback : d.registered = true) (hregistered : e.registered = true)
    (hname : d.format.name = e.format.name) :
    ∃ delivered, d.decode image ms = (.ok, some delivered) ∧
      e.encode (s.deliver (VideoDecoder.decoded delivered)).2 =
        (.ok, some ({ image with ntpTimeMs := image.ntpTimeMs.toInt32.toInt64 },
          e.codecSpecific)) := by
  refine ⟨_, by simp only [decode, hcallback]; rfl, ?_⟩
  generalize hdelivered : BuiltFrame.mk _ _ _ _ _ _ = delivered
  obtain ⟨hbuffer, hrtp, hntp⟩ := VideoDecoder.decoded_fields delivered
  have hnative : (VideoDecoder.decoded delivered).native = true := by
    rw [BuiltFrame.native, hbuffer, ← hdelivered]
  rw [s.deliver_native hnative, NullEncoder.encode_native hregistered
    (hbuffer.trans (by rw [← hdelivered])) hname, hrtp, hntp, ← hdelivered]
  rfl

end Native

/-- The encoder gives the image that the decoder was given exactly when its time
is a value of `int`; in any case only the time differs. -/
theorem null_codec_identity_iff {t : VideoDecoder.DecoderThread} {created : Bool}
    {data : List UInt8} {ts : UInt64} {frameType : VideoFrameType} {f : VideoDecoder.Format}
    {e : NullEncoder} (s : VideoScaler)
    (hdecodes : t.decodes (.content data ts frameType) created = some f)
    (hregistered : e.registered = true) (hformat : e.format.name = f.name) :
    ∃ image encoded, VideoDecoder.Frame.image (.content data ts frameType) =
        some (image, ts.toInt64) ∧
      nullCodec t created (.content data ts frameType) s e = some encoded ∧
      encoded.data = image.data ∧ encoded.frameType = image.frameType ∧
      encoded.rtpTimestamp = image.rtpTimestamp ∧
      (encoded = image ↔ fitsInt ts.toInt64) := by
  have hdata : data.isEmpty = false := by
    rw [VideoDecoder.DecoderThread.decodes] at hdecodes
    split at hdecodes
    · rename_i hdata
      simpa [VideoDecoder.Frame.hasData] using hdata
    · cases hdecodes
  let image : EncodedImage := ⟨data, frameType, ts.toUInt32, ts.toInt64⟩
  have himage : VideoDecoder.Frame.image (.content data ts frameType) =
      some (image, ts.toInt64) := by
    rw [VideoDecoder.Frame.image, hdata]
    rfl
  obtain ⟨delivered, hdecode, hencode⟩ := NullDecoder.decode_encode (d := f.nullDecoder)
    (e := e) image ts.toInt64 s rfl hregistered hformat.symm
  refine ⟨image, { image with ntpTimeMs := image.ntpTimeMs.toInt32.toInt64 }, himage, ?_,
    rfl, rfl, rfl, ?_⟩
  · simp only [nullCodec, hdecodes, himage, hdecode, hencode, Option.bind_eq_bind,
      Option.bind_some]
  · rw [← toInt32_toInt64_iff]
    exact ⟨fun heq => congrArg EncodedImage.ntpTimeMs heq,
      fun heq => by rw [show image.ntpTimeMs = ts.toInt64 from rfl, heq]⟩

def h264Thread : VideoDecoder.DecoderThread := ⟨some ⟨"H264", 640, 480⟩, ⟨"H264", 640, 480⟩⟩

def h264Encoder : NullEncoder := ⟨⟨"H264", ∅⟩, true⟩

theorem null_codec_start : ∃ image encoded,
    nullCodec h264Thread true (.content [0x65] 40 .key) ⟨0, 0, .rotation0, 0, 0, 0, 0⟩
      h264Encoder = some encoded ∧ encoded = image ∧ image.ntpTimeMs = 40 := by
  have hdecodes : h264Thread.decodes (.content [0x65] 40 .key) true =
      some ⟨"H264", 640, 480⟩ := by decide
  obtain ⟨image, encoded, himage, hencoded, -, -, -, hiff⟩ :=
    null_codec_identity_iff (e := h264Encoder) ⟨0, 0, .rotation0, 0, 0, 0, 0⟩ hdecodes rfl rfl
  refine ⟨image, encoded, hencoded, hiff.mpr (by unfold fitsInt; decide), ?_⟩
  cases himage
  rfl

/-- The time of day is no `int`: after 2^31 ms the time has become negative. -/
theorem null_codec_truncates :
    ¬ ∀ (t : VideoDecoder.DecoderThread) (created : Bool) (frame : VideoDecoder.Frame)
      (f : VideoDecoder.Format) (s : VideoScaler) (e : NullEncoder),
      t.decodes frame created = some f → f.name = "H264" ∨ f.name = "H265" →
      e.registered = true → e.format.name = f.name →
      nullCodec t created frame s e = frame.image.map Prod.fst := by
  intro halways
  have heq := halways h264Thread true (.content [0x65] 2147483648 .key) ⟨"H264", 640, 480⟩
    ⟨0, 0, .rotation0, 0, 0, 0, 0⟩ h264Encoder (by decide) (.inl rfl) rfl rfl
  revert heq
  decide

end WebrtcStreamer
