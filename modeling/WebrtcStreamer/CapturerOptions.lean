import WebrtcStreamer.VideoScaler

/-! `CapturerFactory`: which capturer a URL gets, what its constructor reads of the
options, and what the stream label tells of these options. -/

set_option autoImplicit false

namespace WebrtcStreamer

inductive VideoCapturer where
  | rtsp | file | rtp | screen | window | rtmp | v4l2 | vcm
  deriving DecidableEq, Repr

inductive AudioCapturer where
  | rtsp | file | audiocap
  deriving DecidableEq, Repr

/-! The branches of `CapturerFactory`, in a build with all of its features. -/

namespace CapturerFactory

variable (publishFilter : String → Bool)

def createVideoSource (videourl : String) : Option VideoCapturer :=
  if (startsWith "rtsp://" videourl || startsWith "rtsps://" videourl) && publishFilter "rtsp://"
    then some .rtsp
  else if startsWith "file://" videourl && publishFilter "file://" then some .file
  else if startsWith "rtp://" videourl && publishFilter "rtp://" then some .rtp
  else if startsWith "screen://" videourl && publishFilter "screen://" then some .screen
  else if startsWith "window://" videourl && publishFilter "window://" then some .window
  else if startsWith "rtmp://" videourl && publishFilter "rtmp://" then some .rtmp
  else if startsWith "v4l2://" videourl && publishFilter "v4l2://" then some .v4l2
  else if publishFilter "videocap://" then some .vcm
  else none

def createAudioSource (audiourl : String) : Option AudioCapturer :=
  if startsWith "rtsp://" audiourl && publishFilter "rtsp://" then some .rtsp
  else if startsWith "file://" audiourl && publishFilter "file://" then some .file
  else if publishFilter "audiocap://" then some .audiocap
  else none

end CapturerFactory

/-! ### What the constructors read -/

def sizeOption (opts : Options) (key : String) (initial : UInt64) : Option UInt64 :=
  match opts[key]? with
  | none => some initial
  | some text => (stoi text).map UInt64.ofInt

inductive Settings where
  /-- the scaler behind a decoder, and for RTSP the options of the connection -/
  | decoder (scaler : VideoScaler) (rtptransport timeout : Option String)
  | desktop (width height : Int)
  | v4l2 (width height fps : UInt64) (format : String)
  | vcm (width height fps : UInt64)
  deriving DecidableEq, Repr

def scalerKeys : List String :=
  ["width", "height", "rotation", "roi_x", "roi_y", "roi_width", "roi_height"]

namespace VideoCapturer

def reads : VideoCapturer → List String
  | .rtsp => scalerKeys ++ ["rtptransport", "timeout"]
  | .file | .rtp | .rtmp => scalerKeys
  | .screen | .window => ["width", "height"]
  | .v4l2 => ["width", "height", "fps", "format"]
  | .vcm => ["width", "height", "fps"]

/-- The constructors; `none` for an exception of `std::stoi`. -/
def settings (opts : Options) : VideoCapturer → Option Settings
  | .rtsp => do
    let scaler ← VideoScaler.ofOptions opts
    some (.decoder scaler opts["rtptransport"]? opts["timeout"]?)
  | .file | .rtp | .rtmp => do
    let scaler ← VideoScaler.ofOptions opts
    some (.decoder scaler none none)
  | .screen | .window => do
    let width ← intOption opts "width"
    let height ← intOption opts "height"
    some (.desktop width height)
  | .v4l2 => do
    let width ← sizeOption opts "width" 0
    let height ← sizeOption opts "height" 0
    let fps ← sizeOption opts "fps" 0
    some (.v4l2 width height fps (opts.getD "format" "H264"))
  | .vcm => do
    let width ← sizeOption opts "width" 800
    let height ← sizeOption opts "height" 600
    let fps ← sizeOption opts "fps" 0
    some (.vcm width height fps)

end VideoCapturer

namespace AudioCapturer

def reads : AudioCapturer → List String
  | .rtsp => ["rtptransport", "timeout"]
  | .file | .audiocap => []

def settings (opts : Options) : AudioCapturer → Option String × Option String
  | .rtsp => (opts["rtptransport"]?, opts["timeout"]?)
  | .file | .audiocap => (none, none)

end AudioCapturer

section Reads

variable {opts opts' : Options}

theorem VideoScaler.ofOptions_congr (h : ∀ key ∈ scalerKeys, opts[key]? = opts'[key]?) :
    ofOptions opts = ofOptions opts' := by
  simp only [scalerKeys, List.forall_mem_cons] at h
  obtain ⟨hwidth, hheight, hrotation, hx, hy, hroiWidth, hroiHeight, _⟩ := h
  simp only [ofOptions, intOption, hwidth, hheight, hrotation, hx, hy, hroiWidth, hroiHeight]

theorem VideoCapturer.settings_congr (c : VideoCapturer)
    (h : ∀ key ∈ c.reads, opts[key]? = opts'[key]?) : c.settings opts = c.settings opts' := by
  cases c with
  | rtsp =>
    have hscaler := VideoScaler.ofOptions_congr fun key hkey =>
      h key (List.mem_append_left _ hkey)
    have htransport := h "rtptransport" (by decide)
    have htimeout := h "timeout" (by decide)
    simp only [settings, hscaler, htransport, htimeout]
  | file => simp only [settings, VideoScaler.ofOptions_congr h]
  | rtp => simp only [settings, VideoScaler.ofOptions_congr h]
  | rtmp => simp only [settings, VideoScaler.ofOptions_congr h]
  | screen =>
    simp only [settings, intOption, h "width" (by decide), h "height" (by decide)]
  | window =>
    simp only [settings, intOption, h "width" (by decide), h "height" (by decide)]
  | v4l2 =>
    have hformat : opts.getD "format" "H264" = opts'.getD "format" "H264" := by
      rw [Std.TreeMap.getD_eq_getD_getElem?, h "format" (by decide),
        ← Std.TreeMap.getD_eq_getD_getElem?]
    simp only [settings, sizeOption, h "width" (by decide), h "height" (by decide),
      h "fps" (by decide), hformat]
  | vcm =>
    simp only [settings, sizeOption, h "width" (by decide), h "height" (by decide),
      h "fps" (by decide)]

theorem AudioCapturer.settings_congr (c : AudioCapturer)
    (h : ∀ key ∈ c.reads, opts[key]? = opts'[key]?) : c.settings opts = c.settings opts' := by
  cases c with
  | rtsp => simp only [settings, h "rtptransport" (by decide), h "timeout" (by decide)]
  | file => rfl
  | audiocap => rfl

end Reads

/-! ### What the label tells -/

structure SameStream (r r' : StreamRequest) : Prop where
  videourl : r'.videourl = r.videourl
  audiourl : r'.audiourl = r.audiourl
  useNullCodec : r'.useNullCodec = r.useNullCodec

section Labels

variable (hash : String → UInt64) (publishFilter : String → Bool) (config : AliasConfig)

def streamSettings (r : StreamRequest) :
    Option (Option Settings) × Option (Option String × Option String) :=
  ((CapturerFactory.createVideoSource publishFilter (videoOf config r)).map
      (VideoCapturer.settings (streamOptions config r)),
    (CapturerFactory.createAudioSource publishFilter (audioOf config r)).map
      (AudioCapturer.settings (streamOptions config r)))

def readOptionKeys (r : StreamRequest) : List String :=
  ((CapturerFactory.createVideoSource publishFilter (videoOf config r)).map
      VideoCapturer.reads).getD [] ++
    ((CapturerFactory.createAudioSource publishFilter (audioOf config r)).map
      AudioCapturer.reads).getD []

def ReadsDiffer (r r' : StreamRequest) : Prop :=
  ∃ key ∈ readOptionKeys publishFilter config r,
    (streamOptions config r)[key]? ≠ (streamOptions config r')[key]?

def rtspOpened (r : StreamRequest) : Bool :=
  startsWith "rtsp://" (videoOf config r) || startsWith "rtsp://" (audioOf config r)

def optionsText (opts : Options) : String :=
  opts.getD "rtptransport" "" ++ opts.getD "timeout" "" ++ opts.getD "width" "" ++
    opts.getD "height" ""

/-- An RTSP source is opened, and the texts of the four options differ in more
than the ignored characters; where the label texts are hashed, the hashes differ. -/
def TellsApart (r r' : StreamRequest) : Prop :=
  rtspOpened config r = true ∧
    (contains "rtsp:" (labelText config r) = true →
      contains "rtsp:" (labelText config r') = true →
        hash (labelText config r) ≠ hash (labelText config r')) ∧
    (contains "rtsp:" (labelText config r) = false →
      contains "rtsp:" (labelText config r') = false →
        eraseIgnored (optionsText (streamOptions config r)) ≠
          eraseIgnored (optionsText (streamOptions config r')))

variable {hash publishFilter config} {r r' : StreamRequest}

theorem SameStream.videoOf (h : SameStream r r') : videoOf config r' = videoOf config r := by
  simp only [WebrtcStreamer.videoOf, h.videourl]

theorem SameStream.audioOf (h : SameStream r r') : audioOf config r' = audioOf config r := by
  simp only [WebrtcStreamer.audioOf, h.audiourl]

theorem SameStream.rtspOpened (h : SameStream r r') :
    rtspOpened config r' = rtspOpened config r := by
  simp only [WebrtcStreamer.rtspOpened, h.videoOf, h.audioOf]

theorem optcapturer_eq (r : StreamRequest) : optcapturer config r =
    if rtspOpened config r then optionsText (streamOptions config r) else "" := rfl

theorem bar_not_mem_hash (n : UInt64) : '|' ∉ (toString n.toNat).toList := by
  intro h
  have hdigit := Nat.isDigit_of_mem_toDigits (b := 10) (by decide) (by decide)
    (by simpa [Nat.repr] using h)
  exact absurd hdigit (by decide)

theorem bar_mem_eraseIgnored (config : AliasConfig) (r : StreamRequest) :
    '|' ∈ (eraseIgnored (labelText config r)).toList := by
  simp [eraseIgnored, labelText, ignoreInLabel]

/-- Between requests for the same stream only the four options make a difference. -/
theorem streamLabel_options_iff (h : SameStream r r') :
    streamLabel hash config r ≠ streamLabel hash config r' ↔ TellsApart hash config r r' := by
  unfold TellsApart
  cases hopened : rtspOpened config r with
  | false =>
    have hopt : optcapturer config r = optcapturer config r' := by
      rw [optcapturer_eq, optcapturer_eq, h.rtspOpened, hopened, if_neg Bool.false_ne_true,
        if_neg Bool.false_ne_true]
    have htext : labelText config r = labelText config r' := by
      simp only [labelText, hopt, h.videourl, h.audiourl, h.useNullCodec]
    simp [streamLabel, htext]
  | true =>
    have hopt : optcapturer config r = optionsText (streamOptions config r) := by
      rw [optcapturer_eq, hopened, if_pos rfl]
    have hopt' : optcapturer config r' = optionsText (streamOptions config r') := by
      rw [optcapturer_eq, h.rtspOpened, hopened, if_pos rfl]
    simp only [streamLabel, sanitizeLabel, true_and]
    cases hrtsp : contains "rtsp:" (labelText config r) <;>
      cases hrtsp' : contains "rtsp:" (labelText config r')
    · have herased : eraseIgnored (labelText config r) = eraseIgnored (labelText config r') ↔
          eraseIgnored (optionsText (streamOptions config r)) =
            eraseIgnored (optionsText (streamOptions config r')) := by
        simp only [labelText, eraseIgnored_append, hopt, hopt', h.videourl, h.audiourl,
          h.useNullCodec]
        rw [String.append_left_inj, String.append_left_inj, String.append_right_inj]
      simp [herased]
    · refine iff_of_true (fun heq => ?_) (by simp)
      have hbar := bar_mem_eraseIgnored config r
      simp only [Bool.false_eq_true, if_false, if_true] at heq
      rw [heq] at hbar
      exact bar_not_mem_hash _ hbar
    · refine iff_of_true (fun heq => ?_) (by simp)
      have hbar := bar_mem_eraseIgnored config r'
      simp only [Bool.false_eq_true, if_false, if_true] at heq
      rw [← heq] at hbar
      exact bar_not_mem_hash _ hbar
    · simp [UInt64.toNat_inj]

/-- A request gets a label of its own for an option that its capturers read
exactly when the label tells the two requests apart. If it always does, whoever
shares the label has asked for the same configuration. -/
theorem options_honoured_iff (h : SameStream r r') :
    ((ReadsDiffer publishFilter config r r' →
        streamLabel hash config r ≠ streamLabel hash config r') ↔
      (ReadsDiffer publishFilter config r r' → TellsApart hash config r r')) ∧
    ((ReadsDiffer publishFilter config r r' → TellsApart hash config r r') →
      streamLabel hash config r = streamLabel hash config r' →
      streamSettings publishFilter config r = streamSettings publishFilter config r') := by
  have hlabel : streamLabel hash config r ≠ streamLabel hash config r' ↔ _ :=
    streamLabel_options_iff h
  refine ⟨imp_congr_right fun _ => hlabel, fun htells heq => ?_⟩
  have hsame : ¬ ReadsDiffer publishFilter config r r' :=
    fun hdiffer => hlabel.mpr (htells hdiffer) heq
  simp only [ReadsDiffer, readOptionKeys, not_exists, not_and, not_not, List.mem_append] at hsame
  unfold streamSettings
  rw [h.videoOf, h.audioOf]
  cases hvideo : CapturerFactory.createVideoSource publishFilter (videoOf config r) <;>
    cases haudio : CapturerFactory.createAudioSource publishFilter (audioOf config r) <;>
    simp only [hvideo, haudio, Option.map_none, Option.map_some] at hsame ⊢
  · rename_i audio
    rw [audio.settings_congr fun key hkey => hsame key (.inr hkey)]
  · rename_i video
    rw [video.settings_congr fun key hkey => hsame key (.inl hkey)]
  · rename_i video audio
    rw [audio.settings_congr fun key hkey => hsame key (.inr hkey),
      video.settings_congr fun key hkey => hsame key (.inl hkey)]

end Labels

def StreamRequest.camera (options : String) : StreamRequest := ⟨"rtsp://cam", "", options, false⟩
def StreamRequest.recording (options : String) : StreamRequest :=
  ⟨"file://a.mkv", "", options, false⟩

theorem options_honoured_camera : streamLabel (fun s => UInt64.ofNat s.length) .null
      (.camera "width=640") ≠
    streamLabel (fun s => UInt64.ofNat s.length) .null (.camera "width=1280") := by
  have hdiffer : ReadsDiffer (fun _ => true) .null (.camera "width=640") (.camera "width=1280") :=
    ⟨"width", by decide, by decide⟩
  have hsame : SameStream (.camera "width=640") (.camera "width=1280") := ⟨rfl, rfl, rfl⟩
  exact (options_honoured_iff hsame).1.mpr
    (fun _ => ⟨by decide, fun _ _ => by decide, fun hplain => absurd hplain (by decide)⟩) hdiffer

/-- Two sizes of a recording share one label. -/
theorem options_ignored : ¬ ∀ (hash : String → UInt64) (publishFilter : String → Bool)
    (config : AliasConfig) (r r' : StreamRequest), SameStream r r' →
    ReadsDiffer publishFilter config r r' →
    streamLabel hash config r ≠ streamLabel hash config r' := by
  intro halways
  have hdiffer : ReadsDiffer (fun _ => true) .null (.recording "width=640")
      (.recording "width=1280") := ⟨"width", by decide, by decide⟩
  have hsame : SameStream (.recording "width=640") (.recording "width=1280") := ⟨rfl, rfl, rfl⟩
  have hopened := ((streamLabel_options_iff hsame).mp
    (halways (fun _ => 0) (fun _ => true) .null _ _ hsame hdiffer)).1
  exact absurd hopened (by decide)

end WebrtcStreamer
