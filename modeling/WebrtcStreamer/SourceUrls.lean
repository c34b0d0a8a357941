import WebrtcStreamer.CapturerOptions

/-! `CapturerFactory`: which URLs it opens under a publish filter, what that does to
the audio device module, and what the label of a stream shows of its URLs. -/

set_option autoImplicit false

namespace WebrtcStreamer

def afterScheme (scheme url : String) : String :=
  String.ofList (url.toList.drop scheme.length)

/-- `atoi(url.substr(strlen(scheme)).c_str())` -/
def deviceNumber (overflow : Int) (scheme url : String) : Int :=
  atoi overflow (afterScheme scheme url)

theorem startsWith_append (scheme rest : String) : startsWith scheme (scheme ++ rest) = true := by
  simp [startsWith]

theorem afterScheme_append (scheme rest : String) : afterScheme scheme (scheme ++ rest) = rest := by
  simp [afterScheme, List.drop_left' (String.length_toList (s := scheme))]

structure Opening (α : Type) where
  opened : Option α
  returned : Option α
  deriving DecidableEq, Repr

structure Build where
  live555 : Bool
  x11 : Bool
  rtmp : Bool
  v4l2 : Bool

def Build.has (build : Build) : VideoCapturer → Bool
  | .rtsp | .file | .rtp => build.live555
  | .screen | .window => build.x11
  | .rtmp => build.rtmp
  | .v4l2 => build.v4l2
  | .vcm => true

structure VideoDevices where
  /-- `Create` of the capturers other than `VcmCapturer` is not null -/
  creates : VideoCapturer → String → Options → Bool
  /-- `GetDeviceName`, with the unique id that it writes -/
  deviceName : UInt32 → Option String
  /-- `StartCapture(...) == 0` -/
  starts : String → Bool
  /-- `atoi` of a number that is no `int` -/
  overflow : String → Int

namespace VcmCapturer

variable (d : VideoDevices)

/-- `deviceId`, empty unless the URL names a device that there is. -/
def deviceId (videourl : String) : String :=
  if startsWith "videocap://" videourl then
    (d.deviceName
      (UInt32.ofInt (deviceNumber (d.overflow videourl) "videocap://" videourl))).getD ""
  else ""

/-- `Init`, without the size. -/
def init (videourl : String) : Opening VideoCapturer :=
  if deviceId d videourl = "" then ⟨none, none⟩
  else ⟨some .vcm, if d.starts (deviceId d videourl) then some .vcm else none⟩

def create (videourl : String) (opts : Options) : Opening VideoCapturer :=
  match VideoCapturer.vcm.settings opts with
  | none => ⟨none, none⟩
  | some _ => init d videourl

end VcmCapturer

/-! ### The audio device module -/

structure AudioDeviceModule where
  /-- there was an `Init` after the last `Terminate` -/
  initialized : Bool
  recordingDevice : Option Int
  deriving DecidableEq, Repr

structure AudioAnswers where
  /-- `Init() == 0` -/
  init : Bool
  /-- `RecordingDevices()` -/
  devices : Int16
  /-- `RecordingDeviceName(...) != -1` -/
  named : Bool
  /-- `SetRecordingDevice(...) == 0` -/
  set : Bool
  /-- the source is not null -/
  created : Bool
  /-- `atoi` of a number that is no `int` -/
  overflow : Int
  deriving DecidableEq, Repr

/-! A module that is not initialised answers -1 and changes nothing. -/

namespace AudioDeviceModule

variable (adm : AudioDeviceModule)

def init (ok : Bool) : AudioDeviceModule := { adm with initialized := adm.initialized || ok }

def terminate : AudioDeviceModule := { adm with initialized := false }

def recordingDevices (devices : Int16) : Int := if adm.initialized then devices.toInt else -1

def recordingDeviceName (named : Bool) : Bool := adm.initialized && named

def setRecordingDevice (index : Int) (ok : Bool) : AudioDeviceModule :=
  if adm.initialized && ok then { adm with recordingDevice := some index } else adm

end AudioDeviceModule

namespace CapturerFactory

variable (build : Build) (publishFilter : String → Bool)

def videoSource (d : VideoDevices) (videourl : String) (opts : Options) : Opening VideoCapturer :=
  match createVideoSource publishFilter videourl with
  | none => ⟨none, none⟩
  | some c =>
    if c = .vcm then VcmCapturer.create d videourl opts
    else if build.has c then ⟨some c, if d.creates c videourl opts then some c else none⟩
    else ⟨none, none⟩

/-- `idx_audioDevice`, an `int16_t`. -/
def idxAudioDevice (adm : AudioDeviceModule) (a : AudioAnswers) (audiourl : String) : Int :=
  if startsWith "audiocap://" audiourl then
    if adm.recordingDeviceName a.named then
      (Int16.ofInt (deviceNumber a.overflow "audiocap://" audiourl)).toInt
    else -1
  else -1

/-- The device passes the test in front of `SetRecordingDevice`. -/
def selects (adm : AudioDeviceModule) (a : AudioAnswers) (audiourl : String) : Bool :=
  0 ≤ idxAudioDevice adm a audiourl &&
    idxAudioDevice adm a audiourl < adm.recordingDevices a.devices

/-- The last branch of `CreateAudioSource`, on a module after `Init`. -/
def audiocapSource (adm : AudioDeviceModule) (a : AudioAnswers) (audiourl : String) :
    AudioDeviceModule × Opening AudioCapturer :=
  if selects adm a audiourl then
    (adm.setRecordingDevice (idxAudioDevice adm a audiourl) a.set,
      ⟨some .audiocap, if a.created then some .audiocap else none⟩)
  else (adm, ⟨none, none⟩)

def audioSource (adm : AudioDeviceModule) (a : AudioAnswers) (audiourl : String) :
    AudioDeviceModule × Opening AudioCapturer :=
  match createAudioSource publishFilter audiourl with
  | none => (adm, ⟨none, none⟩)
  | some c =>
    if c = .audiocap then audiocapSource (adm.init a.init) a audiourl
    else if build.live555 then (adm.terminate, ⟨some c, if a.created then some c else none⟩)
    else (adm, ⟨none, none⟩)

end CapturerFactory

/-! ### The publish filter -/

section Schemes

variable {α : Type} {schemes : List (String × α)}

def Exclusive (schemes : List (String × α)) : Prop :=
  ∀ x ∈ schemes, ∀ y ∈ schemes, x.1.toList <+: y.1.toList ∨ y.1.toList <+: x.1.toList → x.2 = y.2

theorem Exclusive.eq (h : Exclusive schemes) {x y : String × α} {url : String} (hx : x ∈ schemes)
    (hy : y ∈ schemes) (hurl : startsWith x.1 url = true) (hurl' : startsWith y.1 url = true) :
    x.2 = y.2 := by
  rw [startsWith, List.isPrefixOf_iff_prefix] at hurl hurl'
  exact h x hx y hy (List.prefix_or_prefix_of_prefix hurl hurl')

/-- The filter accepts a capturer by its entry, and the URL has one of its schemes. -/
def Accepts (schemes : List (String × α)) (entry : α → String) (publishFilter : String → Bool)
    (url : String) (c : α) : Prop :=
  publishFilter (entry c) = true ∧ ∃ scheme, (scheme, c) ∈ schemes ∧ startsWith scheme url = true

structure Opening.Sound (o : Opening α) (schemes : List (String × α)) (entry : α → String)
    (publishFilter : String → Bool) (url : String) : Prop where
  opened : ∀ c, o.opened = some c → Accepts schemes entry publishFilter url c
  returned : ∀ c, o.returned = some c → o.opened = some c

variable {entry : α → String} {publishFilter : String → Bool} {url : String} {o : Opening α}

theorem Opening.Sound.none : Opening.Sound ⟨none, none⟩ schemes entry publishFilter url :=
  ⟨nofun, nofun⟩

theorem Opening.Sound.some {c : α} {created : Bool}
    (h : Accepts schemes entry publishFilter url c) :
    Opening.Sound ⟨some c, if created then some c else .none⟩ schemes entry publishFilter url := by
  refine ⟨fun c' hc => ?_, fun c' hc => ?_⟩
  · cases hc
    exact h
  · rw [Option.ite_none_right_eq_some] at hc
    exact hc.2

/-- Under its own scheme a URL is rejected by every branch. -/
theorem Opening.Sound.rejected (h : o.Sound schemes entry publishFilter url)
    (hex : Exclusive schemes) {scheme : String} {c : α} (hmem : (scheme, c) ∈ schemes)
    (hurl : startsWith scheme url = true) (hrejected : publishFilter (entry c) = false) :
    o = ⟨.none, .none⟩ := by
  have hopened : o.opened = .none := by
    cases heq : o.opened with
    | none => rfl
    | some c' =>
      obtain ⟨haccepted, scheme', hmem', hurl'⟩ := h.opened c' heq
      have hsame : c = c' := hex.eq hmem hmem' hurl hurl'
      rw [← hsame, hrejected] at haccepted
      cases haccepted
  have hreturned : o.returned = .none := by
    cases heq : o.returned with
    | none => rfl
    | some c' =>
      rw [h.returned c' heq] at hopened
      cases hopened
  obtain ⟨opened, returned⟩ := o
  cases hopened
  cases hreturned
  rfl

end Schemes

namespace VideoCapturer

def schemes : List (String × VideoCapturer) :=
  [("rtsp://", .rtsp), ("rtsps://", .rtsp), ("file://", .file), ("rtp://", .rtp),
    ("screen://", .screen), ("window://", .window), ("rtmp://", .rtmp), ("v4l2://", .v4l2),
    ("videocap://", .vcm)]

def entry : VideoCapturer → String
  | .rtsp => "rtsp://"
  | .file => "file://"
  | .rtp => "rtp://"
  | .screen => "screen://"
  | .window => "window://"
  | .rtmp => "rtmp://"
  | .v4l2 => "v4l2://"
  | .vcm => "videocap://"

theorem schemes_exclusive : Exclusive schemes := by
  unfold Exclusive
  decide

end VideoCapturer

namespace AudioCapturer

def schemes : List (String × AudioCapturer) :=
  [("rtsp://", .rtsp), ("file://", .file), ("audiocap://", .audiocap)]

def entry : AudioCapturer → String
  | .rtsp => "rtsp://"
  | .file => "file://"
  | .audiocap => "audiocap://"

theorem schemes_exclusive : Exclusive schemes := by
  unfold Exclusive
  decide

end AudioCapturer

namespace CapturerFactory

variable {build : Build} {publishFilter : String → Bool} {d : VideoDevices} {a : AudioAnswers}
  {adm : AudioDeviceModule} {videourl audiourl : String} {opts : Options}

theorem createVideoSource_accepts {c : VideoCapturer}
    (h : createVideoSource publishFilter videourl = some c) :
    publishFilter c.entry = true ∧
      (c ≠ .vcm → ∃ scheme, (scheme, c) ∈ VideoCapturer.schemes ∧
        startsWith scheme videourl = true) := by
  simp only [createVideoSource, Bool.and_eq_true, Bool.or_eq_true] at h
  split_ifs at h with hrtsp hfile hrtp hscreen hwindow hrtmp hv4l2 hvcm
  · cases h
    rcases hrtsp.1 with hurl | hurl
    · exact ⟨hrtsp.2, fun _ => ⟨"rtsp://", by decide, hurl⟩⟩
    · exact ⟨hrtsp.2, fun _ => ⟨"rtsps://", by decide, hurl⟩⟩
  · cases h
    exact ⟨hfile.2, fun _ => ⟨"file://", by decide, hfile.1⟩⟩
  · cases h
    exact ⟨hrtp.2, fun _ => ⟨"rtp://", by decide, hrtp.1⟩⟩
  · cases h
    exact ⟨hscreen.2, fun _ => ⟨"screen://", by decide, hscreen.1⟩⟩
  · cases h
    exact ⟨hwindow.2, fun _ => ⟨"window://", by decide, hwindow.1⟩⟩
  · cases h
    exact ⟨hrtmp.2, fun _ => ⟨"rtmp://", by decide, hrtmp.1⟩⟩
  · cases h
    exact ⟨hv4l2.2, fun _ => ⟨"v4l2://", by decide, hv4l2.1⟩⟩
  · cases h
    exact ⟨hvcm, fun hne => absurd rfl hne⟩

theorem createAudioSource_accepts {c : AudioCapturer}
    (h : createAudioSource publishFilter audiourl = some c) :
    publishFilter c.entry = true ∧
      (c ≠ .audiocap → ∃ scheme, (scheme, c) ∈ AudioCapturer.schemes ∧
        startsWith scheme audiourl = true) := by
  simp only [createAudioSource, Bool.and_eq_true] at h
  split_ifs at h with hrtsp hfile hcap
  · cases h
    exact ⟨hrtsp.2, fun _ => ⟨"rtsp://", by decide, hrtsp.1⟩⟩
  · cases h
    exact ⟨hfile.2, fun _ => ⟨"file://", by decide, hfile.1⟩⟩
  · cases h
    exact ⟨hcap, fun hne => absurd rfl hne⟩

/-- `Init` tests the prefix that the dispatch has left out. -/
theorem startsWith_of_deviceId (h : VcmCapturer.deviceId d videourl ≠ "") :
    startsWith "videocap://" videourl = true := by
  unfold VcmCapturer.deviceId at h
  split at h
  · assumption
  · exact absurd rfl h

theorem startsWith_of_selects (h : selects adm a audiourl = true) :
    startsWith "audiocap://" audiourl = true := by
  unfold selects idxAudioDevice at h
  split at h
  · assumption
  · simp at h

theorem VcmCapturer.create_sound (h : publishFilter "videocap://" = true) :
    (VcmCapturer.create d videourl opts).Sound VideoCapturer.schemes VideoCapturer.entry
      publishFilter videourl := by
  unfold VcmCapturer.create
  split
  · exact .none
  · unfold VcmCapturer.init
    split
    · exact .none
    · rename_i hdevice
      exact .some ⟨h, "videocap://", by decide, startsWith_of_deviceId hdevice⟩

theorem videoSource_sound (build : Build) (publishFilter : String → Bool) (d : VideoDevices)
    (videourl : String) (opts : Options) :
    (videoSource build publishFilter d videourl opts).Sound VideoCapturer.schemes
      VideoCapturer.entry publishFilter videourl := by
  unfold videoSource
  cases hbranch : createVideoSource publishFilter videourl with
  | none => exact .none
  | some c =>
    obtain ⟨hfilter, hurl⟩ := createVideoSource_accepts hbranch
    dsimp only
    split
    · rename_i hvcm
      subst hvcm
      exact VcmCapturer.create_sound hfilter
    · rename_i hother
      split
      · exact .some ⟨hfilter, hurl hother⟩
      · exact .none

theorem audioSource_sound (build : Build) (publishFilter : String → Bool)
    (adm : AudioDeviceModule) (a : AudioAnswers) (audiourl : String) :
    (audioSource build publishFilter adm a audiourl).2.Sound AudioCapturer.schemes
      AudioCapturer.entry publishFilter audiourl := by
  unfold audioSource
  cases hbranch : createAudioSource publishFilter audiourl with
  | none => exact .none
  | some c =>
    obtain ⟨hfilter, hurl⟩ := createAudioSource_accepts hbranch
    dsimp only
    split
    · rename_i hcap
      subst hcap
      unfold audiocapSource
      split
      · rename_i hselects
        exact .some ⟨hfilter, "audiocap://", by decide, startsWith_of_selects hselects⟩
      · exact .none
    · rename_i hother
      split
      · exact .some ⟨hfilter, hurl hother⟩
      · exact .none

/-- A source is returned only for a URL with a scheme that the filter accepts, and
a URL that is rejected under its own scheme is not opened by any branch. -/
theorem publish_filter_sound (build : Build) (publishFilter : String → Bool) (d : VideoDevices)
    (videourl : String) (opts : Options) (adm : AudioDeviceModule) (a : AudioAnswers)
    (audiourl : String) :
    (∀ c, (videoSource build publishFilter d videourl opts).returned = some c →
      Accepts VideoCapturer.schemes VideoCapturer.entry publishFilter videourl c) ∧
    (∀ scheme c, (scheme, c) ∈ VideoCapturer.schemes → startsWith scheme videourl = true →
      publishFilter c.entry = false →
      videoSource build publishFilter d videourl opts = ⟨none, none⟩) ∧
    (∀ c, (audioSource build publishFilter adm a audiourl).2.returned = some c →
      Accepts AudioCapturer.schemes AudioCapturer.entry publishFilter audiourl c) ∧
    (∀ scheme c, (scheme, c) ∈ AudioCapturer.schemes → startsWith scheme audiourl = true →
      publishFilter c.entry = false →
      (audioSource build publishFilter adm a audiourl).2 = ⟨none, none⟩) := by
  have hvideo := videoSource_sound build publishFilter d videourl opts
  have haudio := audioSource_sound build publishFilter adm a audiourl
  refine ⟨fun c hc => hvideo.opened c (hvideo.returned c hc), fun scheme c hmem hurl hfilter => ?_,
    fun c hc => haudio.opened c (haudio.returned c hc), fun scheme c hmem hurl hfilter => ?_⟩
  · exact hvideo.rejected VideoCapturer.schemes_exclusive hmem hurl hfilter
  · exact haudio.rejected AudioCapturer.schemes_exclusive hmem hurl hfilter

end CapturerFactory

/-! ### Concealed URLs -/

section Concealed

variable (hash : String → UInt64) (config : AliasConfig) (r : StreamRequest)

def Concealed : Prop :=
  streamLabel hash config r = toString (hash (labelText config r)).toNat ∧
    ∀ c ∈ (streamLabel hash config r).toList, c.isDigit = true

/-- The video comes from an `rtsps://` URL, and `rtsp:` is in none of the texts that
the label is made of. -/
structure SecureOnly : Prop where
  secure : startsWith "rtsps://" r.videourl = true
  video : contains "rtsp:" r.videourl = false
  audio : contains "rtsp:" r.audiourl = false
  options : contains "rtsp:" (optcapturer config r) = false

variable {hash config r} {publishFilter : String → Bool}

theorem concealed_iff (hash : String → UInt64) (config : AliasConfig) (r : StreamRequest) :
    Concealed hash config r ↔ contains "rtsp:" (labelText config r) = true := by
  unfold Concealed streamLabel sanitizeLabel
  cases hrtsp : contains "rtsp:" (labelText config r) with
  | true =>
    exact iff_of_true ⟨rfl, fun _ hc => isDigit_toString hc⟩ rfl
  | false =>
    refine iff_of_false (fun h => ?_) Bool.false_ne_true
    have hdigit := h.2 '|' (bar_mem_eraseIgnored config r)
    exact absurd hdigit (by decide)

theorem contains_of_startsWith {part text : String} (h : startsWith part text = true) :
    contains part text = true := by
  rw [startsWith, List.isPrefixOf_iff_prefix] at h
  rw [contains, decide_eq_true_eq]
  exact h.isInfix

theorem contains_of_rtsp {url : String} (h : startsWith "rtsp://" url = true) :
    contains "rtsp:" url = true := by
  have hurl := contains_of_startsWith h
  rw [contains, decide_eq_true_eq] at hurl ⊢
  have hpart : "rtsp:".toList <:+: "rtsp://".toList := by decide
  exact hpart.trans hurl

/-- A stream with an RTSP source is concealed unless its video URL is an `rtsps://`
URL without `rtsp:`, and nothing else has brought `rtsp:` into the label. Then the
label begins with this URL. -/
theorem label_conceals_iff (hash : String → UInt64) (config : AliasConfig) {r : StreamRequest}
    (hopened : CapturerFactory.createVideoSource publishFilter r.videourl = some .rtsp ∨
      CapturerFactory.createAudioSource publishFilter r.audiourl = some .rtsp) :
    (Concealed hash config r ↔ ¬ SecureOnly config r) ∧
    (SecureOnly config r → ∃ rest,
      streamLabel hash config r = eraseIgnored r.videourl ++ "|" ++ rest) := by
  constructor
  · rw [concealed_iff, contains_labelText]
    constructor
    · intro hcontains hsecure
      simp [hsecure.video, hsecure.audio, hsecure.options] at hcontains
    · intro hnot
      by_contra hnone
      simp only [Bool.or_eq_true, not_or, Bool.not_eq_true] at hnone
      obtain ⟨⟨hvideo, haudio⟩, hoptions⟩ := hnone
      rcases hopened with hopened | hopened
      · obtain ⟨scheme, hmem, hurl⟩ :=
          (CapturerFactory.createVideoSource_accepts hopened).2 (by decide)
        have hscheme : scheme = "rtsp://" ∨ scheme = "rtsps://" := by
          simpa [VideoCapturer.schemes] using hmem
        rcases hscheme with rfl | rfl
        · rw [contains_of_rtsp hurl] at hvideo
          cases hvideo
        · exact hnot ⟨hurl, hvideo, haudio, hoptions⟩
      · obtain ⟨scheme, hmem, hurl⟩ :=
          (CapturerFactory.createAudioSource_accepts hopened).2 (by decide)
        have hscheme : scheme = "rtsp://" := by simpa [AudioCapturer.schemes] using hmem
        rw [hscheme] at hurl
        rw [contains_of_rtsp hurl] at haudio
        cases haudio
  · intro hsecure
    have hplain : contains "rtsp:" (labelText config r) = false := by
      simp [contains_labelText, hsecure.video, hsecure.audio, hsecure.options]
    have hbar : eraseIgnored "|" = "|" := by decide
    refine ⟨eraseIgnored (r.audiourl ++ "|" ++ optcapturer config r ++ "|" ++
      codecName r.useNullCodec), ?_⟩
    rw [streamLabel, sanitizeLabel, hplain, if_neg Bool.false_ne_true]
    simp only [labelText, eraseIgnored_append, hbar, String.append_assoc]

end Concealed

def StreamRequest.login (scheme : String) : StreamRequest :=
  ⟨scheme ++ "user:pw@cam", "", "", false⟩

theorem label_conceals_camera :
    Concealed (fun s => UInt64.ofNat s.length) .null (.login "rtsp://") := by
  have hopened : CapturerFactory.createVideoSource (fun _ => true)
      (StreamRequest.login "rtsp://").videourl = some .rtsp := by decide
  exact (label_conceals_iff _ .null (.inl hopened)).1.mpr
    fun hsecure => absurd hsecure.secure (by decide)

/-- The same camera over TLS: its label is `rtspsuserpw@cam|||builtin`. -/
theorem label_reveals : ¬ ∀ (hash : String → UInt64) (publishFilter : String → Bool)
    (config : AliasConfig) (r : StreamRequest),
    CapturerFactory.createVideoSource publishFilter r.videourl = some .rtsp ∨
      CapturerFactory.createAudioSource publishFilter r.audiourl = some .rtsp →
    ∃ n : Nat, streamLabel hash config r = toString n := by
  intro halways
  obtain ⟨n, hn⟩ :=
    halways (fun _ => 0) (fun _ => true) .null (.login "rtsps://") (.inl (by decide))
  have hlabel : 'u' ∈ (toString n).toList := by
    rw [← hn]
    decide
  exact absurd (isDigit_toString hlabel) (by decide)

end WebrtcStreamer
