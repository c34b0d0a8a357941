import WebrtcStreamer.V4l2AlsaMap

/-! The devices that the server lists, and what their URLs open. -/

set_option autoImplicit false

namespace WebrtcStreamer

open V4l2AlsaMap (videocap)

structure DesktopSource where
  id : Int
  title : String
  deriving DecidableEq, Repr

structure MediaDevices extends VideoDevices where
  -- `NumberOfDevices()`, as an `int`
  numberOfDevices : Int32
  -- the names in `/dev`
  dev : List String
  -- `V4l2Capture::create` for H264 is not null
  capturesH264 : String → Bool
  -- `GetSourceList`; empty without a capturer or a list
  windows : List DesktopSource
  screens : List DesktopSource

inductive MediaSource where
  | camera (deviceId : String)
  | node (device : String)
  | window (id : Int)
  | screen (id : Int)
  deriving DecidableEq, Repr

def V4l2Capturer.device (videourl : String) : String :=
  if startsWith "v4l2://" videourl then afterScheme "v4l2://" videourl else "/dev/video0"

def WindowCapturer.selected (sourceList : List DesktopSource) (url : String) : Option Int :=
  if startsWith "window://" url then
    (sourceList.find? fun source => afterScheme "window://" url = source.title).map DesktopSource.id
  else none

/-- Without a number the capturer is left with all screens. -/
def ScreenCapturer.selected (overflow : Int) (sourceList : List DesktopSource) (url : String) :
    Option Int :=
  if afterScheme "screen://" url = "" then none
  else
    (sourceList.find? fun source => deviceNumber overflow "screen://" url = source.id).map
      DesktopSource.id

/-- `Create` is not null; that of a camera starts it. -/
def VideoDevices.succeeds (d : VideoDevices) (c : VideoCapturer) (videourl : String)
    (opts : Options) : Bool :=
  if c = .vcm then d.starts (VcmCapturer.deviceId d videourl) else d.creates c videourl opts

namespace CapturerFactory

variable (build : Build) (publishFilter : String → Bool) (d : MediaDevices) (useNullCodec : Bool)

def videoCaptureDevices : List (String × MediaSource) :=
  (if publishFilter "videocap://" && !useNullCodec then
    (List.range d.numberOfDevices.toInt.toNat).filterMap fun i =>
      (d.deviceName (UInt32.ofNat i)).map fun id => (videocap i, .camera id)
  else []) ++
  if publishFilter "v4l2://" && useNullCodec && build.v4l2 then
    ((d.dev.filter fun name => startsWith "video" name).map ("/dev/" ++ ·)).filterMap fun device =>
      if d.capturesH264 device then some ("v4l2://" ++ device, .node device) else none
  else []

def getVideoCaptureDeviceList : List String :=
  (videoCaptureDevices build publishFilter d useNullCodec).map Prod.fst

def videoSources : List (String × MediaSource) :=
  (if build.x11 && publishFilter "window://" && !useNullCodec then
    d.windows.map fun source => ("window://" ++ source.title, .window source.id)
  else []) ++
  if build.x11 && publishFilter "screen://" && !useNullCodec then
    d.screens.map fun source => ("screen://" ++ toString source.id, .screen source.id)
  else []

def getVideoSourceList : List String :=
  (videoSources build publishFilter d useNullCodec).map Prod.fst

def listedSources : List (String × MediaSource) :=
  videoCaptureDevices build publishFilter d useNullCodec ++
    videoSources build publishFilter d useNullCodec

/-- `named`: `RecordingDeviceName` of this device is not -1. -/
def getAudioCaptureDeviceList (adm : AudioDeviceModule) (devices : Int16) (named : Nat → Bool) :
    List String :=
  if publishFilter "audiocap://" then
    ((List.range (adm.recordingDevices devices).toNat).filter fun i =>
      adm.recordingDeviceName (named i)).map fun i => "audiocap://" ++ toString i
  else []

def captured (videourl : String) : Option MediaSource :=
  match createVideoSource publishFilter videourl with
  | some .vcm =>
    if VcmCapturer.deviceId d.toVideoDevices videourl = "" then none
    else some (.camera (VcmCapturer.deviceId d.toVideoDevices videourl))
  | some .v4l2 => if build.v4l2 then some (.node (V4l2Capturer.device videourl)) else none
  | some .window =>
    if build.x11 then (WindowCapturer.selected d.windows videourl).map .window else none
  | some .screen =>
    if build.x11 then
      (ScreenCapturer.selected (d.overflow videourl) d.screens videourl).map .screen
    else none
  | _ => none

end CapturerFactory

/-! ### URLs of one scheme -/

section Schemes

variable {publishFilter : String → Bool} (rest : String)

theorem deviceNumber_append (scheme : String) {n : Int} (h : stoi rest = some n) (overflow : Int) :
    deviceNumber overflow scheme (scheme ++ rest) = n := by
  rw [deviceNumber, afterScheme_append, atoi_of_stoi h]

theorem createVideoSource_videocap (h : publishFilter "videocap://" = true) :
    CapturerFactory.createVideoSource publishFilter ("videocap://" ++ rest) = some .vcm := by
  simp [CapturerFactory.createVideoSource, startsWith, h]

theorem createVideoSource_v4l2 (h : publishFilter "v4l2://" = true) :
    CapturerFactory.createVideoSource publishFilter ("v4l2://" ++ rest) = some .v4l2 := by
  simp [CapturerFactory.createVideoSource, startsWith, h]

theorem createVideoSource_window (h : publishFilter "window://" = true) :
    CapturerFactory.createVideoSource publishFilter ("window://" ++ rest) = some .window := by
  simp [CapturerFactory.createVideoSource, startsWith, h]

theorem createVideoSource_screen (h : publishFilter "screen://" = true) :
    CapturerFactory.createVideoSource publishFilter ("screen://" ++ rest) = some .screen := by
  simp [CapturerFactory.createVideoSource, startsWith, h]

theorem createAudioSource_audiocap (h : publishFilter "audiocap://" = true) :
    CapturerFactory.createAudioSource publishFilter ("audiocap://" ++ rest) = some .audiocap := by
  simp [CapturerFactory.createAudioSource, startsWith, h]

end Schemes

/-! ### What the listed URLs open -/

/-- What WebRTC and X11 say of the devices: the ids of cameras are not empty, and
screens are numbered by an `int`. -/
structure MediaDevices.Named (d : MediaDevices) : Prop where
  cameras : ∀ i, d.deviceName i ≠ some ""
  screens : ∀ source ∈ d.screens, -2 ^ 31 ≤ source.id ∧ source.id < 2 ^ 31

namespace CapturerFactory

variable {build : Build} {publishFilter : String → Bool} {d : MediaDevices} {useNullCodec : Bool}
  {x : String × MediaSource}

theorem deviceId_videocap {i : Nat} {id : String} (hi : i < d.numberOfDevices.toInt.toNat)
    (hname : d.deviceName (UInt32.ofNat i) = some id) :
    VcmCapturer.deviceId d.toVideoDevices (videocap i) = id := by
  have hint := d.numberOfDevices.toInt_lt
  have hnumber (overflow : Int) : deviceNumber overflow "videocap://" (videocap i) = (i : Int) :=
    deviceNumber_append _ _ (stoi_toString (by omega)) overflow
  have hscheme : startsWith "videocap://" (videocap i) = true := startsWith_append _ _
  have hcast : UInt32.ofInt (i : Int) = UInt32.ofNat i := by
    rw [UInt32.ofInt, Int.emod_eq_of_lt (by omega) (by omega), Int.toNat_natCast]
  rw [VcmCapturer.deviceId, if_pos hscheme, hnumber, hcast, hname]
  rfl

theorem captured_videocap {i : Nat} {id : String} (hfilter : publishFilter "videocap://" = true)
    (hi : i < d.numberOfDevices.toInt.toNat) (hname : d.deviceName (UInt32.ofNat i) = some id)
    (hid : id ≠ "") : captured build publishFilter d (videocap i) = some (.camera id) := by
  have hbranch := createVideoSource_videocap (toString i) hfilter
  rw [captured, show videocap i = "videocap://" ++ toString i from rfl, hbranch]
  dsimp only
  rw [← videocap, deviceId_videocap hi hname, if_neg hid]

theorem mem_videoCaptureDevices (h : x ∈ videoCaptureDevices build publishFilter d useNullCodec) :
    (publishFilter "videocap://" = true ∧ ∃ i id, i < d.numberOfDevices.toInt.toNat ∧
      d.deviceName (UInt32.ofNat i) = some id ∧ x = (videocap i, .camera id)) ∨
    (publishFilter "v4l2://" = true ∧ build.v4l2 = true ∧
      ∃ device, x = ("v4l2://" ++ device, .node device)) := by
  rcases List.mem_append.mp h with h | h
  · split at h
    · rename_i hcond
      rw [Bool.and_eq_true] at hcond
      obtain ⟨i, hi, hx⟩ := List.mem_filterMap.mp h
      obtain ⟨id, hname, rfl⟩ := Option.map_eq_some_iff.mp hx
      exact .inl ⟨hcond.1, i, id, List.mem_range.mp hi, hname, rfl⟩
    · cases h
  · split at h
    · rename_i hcond
      rw [Bool.and_eq_true, Bool.and_eq_true] at hcond
      obtain ⟨device, _, hx⟩ := List.mem_filterMap.mp h
      rw [Option.ite_none_right_eq_some, Option.some.injEq] at hx
      exact .inr ⟨hcond.1.1, hcond.2, device, hx.2.symm⟩
    · cases h

theorem mem_videoSources (h : x ∈ videoSources build publishFilter d useNullCodec) :
    build.x11 = true ∧
      ((publishFilter "window://" = true ∧ ∃ source ∈ d.windows,
        x = ("window://" ++ source.title, .window source.id)) ∨
      (publishFilter "screen://" = true ∧ ∃ source ∈ d.screens,
        x = ("screen://" ++ toString source.id, .screen source.id))) := by
  rcases List.mem_append.mp h with h | h
  all_goals
    split at h
    · rename_i hcond
      rw [Bool.and_eq_true, Bool.and_eq_true] at hcond
      obtain ⟨source, hmem, rfl⟩ := List.mem_map.mp h
      first
        | exact ⟨hcond.1.1, .inl ⟨hcond.1.2, source, hmem, rfl⟩⟩
        | exact ⟨hcond.1.1, .inr ⟨hcond.1.2, source, hmem, rfl⟩⟩
    · cases h

theorem selected_window {windows : List DesktopSource} {title : String} {m : MediaSource}
    (h : (windows.map fun source =>
      ("window://" ++ source.title, MediaSource.window source.id)).lookup ("window://" ++ title) =
        some m) :
    (WindowCapturer.selected windows ("window://" ++ title)).map .window = some m := by
  rw [WindowCapturer.selected, if_pos (startsWith_append _ _), afterScheme_append]
  -- both go through the windows up to the first one with this title
  induction windows with
  | nil => cases h
  | cons source rest ih =>
    rw [List.map_cons, List.lookup_cons] at h
    rw [List.find?_cons]
    by_cases htitle : title = source.title
    · simpa [htitle] using h
    · simp only [htitle, decide_false]
      exact ih (by simpa [htitle, beq_eq_false_iff_ne.mpr] using h)

theorem selected_screen {screens : List DesktopSource} {source : DesktopSource}
    (hmem : source ∈ screens) (hlow : -2 ^ 31 ≤ source.id) (hhigh : source.id < 2 ^ 31)
    (overflow : Int) :
    ScreenCapturer.selected overflow screens ("screen://" ++ toString source.id) =
      some source.id := by
  have hread := stoi_toString_int hlow hhigh
  have hsome : toString source.id ≠ "" := by
    intro hempty
    have hnone : stoi "" = none := by decide
    rw [hempty, hnone] at hread
    cases hread
  obtain ⟨found, hfound⟩ : ∃ found,
      screens.find? (fun s => decide (source.id = s.id)) = some found := by
    rw [← Option.isSome_iff_exists, List.find?_isSome]
    exact ⟨source, hmem, decide_eq_true rfl⟩
  have hid := List.find?_some hfound
  rw [decide_eq_true_eq] at hid
  rw [ScreenCapturer.selected, afterScheme_append, if_neg hsome,
    deviceNumber_append _ _ hread, hfound, hid]
  rfl

theorem lookup_other_scheme {l : List (String × MediaSource)} {url : String}
    (h : ∀ x ∈ l, x.1 ≠ url) : l.lookup url = none := by
  rw [List.lookup_eq_none_iff]
  intro x hx
  rw [bne_iff_ne]
  exact (h x hx).symm

/-- Only the windows are listed under a URL with the scheme of the windows. -/
theorem lookup_window {title : String} {m : MediaSource}
    (h : (listedSources build publishFilter d useNullCodec).lookup ("window://" ++ title) =
      some m) :
    (d.windows.map fun source => ("window://" ++ source.title, MediaSource.window source.id)).lookup
      ("window://" ++ title) = some m := by
  have hscheme (scheme rest : String) (hne : scheme.toList.head? = some 'v' ∨
      scheme.toList.head? = some 's') : scheme ++ rest ≠ "window://" ++ title := by
    intro heq
    have hchars := congrArg (fun s => s.toList.head?) heq
    rcases hne with hne | hne <;> simp [List.head?_append, hne] at hchars
  have hcapture : (videoCaptureDevices build publishFilter d useNullCodec).lookup
      ("window://" ++ title) = none := by
    refine lookup_other_scheme fun x hx => ?_
    obtain ⟨-, i, id, -, -, rfl⟩ | ⟨-, -, device, rfl⟩ := mem_videoCaptureDevices hx
    · exact hscheme _ _ (.inl (by decide))
    · exact hscheme _ _ (.inl (by decide))
  have hscreens : (d.screens.map fun source =>
      ("screen://" ++ toString source.id, MediaSource.screen source.id)).lookup
      ("window://" ++ title) = none := by
    refine lookup_other_scheme fun x hx => ?_
    obtain ⟨source, -, rfl⟩ := List.mem_map.mp hx
    exact hscheme _ _ (.inr (by decide))
  rw [listedSources, List.lookup_append, hcapture, Option.none_or, videoSources,
    List.lookup_append] at h
  split at h
  · split at h
    · rwa [hscreens, Option.or_none] at h
    · rwa [List.lookup_nil, Option.or_none] at h
  · rw [List.lookup_nil, Option.none_or] at h
    split at h
    · rw [hscreens] at h
      cases h
    · cases h

theorem lookup_of_listed {url : String}
    (h : url ∈ getVideoCaptureDeviceList build publishFilter d useNullCodec ∨
      url ∈ getVideoSourceList build publishFilter d useNullCodec) :
    ∃ m, (listedSources build publishFilter d useNullCodec).lookup url = some m := by
  rw [← Option.isSome_iff_exists, List.lookup_isSome_iff]
  rcases h with h | h
  all_goals
    obtain ⟨x, hx, rfl⟩ := List.mem_map.mp h
    refine ⟨x, ?_, beq_self_eq_true x.1⟩
  · exact List.mem_append_left _ hx
  · exact List.mem_append_right _ hx

/-- A listed URL captures the first device that is listed under it; only windows may
share a URL. -/
theorem captured_of_lookup (hd : d.Named) {url : String} {m : MediaSource}
    (h : (listedSources build publishFilter d useNullCodec).lookup url = some m) :
    captured build publishFilter d url = some m := by
  have hmem : (url, m) ∈ listedSources build publishFilter d useNullCodec := by
    obtain ⟨before, after, heq, -⟩ := List.lookup_eq_some_iff.mp h
    simp [heq]
  rcases List.mem_append.mp hmem with hmem | hmem
  · obtain ⟨hfilter, i, id, hi, hname, heq⟩ | ⟨hfilter, hbuild, device, heq⟩ :=
      mem_videoCaptureDevices hmem
    · cases heq
      exact captured_videocap hfilter hi hname fun hempty => hd.cameras _ (hempty ▸ hname)
    · cases heq
      rw [captured, createVideoSource_v4l2 _ hfilter]
      dsimp only
      rw [if_pos hbuild, V4l2Capturer.device, if_pos (startsWith_append _ _), afterScheme_append]
  · obtain ⟨hbuild, ⟨hfilter, source, hsource, heq⟩ | ⟨hfilter, source, hsource, heq⟩⟩ :=
      mem_videoSources hmem
    · cases heq
      rw [captured, createVideoSource_window _ hfilter]
      dsimp only
      rw [if_pos hbuild]
      exact selected_window (lookup_window h)
    · cases heq
      obtain ⟨hlow, hhigh⟩ := hd.screens source hsource
      rw [captured, createVideoSource_screen _ hfilter]
      dsimp only
      rw [if_pos hbuild, selected_screen hsource hlow hhigh]
      rfl

/-- What captures something is returned by `CreateVideoSource` if its `Create`
succeeds, unless a number among the options is none. -/
theorem returned_of_captured {videourl : String} {m : MediaSource}
    (h : captured build publishFilter d videourl = some m) :
    ∃ c, createVideoSource publishFilter videourl = some c ∧ ∀ opts, c.settings opts ≠ none →
      (videoSource build publishFilter d.toVideoDevices videourl opts).returned =
        if d.succeeds c videourl opts then some c else none := by
  unfold captured at h
  split at h
  · rename_i hbranch
    refine ⟨_, hbranch, fun opts hsettings => ?_⟩
    split at h
    · cases h
    · rename_i hdevice
      obtain ⟨settings, hsome⟩ := Option.ne_none_iff_exists'.mp hsettings
      simp [videoSource, hbranch, VcmCapturer.create, hsome, VcmCapturer.init, hdevice,
        VideoDevices.succeeds]
  all_goals first | cases h | skip
  all_goals
    rename_i hbranch
    refine ⟨_, hbranch, fun opts _ => ?_⟩
    split at h
    · rename_i hbuild
      simp [videoSource, hbranch, Build.has, hbuild, VideoDevices.succeeds]
    · cases h

theorem audioSource_of_listed {adm : AudioDeviceModule} {devices : Int16} {named : Nat → Bool}
    {url : String} (h : url ∈ getAudioCaptureDeviceList publishFilter adm devices named) :
    ∃ i : Nat, url = "audiocap://" ++ toString i ∧
      ∀ a : AudioAnswers, a.devices = devices → a.named = named i → a.set = true →
        (audioSource build publishFilter adm a url).1.recordingDevice = some (i : Int) ∧
        (audioSource build publishFilter adm a url).2.returned =
          if a.created then some .audiocap else none := by
  unfold getAudioCaptureDeviceList at h
  split at h
  · rename_i hfilter
    obtain ⟨i, hmem, rfl⟩ := List.mem_map.mp h
    obtain ⟨hrange, hname⟩ := List.mem_filter.mp hmem
    have hi := List.mem_range.mp hrange
    obtain ⟨hinit, hnamed⟩ : adm.initialized = true ∧ named i = true := by
      simpa [AudioDeviceModule.recordingDeviceName] using hname
    rw [AudioDeviceModule.recordingDevices, hinit, if_pos rfl] at hi
    refine ⟨i, rfl, fun a hdevices ha hset => ?_⟩
    have hint := devices.toInt_lt
    have hbranch := createAudioSource_audiocap (toString i) hfilter
    have hinit' : (adm.init a.init).initialized = true := by
      simp [AudioDeviceModule.init, hinit]
    have hnumber : deviceNumber a.overflow "audiocap://" ("audiocap://" ++ toString i) =
        (i : Int) := deviceNumber_append _ _ (stoi_toString (by omega)) _
    have hcast : (Int16.ofInt (i : Int)).toInt = (i : Int) :=
      Int16.toInt_ofInt_of_le (by omega) (by omega)
    have hidx : idxAudioDevice (adm.init a.init) a ("audiocap://" ++ toString i) = (i : Int) := by
      rw [idxAudioDevice, if_pos (startsWith_append _ _), hnumber, hcast, if_pos]
      simp [AudioDeviceModule.recordingDeviceName, hinit', ha, hnamed]
    have hselects : selects (adm.init a.init) a ("audiocap://" ++ toString i) = true := by
      rw [selects, hidx, AudioDeviceModule.recordingDevices, hinit', if_pos rfl, hdevices]
      simp only [Bool.and_eq_true, decide_eq_true_eq]
      omega
    simp only [audioSource, hbranch, if_true, audiocapSource, hselects, hidx,
      AudioDeviceModule.setRecordingDevice, hinit', hset, Bool.and_self, and_self]
  · cases h

/-- The lists keep their word: a listed video URL captures the first device that it was
listed for, and with options whose numbers can be read a source is returned exactly when
the capturer succeeds; a listed audio URL records from its own device. -/
theorem listed_devices_open (build : Build) (publishFilter : String → Bool) (d : MediaDevices)
    (useNullCodec : Bool) (hd : d.Named) :
    (∀ url, url ∈ getVideoCaptureDeviceList build publishFilter d useNullCodec ∨
        url ∈ getVideoSourceList build publishFilter d useNullCodec →
      ∃ m, (listedSources build publishFilter d useNullCodec).lookup url = some m ∧
        captured build publishFilter d url = some m ∧
        ∃ c, createVideoSource publishFilter url = some c ∧ ∀ opts, c.settings opts ≠ none →
          (videoSource build publishFilter d.toVideoDevices url opts).returned =
            if d.succeeds c url opts then some c else none) ∧
    ∀ adm devices named, ∀ url ∈ getAudioCaptureDeviceList publishFilter adm devices named,
      ∃ i : Nat, url = "audiocap://" ++ toString i ∧
        ∀ a : AudioAnswers, a.devices = devices → a.named = named i → a.set = true →
          (audioSource build publishFilter adm a url).1.recordingDevice = some (i : Int) ∧
          (audioSource build publishFilter adm a url).2.returned =
            if a.created then some .audiocap else none := by
  refine ⟨fun url hurl => ?_, fun adm devices named url hurl => audioSource_of_listed hurl⟩
  obtain ⟨m, hlookup⟩ := lookup_of_listed hurl
  have hcaptured := captured_of_lookup hd hlookup
  exact ⟨m, hlookup, hcaptured, returned_of_captured hcaptured⟩

end CapturerFactory

/-- A desk with one camera, three windows, of which two have one title, and two screens. -/
def MediaDevices.desk : MediaDevices where
  creates _ _ _ := true
  deviceName i := if i = 0 then some "usb-cam" else none
  starts _ := true
  overflow _ := 0
  numberOfDevices := 2
  dev := ["video0", "snd"]
  capturesH264 device := device = "/dev/video0"
  windows := [⟨7, "editor"⟩, ⟨9, "shell"⟩, ⟨11, "shell"⟩]
  screens := [⟨-1, ""⟩, ⟨4, ""⟩]

theorem MediaDevices.desk_named : desk.Named where
  cameras i h := by
    dsimp only [desk] at h
    split at h <;> simp_all
  screens := by decide

/-- The first of the two shells is captured, and a size in its options may be given. -/
theorem CapturerFactory.listed_devices_open_desk :
    captured ⟨true, true, true, true⟩ (fun _ => true) .desk "window://shell" = some (.window 9) ∧
    ∃ c, createVideoSource (fun _ => true) "window://shell" = some c ∧
      ∀ opts, c.settings opts ≠ none →
        (videoSource ⟨true, true, true, true⟩ (fun _ => true) MediaDevices.desk.toVideoDevices
          "window://shell" opts).returned =
          if MediaDevices.desk.succeeds c "window://shell" opts then some c else none := by
  obtain ⟨m, hlookup, hcaptured, hreturned⟩ := (listed_devices_open ⟨true, true, true, true⟩
    (fun _ => true) .desk false MediaDevices.desk_named).1 "window://shell" (.inr (by decide))
  have hfirst : (listedSources ⟨true, true, true, true⟩ (fun _ => true) .desk false).lookup
      "window://shell" = some (.window 9) := by decide
  exact ⟨hcaptured.trans (hlookup.symm.trans hfirst), hreturned⟩

end WebrtcStreamer
