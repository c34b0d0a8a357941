import WebrtcStreamer.CapturerOptions
import WebrtcStreamer.Machine

/-! The options of a request that `AddStreams` and the capturers read as numbers. -/

set_option autoImplicit false

namespace WebrtcStreamer

/-! ### The bitrate -/

structure BitrateSettings where
  minBitrateBps : Int
  startBitrateBps : Int
  maxBitrateBps : Int
  deriving DecidableEq, Repr

/-- The settings for the option `bitrate`, if it is there; `none` for an exception
of `std::stoi`. -/
def bitrateParam (opts : Options) : Option (Option BitrateSettings) :=
  match opts["bitrate"]? with
  | none => some none
  | some text =>
    match stoi text with
    | none => none
    | some bitrate => some (some ⟨bitrate.tdiv 2, bitrate, wrapInt (bitrate * 2)⟩)

theorem setUpStreams_throws_iff {cfg : Config} {r : Request} {o : ObsId} {sh : Shared} :
    setUpStreams cfg r o sh = .error .uncaughtException ↔
      (readConfig cfg.aliases r.toStreamRequest).toOption = none ∨
        bitrateParam (streamOptions cfg.aliases r.toStreamRequest) = none := by
  unfold setUpStreams
  cases readConfig cfg.aliases r.toStreamRequest with
  | error a => simp [Except.toOption]
  | ok texts =>
    unfold setBitrate bitrateParam
    generalize (streamOptions cfg.aliases r.toStreamRequest)["bitrate"]? = bitrate
    cases bitrate with
    | none => simp [Except.toOption]
    | some text =>
      cases hbitrate : stoi text with
      | none => simp [hbitrate]
      | some n =>
        simp only [hbitrate]
        split <;> simp [Except.toOption]

/-- The values are in order, and the doubled one has not wrapped around. -/
structure BitrateSettings.Sane (b : BitrateSettings) : Prop where
  min_pos : 0 < b.minBitrateBps
  min_le : b.minBitrateBps ≤ b.startBitrateBps
  le_max : b.startBitrateBps ≤ b.maxBitrateBps
  exact : b.maxBitrateBps = b.startBitrateBps * 2

theorem sane_iff {bitrate : Int} (h : -2 ^ 31 ≤ bitrate ∧ bitrate < 2 ^ 31) :
    BitrateSettings.Sane ⟨bitrate.tdiv 2, bitrate, wrapInt (bitrate * 2)⟩ ↔
      2 ≤ bitrate ∧ bitrate < 2 ^ 30 := by
  obtain ⟨hmin, hmax⟩ := h
  constructor
  · rintro ⟨hpos, hle, hle', hexact⟩
    dsimp only at hpos hle hle' hexact
    have hnonneg : 0 ≤ bitrate := by omega
    rw [Int.tdiv_eq_ediv_of_nonneg hnonneg] at hpos
    have hlt := Int.bmod_lt (x := bitrate * 2) (m := 2 ^ 32) (by decide)
    rw [wrapInt] at hexact
    omega
  · rintro ⟨htwo, hshort⟩
    have hdouble : wrapInt (bitrate * 2) = bitrate * 2 := wrapInt_of_lt (by omega) (by omega)
    have hhalf : bitrate.tdiv 2 = bitrate / 2 := Int.tdiv_eq_ediv_of_nonneg (by omega)
    rw [hdouble, hhalf]
    exact ⟨by dsimp only; omega, by dsimp only; omega, by dsimp only; omega, rfl⟩

/-! ### The capturers -/

def Readable (opts : Options) (key : String) : Prop :=
  ∀ text, opts[key]? = some text → (stoi text).isSome = true

section Readable

variable {opts : Options} {key : String}

theorem intOption_isSome : (intOption opts key).isSome = true ↔ Readable opts key := by
  unfold intOption Readable
  cases opts[key]? with
  | none => simp
  | some text => simp

theorem sizeOption_isSome {initial : UInt64} :
    (sizeOption opts key initial).isSome = true ↔ Readable opts key := by
  unfold sizeOption Readable
  cases opts[key]? with
  | none => simp
  | some text => simp

def VideoCapturer.numbers : VideoCapturer → List String
  | .rtsp | .file | .rtp | .rtmp => scalerKeys
  | .screen | .window => ["width", "height"]
  | .v4l2 | .vcm => ["width", "height", "fps"]

theorem isSome_bind_iff {α β : Type} {x : Option α} {f : α → Option β} {P : Prop}
    (hf : ∀ a, (f a).isSome = true ↔ P) : (x.bind f).isSome = true ↔ x.isSome = true ∧ P := by
  cases x with
  | none => simp
  | some a => simp [hf]

theorem isSome_bind_some {α β : Type} {x : Option α} {f : α → β} :
    (x.bind fun a => some (f a)).isSome = true ↔ x.isSome = true := by
  cases x <;> simp

theorem VideoScaler.ofOptions_isSome_iff :
    (ofOptions opts).isSome = true ↔ ∀ key ∈ scalerKeys, Readable opts key := by
  simp only [scalerKeys, List.forall_mem_cons, List.not_mem_nil, false_implies, implies_true,
    and_true, ← intOption_isSome]
  exact isSome_bind_iff fun _ => isSome_bind_iff fun _ => isSome_bind_iff fun _ =>
    isSome_bind_iff fun _ => isSome_bind_iff fun _ => isSome_bind_iff fun _ => isSome_bind_some

theorem VideoCapturer.settings_isSome_iff (c : VideoCapturer) :
    (c.settings opts).isSome = true ↔ ∀ key ∈ c.numbers, Readable opts key := by
  have hscaler : (VideoScaler.ofOptions opts).isSome = true ↔
      ∀ key ∈ scalerKeys, Readable opts key := VideoScaler.ofOptions_isSome_iff
  have hsize : ((intOption opts "width").isSome = true ∧ (intOption opts "height").isSome = true) ↔
      ∀ key ∈ ["width", "height"], Readable opts key := by
    simp [← intOption_isSome]
  have hfps : ∀ width height : UInt64, ((sizeOption opts "width" width).isSome = true ∧
      (sizeOption opts "height" height).isSome = true ∧
      (sizeOption opts "fps" 0).isSome = true) ↔
      ∀ key ∈ ["width", "height", "fps"], Readable opts key := by
    simp [sizeOption_isSome]
  cases c with
  | rtsp => exact isSome_bind_some.trans hscaler
  | file => exact isSome_bind_some.trans hscaler
  | rtp => exact isSome_bind_some.trans hscaler
  | rtmp => exact isSome_bind_some.trans hscaler
  | screen => exact (isSome_bind_iff fun _ => isSome_bind_some).trans hsize
  | window => exact (isSome_bind_iff fun _ => isSome_bind_some).trans hsize
  | v4l2 =>
    exact (isSome_bind_iff fun _ => isSome_bind_iff fun _ => isSome_bind_some).trans (hfps 0 0)
  | vcm =>
    exact (isSome_bind_iff fun _ => isSome_bind_iff fun _ => isSome_bind_some).trans (hfps 800 600)

end Readable

/-! ### A whole request -/

section Request

variable (publishFilter : String → Bool) (cfg : Config) (sh : Shared) (r : StreamRequest)

def needToCreate : Bool := !sh.streamMap.contains (streamLabel cfg.hash cfg.aliases r)

def createVideoSource : Option (Option Settings) :=
  match CapturerFactory.createVideoSource publishFilter (videoOf cfg.aliases r) with
  | none => some none
  | some capturer => (capturer.settings (streamOptions cfg.aliases r)).map some

def createSources : Option (Option Settings) :=
  if needToCreate cfg sh r then createVideoSource publishFilter cfg r else some none

/-- What `AddStreams` makes of the configuration and the options: the bitrate, and what the
capturer of a new source is configured with. -/
def addStreamsSettings : Option (Option BitrateSettings × Option Settings) := do
  let _ ← (readConfig cfg.aliases r).toOption
  let bitrate ← bitrateParam (streamOptions cfg.aliases r)
  let source ← createSources publishFilter cfg sh r
  some (bitrate, source)

def NumbersHarmless : Prop :=
  ∃ bitrate source, addStreamsSettings publishFilter cfg sh r = some (bitrate, source) ∧
    ∀ b, bitrate = some b → b.Sane

def BitrateOption (opts : Options) : Prop :=
  ∀ text, opts["bitrate"]? = some text → ∃ bitrate, stoi text = some bitrate ∧
    2 ≤ bitrate ∧ bitrate < 2 ^ 30

def CapturerNumbers : Prop :=
  needToCreate cfg sh r = true → ∀ capturer,
    CapturerFactory.createVideoSource publishFilter (videoOf cfg.aliases r) = some capturer →
      ∀ key ∈ capturer.numbers, Readable (streamOptions cfg.aliases r) key

variable {publishFilter cfg sh r}

theorem bitrateParam_sane_iff {opts : Options} :
    (∃ bitrate, bitrateParam opts = some bitrate ∧ ∀ b, bitrate = some b → b.Sane) ↔
      BitrateOption opts := by
  unfold bitrateParam BitrateOption
  cases opts["bitrate"]? with
  | none => simp
  | some text =>
    cases hbitrate : stoi text with
    | none => simp [hbitrate]
    | some bitrate => simp [hbitrate, sane_iff (stoi_bounds hbitrate)]

theorem createVideoSource_isSome_iff :
    (createVideoSource publishFilter cfg r).isSome = true ↔ ∀ capturer,
      CapturerFactory.createVideoSource publishFilter (videoOf cfg.aliases r) = some capturer →
        ∀ key ∈ capturer.numbers, Readable (streamOptions cfg.aliases r) key := by
  unfold createVideoSource
  cases CapturerFactory.createVideoSource publishFilter (videoOf cfg.aliases r) with
  | none => simp
  | some capturer => simp [← capturer.settings_isSome_iff]

theorem createSources_isSome_iff :
    (createSources publishFilter cfg sh r).isSome = true ↔
      CapturerNumbers publishFilter cfg sh r := by
  unfold createSources CapturerNumbers
  rw [← createVideoSource_isSome_iff]
  cases needToCreate cfg sh r <;> simp

theorem readConfig_toOption_iff :
    (∃ texts, (readConfig cfg.aliases r).toOption = some texts) ↔
      ConfigReadable cfg.aliases r.videourl r.audiourl := by
  rw [← readConfig_ok_iff]
  cases readConfig cfg.aliases r <;> simp [Except.toOption]

/-- The options of a request are harmless exactly when the configuration has texts for its
URLs, the bitrate is moderate, and the numbers for a new capturer are ints. -/
theorem numbers_harmless_iff (publishFilter : String → Bool) (cfg : Config) (sh : Shared)
    (r : StreamRequest) :
    NumbersHarmless publishFilter cfg sh r ↔
      ConfigReadable cfg.aliases r.videourl r.audiourl ∧
        BitrateOption (streamOptions cfg.aliases r) ∧ CapturerNumbers publishFilter cfg sh r := by
  rw [← readConfig_toOption_iff, ← bitrateParam_sane_iff, ← createSources_isSome_iff]
  constructor
  · rintro ⟨bitrate, source, hsettings, hsane⟩
    simp only [addStreamsSettings, Option.bind_eq_bind, Option.bind_eq_some_iff, Option.some.injEq,
      Prod.mk.injEq] at hsettings
    obtain ⟨_, hconfig, _, hbitrate, _, hsource, rfl, rfl⟩ := hsettings
    exact ⟨⟨_, hconfig⟩, ⟨_, hbitrate, hsane⟩, by rw [hsource]; rfl⟩
  · rintro ⟨⟨texts, hconfig⟩, ⟨bitrate, hbitrate, hsane⟩, hsource⟩
    obtain ⟨source, hsource⟩ := Option.isSome_iff_exists.mp hsource
    refine ⟨bitrate, source, ?_, hsane⟩
    simp only [addStreamsSettings, hconfig, hbitrate, hsource, Option.bind_eq_bind,
      Option.bind_some]

theorem bitrate_throws :
    ¬ ∀ (publishFilter : String → Bool) (cfg : Config) (sh : Shared) (r : StreamRequest),
      NumbersHarmless publishFilter cfg sh r := by
  intro halways
  obtain ⟨bitrate, source, hsettings, _⟩ := halways (fun _ => true) (.plain 0) .initial
    ⟨"rtsp://cam", "", "bitrate=x", false⟩
  have hthrows : addStreamsSettings (fun _ => true) (.plain 0) .initial
      ⟨"rtsp://cam", "", "bitrate=x", false⟩ = none := by
    decide +kernel
  rw [hthrows] at hsettings
  cases hsettings

end Request

end WebrtcStreamer
