import WebrtcStreamer.CapturerOptions
import WebrtcStreamer.RegionOfInterest

/-! The size of the pictures that `VideoScaler` and `DesktopCapturer` put out. -/

set_option autoImplicit false

namespace WebrtcStreamer

/-! ### The desktop -/

def kBytesPerPixel : Int := 4

structure DesktopFrame where
  stride : Int
  height : Int
  stride_pos : kBytesPerPixel ≤ stride
  stride_lt : stride < 2 ^ 31
  height_pos : 0 < height
  height_lt : height < 2 ^ 31

def DesktopFrame.width (frame : DesktopFrame) : Int := frame.stride.tdiv kBytesPerPixel

structure DesktopCapturer where
  width : Int
  height : Int

inductive DesktopPicture where
  | whole (width height : Int)
  | scaled (width height strideY strideUV : Int)
  deriving DecidableEq, Repr

def DesktopPicture.size : DesktopPicture → Int × Int
  | .whole width height => (width, height)
  | .scaled width height _ _ => (width, height)

namespace DesktopCapturer

/-- With both conditions of success: of the capture and of `ConvertToI420`. -/
def onCaptureResult (c : DesktopCapturer) (success : Bool) (frame : DesktopFrame)
    (conversionResult : Int) : Option DesktopPicture :=
  if success then
    if conversionResult ≥ 0 then
      if c.height = 0 ∧ c.width = 0 then some (.whole frame.width frame.height)
      else
        let height :=
          if c.height = 0 then (wrapInt (frame.height * c.width)).tdiv frame.width else c.height
        let width :=
          if c.height ≠ 0 ∧ c.width = 0 then (wrapInt (frame.width * height)).tdiv frame.height
          else c.width
        some (.scaled width height width ((wrapInt (width + 1)).tdiv 2))
    else none
  else none

end DesktopCapturer

/-! ### The size for two options -/

def scaledSize (width height : Int) (src : Int × Int) : Int × Int :=
  if height = 0 ∧ width = 0 then src
  else if height = 0 then (width, (wrapInt (src.2 * width)).tdiv src.1)
  else if width = 0 then ((wrapInt (src.1 * height)).tdiv src.2, height)
  else (width, height)

theorem VideoScaler.createOutputBuffer_eq (s : VideoScaler) :
    s.createOutputBuffer = scaledSize s.width s.height (s.roiWidth, s.roiHeight) := rfl

theorem DesktopCapturer.onCaptureResult_size {c : DesktopCapturer} {success : Bool}
    {frame : DesktopFrame} {conversionResult : Int} {picture : DesktopPicture}
    (h : c.onCaptureResult success frame conversionResult = some picture) :
    picture.size = scaledSize c.width c.height (frame.width, frame.height) := by
  unfold onCaptureResult at h
  unfold scaledSize
  by_cases hheight : c.height = 0 <;> by_cases hwidth : c.width = 0 <;>
    simp only [hheight, hwidth, Option.ite_none_right_eq_some, Option.some.injEq, and_self,
      and_false, false_and, if_true, if_false, ne_eq, not_true_eq_false, not_false_eq_true] at h ⊢
  all_goals
    obtain ⟨_, _, rfl⟩ := h
    rfl

/-- A length derived from an option: by division by a divisor that is not 0 of a product
that is an `int`, and up to rounding in the ratio of the source. -/
structure InRatio (option num den length : Int) : Prop where
  divisor : den ≠ 0
  product : -2 ^ 31 ≤ num * option ∧ num * option < 2 ^ 31
  ratio : 0 < option → length * den ≤ num * option ∧ num * option < (length + 1) * den

structure SoundSize (width height : Int) (src size : Int × Int) : Prop where
  positive : 1 ≤ size.1 ∧ 1 ≤ size.2
  of_width : height = 0 → width ≠ 0 → size.1 = width ∧ InRatio width src.2 src.1 size.2
  of_height : width = 0 → height ≠ 0 → size.2 = height ∧ InRatio height src.1 src.2 size.1

/-- An option that is large enough for the other length not to be rounded to 0,
and small enough for an `int`. -/
def Derives (option num den : Int) : Prop :=
  1 ≤ option ∧ den ≤ num * option ∧ num * option < 2 ^ 31

/-- None of the options, both of them positive, or one that the other length can be derived from. -/
def SizeOptions (width height : Int) (src : Int × Int) : Prop :=
  width = 0 ∧ height = 0 ∨ 1 ≤ width ∧ 1 ≤ height ∨
    height = 0 ∧ Derives width src.2 src.1 ∨ width = 0 ∧ Derives height src.1 src.2

theorem derives_iff {option num den : Int} (hnum : 1 ≤ num) (hden : 1 ≤ den) :
    (1 ≤ option ∧ 1 ≤ (wrapInt (num * option)).tdiv den ∧
      InRatio option num den ((wrapInt (num * option)).tdiv den)) ↔ Derives option num den := by
  by_cases hoption : 1 ≤ option
  · have hproduct : 0 ≤ num * option := by positivity
    by_cases hlt : num * option < 2 ^ 31
    · have hquot : (wrapInt (num * option)).tdiv den = num * option / den := by
        rw [wrapInt_of_lt hproduct hlt, Int.tdiv_eq_ediv_of_nonneg hproduct]
      have hone : 1 ≤ num * option / den ↔ den ≤ num * option := by
        rw [Int.le_ediv_iff_mul_le (by omega), one_mul]
      have hratio : InRatio option num den (num * option / den) := by
        refine ⟨by omega, by omega, fun _ => ⟨?_, ?_⟩⟩
        · exact Int.ediv_mul_le _ (by omega)
        · exact Int.lt_ediv_add_one_mul_self _ (by omega)
      rw [hquot, hone, Derives]
      simp only [hratio, and_true, hlt]
    · have hno : ¬ InRatio option num den ((wrapInt (num * option)).tdiv den) :=
        fun h => hlt h.product.2
      simp only [Derives, hno, hlt, and_false]
  · simp only [Derives, hoption, false_and]

theorem soundSize_iff {width height : Int} {src : Int × Int} (hwidth : 1 ≤ src.1)
    (hheight : 1 ≤ src.2) :
    SoundSize width height src (scaledSize width height src) ↔ SizeOptions width height src := by
  rw [SizeOptions, ← derives_iff hheight hwidth, ← derives_iff hwidth hheight]
  by_cases hw : width = 0
  · by_cases hh : height = 0
    · -- none of the options: the size of the source
      subst hw hh
      have hsound : SoundSize 0 0 src src :=
        ⟨⟨hwidth, hheight⟩, fun _ h => absurd rfl h, fun _ h => absurd rfl h⟩
      simp only [scaledSize, and_self, if_true, hsound, true_or]
    · subst hw
      simp only [scaledSize, hh, false_and, if_false, if_true, and_false, false_or, true_and,
        Int.not_le.mpr Int.zero_lt_one, false_or]
      constructor
      · rintro ⟨⟨hone, hpos⟩, _, hratio⟩
        exact ⟨hpos, hone, (hratio rfl hh).2⟩
      · rintro ⟨hpos, hone, hratio⟩
        exact ⟨⟨hone, hpos⟩, fun h => absurd h hh, fun _ _ => ⟨rfl, hratio⟩⟩
  · by_cases hh : height = 0
    · subst hh
      simp only [scaledSize, hw, and_false, if_false, if_true, false_or, true_and,
        false_and, or_false, Int.not_le.mpr Int.zero_lt_one]
      constructor
      · rintro ⟨⟨hpos, hone⟩, hratio, _⟩
        exact ⟨hpos, hone, (hratio rfl hw).2⟩
      · rintro ⟨hpos, hone, hratio⟩
        exact ⟨⟨hpos, hone⟩, fun _ _ => ⟨rfl, hratio⟩, fun h => absurd h hw⟩
    · -- both options are taken as they are
      simp only [scaledSize, hw, hh, and_self, if_false, false_and, or_false, false_or]
      exact ⟨fun h => h.positive,
        fun h => ⟨h, fun h' => absurd h' hh, fun h' => absurd h' hw⟩⟩

/-! ### Both capturers -/

theorem DesktopFrame.width_pos (frame : DesktopFrame) : 1 ≤ frame.width := by
  have hstride := frame.stride_pos
  unfold kBytesPerPixel at hstride
  rw [width, kBytesPerPixel, Int.tdiv_eq_ediv_of_nonneg (by omega)]
  omega

theorem VideoScaler.InRange.region_pos {s : VideoScaler} (h : s.InRange) (frame : VideoFrame) :
    1 ≤ (s.adjust frame).roiWidth ∧ 1 ≤ (s.adjust frame).roiHeight :=
  ⟨fit_pos h.roiX h.roiWidth frame.width_pos, fit_pos h.roiY h.roiHeight frame.height_pos⟩

/-- The sizes put out are sound exactly when the options suit the region, or
the frame of the desktop. -/
theorem outputSize_sound_iff (opts : Options) :
    (∀ s : VideoScaler, VideoScaler.ofOptions opts = some s →
      ∀ (frames : List VideoFrame) (frame : VideoFrame),
        let region := (s.after frames).adjust frame
        SoundSize s.width s.height (region.roiWidth, region.roiHeight) region.createOutputBuffer ↔
          SizeOptions s.width s.height (region.roiWidth, region.roiHeight)) ∧
    (∀ (c : VideoCapturer) (width height : Int), c.settings opts = some (.desktop width height) →
      ∀ (success : Bool) (frame : DesktopFrame) (conversionResult : Int) (picture : DesktopPicture),
        (DesktopCapturer.mk width height).onCaptureResult success frame conversionResult =
          some picture →
        (SoundSize width height (frame.width, frame.height) picture.size ↔
          SizeOptions width height (frame.width, frame.height))) := by
  constructor
  · intro s hs frames frame region
    obtain ⟨hwidth, hheight⟩ :=
      ((VideoScaler.ofOptions_inRange hs).after frames).region_pos frame
    obtain ⟨_, _, hs_width, hs_height, _⟩ := s.after_spans frames
    rw [VideoScaler.createOutputBuffer_eq, ← hs_width, ← hs_height]
    exact soundSize_iff hwidth hheight
  · intro _ width height _ success frame conversionResult picture hpicture
    rw [DesktopCapturer.onCaptureResult_size hpicture]
    exact soundSize_iff frame.width_pos frame.height_pos

def widthOption (width : String) : Options := (∅ : Options).insert "width" width

theorem ofOptions_width : VideoScaler.ofOptions (widthOption "320") =
    some ⟨320, 0, .rotation0, 0, 0, 0, 0⟩ := by
  decide

theorem settings_width : VideoCapturer.screen.settings (widthOption "320") =
    some (.desktop 320 0) := by
  decide

def smallDesktop : DesktopFrame :=
  ⟨2560, 480, by decide, by decide, VideoScaler.smallFrame.height_pos,
    VideoScaler.smallFrame.height_lt⟩

theorem outputSize_sound_half :
    SoundSize 320 0 (640, 480) (320, 240) ∧
    SoundSize 320 0 (640, 480) (DesktopPicture.scaled 320 240 320 160).size := by
  obtain ⟨hscaler, hdesktop⟩ := outputSize_sound_iff (widthOption "320")
  have hoptions : SizeOptions 320 0 (640, 480) :=
    Or.inr (Or.inr (Or.inl ⟨rfl, by decide, by decide, by decide⟩))
  exact ⟨(hscaler _ ofOptions_width [] VideoScaler.smallFrame).mpr hoptions,
    (hdesktop .screen 320 0 settings_width true smallDesktop 0 _ (by decide)).mpr hoptions⟩

theorem ofOptions_narrow : VideoScaler.ofOptions (widthOption "1") =
    some ⟨1, 0, .rotation0, 0, 0, 0, 0⟩ := by
  decide

theorem settings_narrow : VideoCapturer.screen.settings (widthOption "1") =
    some (.desktop 1 0) := by
  decide

/-- A width of 1 makes the height of a wide picture 0. -/
theorem outputSize_zero :
    (¬ ∀ (opts : Options) (s : VideoScaler), VideoScaler.ofOptions opts = some s →
      ∀ (frames : List VideoFrame) (frame : VideoFrame),
        let region := (s.after frames).adjust frame
        SoundSize s.width s.height (region.roiWidth, region.roiHeight)
          region.createOutputBuffer) ∧
    ¬ ∀ (opts : Options) (c : VideoCapturer) (width height : Int),
      c.settings opts = some (.desktop width height) →
      ∀ (success : Bool) (frame : DesktopFrame) (conversionResult : Int) (picture : DesktopPicture),
        (DesktopCapturer.mk width height).onCaptureResult success frame conversionResult =
          some picture →
        SoundSize width height (frame.width, frame.height) picture.size := by
  constructor
  · intro halways
    obtain ⟨⟨_, hheight⟩, _⟩ := halways _ _ ofOptions_narrow [] VideoScaler.smallFrame
    revert hheight
    decide
  · intro halways
    obtain ⟨⟨_, hheight⟩, _⟩ :=
      halways _ .screen 1 0 settings_narrow true smallDesktop 0 (.scaled 1 0 1 1) (by decide)
    revert hheight
    decide

end WebrtcStreamer
