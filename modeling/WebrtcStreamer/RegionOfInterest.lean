import WebrtcStreamer.VideoScaler

/-! `VideoScaler::OnFrame`: the region left by the clamping, and the frames that are forwarded. -/

set_option autoImplicit false

namespace WebrtcStreamer

/-! ### One dimension -/

def InSize (span : Int × Int) (n : Int) : Prop :=
  0 ≤ span.1 ∧ 1 ≤ span.2 ∧ span.1 + span.2 ≤ n

/-- What makes the fitted part the whole size: it starts at the edge and no
length is there that is smaller. The other way is a sum that wraps around: it
is not seen to reach beyond the edge. -/
def WholeSize (span : Int × Int) (n : Int) : Prop :=
  kept span.1 [n] = 0 ∧ (span.2 = 0 ∨ n ≤ span.2) ∨
    span.2 = n ∧ 2 ^ 31 ≤ kept span.1 [n] + n

section Dimension

variable {pos len n : Int} {sizes : List Int}

theorem fit_fst (h : IsExtent pos) (hlen : IsExtent len) (hn : 0 < n) :
    (fit (pos, len) n).1 = kept pos [n] :=
  congrArg Prod.fst (fit_eq h hlen hn)

theorem fit_snd (h : IsExtent pos) (hlen : IsExtent len) (hn : 0 < n) :
    (fit (pos, len) n).2 =
      if kept pos [n] + len < 2 ^ 31 then
        if len = 0 then n - kept pos [n] else min len (n - kept pos [n])
      else len := by
  rw [fit_eq h hlen hn]
  simp only [rooms, smallest, List.foldl_cons, List.foldl_nil]
  split_ifs <;> omega

theorem kept_lt (h : IsExtent pos) (hn : 0 < n) : 0 ≤ kept pos [n] ∧ kept pos [n] < n := by
  rw [kept_single]
  unfold IsExtent at h
  split_ifs <;> omega

theorem fit_pos (h : IsExtent pos) (hlen : IsExtent len) (hn : 0 < n) :
    1 ≤ (fit (pos, len) n).2 := by
  obtain ⟨hnonneg, hlt⟩ := kept_lt h hn
  obtain ⟨_, hle⟩ := kept_bounds [n] h.1
  rw [fit_snd h hlen hn]
  obtain ⟨hpos, hpos'⟩ := h
  obtain ⟨hlen, hlen'⟩ := hlen
  split_ifs <;> omega

theorem fit_inSize_iff (h : IsExtent pos) (hlen : IsExtent len) (hn : IsExtent n) (hn' : 0 < n) :
    InSize (fit (pos, len) n) n ↔ kept pos [n] + len < 2 ^ 31 := by
  have hpos := fit_pos h hlen hn'
  obtain ⟨hnonneg, hlt⟩ := kept_lt h hn'
  have hsnd := fit_snd h hlen hn'
  rw [InSize, fit_fst h hlen hn']
  obtain ⟨hlen, hlen'⟩ := hlen
  obtain ⟨hn, hn''⟩ := hn
  constructor
  · rintro ⟨_, _, hend⟩
    by_contra hsum
    rw [if_neg hsum] at hsnd
    omega
  · intro hsum
    rw [if_pos hsum] at hsnd
    refine ⟨hnonneg, hpos, ?_⟩
    split_ifs at hsnd <;> omega

theorem fit_whole_iff (h : IsExtent pos) (hlen : IsExtent len) (hn : 0 < n) :
    (fit (pos, len) n).2 = n ↔ WholeSize (pos, len) n := by
  obtain ⟨hnonneg, hlt⟩ := kept_lt h hn
  rw [fit_snd h hlen hn, WholeSize]
  obtain ⟨hlen, hlen'⟩ := hlen
  simp only
  split_ifs <;> omega

theorem kept_cons_cases (hpos : ∀ m ∈ sizes, 0 < m) :
    kept pos (n :: sizes) = 0 ∨ kept pos (n :: sizes) = kept pos [n] := by
  rw [← kept_cons hpos]
  generalize kept pos [n] = p
  unfold kept
  split_ifs
  · exact Or.inl rfl
  · exact Or.inr rfl

/-- One size: whether the end wraps around at the last size does not depend on
when the length is fitted. -/
theorem fit_end_iff (h : IsExtent pos) (hlen : IsExtent len) (hn : IsExtent n) (hn' : 0 < n)
    (hpos : ∀ m ∈ sizes, 0 < m) :
    kept pos (n :: sizes) + (fit (pos, len) n).2 < 2 ^ 31 ↔
      kept pos (n :: sizes) + len < 2 ^ 31 := by
  have hcases : kept pos (n :: sizes) = 0 ∨ kept pos (n :: sizes) = kept pos [n] :=
    kept_cons_cases hpos
  obtain ⟨hnonneg, hlt⟩ := kept_lt h hn'
  rw [fit_snd h hlen hn']
  obtain ⟨hlen, hlen'⟩ := hlen
  obtain ⟨hn, hn''⟩ := hn
  split_ifs <;> omega

theorem foldl_fit_end_iff (h : IsExtent pos) (hlen : IsExtent len)
    (hsizes : ∀ m ∈ sizes, IsExtent m ∧ 0 < m) (hn : 0 < n) :
    kept (sizes.foldl fit (pos, len)).1 [n] + (sizes.foldl fit (pos, len)).2 < 2 ^ 31 ↔
      kept pos (sizes ++ [n]) + len < 2 ^ 31 := by
  induction sizes generalizing pos len with
  | nil => exact Iff.rfl
  | cons m sizes ih =>
    obtain ⟨hm, hm'⟩ := hsizes m List.mem_cons_self
    have hrest : ∀ k ∈ sizes, IsExtent k ∧ 0 < k :=
      fun k hk => hsizes k (List.mem_cons_of_mem _ hk)
    have hlast : ∀ k ∈ sizes ++ [n], 0 < k := by
      intro k hk
      rcases List.mem_append.mp hk with hk | hk
      · exact (hrest k hk).2
      · rwa [List.mem_singleton.mp hk]
    obtain ⟨hfit, hfit'⟩ := fit_extent h hlen hm hm'
    rw [List.foldl_cons, ← Prod.mk.eta (p := fit (pos, len) m), ih hfit hfit' hrest,
      fit_fst h hlen hm', kept_cons hlast, List.cons_append]
    exact fit_end_iff h hlen hm hm' hlast

end Dimension

/-! ### The region of a frame -/

namespace VideoScaler

theorem frame_extent (frame : VideoFrame) :
    (IsExtent frame.width ∧ 0 < frame.width) ∧ (IsExtent frame.height ∧ 0 < frame.height) :=
  ⟨⟨⟨le_of_lt frame.width_pos, frame.width_lt⟩, frame.width_pos⟩,
    ⟨⟨le_of_lt frame.height_pos, frame.height_lt⟩, frame.height_pos⟩⟩

theorem InRange.adjust {s : VideoScaler} (h : s.InRange) (frame : VideoFrame) :
    (s.adjust frame).InRange := by
  obtain ⟨⟨hw, hw'⟩, hh, hh'⟩ := frame_extent frame
  obtain ⟨hx, hwidth⟩ := fit_extent h.roiX h.roiWidth hw hw'
  obtain ⟨hy, hheight⟩ := fit_extent h.roiY h.roiHeight hh hh'
  exact ⟨hx, hy, hwidth, hheight⟩

theorem InRange.after {s : VideoScaler} (h : s.InRange) (frames : List VideoFrame) :
    (s.after frames).InRange := by
  induction frames generalizing s with
  | nil => exact h
  | cons frame frames ih => exact ih (h.adjust frame)

def Inside (s : VideoScaler) (frame : VideoFrame) : Prop :=
  InSize s.across frame.width ∧ InSize s.down frame.height

/-- With the position that these frames leave, the ends of the wanted region are ints. -/
def EndsFit (s : VideoScaler) (frames : List VideoFrame) : Prop :=
  kept s.roiX (frames.map VideoFrame.width) + s.roiWidth < 2 ^ 31 ∧
    kept s.roiY (frames.map VideoFrame.height) + s.roiHeight < 2 ^ 31

theorem InRange.adjust_inside_iff {s : VideoScaler} (h : s.InRange) (frame : VideoFrame) :
    (s.adjust frame).Inside frame ↔ s.EndsFit [frame] := by
  obtain ⟨⟨hw, hw'⟩, hh, hh'⟩ := frame_extent frame
  obtain ⟨hacross, hdown, _⟩ := s.adjust_spans frame
  rw [Inside, hacross, hdown]
  exact and_congr (fit_inSize_iff h.roiX h.roiWidth hw hw')
    (fit_inSize_iff h.roiY h.roiHeight hh hh')

theorem InRange.after_endsFit_iff {s : VideoScaler} (h : s.InRange) (frames : List VideoFrame)
    (frame : VideoFrame) : (s.after frames).EndsFit [frame] ↔ s.EndsFit (frames ++ [frame]) := by
  obtain ⟨hacross, hdown, _⟩ := s.after_spans frames
  have hx := foldl_fit_end_iff h.roiX h.roiWidth (widths_extent frames) frame.width_pos
  have hy := foldl_fit_end_iff h.roiY h.roiHeight (heights_extent frames) frame.height_pos
  simp only [across, down] at hacross hdown
  rw [← hacross] at hx
  rw [← hdown] at hy
  simp only [EndsFit, List.map_append, List.map_cons, List.map_nil]
  exact and_congr hx hy

/-- After any frames the region lies in the next one exactly when the end of
the region that was asked for is an `int` with the position that all of them leave. -/
theorem region_inside_iff {opts : Options} {s : VideoScaler} (h : ofOptions opts = some s)
    (frames : List VideoFrame) (frame : VideoFrame) :
    ((s.after frames).adjust frame).Inside frame ↔ s.EndsFit (frames ++ [frame]) := by
  have hrange := ofOptions_inRange h
  rw [(hrange.after frames).adjust_inside_iff frame]
  exact hrange.after_endsFit_iff frames frame

def roiOptions (x width : String) : Options :=
  ((∅ : Options).insert "roi_x" x).insert "roi_width" width

theorem ofOptions_right :
    ofOptions (roiOptions "320" "320") = some ⟨0, 0, .rotation0, 320, 0, 320, 0⟩ := by
  decide

theorem ofOptions_beyond :
    ofOptions (roiOptions "1" "2147483647") = some ⟨0, 0, .rotation0, 1, 0, 2147483647, 0⟩ := by
  decide

theorem region_inside_right :
    (VideoScaler.mk 0 0 .rotation0 320 0 320 0).EndsFit [largeFrame, smallFrame] ∧
    (((VideoScaler.mk 0 0 .rotation0 320 0 320 0).after [largeFrame]).adjust smallFrame).Inside
      smallFrame := by
  have hfit : (VideoScaler.mk 0 0 .rotation0 320 0 320 0).EndsFit [largeFrame, smallFrame] := by
    simp only [EndsFit, kept]
    decide
  exact ⟨hfit, (region_inside_iff ofOptions_right [largeFrame] smallFrame).mpr hfit⟩

/-- One more column than an `int` counts is not seen to be beyond the edge. -/
theorem region_beyond :
    ¬ ∀ (opts : Options) (s : VideoScaler), ofOptions opts = some s →
      ∀ (frames : List VideoFrame) (frame : VideoFrame),
        ((s.after frames).adjust frame).Inside frame := by
  intro halways
  obtain ⟨hacross, _⟩ := halways _ _ ofOptions_beyond [] smallFrame
  revert hacross
  simp only [InSize]
  decide

/-! ### The frames that are forwarded -/

def LeavesAsIs (s : VideoScaler) (frame : VideoFrame) : Prop :=
  s.across = (0, frame.width) ∧ s.down = (0, frame.height) ∧
    s.createOutputBuffer = (frame.width, frame.height) ∧ s.rotation = .rotation0

theorem handle_forwarded_iff {s : VideoScaler} {frame : VideoFrame} (h : frame.native = false) :
    s.handle frame = .forwarded ↔
      s.roiWidth ≠ frame.width ∧ s.roiHeight = frame.height ∧ s.rotation = .rotation0 := by
  simp [handle, h]

theorem leavesAsIs_of_forwarded_iff {s : VideoScaler} {frame : VideoFrame}
    (h : frame.native = false) :
    (s.handle frame = .forwarded → s.LeavesAsIs frame) ↔ s.handle frame ≠ .forwarded := by
  constructor
  · intro hleaves hforwarded
    obtain ⟨hnarrow, _⟩ := (handle_forwarded_iff h).mp hforwarded
    exact hnarrow (congrArg Prod.snd (hleaves hforwarded).1)
  · exact fun hnot hforwarded => absurd hforwarded hnot

/-- The frames for which forwarding agrees with the other branch are those that
are not forwarded: the frames that are rotated, the ones taken in their whole
width and the ones that are not taken in their whole height. -/
theorem forwarded_leavesAsIs_iff {opts : Options} {s : VideoScaler} (h : ofOptions opts = some s)
    (frames : List VideoFrame) (frame : VideoFrame) (hframe : frame.native = false) :
    (((s.after frames).onFrame frame).2.handling = .forwarded →
      ((s.after frames).onFrame frame).1.LeavesAsIs frame) ↔
    s.rotation ≠ .rotation0 ∨ WholeSize (s.after frames).across frame.width ∨
      ¬ WholeSize (s.after frames).down frame.height := by
  have hrange := (ofOptions_inRange h).after frames
  obtain ⟨_, _, _, _, hrotation⟩ := s.after_spans frames
  have hwidth := fit_whole_iff hrange.roiX hrange.roiWidth frame.width_pos
  have hheight := fit_whole_iff hrange.roiY hrange.roiHeight frame.height_pos
  have hforwarded : ((s.after frames).adjust frame).handle frame = .forwarded ↔
      ¬ WholeSize (s.after frames).across frame.width ∧
        WholeSize (s.after frames).down frame.height ∧ s.rotation = .rotation0 := by
    rw [handle_forwarded_iff hframe, ← hrotation]
    exact and_congr (not_congr hwidth) (and_congr_left' hheight)
  simp only [onFrame]
  rw [leavesAsIs_of_forwarded_iff hframe, Ne, hforwarded]
  tauto

theorem forwarded_leavesAsIs_cropped :
    ¬ WholeSize ((VideoScaler.mk 0 0 .rotation0 320 0 320 0).after [smallFrame]).down 720 ∧
    ((((VideoScaler.mk 0 0 .rotation0 320 0 320 0).after [smallFrame]).onFrame
      largeFrame).2.handling = .forwarded →
      (((VideoScaler.mk 0 0 .rotation0 320 0 320 0).after [smallFrame]).onFrame
        largeFrame).1.LeavesAsIs largeFrame) := by
  have hdown : ¬ WholeSize
      ((VideoScaler.mk 0 0 .rotation0 320 0 320 0).after [smallFrame]).down 720 := by
    simp only [WholeSize, kept]
    decide
  exact ⟨hdown, (forwarded_leavesAsIs_iff ofOptions_right [smallFrame] largeFrame rfl).mpr
    (Or.inr (Or.inr hdown))⟩

/-- The right half of a small frame is asked for, and the whole frame is forwarded. -/
theorem forwarded_uncropped :
    ¬ ∀ (opts : Options) (s : VideoScaler), ofOptions opts = some s →
      ∀ (frames : List VideoFrame) (frame : VideoFrame), frame.native = false →
        ((s.after frames).onFrame frame).2.handling = .forwarded →
        ((s.after frames).onFrame frame).1.LeavesAsIs frame := by
  intro halways
  obtain ⟨hacross, _⟩ := halways _ _ ofOptions_right [] smallFrame rfl (by decide)
  revert hacross
  decide

end VideoScaler

end WebrtcStreamer
