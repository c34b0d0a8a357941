import WebrtcStreamer.StreamLabel

/-! `VideoScaler`: the region of interest of a frame and what is done with it. -/

set_option autoImplicit false

namespace WebrtcStreamer

inductive VideoRotation where
  | rotation0 | rotation90 | rotation180 | rotation270
  deriving DecidableEq, Repr

structure VideoFrame where
  width : Int
  height : Int
  native : Bool
  width_pos : 0 < width
  width_lt : width < 2 ^ 31
  height_pos : 0 < height
  height_lt : height < 2 ^ 31
  deriving DecidableEq, Repr

structure VideoScaler where
  width : Int
  height : Int
  rotation : VideoRotation
  roiX : Int
  roiY : Int
  roiWidth : Int
  roiHeight : Int
  deriving DecidableEq, Repr

/-- `std::stoi(opts.at(key))` where the key is there, else the initial value 0. -/
def intOption (opts : Options) (key : String) : Option Int :=
  match opts[key]? with
  | none => some 0
  | some text => stoi text

inductive Handling where
  | forwarded
  | scaled (cropped : Bool) (width height : Int) (rotation : VideoRotation)
  deriving DecidableEq, Repr

/-- What `OnFrame` does with a frame: its region of interest, and the frame as
it is or one of this size. -/
structure Processed where
  x : Int
  y : Int
  width : Int
  height : Int
  handling : Handling
  deriving DecidableEq, Repr

namespace VideoScaler

/-- The constructor; `none` for an exception of `std::stoi`. -/
def ofOptions (opts : Options) : Option VideoScaler := do
  let width ← intOption opts "width"
  let height ← intOption opts "height"
  let rotation ← intOption opts "rotation"
  let roiX ← intOption opts "roi_x"
  let roiY ← intOption opts "roi_y"
  let roiWidth ← intOption opts "roi_width"
  let roiHeight ← intOption opts "roi_height"
  some {
    width, height
    rotation :=
      if rotation = 90 then .rotation90
      else if rotation = 180 then .rotation180
      else if rotation = 270 then .rotation270
      else .rotation0
    roiX := if roiX < 0 then 0 else roiX
    roiY := if roiY < 0 then 0 else roiY
    roiWidth := if roiWidth ≤ 0 then 0 else roiWidth
    roiHeight := if roiHeight ≤ 0 then 0 else roiHeight }

def createOutputBuffer (s : VideoScaler) : Int × Int :=
  if s.height = 0 ∧ s.width = 0 then (s.roiWidth, s.roiHeight)
  else if s.height = 0 then (s.width, (wrapInt (s.roiHeight * s.width)).tdiv s.roiWidth)
  else if s.width = 0 then ((wrapInt (s.roiWidth * s.height)).tdiv s.roiHeight, s.height)
  else (s.width, s.height)

/-- The first part of `OnFrame`, which writes the region back. -/
def adjust (s : VideoScaler) (frame : VideoFrame) : VideoScaler :=
  let s := { s with roiX := if s.roiX ≠ 0 ∧ s.roiX ≥ frame.width then 0 else s.roiX }
  let s := { s with roiY := if s.roiY ≠ 0 ∧ s.roiY ≥ frame.height then 0 else s.roiY }
  let s := { s with
    roiWidth := if s.roiWidth ≠ 0 ∧ wrapInt (s.roiWidth + s.roiX) > frame.width then 0
      else s.roiWidth }
  let s := { s with
    roiHeight := if s.roiHeight ≠ 0 ∧ wrapInt (s.roiHeight + s.roiY) > frame.height then 0
      else s.roiHeight }
  let s := { s with roiWidth := if s.roiWidth = 0 then frame.width - s.roiX else s.roiWidth }
  { s with roiHeight := if s.roiHeight = 0 then frame.height - s.roiY else s.roiHeight }

def handle (s : VideoScaler) (frame : VideoFrame) : Handling :=
  if (s.roiWidth ≠ frame.width ∧ s.roiHeight = frame.height ∧ s.rotation = .rotation0) ∨
      frame.native then .forwarded
  else
    .scaled (s.roiWidth ≠ frame.width || s.roiHeight ≠ frame.height) s.createOutputBuffer.1
      s.createOutputBuffer.2 s.rotation

def onFrame (s : VideoScaler) (frame : VideoFrame) : VideoScaler × Processed :=
  let s := s.adjust frame
  (s, ⟨s.roiX, s.roiY, s.roiWidth, s.roiHeight, s.handle frame⟩)

def after (s : VideoScaler) (frames : List VideoFrame) : VideoScaler :=
  frames.foldl (fun s frame => (s.onFrame frame).1) s

end VideoScaler

/-! ### One dimension -/

/-- A position and a length of the region, fitted into a frame of this size. -/
def fit (span : Int × Int) (size : Int) : Int × Int :=
  let pos := if span.1 ≠ 0 ∧ span.1 ≥ size then 0 else span.1
  let len := if span.2 ≠ 0 ∧ wrapInt (span.2 + pos) > size then 0 else span.2
  (pos, if len = 0 then size - pos else len)

def kept (pos : Int) (sizes : List Int) : Int := if ∃ n ∈ sizes, n ≤ pos then 0 else pos

/-- The room behind the position in each frame. A region whose end is no `int`
is not seen to reach beyond the frame. -/
def rooms (pos len : Int) : List Int → List Int
  | [] => []
  | n :: sizes =>
    (if kept pos [n] + len < 2 ^ 31 then n - kept pos [n] else len) ::
      rooms (kept pos [n]) len sizes

def smallest (len : Int) (rooms : List Int) : Int :=
  rooms.foldl (fun len room => if len = 0 then room else min len room) len

def IsExtent (n : Int) : Prop := 0 ≤ n ∧ n < 2 ^ 31

section Dimension

variable {pos len len' n : Int} {sizes : List Int}

theorem kept_single (pos n : Int) : kept pos [n] = if n ≤ pos then 0 else pos := by
  simp [kept]

theorem kept_bounds (sizes : List Int) (h : 0 ≤ pos) :
    0 ≤ kept pos sizes ∧ kept pos sizes ≤ pos := by
  unfold kept
  split <;> omega

theorem kept_cons (hpos : ∀ m ∈ sizes, 0 < m) :
    kept (kept pos [n]) sizes = kept pos (n :: sizes) := by
  by_cases hn : n ≤ pos
  · have hzero : ¬ ∃ m ∈ sizes, m ≤ (0 : Int) := by
      rintro ⟨m, hm, hle⟩
      have := hpos m hm
      omega
    simp [kept, hn, hzero]
  · simp [kept, hn]

theorem fit_eq (h : IsExtent pos) (hlen : IsExtent len) (hn : 0 < n) :
    fit (pos, len) n = (kept pos [n], smallest len (rooms pos len [n])) := by
  obtain ⟨hpos, hpos'⟩ := h
  obtain ⟨hlen, hlen'⟩ := hlen
  have hkept : (if pos ≠ 0 ∧ pos ≥ n then 0 else pos) = kept pos [n] := by
    rw [kept_single]
    split_ifs <;> omega
  obtain ⟨hnonneg, hle⟩ := kept_bounds [n] hpos
  simp only [fit, hkept, rooms, smallest, List.foldl_cons, List.foldl_nil, Prod.mk.injEq, true_and]
  by_cases hsum : kept pos [n] + len < 2 ^ 31
  · rw [if_pos hsum, wrapInt_of_lt (by omega) (by omega)]
    split_ifs <;> omega
  · have hwrap := wrapInt_overflow (n := len + kept pos [n]) (by omega) (by omega)
    rw [if_neg hsum]
    split_ifs <;> omega

theorem fit_extent (h : IsExtent pos) (hlen : IsExtent len) (hn : IsExtent n) (hn' : 0 < n) :
    IsExtent (fit (pos, len) n).1 ∧ IsExtent (fit (pos, len) n).2 := by
  unfold IsExtent at *
  simp only [fit]
  split_ifs <;> omega

theorem rooms_eq (h : 0 ≤ pos) (hlen : pos + len < 2 ^ 31) (hlen' : pos + len' < 2 ^ 31) :
    rooms pos len sizes = rooms pos len' sizes := by
  induction sizes generalizing pos with
  | nil => rfl
  | cons n sizes ih =>
    obtain ⟨hnonneg, hle⟩ := kept_bounds [n] h
    rw [rooms, rooms, if_pos (by omega), if_pos (by omega),
      ih hnonneg (by omega) (by omega)]

theorem rooms_fit (h : IsExtent pos) (hlen : IsExtent len) (hn : IsExtent n) (hn' : 0 < n) :
    rooms (kept pos [n]) (fit (pos, len) n).2 sizes = rooms (kept pos [n]) len sizes := by
  have hfit := congrArg Prod.snd (fit_eq h hlen hn')
  obtain ⟨hpos, hpos'⟩ := h
  obtain ⟨hlen, hlen'⟩ := hlen
  obtain ⟨hn, hnmax⟩ := hn
  obtain ⟨hnonneg, hle⟩ := kept_bounds [n] hpos
  simp only [rooms, smallest, List.foldl_cons, List.foldl_nil] at hfit
  by_cases hsum : kept pos [n] + len < 2 ^ 31
  · have hkept := kept_single pos n
    rw [if_pos hsum] at hfit
    refine rooms_eq hnonneg ?_ hsum
    split_ifs at hfit hkept <;> omega
  · rw [if_neg hsum] at hfit
    have hsame : (fit (pos, len) n).2 = len := by
      split_ifs at hfit <;> omega
    rw [hsame]

/-- After any frames: the position if it has survived, and the smallest room. -/
theorem foldl_fit (h : IsExtent pos) (hlen : IsExtent len)
    (hpos : ∀ m ∈ sizes, IsExtent m ∧ 0 < m) :
    sizes.foldl fit (pos, len) = (kept pos sizes, smallest len (rooms pos len sizes)) := by
  induction sizes generalizing pos len with
  | nil => simp [kept, rooms, smallest]
  | cons n sizes ih =>
    obtain ⟨hn, hn'⟩ := hpos n List.mem_cons_self
    have hrest : ∀ m ∈ sizes, IsExtent m ∧ 0 < m :=
      fun m hm => hpos m (List.mem_cons_of_mem _ hm)
    obtain ⟨hfit, hfit'⟩ := fit_extent h hlen hn hn'
    rw [List.foldl_cons, ← Prod.mk.eta (p := fit (pos, len) n), ih hfit hfit' hrest]
    have hstep := fit_eq h hlen hn'
    have hfst : (fit (pos, len) n).1 = kept pos [n] := congrArg Prod.fst hstep
    rw [hfst, kept_cons fun m hm => (hrest m hm).2, rooms_fit h hlen hn hn',
      congrArg Prod.snd hstep]
    rfl

theorem rooms_zero (hpos : ∀ m ∈ sizes, 0 < m) : rooms 0 0 sizes = sizes := by
  induction sizes with
  | nil => rfl
  | cons n sizes ih =>
    have hkept : kept 0 [n] = 0 := by simp [kept]
    rw [rooms, hkept, ih fun m hm => hpos m (List.mem_cons_of_mem _ hm)]
    simp

theorem smallest_last_iff (hpos : ∀ m ∈ sizes, 0 < m) (hlen : 0 ≤ len) (hn : 0 < n) :
    smallest len (sizes ++ [n]) = n ↔ (len = 0 ∨ n ≤ len) ∧ ∀ m ∈ sizes, n ≤ m := by
  induction sizes generalizing len with
  | nil =>
    simp only [smallest, List.nil_append, List.foldl_cons, List.foldl_nil, List.not_mem_nil,
      false_implies, implies_true, and_true]
    split_ifs <;> omega
  | cons m sizes ih =>
    have hm := hpos m List.mem_cons_self
    have hrest : ∀ k ∈ sizes, 0 < k := fun k hk => hpos k (List.mem_cons_of_mem _ hk)
    have hstep : smallest len (m :: sizes ++ [n]) =
        smallest (if len = 0 then m else min len m) (sizes ++ [n]) := rfl
    have hnext : 0 ≤ (if len = 0 then m else min len m) := by split_ifs <;> omega
    rw [hstep, ih hrest hnext, List.forall_mem_cons, ← and_assoc]
    refine and_congr_left fun _ => ?_
    split_ifs <;> omega

end Dimension

/-! ### Histories -/

namespace VideoScaler

def across (s : VideoScaler) : Int × Int := (s.roiX, s.roiWidth)
def down (s : VideoScaler) : Int × Int := (s.roiY, s.roiHeight)

structure InRange (s : VideoScaler) : Prop where
  roiX : IsExtent s.roiX
  roiY : IsExtent s.roiY
  roiWidth : IsExtent s.roiWidth
  roiHeight : IsExtent s.roiHeight

theorem intOption_bounds {opts : Options} {key : String} {n : Int}
    (h : intOption opts key = some n) : -2 ^ 31 ≤ n ∧ n < 2 ^ 31 := by
  unfold intOption at h
  split at h
  · cases h
    decide
  · exact stoi_bounds h

theorem ofOptions_inRange {opts : Options} {s : VideoScaler} (h : ofOptions opts = some s) :
    s.InRange := by
  simp only [ofOptions, Option.bind_eq_bind, Option.bind_eq_some_iff, Option.some.injEq] at h
  obtain ⟨_, _, _, _, _, _, x, hx, y, hy, roiWidth, hw, roiHeight, hh, rfl⟩ := h
  have hx := intOption_bounds hx
  have hy := intOption_bounds hy
  have hw := intOption_bounds hw
  have hh := intOption_bounds hh
  constructor <;> simp only [IsExtent] <;> split_ifs <;> omega

theorem adjust_spans (s : VideoScaler) (frame : VideoFrame) :
    (s.adjust frame).across = fit s.across frame.width ∧
    (s.adjust frame).down = fit s.down frame.height ∧
    (s.adjust frame).width = s.width ∧ (s.adjust frame).height = s.height ∧
    (s.adjust frame).rotation = s.rotation :=
  ⟨rfl, rfl, rfl, rfl, rfl⟩

theorem after_spans (s : VideoScaler) (frames : List VideoFrame) :
    (s.after frames).across = (frames.map VideoFrame.width).foldl fit s.across ∧
    (s.after frames).down = (frames.map VideoFrame.height).foldl fit s.down ∧
    (s.after frames).width = s.width ∧ (s.after frames).height = s.height ∧
    (s.after frames).rotation = s.rotation := by
  induction frames generalizing s with
  | nil => exact ⟨rfl, rfl, rfl, rfl, rfl⟩
  | cons frame frames ih =>
    obtain ⟨hacross, hdown, hwidth, hheight, hrotation⟩ := s.adjust_spans frame
    obtain ⟨hacross', hdown', hwidth', hheight', hrotation'⟩ := ih (s.adjust frame)
    rw [hacross] at hacross'
    rw [hdown] at hdown'
    exact ⟨hacross', hdown', hwidth'.trans hwidth, hheight'.trans hheight,
      hrotation'.trans hrotation⟩

def sameRoom (span : Int × Int) (sizes sizes' : List Int) : Prop :=
  kept span.1 sizes = kept span.1 sizes' ∧
    smallest span.2 (rooms span.1 span.2 sizes) = smallest span.2 (rooms span.1 span.2 sizes')

theorem widths_extent (frames : List VideoFrame) :
    ∀ n ∈ frames.map VideoFrame.width, IsExtent n ∧ 0 < n := by
  intro n hn
  obtain ⟨frame, _, rfl⟩ := List.mem_map.mp hn
  exact ⟨⟨le_of_lt frame.width_pos, frame.width_lt⟩, frame.width_pos⟩

theorem heights_extent (frames : List VideoFrame) :
    ∀ n ∈ frames.map VideoFrame.height, IsExtent n ∧ 0 < n := by
  intro n hn
  obtain ⟨frame, _, rfl⟩ := List.mem_map.mp hn
  exact ⟨⟨le_of_lt frame.height_pos, frame.height_lt⟩, frame.height_pos⟩

theorem after_append (s : VideoScaler) (frames : List VideoFrame) (frame : VideoFrame) :
    (s.after frames).adjust frame = s.after (frames ++ [frame]) := by
  rw [after, after, List.foldl_append]
  rfl

/-- The region after a history, in closed form. -/
theorem InRange.after_eq {s : VideoScaler} (h : s.InRange) (frames : List VideoFrame) :
    (s.after frames).across = (kept s.roiX (frames.map VideoFrame.width),
      smallest s.roiWidth (rooms s.roiX s.roiWidth (frames.map VideoFrame.width))) ∧
    (s.after frames).down = (kept s.roiY (frames.map VideoFrame.height),
      smallest s.roiHeight (rooms s.roiY s.roiHeight (frames.map VideoFrame.height))) := by
  obtain ⟨hacross, hdown, _⟩ := s.after_spans frames
  exact ⟨hacross.trans (foldl_fit h.roiX h.roiWidth (widths_extent frames)),
    hdown.trans (foldl_fit h.roiY h.roiHeight (heights_extent frames))⟩

theorem processed_eq_iff (s : VideoScaler) (frames frames' : List VideoFrame) (frame : VideoFrame) :
    ((s.after frames).onFrame frame).2 = ((s.after frames').onFrame frame).2 ↔
      (s.after (frames ++ [frame])).across = (s.after (frames' ++ [frame])).across ∧
      (s.after (frames ++ [frame])).down = (s.after (frames' ++ [frame])).down := by
  obtain ⟨_, _, hwidth, hheight, hrotation⟩ := s.after_spans (frames ++ [frame])
  obtain ⟨_, _, hwidth', hheight', hrotation'⟩ := s.after_spans (frames' ++ [frame])
  simp only [onFrame, after_append]
  generalize s.after (frames ++ [frame]) = a at *
  generalize s.after (frames' ++ [frame]) = b at *
  constructor
  · intro heq
    simp only [Processed.mk.injEq] at heq
    simp [across, down, heq]
  · rintro ⟨hacross, hdown⟩
    obtain ⟨width, height, rotation, x, y, roiWidth, roiHeight⟩ := a
    obtain ⟨width', height', rotation', x', y', roiWidth', roiHeight'⟩ := b
    simp only [across, down, Prod.mk.injEq] at hacross hdown
    simp only at hwidth hheight hrotation hwidth' hheight' hrotation'
    obtain ⟨rfl, rfl⟩ := hacross
    obtain ⟨rfl, rfl⟩ := hdown
    subst hwidth hheight hrotation hwidth' hheight' hrotation'
    rfl

def roiKeys : List String := ["roi_x", "roi_y", "roi_width", "roi_height"]

theorem intOption_absent {opts : Options} {key : String} (h : key ∉ opts) :
    intOption opts key = some 0 := by
  rw [intOption, Std.TreeMap.getElem?_eq_none h]

theorem ofOptions_whole {opts : Options} {s : VideoScaler} (h : ofOptions opts = some s)
    (hnone : ∀ key ∈ roiKeys, key ∉ opts) : s.across = (0, 0) ∧ s.down = (0, 0) := by
  have habsent : ∀ key ∈ roiKeys, intOption opts key = some 0 :=
    fun key hkey => intOption_absent (hnone key hkey)
  simp only [roiKeys, List.forall_mem_cons] at habsent
  obtain ⟨hx, hy, hw, hh, _⟩ := habsent
  simp only [ofOptions, hx, hy, hw, hh, Option.bind_eq_bind, Option.bind_eq_some_iff,
    Option.some.injEq] at h
  obtain ⟨width, _, height, _, rotation, _, x, rfl, y, rfl, w, rfl, hh', rfl, rfl⟩ := h
  exact ⟨rfl, rfl⟩

/-- Two histories have the same effect on a frame exactly when in both
dimensions they, and the frame, leave the region the same position and the same
room. Without a region option a frame is processed as a whole exactly when no
frame before it was smaller in one of the dimensions. -/
theorem scaler_memory_iff {opts : Options} {s : VideoScaler} (h : ofOptions opts = some s)
    (frames frames' : List VideoFrame) (frame : VideoFrame) :
    (((s.after frames).onFrame frame).2 = ((s.after frames').onFrame frame).2 ↔
      sameRoom s.across ((frames ++ [frame]).map VideoFrame.width)
        ((frames' ++ [frame]).map VideoFrame.width) ∧
      sameRoom s.down ((frames ++ [frame]).map VideoFrame.height)
        ((frames' ++ [frame]).map VideoFrame.height)) ∧
    ((∀ key ∈ roiKeys, key ∉ opts) →
      ((((s.after frames).onFrame frame).2.x = 0 ∧ ((s.after frames).onFrame frame).2.y = 0 ∧
        ((s.after frames).onFrame frame).2.width = frame.width ∧
        ((s.after frames).onFrame frame).2.height = frame.height) ↔
      ∀ g ∈ frames, frame.width ≤ g.width ∧ frame.height ≤ g.height)) := by
  have hrange := ofOptions_inRange h
  constructor
  · obtain ⟨hacross, hdown⟩ := hrange.after_eq (frames ++ [frame])
    obtain ⟨hacross', hdown'⟩ := hrange.after_eq (frames' ++ [frame])
    rw [processed_eq_iff, hacross, hdown, hacross', hdown', Prod.mk.injEq, Prod.mk.injEq]
    exact Iff.rfl
  · intro hnone
    obtain ⟨hacross, hdown⟩ := ofOptions_whole h hnone
    obtain ⟨hafter, hafter'⟩ := hrange.after_eq (frames ++ [frame])
    rw [← after_append] at hafter hafter'
    simp only [across, down, Prod.mk.injEq] at hacross hdown hafter hafter'
    have hwidths := fun frames n hn => (widths_extent frames n hn).2
    have hheights := fun frames n hn => (heights_extent frames n hn).2
    have hwidth := smallest_last_iff (hwidths frames) (le_refl 0) frame.width_pos
    have hheight := smallest_last_iff (hheights frames) (le_refl 0) frame.height_pos
    rw [hacross.1, hacross.2, rooms_zero (hwidths _)] at hafter
    rw [hdown.1, hdown.2, rooms_zero (hheights _)] at hafter'
    simp only [onFrame]
    rw [hafter.1, hafter.2, hafter'.1, hafter'.2]
    simp only [List.map_append, List.map_cons, List.map_nil, hwidth, hheight]
    simp only [kept, ite_self, true_or, true_and, List.forall_mem_map]
    exact ⟨fun ⟨hwide, hhigh⟩ g hg => ⟨hwide g hg, hhigh g hg⟩,
      fun hall => ⟨fun g hg => (hall g hg).1, fun g hg => (hall g hg).2⟩⟩

def smallFrame : VideoFrame := ⟨640, 480, false, by decide, by decide, by decide, by decide⟩
def largeFrame : VideoFrame := ⟨1280, 720, false, by decide, by decide, by decide, by decide⟩

theorem ofOptions_empty : ofOptions ∅ = some ⟨0, 0, .rotation0, 0, 0, 0, 0⟩ := rfl

theorem scaler_memory_large :
    (((VideoScaler.mk 0 0 .rotation0 0 0 0 0).after [largeFrame]).onFrame smallFrame).2 =
      (((VideoScaler.mk 0 0 .rotation0 0 0 0 0).after []).onFrame smallFrame).2 ∧
    (((VideoScaler.mk 0 0 .rotation0 0 0 0 0).after [largeFrame]).onFrame smallFrame).2.width =
      640 := by
  obtain ⟨hsame, hwhole⟩ := scaler_memory_iff ofOptions_empty [largeFrame] [] smallFrame
  have hempty : ∀ key ∈ roiKeys, key ∉ (∅ : Options) := fun _ _ => Std.TreeMap.not_mem_emptyc
  have hlarge : ∀ g ∈ [largeFrame], smallFrame.width ≤ g.width ∧ smallFrame.height ≤ g.height := by
    decide
  have hroom : sameRoom (0, 0) [1280, 640] [640] ∧ sameRoom (0, 0) [720, 480] [480] := by
    simp only [sameRoom, kept]
    decide
  exact ⟨hsame.mpr hroom, ((hwhole hempty).mpr hlarge).2.2.1⟩

/-- A camera that goes from 640x480 to 1280x720 is cropped to its corner. -/
theorem scaler_remembers :
    ¬ ∀ (opts : Options) (s : VideoScaler), ofOptions opts = some s →
      ∀ (frames frames' : List VideoFrame) (frame : VideoFrame),
        (∀ g ∈ frames ++ frames' ++ [frame], g.native = false) →
        ((s.after frames).onFrame frame).2 = ((s.after frames').onFrame frame).2 := by
  intro halways
  have heq := halways ∅ _ ofOptions_empty [smallFrame] [] largeFrame (by decide)
  revert heq
  decide

end VideoScaler

end WebrtcStreamer
