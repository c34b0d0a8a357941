import WebrtcStreamer.KeyFrames

/-! The frames that one call of `onH264Data` or `onH265Data` posts: which units become
delta frames, and how the IDR slices are put together. -/

set_option autoImplicit false

namespace WebrtcStreamer

def Frame.isEncoded : Frame → Bool
  | .encoded _ _ _ => true
  | .format _ _ _ => false

def deltaFrame (ts : Int64) (u : Nalu) : Frame := .encoded [u] ts.toUInt64 .delta

namespace Codec

/-- The coded slices by their unit types, in H265 with the reserved ones. -/
def isVcl (c : Codec) (u : Nalu) : Bool :=
  match c with
  | .h264 => 1 ≤ naluType .h264 u && naluType .h264 u ≤ 5
  | .h265 => naluType .h265 u ≤ 31

/-- Coded slices, and the units that the loops look for. -/
def isExpected (c : Codec) (u : Nalu) : Bool :=
  match c with
  | .h264 => 1 ≤ naluType .h264 u && naluType .h264 u ≤ 8
  | .h265 => naluType .h265 u ≤ 34

def isIdrSlice (c : Codec) (u : Nalu) : Bool :=
  match c with
  | .h264 => naluType .h264 u = 5
  | .h265 => naluType .h265 u = 19 ∨ naluType .h265 u = 20

variable {c : Codec} {u : Nalu}

theorem isIdr_eq (h : u.payload ≠ []) : c.isIdr u = c.isIdrSlice u := by
  cases c with
  | h264 =>
    simp only [isIdr, isIdrSlice, role, if_neg h]
    split_ifs with h7 h8 h6 h5 <;> simp_all
  | h265 =>
    simp only [isIdr, isIdrSlice, role]
    split_ifs with h32 h33 h34 hidr <;> simp_all

theorem isIdr_units {units : List Nalu} (h : ∀ u ∈ units, u.payload ≠ []) :
    units.any c.isIdr = units.any c.isIdrSlice ∧
      (units.takeWhile fun u => !c.isIdr u) = (units.takeWhile fun u => !c.isIdrSlice u) ∧
      units.filter c.isIdr = units.filter c.isIdrSlice := by
  induction units with
  | nil => exact ⟨rfl, rfl, rfl⟩
  | cons u units ih =>
    have hu : c.isIdr u = c.isIdrSlice u := isIdr_eq (h u List.mem_cons_self)
    obtain ⟨hany, htake, hfilter⟩ := ih fun v hv => h v (List.mem_cons_of_mem u hv)
    simp only [List.any_cons, List.takeWhile_cons, List.filter_cons, hu, hany, htake, hfilter,
      and_self]

theorem isExpected_eq (h : u.payload ≠ []) :
    c.isExpected u = (!c.isOther u || c.isVcl u) := by
  cases c with
  | h264 =>
    simp only [isOther, isExpected, isVcl, role, if_neg h]
    split_ifs with h7 h8 h6 h5
    · simp [h7]
    · simp [h8]
    · simp [h6]
    · simp [h5]
    · rw [Bool.eq_iff_iff]
      simp
      omega
  | h265 =>
    simp only [isOther, isExpected, isVcl, role]
    split_ifs with h32 h33 h34 hidr
    · simp [h32]
    · simp [h33]
    · simp [h34]
    · rcases hidr with h19 | h20
      · simp [h19]
      · simp [h20]
    · rw [Bool.eq_iff_iff]
      simp
      omega

end Codec

namespace LiveVideoSource

variable {c : Codec}

theorem onNalu_encoded (d : Decoding) (ts : Int64) (src : LiveVideoSource) (acc : List Nalu)
    (u : Nalu) :
    ∃ frames, (onNalu d c ts (src, acc) u).1.queue = src.queue ++ frames ∧
      frames.filter Frame.isEncoded =
        if src.dropsPast d ts then [] else ([u].filter c.isOther).map (deltaFrame ts) := by
  unfold onNalu
  cases hrole : c.role u with
  | parameters clears format =>
    cases format with
    | false => exact ⟨[], by simp, by simp [Codec.isOther, hrole]⟩
    | true =>
      simp only [if_true, postSps]
      split
      · exact ⟨[_], rfl, by simp [Codec.isOther, hrole, Frame.isEncoded]⟩
      · exact ⟨[_], rfl, by simp [Codec.isOther, hrole, Frame.isEncoded]⟩
  | skipped => exact ⟨[], by simp, by simp [Codec.isOther, hrole]⟩
  | idr => exact ⟨[], by simp, by simp [Codec.isOther, hrole]⟩
  | other =>
    cases hpast : src.dropsPast d ts with
    | true => exact ⟨[], by simp [hpast], by simp⟩
    | false =>
      exact ⟨[deltaFrame ts u], by simp [hpast, postFrame, deltaFrame],
        by simp [Codec.isOther, hrole, Frame.isEncoded, deltaFrame]⟩

theorem foldl_onNalu_encoded (d : Decoding) (ts : Int64) (us : List Nalu) (src : LiveVideoSource)
    (acc : List Nalu) :
    ∃ frames, (us.foldl (onNalu d c ts) (src, acc)).1.queue = src.queue ++ frames ∧
      frames.filter Frame.isEncoded =
        if src.dropsPast d ts then [] else (us.filter c.isOther).map (deltaFrame ts) := by
  induction us generalizing src acc with
  | nil => exact ⟨[], by simp, by simp⟩
  | cons u us ih =>
    obtain ⟨first, hfirst, hencoded⟩ := onNalu_encoded (c := c) d ts src acc u
    obtain ⟨rest, hrest, hencoded'⟩ := ih (onNalu d c ts (src, acc) u).1
      (onNalu d c ts (src, acc) u).2
    have hpast : (onNalu d c ts (src, acc) u).1.dropsPast d ts = src.dropsPast d ts := by
      simp [dropsPast, (onNalu_posted (c := c) d ts src acc u).1.prevTimestamp]
    rw [hpast] at hencoded'
    refine ⟨first ++ rest, by rw [List.foldl_cons, hrest, hfirst, List.append_assoc], ?_⟩
    have hsplit : (u :: us).filter c.isOther = [u].filter c.isOther ++ us.filter c.isOther :=
      List.filter_append [u] us
    rw [List.filter_append, hencoded, hencoded', hsplit, List.map_append]
    split <;> rfl

theorem onH26xData_encoded (d : Decoding) (ts : Int64) (buffer : List Nalu)
    (src : LiveVideoSource) :
    ∃ frames : List Frame, (src.onH26xData d c ts buffer).queue = src.queue ++ frames ++
        (if buffer.any c.isIdr then
          [Frame.encoded (c.config src.cfg (buffer.takeWhile fun u => !c.isIdr u) ++
            buffer.filter c.isIdr) ts.toUInt64 .key]
        else []) ∧
      frames.filter Frame.isEncoded =
        if src.dropsPast d ts then [] else (buffer.filter c.isOther).map (deltaFrame ts) := by
  obtain ⟨frames, hqueue, hencoded⟩ := foldl_onNalu_encoded (c := c) d ts buffer src []
  refine ⟨frames, ?_, hencoded⟩
  have hgather := (foldl_onNalu_posted (c := c) d ts buffer src []).2
  simp only [onH26xData, hgather, Codec.gather]
  by_cases hany : buffer.any c.isIdr = true
  · obtain ⟨u, hu, hidr⟩ := List.any_eq_true.mp hany
    have hsome : buffer.filter c.isIdr ≠ [] := List.ne_nil_of_mem (List.mem_filter.mpr ⟨hu, hidr⟩)
    simp [hany, hsome, postFrame, hqueue]
  · have hnone : buffer.filter c.isIdr = [] := by simpa [List.filter_eq_nil_iff] using hany
    simp [hany, hnone, hqueue]

theorem mem_delta_iff (d : Decoding) (ts : Int64) (buffer : List Nalu) (src : LiveVideoSource)
    (content : List Nalu) (t : UInt64) :
    Frame.encoded content t .delta ∈ postedFrames src (src.onH26xData d c ts buffer) ↔
      src.dropsPast d ts = false ∧ ∃ u ∈ buffer, c.isOther u = true ∧
        Frame.encoded content t .delta = deltaFrame ts u := by
  obtain ⟨frames, hqueue, hencoded⟩ := onH26xData_encoded (c := c) d ts buffer src
  have hframes : Frame.encoded content t .delta ∈ postedFrames src (src.onH26xData d c ts buffer) ↔
      Frame.encoded content t .delta ∈ frames.filter Frame.isEncoded := by
    rw [postedFrames, hqueue, List.append_assoc, List.drop_left, List.mem_append, List.mem_filter]
    split <;> simp [Frame.isEncoded]
  rw [hframes, hencoded]
  cases src.dropsPast d ts with
  | true => simp
  | false =>
    simp only [Bool.false_eq_true, if_false, List.mem_map, List.mem_filter, true_and]
    constructor
    · rintro ⟨u, ⟨hu, hother⟩, hframe⟩
      exact ⟨u, hu, hother, hframe.symm⟩
    · rintro ⟨u, hu, hother, hframe⟩
      exact ⟨u, ⟨hu, hother⟩, hframe.symm⟩

/-- Every delta frame is one coded slice exactly when frames are being dropped or the
buffer has no units but slices and those that the loop looks for. -/
theorem slices_only_iff (d : Decoding) (c : Codec) (ts : Int64) (src : LiveVideoSource)
    {buffer : List Nalu} (hunits : ∀ u ∈ buffer, u.payload ≠ []) :
    (∀ content t,
      Frame.encoded content t .delta ∈ postedFrames src (src.onH26xData d c ts buffer) →
        ∃ u, content = [u] ∧ c.isVcl u = true) ↔
      src.dropsPast d ts = true ∨ ∀ u ∈ buffer, c.isExpected u = true := by
  simp only [mem_delta_iff]
  cases hpast : src.dropsPast d ts with
  | true => simp
  | false =>
    simp only [true_and, Bool.false_eq_true, false_or]
    constructor
    · intro hslices u hu
      rw [Codec.isExpected_eq (hunits u hu)]
      cases hother : c.isOther u with
      | false => rfl
      | true =>
        obtain ⟨v, hv, hvcl⟩ := hslices [u] ts.toUInt64 ⟨u, hu, hother, rfl⟩
        cases hv
        simp [hvcl]
    · rintro hexpected content t ⟨u, hu, hother, hframe⟩
      have hvcl := hexpected u hu
      rw [Codec.isExpected_eq (hunits u hu), hother] at hvcl
      cases hframe
      exact ⟨u, rfl, by simpa using hvcl⟩

theorem slices_only_usual :
    deltaFrame 40 .slice ∈ postedFrames (.new 0) ((LiveVideoSource.new 0).onH26xData .plain .h264 40
      [.sps, .pps, ⟨[0, 0, 0, 1], [0x06, 0x05]⟩, .slice, .slice]) ∧
    ∀ content t, Frame.encoded content t .delta ∈
      postedFrames (.new 0) ((LiveVideoSource.new 0).onH26xData .plain .h264 40
        [.sps, .pps, ⟨[0, 0, 0, 1], [0x06, 0x05]⟩, .slice, .slice]) →
      ∃ u, content = [u] ∧ Codec.h264.isVcl u = true :=
  ⟨by decide, (slices_only_iff .plain .h264 40 (.new 0) (by decide)).mpr (.inr (by decide))⟩

/-- The SEI unit of an H265 picture is posted as a frame. -/
theorem sei_posted : ¬ ∀ (d : Decoding) (c : Codec) (ts : Int64) (src : LiveVideoSource)
    (buffer : List Nalu), (∀ u ∈ buffer, u.payload ≠ []) → ∀ content t,
    Frame.encoded content t .delta ∈ postedFrames src (src.onH26xData d c ts buffer) →
      ∃ u, content = [u] ∧ c.isVcl u = true := by
  intro halways
  obtain ⟨u, hu, hvcl⟩ := halways .plain .h265 40 (.new 0) [⟨[0, 0, 0, 1], [0x4E, 0x01]⟩]
    (by decide) [⟨[0, 0, 0, 1], [0x4E, 0x01]⟩] 40 (by decide)
  cases hu
  exact absurd hvcl (by decide)

/-- The key frame of a call: it comes last, and it is made of the cache as it was in
front of the first IDR slice and of all IDR slices, in their order. A delta frame is
one unit that is no IDR slice. -/
theorem key_frame_assembled (d : Decoding) (c : Codec) (ts : Int64) (src : LiveVideoSource)
    {buffer : List Nalu} (hunits : ∀ u ∈ buffer, u.payload ≠ []) :
    ∃ frames : List Frame, (src.onH26xData d c ts buffer).queue = src.queue ++ frames ++
        (if buffer.any c.isIdrSlice then
          [Frame.encoded ((src.onH26xData d c ts (buffer.takeWhile fun u => !c.isIdrSlice u)).cfg ++
            buffer.filter c.isIdrSlice) ts.toUInt64 .key]
        else []) ∧
      ∀ frame ∈ frames, frame.keyUnits = none ∧ ∀ content t, frame = .encoded content t .delta →
        ∃ u ∈ buffer, content = [u] ∧ c.isIdrSlice u = false := by
  obtain ⟨frames, hqueue, hencoded⟩ := onH26xData_encoded (c := c) d ts buffer src
  obtain ⟨hany, htake, hfilter⟩ := Codec.isIdr_units (c := c) hunits
  rw [hany, htake, hfilter] at hqueue
  refine ⟨frames, ?_, ?_⟩
  · rw [(onH26xData_cfg d ts _ src).1]
    exact hqueue
  · intro frame hframe
    have hdelta : frame.isEncoded = true → ∃ u ∈ buffer, c.isOther u = true ∧
        frame = deltaFrame ts u := by
      intro henc
      have hmem := List.mem_filter.mpr ⟨hframe, henc⟩
      rw [hencoded] at hmem
      split at hmem
      · cases hmem
      · obtain ⟨u, hu, heq⟩ := List.mem_map.mp hmem
        exact ⟨u, (List.mem_filter.mp hu).1, (List.mem_filter.mp hu).2, heq.symm⟩
    cases frame with
    | format name width height => exact ⟨rfl, nofun⟩
    | encoded content t frameType =>
      obtain ⟨u, hu, hother, heq⟩ := hdelta rfl
      cases heq
      have hrole : c.role u = .other := of_decide_eq_true hother
      have hidr : c.isIdrSlice u = false := by
        rw [← Codec.isIdr_eq (hunits u hu), Codec.isIdr, hrole]
        rfl
      refine ⟨rfl, ?_⟩
      rintro _ _ ⟨⟩
      exact ⟨u, hu, rfl, hidr⟩

/-- Two IDR slices with a PPS in between: the PPS is not in the key frame. -/
theorem key_frame_assembled_pair : ∃ frames : List Frame,
    ((LiveVideoSource.new 0).onH26xData .plain .h264 40
      [.sps, .idrSlice, .pps, .idrSlice]).queue =
        [] ++ frames ++ [Frame.encoded [.sps, .idrSlice, .idrSlice] 40 .key] ∧
      ∀ frame ∈ frames, frame.keyUnits = none ∧ ∀ content t, frame = .encoded content t .delta →
        ∃ u ∈ [Nalu.sps, .idrSlice, .pps, .idrSlice], content = [u] ∧
          Codec.h264.isIdrSlice u = false :=
  key_frame_assembled .plain .h264 40 (.new 0) (by decide)

end LiveVideoSource

end WebrtcStreamer
