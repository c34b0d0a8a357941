import WebrtcStreamer.ParameterCache
import WebrtcStreamer.SliceFrames

/-! The timestamps of the frames that a session posts. -/

set_option autoImplicit false

namespace WebrtcStreamer

def Frame.time : Frame → Option UInt64
  | .encoded _ timestamp _ => some timestamp
  | .format _ _ _ => none

def times (frames : List Frame) : List UInt64 := frames.filterMap Frame.time

theorem times_append (frames frames' : List Frame) :
    times (frames ++ frames') = times frames ++ times frames' := List.filterMap_append

theorem times_encoded (frames : List Frame) : times (frames.filter Frame.isEncoded) =
    times frames := by
  induction frames with
  | nil => rfl
  | cons frame frames ih =>
    cases frame with
    | format name width height => exact ih
    | encoded content t frameType => exact congrArg (List.cons t) ih

theorem times_delta (ts : Int64) (us : List Nalu) :
    times (us.map (deltaFrame ts)) = List.replicate us.length ts.toUInt64 := by
  induction us with
  | nil => rfl
  | cons u us ih => exact congrArg (List.cons ts.toUInt64) ih

theorem pairwise_append_replicate (earlier : List UInt64) (n : Nat) (t : UInt64) :
    (earlier ++ List.replicate n t).Pairwise (· ≤ ·) ↔
      earlier.Pairwise (· ≤ ·) ∧ (n ≠ 0 → ∀ last ∈ earlier.getLast?, last ≤ t) := by
  rw [← List.isChain_iff_pairwise, ← List.isChain_iff_pairwise, List.isChain_append]
  have hsame := List.isChain_replicate_of_rel n (UInt64.le_refl t)
  cases n with
  | zero => simp
  | succ n => simp [hsame, List.head?_replicate]

namespace LiveVideoSource

variable {c : Codec} {id : String} {src : LiveVideoSource}

def postedCount (d : Decoding) (c : Codec) (ts : Int64) (buffer : List Nalu)
    (src : LiveVideoSource) : Nat :=
  (if src.dropsPast d ts then 0 else (buffer.filter c.isOther).length) +
    if buffer.any c.isIdr then 1 else 0

theorem onH26xData_times (d : Decoding) (ts : Int64) (buffer : List Nalu) (src : LiveVideoSource) :
    ∃ frames, (src.onH26xData d c ts buffer).queue = src.queue ++ frames ∧
      times frames = List.replicate (src.postedCount d c ts buffer) ts.toUInt64 := by
  obtain ⟨frames, hqueue, hencoded⟩ := onH26xData_encoded (c := c) d ts buffer src
  refine ⟨_, hqueue.trans (List.append_assoc ..), ?_⟩
  rw [times_append, ← times_encoded frames, hencoded, postedCount, List.replicate_add]
  congr 1
  · split
    · rfl
    · exact times_delta ts _
  · split <;> rfl

theorem run_concat (calls : List DataCall) (call : DataCall) (src : LiveVideoSource) :
    src.run id (calls ++ [call]) =
      ((src.run id calls).onData call.decoding call.timestamp id call.buffer).1 := by
  simp [run]

theorem run_concat_queue (hcodec : src.codec.getD id "" = c.name) (calls : List DataCall)
    (call : DataCall) :
    ∃ frames, (src.run id (calls ++ [call])).queue = (src.run id calls).queue ++ frames ∧
      times frames =
        List.replicate ((src.run id calls).postedCount call.decoding c call.timestamp call.buffer)
          call.timestamp.toUInt64 := by
  obtain ⟨frames, hqueue, htimes⟩ :=
    onH26xData_times (c := c) call.decoding call.timestamp call.buffer (src.run id calls)
  have hposted := (onData_session call.decoding call.timestamp call.buffer
    (run_cfg calls hcodec).1).2.2
  exact ⟨frames, by rw [run_concat, hposted, hqueue], htimes⟩

theorem run_queue (hcodec : src.codec.getD id "" = c.name) (calls : List DataCall) :
    src.queue <+: (src.run id calls).queue := by
  induction calls using List.reverseRecOn with
  | nil => exact List.prefix_rfl
  | append_singleton calls call ih =>
    obtain ⟨frames, hqueue, _⟩ := run_concat_queue hcodec calls call
    rw [hqueue]
    exact ih.trans (List.prefix_append _ frames)

theorem run_times (hcodec : src.codec.getD id "" = c.name) (calls : List DataCall)
    (call : DataCall) :
    times (postedFrames src (src.run id (calls ++ [call]))) =
      times (postedFrames src (src.run id calls)) ++
        List.replicate ((src.run id calls).postedCount call.decoding c call.timestamp call.buffer)
          call.timestamp.toUInt64 := by
  obtain ⟨frames, hqueue, htimes⟩ := run_concat_queue hcodec calls call
  have hlen := (run_queue hcodec calls).length_le
  rw [postedFrames, hqueue, List.drop_append_of_le_length hlen, times_append, htimes,
    postedFrames]

/-- A call with a time in front of that of the last frame brings no IDR slice, and
other slices only when the time is also in front of that of the call before. -/
def InTime (c : Codec) (src : LiveVideoSource) (earlier : List UInt64) (call : DataCall) : Prop :=
  ∀ last ∈ earlier.getLast?, call.timestamp.toUInt64 < last →
    call.buffer.any c.isIdr = false ∧
      (src.prevTimestamp ≠ 0 ∧ call.timestamp.toUInt64 < src.prevTimestamp ∨
        call.buffer.any c.isOther = false)

theorem postedCount_eq_zero {call : DataCall} (hdecoder : call.decoding.decoder = some "FFmpeg") :
    src.postedCount call.decoding c call.timestamp call.buffer = 0 ↔
      call.buffer.any c.isIdr = false ∧
        (src.prevTimestamp ≠ 0 ∧ call.timestamp.toUInt64 < src.prevTimestamp ∨
          call.buffer.any c.isOther = false) := by
  have hpast : src.dropsPast call.decoding call.timestamp = true ↔
      src.prevTimestamp ≠ 0 ∧ call.timestamp.toUInt64 < src.prevTimestamp := by
    simp [dropsPast, hdecoder]
  have hother : (call.buffer.filter c.isOther).length = 0 ↔
      call.buffer.any c.isOther = false := by
    simp [List.filter_eq_nil_iff]
  rw [postedCount, Nat.add_eq_zero_iff, ← hpast, ← hother]
  cases call.buffer.any c.isIdr <;> cases src.dropsPast call.decoding call.timestamp <;> simp

/-- For the FFmpeg decoder the frames of a session are in the order of their times
exactly when every call is in time. -/
theorem frame_times_iff (hcodec : src.codec.getD id "" = c.name) (calls : List DataCall)
    (hdecoder : ∀ call ∈ calls, call.decoding.decoder = some "FFmpeg") :
    (times (postedFrames src (src.run id calls))).Pairwise (· ≤ ·) ↔
      ∀ done call rest, calls = done ++ call :: rest →
        InTime c (src.run id done) (times (postedFrames src (src.run id done))) call := by
  induction calls using List.reverseRecOn with
  | nil => simp [run, postedFrames, times]
  | append_singleton calls call ih =>
    have hbefore := ih fun call' hcall' => hdecoder call' (List.mem_append_left _ hcall')
    have hcall := hdecoder call (List.mem_append_right _ (List.mem_singleton.mpr rfl))
    rw [Histories.forall_split_concat, run_times hcodec, pairwise_append_replicate, hbefore]
    refine and_congr_right fun _ => ?_
    rw [InTime, ← postedCount_eq_zero hcall]
    constructor
    · intro hlater last hlast hearlier
      by_contra hposted
      exact absurd (hlater hposted last hlast) (UInt64.not_le.mpr hearlier)
    · intro hnone hposted last hlast
      exact UInt64.not_lt.mp fun hearlier => hposted (hnone last hlast hearlier)

def ffmpeg : Decoding := { Decoding.plain with decoder := some "FFmpeg" }

theorem frame_times_dropped :
    times (postedFrames startedH264 (startedH264.run "v"
        [⟨ffmpeg, 10, [.sps, .pps, .idrSlice]⟩, ⟨ffmpeg, 5, [.slice]⟩, ⟨ffmpeg, 12, [.slice]⟩])) =
        [10, 12] ∧
      ([10, 12] : List UInt64).Pairwise (· ≤ ·) := by
  have htimes : times (postedFrames startedH264 (startedH264.run "v"
      [⟨ffmpeg, 10, [.sps, .pps, .idrSlice]⟩, ⟨ffmpeg, 5, [.slice]⟩, ⟨ffmpeg, 12, [.slice]⟩])) =
      [10, 12] := by decide
  refine ⟨htimes, ?_⟩
  rw [← htimes]
  refine (frame_times_iff (c := .h264) (by decide) _ (by simp [ffmpeg])).mpr
    (Histories.forall_split.mpr fun i hi => ?_)
  match i, hi with
  | 0, _ => exact fun last hlast => nomatch hlast
  | 1, _ =>
    change InTime .h264 _ _ ⟨ffmpeg, 5, [.slice]⟩
    exact fun _ _ _ => ⟨by decide, .inl (by decide)⟩
  | 2, _ =>
    change InTime .h264 _ _ ⟨ffmpeg, 12, [.slice]⟩
    intro last hlast hearlier
    have hten : some 10 = some last := hlast
    cases hten
    exact absurd hearlier (by decide)

/-- Of two slices in the past only the first one is dropped. -/
theorem frame_times_back : ¬ ∀ (c : Codec) (id : String) (src : LiveVideoSource)
    (calls : List DataCall), src.codec.getD id "" = c.name →
    (∀ call ∈ calls, call.decoding.decoder = some "FFmpeg") →
      (times (postedFrames src (src.run id calls))).Pairwise (· ≤ ·) := fun halways =>
  absurd (halways .h264 "v" startedH264
    [⟨ffmpeg, 10, [.slice]⟩, ⟨ffmpeg, 5, [.slice]⟩, ⟨ffmpeg, 6, [.slice]⟩] (by decide)
    (by simp [ffmpeg])) (by decide)

end LiveVideoSource

end WebrtcStreamer
