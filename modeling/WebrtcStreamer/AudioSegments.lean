import WebrtcStreamer.LiveAudio

/-! The loop of `LiveAudioSource::onData` that cuts segments: when it ends and
what it leaves in the queue. -/

set_option autoImplicit false

namespace WebrtcStreamer

namespace LiveAudioSource

variable {src₀ src src' : LiveAudioSource} {n : Nat}

/-! ### The end of the loop -/

def LoopEnds (src : LiveAudioSource) : Prop := ∃ n, (handOut^[n] src).more = false

theorem segmentSize_lt (src : LiveAudioSource) : src.segmentSize < 2 ^ 31 := by
  have hbmod := Int.bmod_lt (x := src.segmentLength * src.channel) (m := 2 ^ 32) (by decide)
  rw [segmentSize, wrapInt]
  omega

theorem segmentSize_ge (src : LiveAudioSource) : -2 ^ 31 ≤ src.segmentSize := by
  have hbmod := Int.le_bmod (x := src.segmentLength * src.channel) (m := 2 ^ 32) (by decide)
  rw [segmentSize, wrapInt]
  omega

theorem more_iff (h : src.segmentSize = n) : src.more = true ↔ n < src.buffer.length := by
  have hlt := src.segmentSize_lt
  rw [more, decide_eq_true_eq]
  omega

theorem handOut_more (h : src.segmentSize ≤ 0) : src.handOut.more = src.more := by
  have hsize : src.segmentSize.toNat = 0 := by omega
  have hsame : src.handOut.segmentSize = src.segmentSize := rfl
  simp only [more, hsame]
  simp only [handOut, hsize, List.drop_zero]

theorem iterate_handOut_size (src : LiveAudioSource) (n : Nat) :
    (handOut^[n] src).segmentSize = src.segmentSize := by
  induction n with
  | zero => rfl
  | succ n ih => rw [Function.iterate_succ_apply']; exact ih

theorem iterate_handOut_more (h : src.segmentSize ≤ 0) (n : Nat) :
    (handOut^[n] src).more = src.more := by
  induction n with
  | zero => rfl
  | succ n ih =>
    rw [Function.iterate_succ_apply', handOut_more (by rw [iterate_handOut_size]; exact h), ih]

/-- Each round takes samples from the queue, by induction on its length. -/
theorem loopEnds_of_pos (h : 0 < src.segmentSize) : src.LoopEnds := by
  obtain ⟨n, hn⟩ := Int.eq_ofNat_of_zero_le h.le
  induction hlength : src.buffer.length using Nat.strongRecOn generalizing src with
  | ind length ih =>
    by_cases hmore : src.more = true
    · have hlt := (more_iff hn).mp hmore
      have hshorter : src.handOut.buffer.length < length := by
        simp only [handOut, List.length_drop, hn, Int.toNat_natCast]
        omega
      have hnext : src.handOut.LoopEnds := ih _ hshorter h hn rfl
      obtain ⟨k, hk⟩ := hnext
      exact ⟨k + 1, hk⟩
    · exact ⟨0, Bool.eq_false_iff.mpr hmore⟩

/-- Without samples in a segment the loop ends only if it does not begin. -/
theorem loopEnds_iff (src : LiveAudioSource) :
    src.LoopEnds ↔ 0 < src.segmentSize ∨ src.more = false := by
  constructor
  · rintro ⟨n, hn⟩
    by_cases hsize : 0 < src.segmentSize
    · exact Or.inl hsize
    · rw [iterate_handOut_more (by omega)] at hn
      exact Or.inr hn
  · rintro (hsize | hmore)
    · exact loopEnds_of_pos hsize
    · exact ⟨0, hmore⟩

/-! ### What stays in the queue -/

def total (src₀ src : LiveAudioSource) : Nat :=
  src₀.buffer.length + (src.decoded.length - src₀.decoded.length)

def handed (src₀ src : LiveAudioSource) : Nat := src.segments.length - src₀.segments.length

structure Cutting (n : Nat) (src₀ src : LiveAudioSource) : Prop where
  size : src.segmentSize = n
  decoded : src₀.decoded.length ≤ src.decoded.length
  segments : src₀.segments.length ≤ src.segments.length
  conserved : total src₀ src = src.buffer.length + n * handed src₀ src
  nonempty : total src₀ src ≠ 0 → 0 < src.buffer.length

theorem Cutting.start (h : src₀.segmentSize = n) : Cutting n src₀ src₀ := by
  have htotal : total src₀ src₀ = src₀.buffer.length := by
    simp only [total]
    omega
  refine ⟨h, le_refl _, le_refl _, ?_, ?_⟩
  · rw [htotal, handed, Nat.sub_self, Nat.mul_zero, Nat.add_zero]
  · omega

theorem Cutting.onData (h : Cutting n src₀ src) (samples : List Int16) :
    Cutting n src₀ { src with
      buffer := src.buffer ++ samples.map Int16.toUInt16
      decoded := src.decoded ++ samples
      draining := true } := by
  obtain ⟨hsize, hdecoded, hsegments, hconserved, hnonempty⟩ := h
  refine ⟨hsize, ?_, hsegments, ?_, ?_⟩
  all_goals
    simp only [total, handed, List.length_append, List.length_map] at *
    omega

theorem Cutting.handOut (h : Cutting n src₀ src) (hmore : src.more = true) :
    Cutting n src₀ src.handOut := by
  have hlt := (more_iff h.size).mp hmore
  obtain ⟨hsize, hdecoded, hsegments, hconserved, hnonempty⟩ := h
  have hhanded : handed src₀ src.handOut = handed src₀ src + 1 := by
    simp only [handed, LiveAudioSource.handOut, List.length_append, List.length_singleton]
    omega
  have hbuffer : src.handOut.buffer.length = src.buffer.length - n := by
    simp only [LiveAudioSource.handOut, List.length_drop, hsize, Int.toNat_natCast]
  have htotal : total src₀ src.handOut = total src₀ src := rfl
  refine ⟨hsize, hdecoded, ?_, ?_, fun _ => ?_⟩
  · simp only [LiveAudioSource.handOut, List.length_append]
    omega
  · rw [htotal, hhanded, hbuffer, hconserved, Nat.mul_succ]
    omega
  · omega

theorem Cutting.step {a : Action} (h : Cutting n src₀ src) (hstep : step src a = some src') :
    Cutting n src₀ src' := by
  cases step_stepped hstep with
  | packet id duration samples => exact h.onData samples
  | thrown => exact ⟨h.size, h.decoded, h.segments, h.conserved, h.nonempty⟩
  | ignored => exact h
  | round _ hmore => exact h.handOut hmore
  | leave => exact ⟨h.size, h.decoded, h.segments, h.conserved, h.nonempty⟩
  | addSink => exact ⟨h.size, h.decoded, h.segments, h.conserved, h.nonempty⟩
  | removeSink => exact ⟨h.size, h.decoded, h.segments, h.conserved, h.nonempty⟩

/-- With the queue no longer than a segment and not empty, the whole segments
have gone out unless the last one is just full. -/
theorem Cutting.held_lt_iff (h : Cutting n src₀ src) (hn : 0 < n) (hlen : src.buffer.length ≤ n) :
    (src.buffer.length < n ∧ handed src₀ src = total src₀ src / n) ↔
      (total src₀ src = 0 ∨ ¬ n ∣ total src₀ src) := by
  have hconserved := h.conserved
  have hnonempty := h.nonempty
  rcases Nat.lt_or_eq_of_le hlen with hlt | heq
  · have hdiv : total src₀ src / n = handed src₀ src := by
      rw [hconserved, Nat.add_mul_div_left _ _ hn, Nat.div_eq_of_lt hlt, Nat.zero_add]
    have hmod : total src₀ src % n = src.buffer.length := by
      rw [hconserved, Nat.add_mul_mod_self_left, Nat.mod_eq_of_lt hlt]
    rw [Nat.dvd_iff_mod_eq_zero, hmod]
    exact ⟨fun _ => by omega, fun _ => ⟨hlt, hdiv.symm⟩⟩
  · have hdvd : n ∣ total src₀ src := by
      rw [hconserved, heq]
      exact ⟨1 + handed src₀ src, by rw [Nat.mul_add, Nat.mul_one]⟩
    constructor
    · rintro ⟨hlt, _⟩
      omega
    · rintro (hzero | hnot)
      · omega
      · exact absurd hdvd hnot

/-- After each packet less than a segment is in the queue, and the whole ones
have gone out, exactly when the samples that have come are no whole segments. -/
theorem held_lt_segment_iff (hsize : 0 < src₀.segmentSize)
    (hrun : Transition.Reaches step (fun _ _ => True) src₀ src)
    (hleave : step src .leave = some src') :
    ((src'.buffer.length : Int) < src₀.segmentSize ∧
      handed src₀ src' = total src₀ src' / src₀.segmentSize.toNat) ↔
    (total src₀ src' = 0 ∨ ¬ src₀.segmentSize.toNat ∣ total src₀ src') := by
  obtain ⟨n, hn⟩ := Int.eq_ofNat_of_zero_le hsize.le
  have hcutting : Cutting n src₀ src :=
    hrun.invariant (Cutting n src₀) (.start hn) fun _ _ _ h _ hstep => h.step hstep
  have hcutting' := hcutting.step hleave
  have hlen : src'.buffer.length ≤ n := by
    cases step_stepped hleave with
    | leave hmore =>
      rw [Bool.eq_false_iff, Ne, more_iff hcutting.size] at hmore
      exact Nat.le_of_not_lt hmore
  rw [hn, Int.toNat_natCast, Nat.cast_lt]
  exact hcutting'.held_lt_iff (by omega) hlen

theorem camera_segmentSize : camera.segmentSize = 80 := by
  decide +kernel

theorem exists_packet (samples rounds held : Nat)
    (h : ((Transition.run step (fun _ _ => True) camera
      (.onData "a" samples (List.replicate samples (-3)) :: List.replicate rounds .round)).any
        fun src => (step src .leave).any fun src' =>
          total camera src' = samples && src'.buffer.length = held) = true) :
    ∃ src src', Transition.Reaches step (fun _ _ => True) camera src ∧
      step src .leave = some src' ∧ total camera src' = samples ∧ src'.buffer.length = held := by
  obtain ⟨src, hrun, hp⟩ := Transition.exists_reaches_of_run step (fun _ _ => True) camera _ _ h
  cases hleave : step src .leave with
  | none => simp [hleave] at hp
  | some src' => exact ⟨src, src', hrun, hleave, by simpa [hleave] using hp⟩

theorem held_lt_segment_packet : ∃ src src' : LiveAudioSource, step src .leave = some src' ∧
    total camera src' = 100 ∧ (src'.buffer.length : Int) < camera.segmentSize := by
  obtain ⟨src, src', hrun, hleave, htotal, _⟩ := exists_packet 100 1 20 (by decide +kernel)
  have hheld := held_lt_segment_iff (by rw [camera_segmentSize]; decide) hrun hleave
  rw [htotal, camera_segmentSize] at hheld
  refine ⟨src, src', hleave, htotal, ?_⟩
  rw [camera_segmentSize]
  exact (hheld.mpr (by decide)).1

theorem segment_held_back :
    ¬ ∀ src₀ src src' : LiveAudioSource, 0 < src₀.segmentSize →
      Transition.Reaches step (fun _ _ => True) src₀ src → step src .leave = some src' →
      (src'.buffer.length : Int) < src₀.segmentSize ∧
        handed src₀ src' = total src₀ src' / src₀.segmentSize.toNat := by
  intro halways
  obtain ⟨src, src', hrun, hleave, _, hheld⟩ := exists_packet 80 0 80 (by decide +kernel)
  obtain ⟨hlt, _⟩ := halways camera src src' (by rw [camera_segmentSize]; decide) hrun hleave
  rw [hheld, camera_segmentSize] at hlt
  exact absurd hlt (by decide)

end LiveAudioSource

end WebrtcStreamer
