import WebrtcStreamer.StreamLabel
import WebrtcStreamer.Transition

/-! `LiveAudioSource`: the packets are decoded into a queue, from which the sinks
get segments of 10 ms. -/

set_option autoImplicit false

namespace WebrtcStreamer

structure SdpAudioFormat where
  name : String
  clockrateHz : Int
  numChannels : Int
  parameters : Options

abbrev AudioSink := Nat

structure AudioSegment where
  data : List Int16
  sampleRate : Int
  channels : Int
  frames : Int
  deriving DecidableEq, Repr

structure LiveAudioSource where
  /-- `m_freq` -/
  freq : Int
  /-- `m_channel` -/
  channel : Int
  /-- `m_decoder` is not null -/
  decoder : Bool
  /-- `m_codec` -/
  codec : Std.TreeMap String String
  /-- `m_buffer` -/
  buffer : List UInt16
  /-- `m_sinks` -/
  sinks : List AudioSink
  /-- `onData` is in the loop that hands out segments -/
  draining : Bool
  /-- an exception of `new` has ended the process -/
  thrown : Bool
  /-- what `Decode` has given, and the segments; not in the code -/
  decoded : List Int16
  segments : List AudioSegment
  /-- the calls of `OnData` -/
  delivered : List (AudioSink × AudioSegment)

namespace LiveAudioSource

def new (sinks : List AudioSink) : LiveAudioSource where
  freq := 8000
  channel := 1
  decoder := false
  codec := ∅
  buffer := []
  sinks
  draining := false
  thrown := false
  decoded := []
  segments := []
  delivered := []

def format (src : LiveAudioSource) (codec : String) : SdpAudioFormat where
  name := codec
  clockrateHz := src.freq
  numChannels := src.channel
  parameters := if src.channel = 2 then (∅ : Options).insert "stereo" "1" else ∅

/-- `onNewSession`; the factory may create no decoder for a format that it supports. -/
def onNewSession (supported : SdpAudioFormat → Bool) (created : Bool) (id media codec : String)
    (rtpfrequency channels : UInt32) (src : LiveAudioSource) : LiveAudioSource × Bool :=
  if media = "audio" then
    let src := { src with
      freq := wrapInt rtpfrequency.toNat
      channel := wrapInt channels.toNat }
    if supported (src.format codec) then
      ({ src with decoder := created, codec := src.codec.insert id codec }, true)
    else (src, false)
  else (src, false)

def accepts (src : LiveAudioSource) (id : String) : Bool := src.codec.contains id && src.decoder

def segmentLength (src : LiveAudioSource) : Int := src.freq.tdiv 100

def segmentSize (src : LiveAudioSource) : Int := wrapInt (src.segmentLength * src.channel)

/-- `m_buffer.size() > segmentLength * m_channel`, as values of `size_t`. -/
def more (src : LiveAudioSource) : Bool := (src.buffer.length : Int) > src.segmentSize % 2 ^ 64

def front (src : LiveAudioSource) : AudioSegment where
  data := (src.buffer.take src.segmentSize.toNat).map UInt16.toInt16
  sampleRate := src.freq
  channels := src.channel
  frames := src.segmentLength

def handOut (src : LiveAudioSource) : LiveAudioSource :=
  { src with
    buffer := src.buffer.drop src.segmentSize.toNat
    segments := src.segments ++ [src.front]
    delivered := src.delivered ++ src.sinks.map fun sink => (sink, src.front) }

/-- `PacketDuration(buffer, size) * m_channel * sizeof(int16_t)`, as an `int`. -/
def maxDecodedBufferSize (src : LiveAudioSource) (duration : Int) : Int :=
  wrapInt (wrapInt (duration * src.channel) * 2)

/-- The steps of the capture thread, and the sinks that come and go in between. -/
inductive Action where
  /-- with the answer of `PacketDuration` and the samples of `Decode`: none where it fails -/
  | onData (id : String) (duration : Int) (samples : List Int16)
  | round
  | leave
  | addSink (sink : AudioSink)
  | removeSink (sink : AudioSink)
  deriving DecidableEq, Repr

def step (src : LiveAudioSource) (a : Action) : Option LiveAudioSource :=
  if src.thrown then none
  else match a with
    | .onData id duration samples =>
      if src.draining then none
      else if src.accepts id then
        -- `new int16_t[maxDecodedBufferSize]`
        if src.maxDecodedBufferSize duration < 0 then some { src with thrown := true }
        -- so many bytes are written by `Decode` at most
        else if 2 * (samples.length : Int) ≤ src.maxDecodedBufferSize duration then
          some { src with
            buffer := src.buffer ++ samples.map Int16.toUInt16
            decoded := src.decoded ++ samples
            draining := true }
        else none
      else some src
    | .round => if src.draining && src.more then some src.handOut else none
    | .leave => if src.draining && !src.more then some { src with draining := false } else none
    | .addSink sink => some { src with sinks := src.sinks ++ [sink] }
    | .removeSink sink => some { src with sinks := src.sinks.filter (· ≠ sink) }

def keeps (sinks : List AudioSink) (_ : LiveAudioSource) : Action → Prop
  | .addSink sink => sink ∉ sinks
  | .removeSink sink => sink ∉ sinks
  | _ => True

instance (sinks : List AudioSink) (src : LiveAudioSource) :
    (a : Action) → Decidable (keeps sinks src a)
  | .addSink sink => inferInstanceAs (Decidable (sink ∉ sinks))
  | .removeSink sink => inferInstanceAs (Decidable (sink ∉ sinks))
  | .onData _ _ _ => inferInstanceAs (Decidable True)
  | .round => inferInstanceAs (Decidable True)
  | .leave => inferInstanceAs (Decidable True)

def received (src : LiveAudioSource) (sink : AudioSink) : List AudioSegment :=
  (src.delivered.filter fun x => x.1 = sink).map Prod.snd

variable {src src' : LiveAudioSource} {sinks : List AudioSink} {sink : AudioSink} {n : Nat}

theorem received_handOut (src : LiveAudioSource) (sink : AudioSink) :
    src.handOut.received sink =
      src.received sink ++ List.replicate (src.sinks.count sink) src.front := by
  have heach : ((src.sinks.map fun s => (s, src.front)).filter fun x => x.1 = sink).map Prod.snd =
      List.replicate (src.sinks.count sink) src.front := by
    induction src.sinks with
    | nil => rfl
    | cons s sinks ih =>
      by_cases hs : s = sink
      · simpa [hs, List.count_cons, List.replicate_succ] using ih
      · simpa [hs, List.count_cons] using ih
  simp only [received, handOut, List.filter_append, List.map_append, heach]

theorem toInt16_toUInt16 (samples : List Int16) :
    (samples.map Int16.toUInt16).map UInt16.toInt16 = samples := by
  have hround : UInt16.toInt16 ∘ Int16.toUInt16 = id := funext Int16.toInt16_toUInt16
  rw [List.map_map, hround, List.map_id]

/-- The samples of the segments and those in the queue are all that was decoded. -/
structure Conserved (sinks : List AudioSink) (n : Nat) (src : LiveAudioSource) : Prop where
  size : src.segmentSize = n
  samples : src.segments.flatMap AudioSegment.data ++ src.buffer.map UInt16.toInt16 = src.decoded
  lengths : ∀ segment ∈ src.segments, segment.data.length = n
  registered : ∀ sink ∈ sinks, src.sinks.count sink = 1
  received : ∀ sink ∈ sinks, src.received sink = src.segments

theorem Conserved.lt_length (h : Conserved sinks n src) (hmore : src.more = true) :
    n < src.buffer.length := by
  have hsmall : (n : Int) < 2 ^ 31 := by
    have hbmod := Int.bmod_lt (x := src.segmentLength * src.channel) (m := 2 ^ 32) (by decide)
    have hsize := h.size
    rw [segmentSize, wrapInt] at hsize
    omega
  rw [more, h.size, decide_eq_true_eq] at hmore
  omega

theorem Conserved.handOut (h : Conserved sinks n src) (hmore : src.more = true) :
    Conserved sinks n src.handOut where
  size := h.size
  samples := by
    have hsplit : src.front.data ++ (src.buffer.drop n).map UInt16.toInt16 =
        src.buffer.map UInt16.toInt16 := by
      rw [front, h.size, Int.toNat_natCast, ← List.map_append, List.take_append_drop]
    simp only [LiveAudioSource.handOut, h.size, Int.toNat_natCast, List.flatMap_append,
      List.flatMap_singleton, List.append_assoc, hsplit]
    exact h.samples
  lengths segment hmem := by
    rcases List.mem_append.mp hmem with hmem | hmem
    · exact h.lengths segment hmem
    · have hlength := h.lt_length hmore
      rw [List.mem_singleton.mp hmem, front, h.size, Int.toNat_natCast, List.length_map,
        List.length_take]
      omega
  registered := h.registered
  received sink hmem := by
    rw [received_handOut, h.registered sink hmem, h.received sink hmem]
    rfl

inductive Stepped (src : LiveAudioSource) : Action → LiveAudioSource → Prop where
  | packet (id : String) (duration : Int) (samples : List Int16) : src.draining = false →
      src.accepts id = true → 2 * (samples.length : Int) ≤ src.maxDecodedBufferSize duration →
      Stepped src (.onData id duration samples) { src with
        buffer := src.buffer ++ samples.map Int16.toUInt16
        decoded := src.decoded ++ samples
        draining := true }
  | thrown (id : String) (duration : Int) (samples : List Int16) : src.draining = false →
      src.accepts id = true → src.maxDecodedBufferSize duration < 0 →
      Stepped src (.onData id duration samples) { src with thrown := true }
  | ignored (id : String) (duration : Int) (samples : List Int16) : src.draining = false →
      src.accepts id = false → Stepped src (.onData id duration samples) src
  | round : src.draining = true → src.more = true → Stepped src .round src.handOut
  | leave : src.more = false → Stepped src .leave { src with draining := false }
  | addSink (sink : AudioSink) :
      Stepped src (.addSink sink) { src with sinks := src.sinks ++ [sink] }
  | removeSink (sink : AudioSink) :
      Stepped src (.removeSink sink) { src with sinks := src.sinks.filter (· ≠ sink) }

theorem step_stepped {a : Action} (h : step src a = some src') : Stepped src a src' := by
  unfold step at h
  rw [Option.ite_none_left_eq_some] at h
  obtain ⟨-, h⟩ := h
  cases a with
  | onData id duration samples =>
    dsimp only at h
    rw [Option.ite_none_left_eq_some] at h
    obtain ⟨hdraining, h⟩ := h
    rw [Bool.not_eq_true] at hdraining
    split at h
    · rename_i haccepts
      split at h
      · rename_i hnegative
        cases h
        exact .thrown id duration samples hdraining haccepts hnegative
      · rw [Option.ite_none_right_eq_some] at h
        obtain ⟨hfits, h⟩ := h
        cases h
        exact .packet id duration samples hdraining haccepts hfits
    · rename_i haccepts
      cases h
      exact .ignored id duration samples hdraining (Bool.eq_false_iff.mpr haccepts)
  | round =>
    simp only [Option.ite_none_right_eq_some, Bool.and_eq_true, Option.some.injEq] at h
    obtain ⟨⟨hdraining, hmore⟩, rfl⟩ := h
    exact .round hdraining hmore
  | leave =>
    simp only [Option.ite_none_right_eq_some, Bool.and_eq_true, Bool.not_eq_true',
      Option.some.injEq] at h
    obtain ⟨⟨-, hmore⟩, rfl⟩ := h
    exact .leave hmore
  | addSink sink =>
    cases h
    exact .addSink sink
  | removeSink sink =>
    cases h
    exact .removeSink sink

theorem Conserved.step {a : Action} (h : Conserved sinks n src) (ha : keeps sinks src a)
    (hstep : step src a = some src') : Conserved sinks n src' := by
  cases step_stepped hstep with
  | thrown => exact ⟨h.size, h.samples, h.lengths, h.registered, h.received⟩
  | packet id duration samples =>
    refine ⟨h.size, ?_, h.lengths, h.registered, h.received⟩
    simp only [List.map_append, toInt16_toUInt16, ← List.append_assoc, h.samples]
  | ignored => exact h
  | round _ hmore => exact h.handOut hmore
  | leave => exact ⟨h.size, h.samples, h.lengths, h.registered, h.received⟩
  | addSink other =>
    refine ⟨h.size, h.samples, h.lengths, fun sink hmem => ?_, h.received⟩
    have hne : other ≠ sink := fun heq => ha (heq ▸ hmem)
    rw [List.count_append, h.registered sink hmem, List.count_singleton]
    simp [hne]
  | removeSink other =>
    refine ⟨h.size, h.samples, h.lengths, fun sink hmem => ?_, h.received⟩
    have hne : sink ≠ other := fun heq => ha (heq ▸ hmem)
    rw [List.count_filter (by simpa using hne)]
    exact h.registered sink hmem

/-- The factory supports no format for which 10 ms have more samples than an `int` holds. -/
def ShortSegments (supported : SdpAudioFormat → Bool) : Prop :=
  ∀ format, supported format = true → format.clockrateHz / 100 * format.numChannels < 2 ^ 31

def tenMs (src : LiveAudioSource) : Nat := (src.freq / 100 * src.channel).toNat

section Session

variable {supported : SdpAudioFormat → Bool} {created : Bool} {id media codec : String}
  {rtpfrequency channels : UInt32}

theorem segmentSize_eq (hfreq : 100 ≤ src.freq) (hchannel : 0 < src.channel)
    (hshort : src.freq / 100 * src.channel < 2 ^ 31) :
    src.segmentSize = src.tenMs ∧ 0 < src.tenMs := by
  have hlength : 1 ≤ src.freq / 100 := by omega
  have hpos : 0 < src.freq / 100 * src.channel := Int.mul_pos (by omega) hchannel
  rw [segmentSize, segmentLength, Int.tdiv_eq_ediv_of_nonneg (by omega),
    wrapInt_of_lt hpos.le hshort, tenMs]
  omega

theorem onNewSession_eq {src₀ : LiveAudioSource}
    (h : src.onNewSession supported created id media codec rtpfrequency channels = (src₀, true)) :
    supported (src₀.format codec) = true ∧ src₀.buffer = src.buffer ∧ src₀.sinks = src.sinks ∧
      src₀.decoded = src.decoded ∧ src₀.segments = src.segments ∧
      src₀.delivered = src.delivered := by
  simp only [onNewSession] at h
  split at h
  · split at h
    · rename_i hsupported
      obtain ⟨rfl, -⟩ := Prod.mk.inj h
      exact ⟨hsupported, rfl, rfl, rfl, rfl, rfl⟩
    · exact absurd (Prod.mk.inj h).2 Bool.false_ne_true
  · exact absurd (Prod.mk.inj h).2 Bool.false_ne_true

theorem Conserved.start {src₀ : LiveAudioSource} {kept : List AudioSink}
    (hsupported : ShortSegments supported)
    (hnew : (new sinks).onNewSession supported created id media codec rtpfrequency channels =
      (src₀, true))
    (hfreq : 100 ≤ src₀.freq) (hchannel : 0 < src₀.channel)
    (hkept : ∀ sink ∈ kept, sinks.count sink = 1) : Conserved kept src₀.tenMs src₀ := by
  obtain ⟨hformat, hbuffer, hsinks, hdecoded, hsegments, hdelivered⟩ := onNewSession_eq hnew
  have hshort := hsupported _ hformat
  refine ⟨(segmentSize_eq hfreq hchannel hshort).1, ?_, ?_, ?_, ?_⟩
  · rw [hsegments, hbuffer, hdecoded]
    rfl
  · rw [hsegments]
    exact fun _ hmem => absurd hmem List.not_mem_nil
  · rw [hsinks]
    exact hkept
  · intro sink _
    rw [LiveAudioSource.received, hdelivered, hsegments]
    rfl

/-- In every run of a session: a sink that is registered once and stays so has
been given, in segments of 10 ms, all that was decoded up to what is in the
queue, and the other sinks of this kind have been given the same. -/
theorem samples_conserved {src₀ : LiveAudioSource} {kept : List AudioSink}
    (hsupported : ShortSegments supported)
    (hnew : (new sinks).onNewSession supported created id "audio" codec rtpfrequency channels =
      (src₀, true))
    (hfreq : 100 ≤ src₀.freq) (hchannel : 0 < src₀.channel)
    (hkept : ∀ sink ∈ kept, sinks.count sink = 1)
    (hrun : Transition.Reaches step (keeps kept) src₀ src) :
    ∀ sink ∈ kept,
      (src.received sink).flatMap AudioSegment.data ++ src.buffer.map UInt16.toInt16 =
        src.decoded ∧
      (∀ segment ∈ src.received sink,
        (segment.data.length : Int) = src₀.freq / 100 * src₀.channel) ∧
      ∀ sink' ∈ kept, src.received sink' = src.received sink := by
  have hconserved : Conserved kept src₀.tenMs src :=
    hrun.invariant (Conserved kept src₀.tenMs) (.start hsupported hnew hfreq hchannel hkept)
      fun _ _ _ hsrc ha hstep => hsrc.step ha hstep
  intro sink hsink
  rw [hconserved.received sink hsink]
  refine ⟨hconserved.samples, fun segment hmem => ?_, hconserved.received⟩
  have hlength := hconserved.lengths segment hmem
  have hnonneg : 0 ≤ src₀.freq / 100 * src₀.channel := Int.mul_nonneg (by omega) hchannel.le
  rw [hlength, tenMs, Int.toNat_of_nonneg hnonneg]

end Session

/-- The loop ends: each round takes samples from the queue. -/
theorem onData_returns (h : Conserved sinks n src) (hn : 0 < n)
    (hdraining : src.draining = true) (hgoing : src.thrown = false) :
    ∃ src', Transition.Reaches step (keeps sinks) src src' ∧ src'.draining = false := by
  induction hlength : src.buffer.length using Nat.strongRecOn generalizing src with
  | ind length ih =>
    cases hmore : src.more with
    | false =>
      have hleave : step src .leave = some { src with draining := false } := by
        simp [step, hgoing, hdraining, hmore]
      exact ⟨_, Transition.Reaches.single (a := .leave) trivial hleave, rfl⟩
    | true =>
      have hround : step src .round = some src.handOut := by
        simp [step, hgoing, hdraining, hmore]
      have hshorter : src.handOut.buffer.length < length := by
        have hlt := h.lt_length hmore
        simp only [LiveAudioSource.handOut, h.size, Int.toNat_natCast, List.length_drop]
        omega
      obtain ⟨src', hreaches, hdone⟩ := ih _ hshorter (h.handOut hmore) hdraining hgoing rfl
      exact ⟨src', (Transition.Reaches.single (a := .round) trivial hround).trans hreaches, hdone⟩

def pcmu (format : SdpAudioFormat) : Bool :=
  format.name = "PCMU" && format.clockrateHz = 8000 && format.numChannels = 1

theorem pcmu_short : ShortSegments pcmu := by
  intro format h
  simp only [pcmu, Bool.and_eq_true, decide_eq_true_eq] at h
  rw [h.1.2, h.2]
  decide

def camera : LiveAudioSource := ((new [7]).onNewSession pcmu true "a" "audio" "PCMU" 8000 1).1

theorem samples_conserved_packet : ∃ src : LiveAudioSource,
    (src.received 7).flatMap AudioSegment.data ++ src.buffer.map UInt16.toInt16 = src.decoded ∧
    src.decoded.length = 160 ∧ (src.received 7).length = 1 := by
  obtain ⟨src, hrun, hp⟩ := Transition.exists_reaches_of_run step (keeps [7]) camera
    [.onData "a" 160 (List.replicate 160 (-3)), .addSink 8, .round, .leave]
    (fun src => src.decoded.length = 160 && (src.received 7).length = 1) (by decide +kernel)
  rw [Bool.and_eq_true, decide_eq_true_eq, decide_eq_true_eq] at hp
  have hsession : (new [7]).onNewSession pcmu true "a" "audio" "PCMU" 8000 1 = (camera, true) :=
    Prod.ext rfl (by decide +kernel)
  have hconserved := samples_conserved pcmu_short hsession (by decide +kernel) (by decide +kernel)
    (by decide) hrun 7 (by decide)
  exact ⟨src, hconserved.1, hp⟩

end LiveAudioSource

end WebrtcStreamer
