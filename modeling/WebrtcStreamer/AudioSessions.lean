import WebrtcStreamer.AudioSegments
import WebrtcStreamer.Histories

/-! The calls of `LiveAudioSource::onNewSession`: what a rejected one leaves, and
what the sessions mean for the loop of `onData`. -/

set_option autoImplicit false

namespace WebrtcStreamer

structure SessionCall where
  id : String
  media : String
  codec : String
  rtpfrequency : UInt32
  channels : UInt32
  created : Bool
  deriving DecidableEq, Repr

namespace SessionCall

def announced (c : SessionCall) : Int × Int :=
  (wrapInt c.rtpfrequency.toNat, wrapInt c.channels.toNat)

def format (c : SessionCall) : SdpAudioFormat where
  name := c.codec
  clockrateHz := c.announced.1
  numChannels := c.announced.2
  parameters := if c.announced.2 = 2 then (∅ : Options).insert "stereo" "1" else ∅

def segmentSize (c : SessionCall) : Int := wrapInt (c.announced.1.tdiv 100 * c.announced.2)

end SessionCall

namespace LiveAudioSource

section Sessions

variable (supported : SdpAudioFormat → Bool)

def newSession (src : LiveAudioSource) (c : SessionCall) : LiveAudioSource × Bool :=
  src.onNewSession supported c.created c.id c.media c.codec c.rtpfrequency c.channels

def afterSessions (src : LiveAudioSource) (calls : List SessionCall) : LiveAudioSource :=
  calls.foldl (fun src c => (src.newSession supported c).1) src

def rate (src : LiveAudioSource) : Int × Int := (src.freq, src.channel)

def announcedLast (src : LiveAudioSource) (calls : List SessionCall) : Int × Int :=
  calls.foldl (fun rate c => if c.media = "audio" then c.announced else rate) src.rate

def acceptedLast (src : LiveAudioSource) (calls : List SessionCall) : Int × Int :=
  calls.foldl (fun rate c =>
    if c.media = "audio" ∧ supported c.format = true then c.announced else rate) src.rate

/-- The members that the packets of the other sessions depend on. -/
structure SameSession (src src' : LiveAudioSource) : Prop where
  freq : src'.freq = src.freq
  channel : src'.channel = src.channel
  decoder : src'.decoder = src.decoder
  codec : src'.codec = src.codec
  buffer : src'.buffer = src.buffer

/-- Every rejected call leaves these members alone, and the frequency and the
channels are those of the session accepted last. -/
def RejectionsHarmless (src : LiveAudioSource) (calls : List SessionCall) : Prop :=
  (∀ done c rest, calls = done ++ c :: rest →
    ((src.afterSessions supported done).newSession supported c).2 = false →
    SameSession (src.afterSessions supported done)
      ((src.afterSessions supported done).newSession supported c).1) ∧
  (src.afterSessions supported calls).rate = src.acceptedLast supported calls

/-- A rejected call for audio announces what the call for audio before it has announced. -/
def RejectionsRepeat (src : LiveAudioSource) (calls : List SessionCall) : Prop :=
  ∀ done c rest, calls = done ++ c :: rest → c.media = "audio" → supported c.format = false →
    c.announced = src.announcedLast done

variable {supported} {src : LiveAudioSource} {c : SessionCall} {calls : List SessionCall}

theorem format_announced (src : LiveAudioSource) (c : SessionCall) :
    { src with freq := c.announced.1, channel := c.announced.2 }.format c.codec = c.format := by
  simp only [LiveAudioSource.format, SessionCall.format]

theorem newSession_eq (supported : SdpAudioFormat → Bool) (src : LiveAudioSource)
    (c : SessionCall) :
    src.newSession supported c =
      if c.media = "audio" then
        if supported c.format = true then
          ({ src with
            freq := c.announced.1
            channel := c.announced.2
            decoder := c.created
            codec := src.codec.insert c.id c.codec }, true)
        else ({ src with freq := c.announced.1, channel := c.announced.2 }, false)
      else (src, false) := by
  have hfreq : c.announced.1 = wrapInt c.rtpfrequency.toNat := by rw [SessionCall.announced]
  have hchannel : c.announced.2 = wrapInt c.channels.toNat := by rw [SessionCall.announced]
  rw [newSession, onNewSession, ← hfreq, ← hchannel]
  simp only [format_announced]

theorem afterSessions_concat (calls : List SessionCall) (c : SessionCall) :
    src.afterSessions supported (calls ++ [c]) =
      ((src.afterSessions supported calls).newSession supported c).1 := by
  rw [afterSessions, List.foldl_append]
  rfl

theorem newSession_rate (src : LiveAudioSource) (c : SessionCall) :
    (src.newSession supported c).1.rate = if c.media = "audio" then c.announced else src.rate := by
  rw [newSession_eq]
  split_ifs <;> simp only [rate]

theorem afterSessions_rate (calls : List SessionCall) :
    (src.afterSessions supported calls).rate = src.announcedLast calls := by
  induction calls using List.reverseRecOn with
  | nil => rfl
  | append_singleton calls c ih =>
    rw [afterSessions_concat, newSession_rate, ih, announcedLast, announcedLast,
      List.foldl_append]
    rfl

/-- One call: a rejection is harmless if it is not for audio or announces what is in force. -/
theorem newSession_harmless_iff :
    ((src.newSession supported c).2 = false → SameSession src (src.newSession supported c).1) ↔
      (c.media = "audio" → supported c.format = false → c.announced = src.rate) := by
  rw [newSession_eq]
  by_cases hmedia : c.media = "audio"
  · cases hsupported : supported c.format with
    | true => simp [hmedia]
    | false =>
      have hrates : c.announced = src.rate ↔
          c.announced.1 = src.freq ∧ c.announced.2 = src.channel := by
        rw [Prod.ext_iff, rate]
      simp only [hmedia, if_true, Bool.false_eq_true, if_false, forall_const, hrates]
      generalize c.announced = announced
      constructor
      · intro hsame
        exact ⟨hsame.freq, hsame.channel⟩
      · rintro ⟨hfreq, hchannel⟩
        exact ⟨hfreq, hchannel, rfl, rfl, rfl⟩
  · simp only [hmedia, if_false, false_implies, iff_true]
    exact fun _ => ⟨rfl, rfl, rfl, rfl, rfl⟩

theorem rate_of_repeat (h : RejectionsRepeat supported src calls) :
    (src.afterSessions supported calls).rate = src.acceptedLast supported calls := by
  induction calls using List.reverseRecOn with
  | nil => rfl
  | append_singleton calls c ih =>
    obtain ⟨hdone, hc⟩ := Histories.forall_split_concat.mp h
    have hlast : src.acceptedLast supported (calls ++ [c]) =
        if c.media = "audio" ∧ supported c.format = true then c.announced
        else src.acceptedLast supported calls := by
      rw [acceptedLast, acceptedLast, List.foldl_append]
      rfl
    rw [afterSessions_concat, newSession_rate, hlast, ← ih hdone]
    by_cases hmedia : c.media = "audio"
    · cases hsupported : supported c.format with
      | true => simp [hmedia]
      | false => simp [hmedia, hc hmedia hsupported, afterSessions_rate]
    · simp [hmedia]

/-- In any sequence of calls the rejected ones are harmless exactly when those for audio
repeat what the call for audio before them has announced. -/
theorem rejections_harmless_iff (supported : SdpAudioFormat → Bool) (src : LiveAudioSource)
    (calls : List SessionCall) :
    RejectionsHarmless supported src calls ↔ RejectionsRepeat supported src calls := by
  constructor
  · rintro ⟨hharmless, _⟩ done c rest heq
    rw [← src.afterSessions_rate done]
    exact newSession_harmless_iff.mp (hharmless done c rest heq)
  · intro hrepeat
    refine ⟨fun done c rest heq => newSession_harmless_iff.mpr ?_, rate_of_repeat hrepeat⟩
    rw [afterSessions_rate]
    exact hrepeat done c rest heq

def otherTrack : SessionCall := ⟨"b", "audio", "L16", 48000, 2, true⟩

/-- The packets of the camera are then decoded as if they had 48000 samples a second. -/
theorem rejection_overwrites :
    ¬ ∀ (supported : SdpAudioFormat → Bool) (src : LiveAudioSource) (calls : List SessionCall),
      RejectionsHarmless supported src calls := by
  intro halways
  have hrejected : (camera.newSession pcmu otherTrack).2 = false := by decide +kernel
  have hsame := ((halways pcmu camera [otherTrack]).1 [] otherTrack [] rfl hrejected).freq
  revert hsame
  decide +kernel

end Sessions

/-! ### The loop of a packet after any sessions -/

section Packets

variable (supported : SdpAudioFormat → Bool)

/-- The callbacks of the connection and the sinks. All callbacks are on one thread. -/
inductive SourceAction where
  | session (c : SessionCall)
  | capture (a : Action)

def sourceStep (src : LiveAudioSource) : SourceAction → Option LiveAudioSource
  | .session c =>
    if src.draining || src.thrown then none else some (src.newSession supported c).1
  | .capture a => step src a

def HasSegments (_ : LiveAudioSource) : SourceAction → Prop
  | .session c => c.media = "audio" → c.segmentSize ≠ 0
  | .capture _ => True

/-- What `IsSupportedDecoder` is relied on for. -/
def AudibleOnly : Prop :=
  ∀ format, supported format = true → 8000 ≤ format.clockrateHz ∧ 1 ≤ format.numChannels

variable {supported} {src src' : LiveAudioSource} {sinks : List AudioSink}

theorem onData_loopEnds_iff {id : String} {duration : Int} {samples : List Int16}
    (h : step src (.onData id duration samples) = some src') (hdraining : src'.draining = true) :
    src'.LoopEnds ↔ 0 < src.segmentSize ∨
      ((src.buffer.length + samples.length : Nat) : Int) ≤ src.segmentSize % 2 ^ 64 := by
  cases step_stepped h with
  | packet =>
    rw [loopEnds_iff]
    refine or_congr Iff.rfl ?_
    rw [more, decide_eq_false_iff_not, Int.not_lt, List.length_append, List.length_map]
    exact Iff.rfl
  | thrown _ _ _ hnot =>
    rw [hnot] at hdraining
    cases hdraining
  | ignored _ _ _ hnot =>
    rw [hnot] at hdraining
    cases hdraining

theorem segmentSize_newSession (src : LiveAudioSource) (c : SessionCall) :
    (src.newSession supported c).1.segmentSize =
      if c.media = "audio" then c.segmentSize else src.segmentSize := by
  rw [newSession_eq]
  split_ifs <;> simp only [segmentSize, segmentLength, SessionCall.segmentSize]

theorem step_segmentSize {a : Action} (h : step src a = some src') :
    src'.segmentSize = src.segmentSize := by
  cases step_stepped h <;> rfl

theorem sourceStep_segmentSize {a : SourceAction} (hsize : src.segmentSize ≠ 0)
    (ha : HasSegments src a) (h : sourceStep supported src a = some src') :
    src'.segmentSize ≠ 0 := by
  cases a with
  | session c =>
    simp only [sourceStep, Option.ite_none_left_eq_some, Option.some.injEq] at h
    obtain ⟨-, rfl⟩ := h
    rw [segmentSize_newSession]
    split
    · rename_i hmedia
      exact ha hmedia
    · exact hsize
  | capture a =>
    rw [step_segmentSize h]
    exact hsize

theorem segmentSize_ne_zero
    (h : Transition.Reaches (sourceStep supported) HasSegments (new sinks) src) :
    src.segmentSize ≠ 0 := by
  refine h.invariant (fun src => src.segmentSize ≠ 0) ?_
    fun _ _ _ hsize ha hstep => sourceStep_segmentSize hsize ha hstep
  have hnew : (new sinks).segmentSize = 80 := by
    simp only [segmentSize, segmentLength, new]
    decide
  rw [hnew]
  decide

/-- In every state, whichever sessions there were: the loop of a packet that gets to it
ends exactly when a segment has samples or the packet fills none. While every session
for audio announces samples, also one that is rejected, it ends for every
packet (a queue of 2^63 samples does not fit into memory). -/
theorem loop_ends_iff (supported : SdpAudioFormat → Bool) (sinks : List AudioSink) :
    (∀ src, Transition.Reachable (sourceStep supported) (new sinks) src →
      ∀ (id : String) (duration : Int) (samples : List Int16) (src' : LiveAudioSource),
        step src (.onData id duration samples) = some src' → src'.draining = true →
        (src'.LoopEnds ↔ 0 < src.segmentSize ∨
          ((src.buffer.length + samples.length : Nat) : Int) ≤ src.segmentSize % 2 ^ 64)) ∧
    (∀ src, Transition.Reaches (sourceStep supported) HasSegments (new sinks) src →
      ∀ (id : String) (duration : Int) (samples : List Int16) (src' : LiveAudioSource),
        step src (.onData id duration samples) = some src' → src'.draining = true →
        src.buffer.length + samples.length ≤ 2 ^ 63 → src'.LoopEnds) := by
  constructor
  · intro src _ id duration samples src' hstep hdraining
    exact onData_loopEnds_iff hstep hdraining
  · intro src hrun id duration samples src' hstep hdraining hmemory
    rw [onData_loopEnds_iff hstep hdraining]
    have hsize := segmentSize_ne_zero hrun
    have hge := src.segmentSize_ge
    by_cases hpos : 0 < src.segmentSize
    · exact Or.inl hpos
    · -- a negative size is a very large one of type `size_t`
      exact Or.inr (by omega)

def cameraTrack : SessionCall := ⟨"a", "audio", "PCMU", 8000, 1, true⟩

theorem pcmu_audible : AudibleOnly pcmu := by
  intro format h
  simp only [pcmu, Bool.and_eq_true, decide_eq_true_eq] at h
  omega

theorem loop_ends_tracks : ∃ src' : LiveAudioSource,
    (camera.newSession pcmu otherTrack).1.step (.onData "a" 160 (List.replicate 160 (-3))) =
      some src' ∧ src'.LoopEnds := by
  have hcamera : sourceStep pcmu (new [7]) (.session cameraTrack) = some camera := rfl
  have hother : sourceStep pcmu camera (.session otherTrack) =
      some (camera.newSession pcmu otherTrack).1 := rfl
  have hrun : Transition.Reaches (sourceStep pcmu) HasSegments (new [7])
      (camera.newSession pcmu otherTrack).1 :=
    (Transition.Reaches.single (fun _ => by decide +kernel) hcamera).tail
      (fun _ => by decide +kernel) hother
  have hstep : (((camera.newSession pcmu otherTrack).1.step
      (.onData "a" 160 (List.replicate 160 (-3)))).any fun src' => src'.draining) = true := by
    decide +kernel
  rw [Option.any_eq_true_iff_get] at hstep
  obtain ⟨hsome, hdraining⟩ := hstep
  exact ⟨_, (Option.some_get hsome).symm, (loop_ends_iff pcmu [7]).2 _ hrun "a" 160
    (List.replicate 160 (-3)) _ (Option.some_get hsome).symm hdraining (by decide +kernel)⟩

theorem loop_never_ends :
    ¬ ∀ supported : SdpAudioFormat → Bool, AudibleOnly supported → ∀ (sinks : List AudioSink)
      (src : LiveAudioSource), Transition.Reachable (sourceStep supported) (new sinks) src →
      ∀ (id : String) (duration : Int) (samples : List Int16) (src' : LiveAudioSource),
        step src (.onData id duration samples) = some src' → src'.draining = true →
        src'.LoopEnds := by
  intro halways
  obtain ⟨src, hrun, hp⟩ := Transition.exists_reaches_of_run (sourceStep pcmu) (fun _ _ => True)
    (new [7]) [.session cameraTrack, .capture (.onData "a" 1 [-3]), .capture .leave,
      .session { otherTrack with channels := 0 }]
    (fun src => (step src (.onData "a" 1 [])).any fun src' =>
      src'.draining && src'.more && src'.segmentSize = 0) (by decide +kernel)
  rw [Option.any_eq_true_iff_get] at hp
  obtain ⟨hsome, hp⟩ := hp
  rw [Bool.and_eq_true, Bool.and_eq_true, decide_eq_true_eq] at hp
  obtain ⟨⟨hdraining, hmore⟩, hsize⟩ := hp
  have hends := halways pcmu pcmu_audible [7] src hrun "a" 1 [] _ (Option.some_get hsome).symm
    hdraining
  rw [loopEnds_iff, hsize, hmore] at hends
  exact absurd hends (by decide)

end Packets

end LiveAudioSource

end WebrtcStreamer
