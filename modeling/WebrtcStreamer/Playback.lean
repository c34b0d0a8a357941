import WebrtcStreamer.DecodedTimes
import WebrtcStreamer.LiveAudio
import WebrtcStreamer.Pacing

/-! The speed at which a file is played: `VideoDecoder::Decoded` paces the pictures, and
`LiveAudioSource::onData` the packets of the sound. -/

set_option autoImplicit false

namespace WebrtcStreamer

open VideoDecoder (Pacer DecodedCall Delivery Keeps Carries decodedFrames)

def skippedMs : Int := 1000

/-! ### The pictures -/

section Pictures

variable {p : Pacer} {c : DecodedCall} {calls : List DecodedCall} {last : Pacing.Reading}

def VideoDecoder.DecodedCall.reading (c : DecodedCall) : Pacing.Reading where
  source := (VideoDecoder.decoded c.image).timestampUs.toInt.tdiv 1000
  before := c.ts
  after := c.nextts

/-- The clock does not go back from one call to the next, and no sleep is cut short. -/
def VideoDecoder.Pacer.Honest (p : Pacer) : List DecodedCall → Prop
  | [] => True
  | c :: calls => 0 < c.ts ∧ p.prevts ≤ c.ts ∧ c.ts + (p.decoded c).2.sleepMs ≤ c.nextts ∧
    (p.decoded c).1.Honest calls

def VideoDecoder.Pacer.Remembers (p : Pacer) (last : Pacing.Reading) : Prop :=
  p.wait = true ∧ p.prevts ≠ 0 ∧ p.previmagets = last.source ∧ p.prevts = last.after

theorem VideoDecoder.Pacer.Remembers.sleepMs (h : p.Remembers last) (c : DecodedCall) :
    (p.decoded c).2.sleepMs = Pacing.delay skippedMs last c.reading := by
  obtain ⟨hwait, hprev, hsource, hafter⟩ := h
  unfold Pacer.decoded
  dsimp only
  rw [if_pos ⟨hwait, hprev⟩, hsource, hafter]
  rfl

theorem VideoDecoder.Pacer.sleepMs_nonneg (p : Pacer) (c : DecodedCall) :
    0 ≤ (p.decoded c).2.sleepMs := by
  simp only [Pacer.decoded]
  split
  · dsimp only
    split <;> omega
  · exact Int.zero_le_ofNat 1

theorem VideoDecoder.Pacer.remembers_decoded (hwait : p.wait = true) (hts : 0 < c.ts)
    (hslept : c.ts + (p.decoded c).2.sleepMs ≤ c.nextts) :
    (p.decoded c).1.Remembers c.reading := by
  have hsleep := p.sleepMs_nonneg c
  refine ⟨hwait, ?_, rfl, rfl⟩
  show c.nextts ≠ 0
  omega

theorem VideoDecoder.Pacer.Honest.isChain (h : p.Honest calls) (hlast : p.Remembers last) :
    (last :: calls.map DecodedCall.reading).IsChain (Pacing.Honest skippedMs) ∧
      (p.deliver calls).map Delivery.sleepMs = List.zipWith (Pacing.delay skippedMs)
        (last :: calls.map DecodedCall.reading) (calls.map DecodedCall.reading) := by
  induction calls generalizing p last with
  | nil => exact ⟨.singleton last, rfl⟩
  | cons c calls ih =>
    obtain ⟨hts, hordered, hslept, hrest⟩ := h
    obtain ⟨hchain, hsleeps⟩ := ih hrest (Pacer.remembers_decoded hlast.1 hts hslept)
    have hsleep := hlast.sleepMs c
    constructor
    · refine .cons_cons ⟨?_, ?_⟩ hchain
      · rw [← hlast.2.2.2]
        exact hordered
      · rw [← hsleep]
        exact hslept
    · simp only [Pacer.deliver, List.map_cons, List.zipWith_cons_cons, hsleep, hsleeps]

theorem VideoDecoder.Pacer.Honest.readings (h : (Pacer.new true).Honest calls) :
    (calls.map DecodedCall.reading).IsChain (Pacing.Honest skippedMs) ∧
      (((Pacer.new true).deliver calls).map Delivery.sleepMs).tail =
        List.zipWith (Pacing.delay skippedMs) (calls.map DecodedCall.reading)
          (calls.map DecodedCall.reading).tail := by
  cases calls with
  | nil => exact ⟨.nil, rfl⟩
  | cons c calls =>
    obtain ⟨hts, -, hslept, hrest⟩ := h
    exact hrest.isChain (Pacer.remembers_decoded rfl hts hslept)

end Pictures

/-! ### The sound -/

namespace LiveAudioSource

/-- A call of `onData`: what it finds out about the decoder, `presentationTime`, and what the
clock reads. -/
structure Packet where
  accepted : Bool
  tvSec : Int
  tvUsec : Int
  ts : Int
  nextts : Int

def Packet.sourcets (c : Packet) : Int := c.tvSec * 1000 + c.tvUsec.tdiv 1000

/-- The pacing in `onData`, with the time that it sleeps; the members have the names that they
have in the video decoder. -/
def paced (p : Pacer) (c : Packet) : Pacer × Int :=
  if c.accepted then
    let periodSource := c.sourcets - p.previmagets
    let delayms := periodSource - (c.ts - p.prevts)
    ({ p with previmagets := c.sourcets, prevts := c.nextts },
      if p.wait ∧ p.prevts ≠ 0 then if 0 < delayms ∧ delayms < 1000 then delayms else 0 else 0)
  else (p, 0)

def heard (packets : List Packet) : List Packet := packets.filter Packet.accepted

def sleeps (p : Pacer) : List Packet → List Int
  | [] => []
  | c :: packets =>
    if c.accepted then (paced p c).2 :: sleeps (paced p c).1 packets
    else sleeps (paced p c).1 packets

def Packet.reading (c : Packet) : Pacing.Reading := ⟨c.sourcets, c.ts, c.nextts⟩

def Honest (p : Pacer) : List Packet → Prop
  | [] => True
  | c :: packets => 0 < c.ts ∧ p.prevts ≤ c.ts ∧ c.ts + (paced p c).2 ≤ c.nextts ∧
    Honest (paced p c).1 packets

variable {p : Pacer} {c : Packet} {packets : List Packet} {last : Pacing.Reading}

theorem paced_refused (h : c.accepted = false) : paced p c = (p, 0) := by simp [paced, h]

theorem paced_accepted (h : c.accepted = true) :
    (paced p c).1 = { p with previmagets := c.sourcets, prevts := c.nextts } := by
  simp [paced, h]

theorem heard_refused (h : c.accepted = false) : heard (c :: packets) = heard packets :=
  List.filter_cons_of_neg (by simp [h])

theorem heard_accepted (h : c.accepted = true) : heard (c :: packets) = c :: heard packets :=
  List.filter_cons_of_pos h

theorem sleeps_refused (h : c.accepted = false) : sleeps p (c :: packets) = sleeps p packets := by
  rw [sleeps, if_neg (by simp [h]), paced_refused h]

theorem sleeps_accepted (h : c.accepted = true) :
    sleeps p (c :: packets) = (paced p c).2 :: sleeps (paced p c).1 packets := by
  rw [sleeps, if_pos h]

theorem sleep_nonneg (p : Pacer) (c : Packet) : 0 ≤ (paced p c).2 := by
  simp only [paced]
  split
  · dsimp only
    split
    · split <;> omega
    · exact Int.le_refl 0
  · exact Int.le_refl 0

theorem sleep_eq (h : p.Remembers last) (hc : c.accepted = true) :
    (paced p c).2 = Pacing.delay skippedMs last c.reading := by
  obtain ⟨hwait, hprev, hsource, hafter⟩ := h
  unfold paced
  rw [if_pos hc]
  dsimp only
  rw [if_pos ⟨hwait, hprev⟩, hsource, hafter]
  rfl

theorem remembers_paced (hwait : p.wait = true) (hc : c.accepted = true) (hts : 0 < c.ts)
    (hslept : c.ts + (paced p c).2 ≤ c.nextts) : (paced p c).1.Remembers c.reading := by
  have hsleep := sleep_nonneg p c
  rw [paced_accepted hc]
  refine ⟨hwait, ?_, rfl, rfl⟩
  show c.nextts ≠ 0
  omega

theorem Honest.isChain (h : Honest p packets) (hlast : p.Remembers last) :
    (last :: (heard packets).map Packet.reading).IsChain (Pacing.Honest skippedMs) ∧
      sleeps p packets = List.zipWith (Pacing.delay skippedMs)
        (last :: (heard packets).map Packet.reading) ((heard packets).map Packet.reading) := by
  induction packets generalizing p last with
  | nil => exact ⟨.singleton last, rfl⟩
  | cons c packets ih =>
    obtain ⟨hts, hordered, hslept, hrest⟩ := h
    cases hc : c.accepted with
    | false =>
      rw [heard_refused hc, sleeps_refused hc]
      rw [paced_refused hc] at hrest
      exact ih hrest hlast
    | true =>
      obtain ⟨hchain, hsleeps⟩ := ih hrest (remembers_paced hlast.1 hc hts hslept)
      have hsleep := sleep_eq hlast hc
      rw [heard_accepted hc, sleeps_accepted hc, hsleeps, hsleep]
      refine ⟨.cons_cons ⟨?_, ?_⟩ hchain, rfl⟩
      · rw [← hlast.2.2.2]
        exact hordered
      · rw [← hsleep]
        exact hslept

theorem Honest.readings (h : Honest (Pacer.new true) packets) :
    ((heard packets).map Packet.reading).IsChain (Pacing.Honest skippedMs) ∧
      (sleeps (Pacer.new true) packets).tail = List.zipWith (Pacing.delay skippedMs)
        ((heard packets).map Packet.reading) ((heard packets).map Packet.reading).tail := by
  induction packets with
  | nil => exact ⟨.nil, rfl⟩
  | cons c packets ih =>
    obtain ⟨hts, -, hslept, hrest⟩ := h
    cases hc : c.accepted with
    | false =>
      rw [heard_refused hc, sleeps_refused hc]
      rw [paced_refused hc] at hrest
      exact ih hrest
    | true =>
      rw [heard_accepted hc, sleeps_accepted hc]
      exact Honest.isChain hrest (remembers_paced rfl hc hts hslept)

end LiveAudioSource

/-! ### Both -/

end WebrtcStreamer
