import WebrtcStreamer.NullCodec

/-! `VideoDecoder::Decoded`: the time of a frame on its way through the decoder,
and the pacing of the thread. -/

set_option autoImplicit false

namespace WebrtcStreamer

namespace VideoDecoder

/-- A call of `Decoded`, with what the clock reads at its start and at its end. -/
structure DecodedCall where
  image : BuiltFrame
  ts : Int
  nextts : Int

structure Delivery where
  frame : BuiltFrame
  periodSource : Option Int
  sleepMs : Int

def Delivery.timestampUs (d : Delivery) : Int := d.frame.timestampUs.toInt

structure Pacer where
  wait : Bool
  previmagets : Int
  prevts : Int
  deriving DecidableEq, Repr

namespace Pacer

def new (wait : Bool) : Pacer := ⟨wait, 0, 0⟩

def decoded (p : Pacer) (c : DecodedCall) : Pacer × Delivery :=
  let decodedImage := VideoDecoder.decoded c.image
  let imagets := decodedImage.timestampUs.toInt.tdiv 1000
  let periodSource := imagets - p.previmagets
  let delayms := periodSource - (c.ts - p.prevts)
  ({ p with previmagets := imagets, prevts := c.nextts },
    if p.wait ∧ p.prevts ≠ 0 then
      ⟨decodedImage, some periodSource, if 0 < delayms ∧ delayms < 1000 then delayms else 0⟩
    else ⟨decodedImage, none, 1⟩)

def deliver (p : Pacer) : List DecodedCall → List Delivery
  | [] => []
  | c :: calls => (p.decoded c).2 :: (p.decoded c).1.deliver calls

end Pacer

/-- The decoder keeps the RTP timestamp and sets no other one. -/
def Keeps (e : EncodedImage × Int64) (c : DecodedCall) : Prop :=
  c.image.timestampRtp = e.1.rtpTimestamp ∧ c.image.timestampUs = 0

def decodedFrames (t : DecoderThread) : List (Frame × Outcome) → List Frame
  | [] => []
  | (frame, r) :: handled =>
    if (t.decodes frame r.created).isSome && r.decoded then
      frame :: decodedFrames (t.process frame r) handled
    else decodedFrames (t.process frame r) handled

def Frame.timeMs : Frame → Option Nat
  | .content _ timestampMs _ => some timestampMs.toNat
  | _ => none

def times (frames : List Frame) : List Nat := frames.filterMap Frame.timeMs

/-- The times are those that were posted, in microseconds, and the thread is
paced with their differences. -/
structure TrueTimes (ms : List Nat) (delivered : List Delivery) : Prop where
  times : delivered.map Delivery.timestampUs = ms.map fun t => ((1000 * t : Nat) : Int)
  increasing : (delivered.map Delivery.timestampUs).Pairwise (· < ·)
  first : ∀ d, delivered[0]? = some d → d.periodSource = none
  periods : ∀ (n a b : Nat) (d : Delivery) (period : Int), ms[n]? = some a → ms[n + 1]? = some b →
    delivered[n + 1]? = some d → d.periodSource = some period → period = b - a

/-! ### The calls -/

section Calls

variable {t : Nat} {ms : List Nat} {c : DecodedCall} {calls : List DecodedCall} {p : Pacer}

def Carries (t : Nat) (c : DecodedCall) : Prop :=
  c.image.timestampRtp.toNat = t ∧ c.image.timestampUs = 0

theorem toInt_toInt64 (n : UInt32) : n.toUInt64.toInt64.toInt = n.toNat := by
  have hlt := n.toNat_lt
  have hbits : n.toUInt64.toInt64.toInt = n.toUInt64.toBitVec.toInt := rfl
  rw [hbits, BitVec.toInt_eq_toNat_bmod, UInt64.toNat_toBitVec, UInt32.toNat_toUInt64,
    Int.bmod_def]
  omega

theorem Carries.decoded (h : Carries t c) :
    (VideoDecoder.decoded c.image).timestampUs.toInt = ((1000 * t % 2 ^ 32 : Nat) : Int) := by
  obtain ⟨hrtp, hus⟩ := h
  have hmul : (c.image.timestampRtp * 1000).toNat = 1000 * t % 2 ^ 32 := by
    rw [UInt32.toNat_mul, hrtp, Nat.mul_comm]
    rfl
  simp only [VideoDecoder.decoded, hus, if_true, toInt_toInt64, hmul]

theorem Carries.timestampUs (h : Carries t c) (p : Pacer) :
    (p.decoded c).2.timestampUs = ((1000 * t % 2 ^ 32 : Nat) : Int) := by
  rw [← h.decoded]
  simp only [Pacer.decoded]
  split <;> rfl

theorem Carries.previmagets (h : Carries t c) (ht : 1000 * t < 2 ^ 32) (p : Pacer) :
    (p.decoded c).1.previmagets = t := by
  simp only [Pacer.decoded, h.decoded, Nat.mod_eq_of_lt ht]
  rw [Int.tdiv_eq_ediv_of_nonneg (by omega)]
  omega

theorem Carries.period (h : Carries t c) (ht : 1000 * t < 2 ^ 32) {period : Int}
    (hp : (p.decoded c).2.periodSource = some period) : period = t - p.previmagets := by
  have himage := h.previmagets ht p
  simp only [Pacer.decoded] at hp himage
  split at hp
  · rw [himage] at hp
    exact (Option.some.inj hp).symm
  · cases hp

theorem deliver_times (h : List.Forall₂ Carries ms calls) (p : Pacer) :
    (p.deliver calls).map Delivery.timestampUs =
      ms.map fun t => ((1000 * t % 2 ^ 32 : Nat) : Int) := by
  induction h generalizing p with
  | nil => rfl
  | cons hc _ ih => simp only [Pacer.deliver, List.map_cons, hc.timestampUs p, ih]

theorem deliver_periods (h : List.Forall₂ Carries ms calls) (hms : ∀ t ∈ ms, 1000 * t < 2 ^ 32)
    {prev : Nat} (hprev : p.previmagets = prev) {n a b : Nat} {d : Delivery} {period : Int}
    (ha : (prev :: ms)[n]? = some a) (hb : ms[n]? = some b) (hd : (p.deliver calls)[n]? = some d)
    (hp : d.periodSource = some period) : period = b - a := by
  induction h generalizing p prev n with
  | nil => cases hb
  | @cons t c ms calls hc _ ih =>
    have ht := hms t List.mem_cons_self
    cases n with
    | zero =>
      cases ha
      cases hb
      cases hd
      rw [hc.period ht hp, hprev]
    | succ n =>
      exact ih (fun t' ht' => hms t' (List.mem_cons_of_mem _ ht')) (hc.previmagets ht p) ha hb hd

theorem trueTimes_iff (h : List.Forall₂ Carries ms calls) (hinc : ms.Pairwise (· < ·))
    (wait : Bool) :
    TrueTimes ms ((Pacer.new wait).deliver calls) ↔ ∀ t ∈ ms, 1000 * t < 2 ^ 32 := by
  have htimes := deliver_times h (Pacer.new wait)
  constructor
  · intro htrue t ht
    rw [htrue.times, List.map_inj_left] at htimes
    have hmod := htimes t ht
    omega
  · intro hms
    have hexact : ((Pacer.new wait).deliver calls).map Delivery.timestampUs =
        ms.map fun t => ((1000 * t : Nat) : Int) := by
      rw [htimes, List.map_inj_left]
      intro t ht
      rw [Nat.mod_eq_of_lt (hms t ht)]
    refine ⟨hexact, ?_, ?_, ?_⟩
    · rw [hexact, List.pairwise_map]
      exact hinc.imp fun hab => by omega
    · intro d hd
      cases calls with
      | nil => cases hd
      | cons c calls =>
        cases hd
        simp [Pacer.decoded, Pacer.new]
    · intro n a b d period ha hb hd hp
      have hprev : (Pacer.new wait).previmagets = (0 : Nat) := rfl
      exact deliver_periods h hms hprev ha hb hd hp

end Calls

/-! ### The thread -/

section Thread

variable {t : DecoderThread} {frames : List Frame} {handled : List (Frame × Outcome)}

theorem decodedFrames_sublist :
    (decodedFrames t handled).Sublist (handled.map Prod.fst) := by
  induction handled generalizing t with
  | nil => exact List.Sublist.slnil
  | cons x handled ih =>
    obtain ⟨frame, r⟩ := x
    simp only [decodedFrames, List.map_cons]
    split
    · exact ih.cons_cons _
    · exact ih.cons _

theorem decodedFrames_hasData : ∀ frame ∈ decodedFrames t handled, frame.hasData = true := by
  induction handled generalizing t with
  | nil => exact fun _ h => nomatch h
  | cons x handled ih =>
    obtain ⟨frame, r⟩ := x
    simp only [decodedFrames]
    split
    · rename_i hcalled
      refine List.forall_mem_cons.mpr ⟨?_, ih⟩
      by_contra hdata
      simp [DecoderThread.decodes, hdata] at hcalled
    · exact ih

theorem carries_of_keeps {calls : List DecodedCall} (hdata : ∀ frame ∈ frames, frame.hasData = true)
    (hshort : ∀ ms ∈ times frames, ms < 2 ^ 32)
    (h : List.Forall₂ Keeps (frames.filterMap Frame.image) calls) :
    List.Forall₂ Carries (times frames) calls := by
  induction frames generalizing calls with
  | nil =>
    cases h
    exact .nil
  | cons frame frames ih =>
    obtain ⟨hframe, hrest⟩ := List.forall_mem_cons.mp hdata
    cases frame with
    | empty => cases hframe
    | format => cases hframe
    | content data timestampMs frameType =>
      have htimes : times (.content data timestampMs frameType :: frames) =
          timestampMs.toNat :: times frames := rfl
      rw [htimes] at hshort ⊢
      obtain ⟨hms, hshort⟩ := List.forall_mem_cons.mp hshort
      have hsome : (Frame.content data timestampMs frameType).image =
          some (⟨data, frameType, timestampMs.toUInt32, timestampMs.toInt64⟩,
            timestampMs.toInt64) := by
        simpa [Frame.image, Frame.hasData] using hframe
      rw [List.filterMap_cons_some hsome] at h
      cases h with
      | cons hc h =>
        refine .cons ⟨?_, hc.2⟩ (ih hrest hshort h)
        rw [hc.1, UInt64.toNat_toUInt32, Nat.mod_eq_of_lt hms]

end Thread

/-- Among frames posted with increasing times of 32 bits, those that are decoded
keep their times exactly when these fit into 32 bits as microseconds, too. -/
theorem decoded_trueTimes_iff {width height : Int} {s : VideoDecoder}
    (h : Reachable width height s) (hms : ∀ ms ∈ times s.posted, 0 < ms ∧ ms < 2 ^ 32)
    (hinc : (times s.posted).Pairwise (· < ·)) (wait : Bool) (calls : List DecodedCall)
    (hdec : List.Forall₂ Keeps
      ((decodedFrames (.new width height) s.handled).filterMap Frame.image) calls) :
    TrueTimes (times (decodedFrames (.new width height) s.handled))
        ((Pacer.new wait).deliver calls) ↔
      ∀ ms ∈ times (decodedFrames (.new width height) s.handled), 1000 * ms < 2 ^ 32 := by
  have hposted := (format_in_force h).1
  have hsub : (times (decodedFrames (.new width height) s.handled)).Sublist (times s.posted) := by
    rw [hposted, List.append_assoc]
    exact (decodedFrames_sublist.trans (List.sublist_append_left _ _)).filterMap _
  exact trueTimes_iff (carries_of_keeps decodedFrames_hasData
    (fun ms hmem => (hms ms (hsub.mem hmem)).2) hdec) (hinc.sublist hsub) wait

def postings (ms ms' : UInt64) : List Action :=
  ([.post (.format "H264" 640 480), .notify] : List Action) ++ round ⟨true, true⟩ ++
    ([.post (.content [0x65] ms .key), .notify] : List Action) ++ round ⟨true, true⟩ ++
    ([.post (.content [0x41] ms' .delta), .notify] : List Action) ++ round ⟨true, true⟩

theorem exists_decoded (ms ms' : UInt64)
    (h : ((Transition.run step (fun _ _ => True) (initial 0 0) (postings ms ms')).any fun s =>
      decide (times s.posted = [ms.toNat, ms'.toNat]) &&
        decide (decodedFrames (.new 0 0) s.handled =
          [.content [0x65] ms .key, .content [0x41] ms' .delta])) = true) :
    ∃ s, Reachable 0 0 s ∧ times s.posted = [ms.toNat, ms'.toNat] ∧
      decodedFrames (.new 0 0) s.handled =
        [.content [0x65] ms .key, .content [0x41] ms' .delta] := by
  obtain ⟨s, hs, hp⟩ := Transition.exists_reaches_of_run step (fun _ _ => True) (initial 0 0)
    (postings ms ms') _ h
  rw [Bool.and_eq_true, decide_eq_true_eq, decide_eq_true_eq] at hp
  exact ⟨s, hs, hp⟩

def picture (timestampRtp : UInt32) : BuiltFrame :=
  ⟨.i420 640 480, .rotation0, timestampRtp, 0, 0, 0⟩

theorem decoded_trueTimes_film : ∃ s, Reachable 0 0 s ∧ times s.posted = [40, 80] ∧
    TrueTimes (times (decodedFrames (.new 0 0) s.handled))
      ((Pacer.new true).deliver [⟨picture 40, 100, 101⟩, ⟨picture 80, 135, 140⟩]) := by
  obtain ⟨s, hs, hposted, hframes⟩ := exists_decoded 40 80 (by decide)
  have hms : times s.posted = [40, 80] := hposted
  refine ⟨s, hs, hms, (decoded_trueTimes_iff hs ?_ ?_ true _ ?_).mpr ?_⟩
  · rw [hms]
    decide
  · rw [hms]
    decide
  · rw [hframes]
    exact .cons ⟨rfl, rfl⟩ (.cons ⟨rfl, rfl⟩ .nil)
  · rw [hframes]
    decide

/-- After one hour, eleven minutes and 35 seconds the time starts again from 0. -/
theorem decoded_times_restart :
    ¬ ∀ (width height : Int) (s : VideoDecoder), Reachable width height s →
      (∀ ms ∈ times s.posted, 0 < ms ∧ ms < 2 ^ 32) → (times s.posted).Pairwise (· < ·) →
      ∀ (wait : Bool) (calls : List DecodedCall),
        List.Forall₂ Keeps
          ((decodedFrames (.new width height) s.handled).filterMap Frame.image) calls →
        TrueTimes (times (decodedFrames (.new width height) s.handled))
          ((Pacer.new wait).deliver calls) := by
  intro halways
  obtain ⟨s, hs, hposted, hframes⟩ := exists_decoded 4294928 4294968 (by decide)
  have hms : times s.posted = [4294928, 4294968] := hposted
  have htrue := halways 0 0 s hs (by rw [hms]; decide) (by rw [hms]; decide) true
    [⟨picture 4294928, 100, 101⟩, ⟨picture 4294968, 135, 140⟩]
    (by rw [hframes]; exact .cons ⟨rfl, rfl⟩ (.cons ⟨rfl, rfl⟩ .nil))
  have hincreasing := htrue.increasing
  revert hincreasing
  decide

end VideoDecoder

end WebrtcStreamer
