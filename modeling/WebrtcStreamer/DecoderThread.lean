import WebrtcStreamer.MessageQueue
import WebrtcStreamer.LiveVideo

/-! `VideoDecoder`: what a capture thread posts, and the thread that decodes it. -/

set_option autoImplicit false

namespace WebrtcStreamer

namespace VideoDecoder

/-- An entry of `m_queue`, by the three constructors of the class. -/
inductive Frame where
  | empty
  | content (content : List UInt8) (timestampMs : UInt64) (frameType : VideoFrameType)
  | format (format : String) (width height : Int)
  deriving DecidableEq, Repr

structure Format where
  name : String
  width : Int
  height : Int
  deriving DecidableEq, Repr

namespace Frame

def announced : Frame → Option Format
  | .format name width height => if name = "" then none else some ⟨name, width, height⟩
  | _ => none

/-- `frame.m_content.get() != NULL`, and it is not empty. -/
def hasData : Frame → Bool
  | .content data _ _ => !data.isEmpty
  | _ => false

def isKey : Frame → Bool
  | .content _ _ .key => true
  | _ => false

def ofPosted : WebrtcStreamer.Frame → Frame
  | .format name width height => .format name width height
  | .encoded units timestamp frameType => .content (units.flatMap Nalu.bytes) timestamp frameType

end Frame

structure Outcome where
  /-- `m_factory->Create(...)` is not null -/
  created : Bool
  /-- `Decode(...) == WEBRTC_VIDEO_CODEC_OK` -/
  decoded : Bool
  deriving DecidableEq, Repr

structure DecoderThread where
  /-- `m_decoder`, as the arguments of the call that has created it -/
  decoder : Option Format
  /-- `m_format`, `m_width` and `m_height` -/
  format : Format
  deriving DecidableEq, Repr

namespace DecoderThread

def new (width height : Int) : DecoderThread := ⟨none, ⟨"", width, height⟩⟩

/-- Another format leaves `m_decoder` alone. -/
def createDecoder (t : DecoderThread) (f : Format) (created : Bool) : DecoderThread :=
  if f.name = "H264" ∨ f.name = "H265" ∨ f.name = "VP9" then
    { t with decoder := if created then some f else none }
  else t

def setFormat (t : DecoderThread) (frame : Frame) (created : Bool) : DecoderThread :=
  match frame.announced with
  | none => t
  | some f =>
    let t := if t.decoder.isSome && t.format ≠ f then { t with decoder := none } else t
    if t.decoder.isSome then t else createDecoder { t with format := f } f created

def decodes (t : DecoderThread) (frame : Frame) (created : Bool) : Option Format :=
  if frame.hasData then (t.setFormat frame created).decoder else none

def process (t : DecoderThread) (frame : Frame) (r : Outcome) : DecoderThread :=
  let called := (t.decodes frame r.created).isSome
  let t := t.setFormat frame r.created
  if called && !r.decoded then { t with decoder := none } else t

end DecoderThread

end VideoDecoder

/-- `postFormat` and `PostFrame` are the steps `post` and `notify`; `Stop` is made
of `raiseStop`, `postStop`, `notifyStop` and `join`. -/
abbrev VideoDecoder :=
  MessageQueue.State VideoDecoder.Frame VideoDecoder.DecoderThread VideoDecoder.Outcome

namespace VideoDecoder

abbrev Action := MessageQueue.Action Frame Outcome

def step : VideoDecoder → Action → Option VideoDecoder :=
  MessageQueue.step .empty DecoderThread.process

def initial (width height : Int) : VideoDecoder :=
  MessageQueue.State.initial (DecoderThread.new width height)

abbrev Reachable (width height : Int) (s : VideoDecoder) : Prop :=
  Transition.Reachable step (initial width height) s

def threadAt (width height : Int) (s : VideoDecoder) (n : Nat) : DecoderThread :=
  MessageQueue.replay DecoderThread.process (.new width height) (s.handled.take n)

def lastFormat (frames : List Frame) : Option Format := (frames.filterMap Frame.announced).getLast?

variable {width height : Int} {t : DecoderThread} {frame : Frame} {f : Format}

/-! ### The format in force -/

theorem DecoderThread.setFormat_announced (h : frame.announced = some f) (created : Bool) :
    (t.setFormat frame created).decoder = none ∨
      ((t.setFormat frame created).decoder = some f ∧ (t.setFormat frame created).format = f) ∨
      (t.decoder.isSome = true ∧ t.format = f ∧ t.setFormat frame created = t) := by
  simp only [setFormat, h]
  cases hdecoder : t.decoder with
  | none =>
    simp only [Option.isSome_none, Bool.false_and, Bool.false_eq_true, if_false, hdecoder,
      createDecoder]
    split
    · cases created <;> simp
    · simp
  | some g =>
    by_cases heq : t.format = f
    · simp [hdecoder, heq]
    · simp only [Option.isSome_some, Bool.true_and, heq, ne_eq, not_false_eq_true, decide_true,
        if_true, Option.isSome_none, Bool.false_eq_true, if_false, createDecoder]
      split
      · cases created <;> simp
      · simp

def InForce (t : DecoderThread) (frames : List Frame) : Prop :=
  ∀ f, t.decoder = some f → lastFormat frames = some f ∧ t.format = f

theorem lastFormat_append (frames : List Frame) (frame : Frame) :
    lastFormat (frames ++ [frame]) = frame.announced.or (lastFormat frames) := by
  simp only [lastFormat, List.filterMap_append]
  cases h : frame.announced <;> simp [h]

theorem InForce.setFormat {frames : List Frame} (h : InForce t frames) (frame : Frame)
    (created : Bool) : InForce (t.setFormat frame created) (frames ++ [frame]) := by
  intro f hf
  rw [lastFormat_append]
  cases hannounced : frame.announced with
  | none =>
    have hsame : t.setFormat frame created = t := by
      simp [DecoderThread.setFormat, hannounced]
    rw [hsame] at hf ⊢
    exact h f hf
  | some g =>
    rcases t.setFormat_announced hannounced created with hnone | hnew | hold
    · rw [hnone] at hf
      cases hf
    · rw [hnew.1] at hf
      cases hf
      exact ⟨rfl, hnew.2⟩
    · obtain ⟨_, hformat, hsame⟩ := hold
      rw [hsame] at hf ⊢
      have hcreated := (h f hf).2
      rw [hformat] at hcreated
      subst hcreated
      exact ⟨rfl, hformat⟩

theorem InForce.process {frames : List Frame} (h : InForce t frames) (frame : Frame)
    (r : Outcome) : InForce (t.process frame r) (frames ++ [frame]) := by
  have hset := h.setFormat frame r.created
  simp only [DecoderThread.process]
  split
  · intro f hf
    cases hf
  · exact hset

/-- Over any number of rounds, by induction from the last one. -/
theorem inForce_replay (handled : List (Frame × Outcome)) :
    InForce (MessageQueue.replay DecoderThread.process (.new width height) handled)
      (handled.map Prod.fst) := by
  induction handled using List.reverseRecOn with
  | nil =>
    intro f hf
    cases hf
  | append_singleton handled x ih =>
    rw [MessageQueue.replay_append, List.map_append]
    exact ih.process x.1 x.2

theorem announced_of_hasData (h : frame.hasData = true) : frame.announced = none := by
  cases frame with
  | empty => simp [Frame.announced]
  | content => simp [Frame.announced]
  | format => cases h

/-- Frames come to the decoder in the order in which they were posted, and a
decoder that is called was created for the last format posted before the frame. -/
theorem format_in_force {s : VideoDecoder} (h : Reachable width height s) :
    s.posted = s.handled.map Prod.fst ++ s.position.current ++ s.queue ∧
    ∀ (n : Nat) (frame : Frame) (r : Outcome) (f : Format), s.handled[n]? = some (frame, r) →
      (threadAt width height s n).decodes frame r.created = some f →
      s.posted[n]? = some frame ∧ lastFormat (s.posted.take n) = some f := by
  have hinv := MessageQueue.Invariant.of_reaches h
  refine ⟨hinv.fifo, fun n frame r f hn hdecodes => ?_⟩
  obtain ⟨hlt, hget⟩ := List.getElem?_eq_some_iff.mp hn
  have hposted : s.posted[n]? = some frame := by
    rw [hinv.fifo, List.append_assoc, List.getElem?_append_left (by simpa using hlt),
      List.getElem?_map, hn]
    rfl
  have htaken : s.posted.take n = (s.handled.take n).map Prod.fst := by
    rw [hinv.fifo, List.append_assoc, List.take_append_of_le_length (by simpa using hlt.le),
      List.map_take]
  simp only [DecoderThread.decodes] at hdecodes
  split at hdecodes
  · rename_i hdata
    have hsame : (threadAt width height s n).setFormat frame r.created =
        threadAt width height s n := by
      simp [DecoderThread.setFormat, announced_of_hasData hdata]
    rw [hsame] at hdecodes
    rw [htaken]
    exact ⟨hposted, (inForce_replay _ f hdecodes).1⟩
  · cases hdecodes

def round (r : Outcome) : List Action := [.test, .acquire, .look, .handle r]

theorem format_in_force_run : ∃ s, Reachable 0 0 s ∧
    lastFormat (s.posted.take 2) = some ⟨"H264", 1280, 720⟩ := by
  obtain ⟨s, hs, hp⟩ := Transition.exists_reaches_of_run step (fun _ _ => True) (initial 0 0)
    (([.post (.format "H264" 640 480), .notify, .post (.format "H264" 1280 720)] : List Action) ++
      round ⟨true, true⟩ ++
      ([.post (.content [0x65] 40 .key), .notify, .notify] : List Action) ++
      round ⟨true, true⟩ ++ round ⟨false, true⟩)
    (fun s => decide (s.handled[2]? =
        some (Frame.content [0x65] 40 VideoFrameType.key, Outcome.mk false true)) &&
      decide ((threadAt 0 0 s 2).decodes (Frame.content [0x65] 40 VideoFrameType.key) false =
        some (Format.mk "H264" 1280 720))) (by decide)
  rw [Bool.and_eq_true, decide_eq_true_eq, decide_eq_true_eq] at hp
  exact ⟨s, hs, ((format_in_force hs).2 2 _ _ _ hp.1 hp.2).2⟩

/-! ### Stopping the thread -/

/-- `Stop` waits in `join` for a thread that nobody wakes up. -/
def hangs (s : VideoDecoder) : Bool :=
  s.stopper = .joining && s.position = .waiting && s.queue.isEmpty && s.unnotified = 0

/-- `Stop` comes back: the thread that it waits for does not sleep, it can always
take a step towards its end, and it handles one more entry at most. -/
theorem stop_cannot_hang {s : VideoDecoder} (h : Reachable width height s) :
    hangs s = false ∧
    (s.stopper = .joining → s.position ≠ .waiting ∧ (s.position ≠ .left →
      ∃ a s', a.consumes = true ∧ step s a = some s' ∧ s'.position.rank < s.position.rank)) ∧
    ∀ n, s.handledAtStop = some n → s.handled.length ≤ n + 1 := by
  have hinv := MessageQueue.Invariant.of_reaches h
  refine ⟨?_, fun hjoining => ⟨hinv.joining (.inl hjoining), fun hleft => ?_⟩, fun n hn => ?_⟩
  · cases hhangs : hangs s with
    | false => rfl
    | true =>
      simp only [hangs, Bool.and_eq_true, decide_eq_true_eq] at hhangs
      exact absurd hhangs.1.1.2 (hinv.joining (.inl hhangs.1.1.1))
  · have : Nonempty Outcome := ⟨⟨true, true⟩⟩
    obtain ⟨a, hconsumes, henabled⟩ := hinv.joining_enabled .empty hjoining hleft
    obtain ⟨s', hs'⟩ := Option.isSome_iff_exists.mp henabled
    have hrank := hinv.joining_rank hjoining hs'
    rw [if_pos hconsumes] at hrank
    exact ⟨a, s', hconsumes, hs', hrank⟩
  · have hpast : s.stopper ≠ .idle ∧ s.stopper ≠ .raised := by
      refine ⟨fun hidle => ?_, fun hraised => ?_⟩
      · rw [hinv.running (.inl hidle)] at hn
        cases hn
      · rw [hinv.running (.inr hraised)] at hn
        cases hn
    obtain ⟨m, hm, hstopping⟩ := hinv.stopping hpast.1 hpast.2
    rw [hm] at hn
    cases hn
    exact hstopping.most

theorem stop_cannot_hang_run : ∃ s, Reachable 0 0 s ∧ s.stopper = .joining ∧
    s.position ≠ .waiting ∧ s.position ≠ .left := by
  obtain ⟨s, hs, hp⟩ := Transition.exists_reaches_of_run step (fun _ _ => True) (initial 0 0)
    [.test, .acquire, .look, .raiseStop, .postStop, .notifyStop]
    (fun s => s.stopper = .joining && s.position = .lock) (by decide)
  simp only [Bool.and_eq_true, decide_eq_true_eq] at hp
  exact ⟨s, hs, hp.1, ((stop_cannot_hang hs).2.1 hp.1).1, by simp [hp.2]⟩

end VideoDecoder

end WebrtcStreamer
