import WebrtcStreamer.DecoderRecovery
import WebrtcStreamer.NullCodec

/-! What a null encoder gets of the frames that a source posts for a null decoder,
over a whole run of the decoder thread. -/

set_option autoImplicit false

namespace WebrtcStreamer

namespace VideoDecoder

def nullWorks (s : VideoDecoder) : Action → Bool
  | .handle r => r.created && r.decoded
  | a => works s a

def scaled (t : DecoderThread) (created : Bool) (frame : Frame) (s : VideoScaler) : VideoScaler :=
  match t.decodes frame created, frame.image with
  | some f, some (image, renderTimeMs) =>
    match (f.nullDecoder.decode image renderTimeMs).2 with
    | some delivered => (s.deliver (decoded delivered)).1
    | none => s
  | _, _ => s

/-- What the callback of the encoder gets while entries are handled. -/
def relay (e : NullEncoder) (t : DecoderThread) (s : VideoScaler) :
    List (Frame × Outcome) → List EncodedImage
  | [] => []
  | (frame, r) :: handled =>
    (nullCodec t r.created frame s e).toList ++
      relay e (t.process frame r) (scaled t r.created frame s) handled

/-- An entry as it is sent: its time has been an `int`. -/
def Frame.sent (frame : Frame) : Option EncodedImage :=
  frame.image.map fun x => { x.1 with ntpTimeMs := x.1.ntpTimeMs.toInt32.toInt64 }

def underFormat (name : String) (inForce : Option Format) : List Frame → List EncodedImage
  | [] => []
  | frame :: frames =>
    let inForce := frame.announced.or inForce
    (if inForce.map Format.name = some name then frame.sent.toList else []) ++
      underFormat name inForce frames

def Follows (t : DecoderThread) (inForce : Option Format) : Prop :=
  t.decoder = inForce ∧ ∀ f, inForce = some f → t.format = f

variable {t : DecoderThread} {frame : Frame} {inForce : Option Format} {e : NullEncoder}
  {name : String} {width height : Int}

theorem Follows.setFormat (h : Follows t inForce) (hsource : frame.ofSource = true) :
    Follows (t.setFormat frame true) (frame.announced.or inForce) := by
  cases hannounced : frame.announced with
  | none =>
    have hsame : t.setFormat frame true = t := by simp [DecoderThread.setFormat, hannounced]
    rw [hsame]
    exact h
  | some f =>
    have hknown : f.known = true := by simpa [Frame.ofSource, hannounced] using hsource
    have hsome := DecoderThread.setFormat_known (t := t) hannounced hknown
    rcases t.setFormat_announced hannounced true with
      hnone | ⟨hnew, hformat⟩ | ⟨hold, hformat, hsame⟩
    · rw [hnone] at hsome
      cases hsome
    · exact ⟨hnew, fun g hg => by cases hg; exact hformat⟩
    · obtain ⟨g, hg⟩ := Option.isSome_iff_exists.mp hold
      have hmine := h.2 g (h.1.symm.trans hg)
      rw [hsame]
      refine ⟨?_, fun g' hg' => by cases hg'; exact hformat⟩
      rw [hg, ← hmine, hformat]
      rfl

theorem Follows.process (h : Follows t inForce) (hsource : frame.ofSource = true) {r : Outcome}
    (hcreated : r.created = true) (hdecoded : r.decoded = true) :
    Follows (t.process frame r) (frame.announced.or inForce) := by
  simp only [DecoderThread.process, hcreated, hdecoded, Bool.not_true, Bool.and_false,
    Bool.false_eq_true, if_false]
  exact h.setFormat hsource

theorem image_isSome_iff : frame.image.isSome = frame.hasData := by
  cases frame with
  | content data ts frameType =>
    cases hdata : data.isEmpty <;> simp [Frame.image, Frame.hasData, hdata]
  | _ => rfl

theorem encode_other {f : Format} (image : EncodedImage) (ms : Int64) (s : VideoScaler)
    (hname : f.name ≠ e.format.name) {delivered : BuiltFrame}
    (hdelivered : (f.nullDecoder.decode image ms).2 = some delivered) :
    (e.encode (s.deliver (decoded delivered)).2).2 = none := by
  have hnative : delivered.buffer =
      .native ⟨f.width, f.height, image.data, image.frameType, f.nullDecoder.format⟩ := by
    cases hdelivered
    rfl
  have hbuffer := (decoded_fields delivered).1.trans hnative
  have hdecoded : (decoded delivered).native = true := by rw [BuiltFrame.native, hbuffer]
  rw [s.deliver_native hdecoded, NullEncoder.encode, hbuffer]
  split
  · rfl
  · simp [Format.nullDecoder, hname]

theorem Follows.nullCodec (h : Follows t inForce) (hregistered : e.registered = true)
    (s : VideoScaler) :
    WebrtcStreamer.nullCodec t true frame s e =
      if (frame.announced.or inForce).map Format.name = some e.format.name then frame.sent
      else none := by
  cases hdata : frame.hasData with
  | false =>
    have himage : frame.image = none := by
      rw [← Option.isNone_iff_eq_none, ← Option.not_isSome, image_isSome_iff, hdata]
      rfl
    have hsent : frame.sent = none := by rw [Frame.sent, himage]; rfl
    have hdecodes : t.decodes frame true = none := by simp [DecoderThread.decodes, hdata]
    simp [WebrtcStreamer.nullCodec, hdecodes, hsent]
  | true =>
    have hdecodes : t.decodes frame true = inForce := by
      rw [DecoderThread.decodes, hdata, if_pos rfl, DecoderThread.setFormat_of_data hdata, h.1]
    obtain ⟨⟨image, ms⟩, himage⟩ := Option.isSome_iff_exists.mp (image_isSome_iff.trans hdata)
    rw [announced_of_hasData hdata, Option.none_or]
    cases inForce with
    | none => simp [WebrtcStreamer.nullCodec, hdecodes]
    | some f =>
      simp only [WebrtcStreamer.nullCodec, hdecodes, himage, Option.bind_eq_bind,
        Option.bind_some, Option.map_some, Option.some.injEq]
      split
      · rename_i hname
        obtain ⟨delivered, hdecode, hencode⟩ :=
          NullDecoder.decode_encode (d := f.nullDecoder) image ms s rfl hregistered hname
        simp only [hdecode, hencode, Option.bind_some, Frame.sent, himage, Option.map_some]
      · rename_i hname
        obtain ⟨delivered, hdelivered⟩ : ∃ delivered,
            (f.nullDecoder.decode image ms).2 = some delivered := ⟨_, rfl⟩
        rw [hdelivered, Option.bind_some, encode_other image ms s hname hdelivered]
        rfl

theorem relay_eq (hregistered : e.registered = true) {handled : List (Frame × Outcome)}
    (hsource : ∀ x ∈ handled, x.1.ofSource = true)
    (hworks : ∀ x ∈ handled, x.2.created = true ∧ x.2.decoded = true) (s : VideoScaler)
    (h : Follows t inForce) :
    relay e t s handled = underFormat e.format.name inForce (handled.map Prod.fst) := by
  induction handled generalizing t inForce s with
  | nil => rfl
  | cons x handled ih =>
    obtain ⟨frame, r⟩ := x
    obtain ⟨hframe, hsource⟩ := List.forall_mem_cons.mp hsource
    obtain ⟨⟨hcreated, hdecoded⟩, hworks⟩ := List.forall_mem_cons.mp hworks
    simp only [relay, List.map_cons, underFormat]
    rw [ih hsource hworks _ (h.process hframe hcreated hdecoded)]
    congr 1
    have hcreated : r.created = true := hcreated
    rw [hcreated, h.nullCodec hregistered]
    split <;> rfl

theorem lastFormat_cons (frame : Frame) (frames : List Frame) :
    lastFormat (frame :: frames) = (lastFormat frames).or frame.announced := by
  simp only [lastFormat, List.filterMap_cons]
  cases frame.announced with
  | none => simp
  | some f => simp [List.getLast?_cons]

theorem underFormat_append (frames frames' : List Frame) :
    underFormat name inForce (frames ++ frames') =
      underFormat name inForce frames ++
        underFormat name ((lastFormat frames).or inForce) frames' := by
  induction frames generalizing inForce with
  | nil => rfl
  | cons frame frames ih =>
    have hlast : (lastFormat (frame :: frames)).or inForce =
        (lastFormat frames).or (frame.announced.or inForce) := by
      have hcons := lastFormat_cons frame frames
      rw [hcons, Option.or_assoc]
    simp only [List.cons_append, underFormat, ih, hlast, List.append_assoc]

theorem nullWorks_reaches {s : VideoDecoder}
    (h : Transition.Reaches step (fun s a => nullWorks s a = true) (initial width height) s) :
    (∀ x ∈ s.handled, x.1.ofSource = true) ∧
      ∀ x ∈ s.handled, x.2.created = true ∧ x.2.decoded = true := by
  obtain ⟨hcreated, hsource⟩ := works_reaches (h.mono fun s a hok => by
    cases a with
    | handle r =>
      rw [nullWorks, Bool.and_eq_true] at hok
      exact hok.1
    | _ => exact hok)
  have hdecoded := (MessageQueue.forall_of_reaches (P := fun _ => True)
    (Q := fun r => r.decoded = true) h (fun _ _ _ _ _ => trivial) fun s r hok => by
      rw [nullWorks, Bool.and_eq_true] at hok
      exact hok.2).2
  exact ⟨hsource, fun x hx => ⟨hcreated x hx, hdecoded x hx⟩⟩

/-- With the null codec the decoder thread neither loses nor reorders, repeats or
changes a frame. In every run, whatever the scaler does, what the encoder sends
is a prefix of the frames posted under its format, each with its data, type and
RTP time; and it is all of them once the queue is empty. -/
theorem null_codec_relays {s : VideoDecoder}
    (h : Transition.Reaches step (fun s a => nullWorks s a = true) (initial width height) s)
    (hregistered : e.registered = true) (scaler : VideoScaler) :
    relay e (.new width height) scaler s.handled <+: underFormat e.format.name none s.posted ∧
    (s.position.current = [] → s.queue = [] →
      relay e (.new width height) scaler s.handled = underFormat e.format.name none s.posted) := by
  obtain ⟨hsource, hworks⟩ := nullWorks_reaches h
  have hfollows : Follows (.new width height) none := ⟨rfl, fun f hf => by cases hf⟩
  have hposted := (MessageQueue.Invariant.of_reaches h).fifo
  rw [relay_eq hregistered hsource hworks scaler hfollows, hposted]
  refine ⟨?_, fun hcurrent hqueue => ?_⟩
  · rw [List.append_assoc, underFormat_append]
    exact List.prefix_append _ _
  · rw [hcurrent, hqueue, List.append_nil, List.append_nil]

theorem null_codec_relays_film : ∃ s,
    Transition.Reaches step (fun s a => nullWorks s a = true) (initial 0 0) s ∧
    relay h264Encoder (.new 0 0) ⟨0, 0, .rotation0, 0, 0, 0, 0⟩ s.handled =
      [⟨[0x65], .key, 40, 40⟩] := by
  obtain ⟨s, hs, hp⟩ := Transition.exists_reaches_of_run step (fun s a => nullWorks s a = true)
    (initial 0 0)
    (([.post (.content [0x41] 0 .delta), .post (.format "H264" 640 480), .notify,
      .post (.content [0x65] 40 .key)] : List Action) ++
      round ⟨true, true⟩ ++ round ⟨true, true⟩ ++ round ⟨true, true⟩)
    (fun s => decide (s.position.current = []) && decide (s.queue = []) &&
      decide (underFormat "H264" none s.posted = [⟨[0x65], .key, 40, 40⟩])) (by decide)
  simp only [Bool.and_eq_true, decide_eq_true_eq] at hp
  exact ⟨s, hs, ((null_codec_relays hs (e := h264Encoder) rfl _).2 hp.1.1 hp.1.2).trans hp.2⟩

end VideoDecoder

end WebrtcStreamer
