import WebrtcStreamer.KeyFrames
import WebrtcStreamer.RtmpVideo

/-! When `DecoderThread` gets a decoder again after a failed `Decode`, and when the
sources post the format that it takes. -/

set_option autoImplicit false

namespace WebrtcStreamer

namespace VideoDecoder

def Format.known (f : Format) : Bool := f.name = "H264" || f.name = "H265" || f.name = "VP9"

def Frame.ofSource (frame : Frame) : Bool := frame.announced.all Format.known

/-- The factory can create every decoder, and the entries are those of a source. -/
def works (_ : VideoDecoder) : Action → Bool
  | .post frame => frame.ofSource
  | .handle r => r.created
  | _ => true

section Positions

variable (width height : Int) (s : VideoDecoder) (n : Nat)

def announcesAt : Bool := s.handled[n]?.any fun x => x.1.announced.isSome

def keyAt : Bool := s.handled[n]?.any fun x => x.1.hasData && x.1.isKey

def callsAt : Bool :=
  s.handled[n]?.any fun x => ((threadAt width height s n).decodes x.1 x.2.created).isSome

def failsAt : Bool := callsAt width height s n && s.handled[n]?.any fun x => !x.2.decoded

end Positions

variable {width height : Int} {s : VideoDecoder} {t : DecoderThread} {frame : Frame} {r : Outcome}

theorem threadAt_succ {n : Nat} (h : s.handled[n]? = some (frame, r)) :
    threadAt width height s (n + 1) = (threadAt width height s n).process frame r := by
  obtain ⟨hlt, hget⟩ := List.getElem?_eq_some_iff.mp h
  rw [threadAt, List.take_succ_eq_append_getElem hlt, hget, MessageQueue.replay_append]
  rfl

theorem DecoderThread.setFormat_known {f : Format} (h : frame.announced = some f)
    (hknown : f.known = true) : (t.setFormat frame true).decoder.isSome = true := by
  have hname : f.name = "H264" ∨ f.name = "H265" ∨ f.name = "VP9" := by
    simpa [Format.known, or_assoc] using hknown
  simp only [setFormat, h]
  cases hdecoder : t.decoder with
  | none => simp [hdecoder, createDecoder, hname]
  | some g =>
    by_cases heq : t.format = f
    · simp [hdecoder, heq]
    · simp [heq, createDecoder, hname]

theorem DecoderThread.setFormat_of_data (h : frame.hasData = true) (created : Bool) :
    t.setFormat frame created = t := by
  simp [setFormat, announced_of_hasData h]

/-- There is a decoder exactly when no `Decode` has failed since the last format;
by induction on the entries. -/
theorem decoder_isSome_iff (hcreated : ∀ x ∈ s.handled, x.2.created = true)
    (hsource : ∀ x ∈ s.handled, x.1.ofSource = true) {k : Nat} (hk : k ≤ s.handled.length) :
    (threadAt width height s k).decoder.isSome = true ↔
      ∃ j, j < k ∧ announcesAt s j = true ∧
        ∀ i, j < i → i < k → failsAt width height s i = false := by
  induction k with
  | zero =>
    refine iff_of_false ?_ ?_
    · simp [threadAt, MessageQueue.replay, DecoderThread.new]
    · rintro ⟨j, hj, _⟩
      omega
  | succ k ih =>
    have hget : s.handled[k]? = some s.handled[k] := List.getElem?_eq_getElem (by omega)
    have hmem : s.handled[k] ∈ s.handled := List.getElem_mem _
    generalize hentry : s.handled[k] = x at hget hmem
    obtain ⟨frame, r⟩ := x
    have hr : r.created = true := hcreated _ hmem
    have ih := ih (by omega)
    rw [threadAt_succ hget]
    simp only [DecoderThread.process, DecoderThread.decodes, hr]
    cases hannounced : frame.announced with
    | some f =>
      have hdata : frame.hasData = false := by
        cases hd : frame.hasData with
        | false => rfl
        | true =>
          rw [announced_of_hasData hd] at hannounced
          cases hannounced
      have hknown : f.known = true := by
        simpa [Frame.ofSource, hannounced] using hsource _ hmem
      have hsome := DecoderThread.setFormat_known (t := threadAt width height s k) hannounced hknown
      refine iff_of_true (by simpa [hdata] using hsome) ⟨k, by omega, ?_, fun i h₁ h₂ => by omega⟩
      simp [announcesAt, hget, hannounced]
    | none =>
      have hsame : (threadAt width height s k).setFormat frame true =
          threadAt width height s k := by
        simp [DecoderThread.setFormat, hannounced]
      have hnot : announcesAt s k = false := by simp [announcesAt, hget, hannounced]
      have hfails : failsAt width height s k = (frame.hasData &&
          (threadAt width height s k).decoder.isSome && !r.decoded) := by
        simp only [failsAt, callsAt, hget, Option.any_some, DecoderThread.decodes, hr, hsame]
        cases frame.hasData <;> simp
      rw [hsame]
      have hmore : (∃ j, j < k + 1 ∧ announcesAt s j = true ∧
          ∀ i, j < i → i < k + 1 → failsAt width height s i = false) ↔
          (∃ j, j < k ∧ announcesAt s j = true ∧
            ∀ i, j < i → i < k → failsAt width height s i = false) ∧
          failsAt width height s k = false := by
        constructor
        · rintro ⟨j, hj, hannounces, hall⟩
          have hne : j ≠ k := by
            rintro rfl
            rw [hnot] at hannounces
            cases hannounces
          exact ⟨⟨j, by omega, hannounces, fun i h₁ h₂ => hall i h₁ (by omega)⟩,
            hall k (by omega) (by omega)⟩
        · rintro ⟨⟨j, hj, hannounces, hall⟩, hlast⟩
          refine ⟨j, by omega, hannounces, fun i h₁ h₂ => ?_⟩
          by_cases hi : i = k
          · rw [hi]
            exact hlast
          · exact hall i h₁ (by omega)
      rw [hmore, ← ih, hfails]
      cases frame.hasData <;> cases hdecoder : (threadAt width height s k).decoder <;>
        cases r.decoded <;> simp [hdecoder]

theorem works_reaches (h : Transition.Reaches step (fun s a => works s a = true)
    (initial width height) s) :
    (∀ x ∈ s.handled, x.2.created = true) ∧ ∀ x ∈ s.handled, x.1.ofSource = true := by
  have hinv := MessageQueue.Invariant.of_reaches h
  obtain ⟨hposted, hcreated⟩ := MessageQueue.forall_of_reaches (P := fun x => x.ofSource = true)
    (Q := fun r => r.created = true) h
    (fun s a hok x hx => by
      cases a with
      | post frame =>
        rw [List.mem_singleton.mp hx]
        exact hok
      | postStop =>
        rw [List.mem_singleton.mp hx]
        simp [Frame.ofSource, Frame.announced]
      | _ => cases hx)
    fun s r hok => hok
  refine ⟨hcreated, fun x hx => hposted x.1 ?_⟩
  rw [hinv.fifo]
  exact List.mem_append_left _ (List.mem_append_left _ (List.mem_map_of_mem hx))

/-- A key frame after a failed `Decode` is given to a decoder exactly when a format
has been posted between the last failure and the key frame. -/
theorem decoding_recovers_iff (h : Transition.Reaches step (fun s a => works s a = true)
    (initial width height) s) {n k : Nat} (hnk : n < k) (hn : failsAt width height s n = true)
    (hk : keyAt s k = true) :
    callsAt width height s k = true ↔
      ∃ j, n < j ∧ j < k ∧ announcesAt s j = true ∧
        ∀ i, j < i → i < k → failsAt width height s i = false := by
  obtain ⟨hcreated, hsource⟩ := works_reaches h
  obtain ⟨⟨frame, r⟩, hget, hkey⟩ := (Option.any_eq_true _ _).mp hk
  rw [Bool.and_eq_true] at hkey
  have hlt := (List.getElem?_eq_some_iff.mp hget).1
  have hcalls : callsAt width height s k = (threadAt width height s k).decoder.isSome := by
    simp [callsAt, hget, DecoderThread.decodes, hkey.1, DecoderThread.setFormat_of_data hkey.1]
  rw [hcalls, decoder_isSome_iff hcreated hsource hlt.le]
  constructor
  · rintro ⟨j, hj, hannounces, hall⟩
    refine ⟨j, ?_, hj, hannounces, hall⟩
    by_contra hle
    rcases Nat.lt_or_eq_of_le (Nat.le_of_not_lt hle) with hlt' | rfl
    · rw [hall n hlt' hnk] at hn
      cases hn
    · -- an entry that fails is no format
      obtain ⟨⟨frame', r'⟩, hget', hannounced⟩ := (Option.any_eq_true _ _).mp hannounces
      simp only [failsAt, callsAt, hget', Option.any_some, Bool.and_eq_true,
        DecoderThread.decodes] at hn
      cases hdata : frame'.hasData with
      | false => simp [hdata] at hn
      | true =>
        rw [announced_of_hasData hdata] at hannounced
        cases hannounced
  · rintro ⟨j, _, hj, hannounces, hall⟩
    exact ⟨j, hj, hannounces, hall⟩

theorem decoding_recovers_run : ∃ s, Transition.Reaches step (fun s a => works s a = true)
    (initial 0 0) s ∧ failsAt 0 0 s 1 = true ∧ callsAt 0 0 s 3 = true := by
  obtain ⟨s, hs, hp⟩ := Transition.exists_reaches_of_run step (fun s a => works s a = true)
    (initial 0 0)
    (([.post (.format "VP9" 0 0), .post (.content [1] 0 .key)] : List Action) ++
      round ⟨true, true⟩ ++ round ⟨true, false⟩ ++
      ([.post (.format "VP9" 0 0), .post (.content [2] 40 .key)] : List Action) ++
      round ⟨true, true⟩ ++ round ⟨true, true⟩)
    (fun s => failsAt 0 0 s 1 && keyAt s 3 && announcesAt s 2) (by decide)
  simp only [Bool.and_eq_true] at hp
  exact ⟨s, hs, hp.1.1, (decoding_recovers_iff hs (by decide) hp.1.1 hp.1.2).mpr
    ⟨2, by decide, by decide, hp.2, fun i h₁ h₂ => by omega⟩⟩

def LiveVideoSource.recorded : List VideoDecoder.Frame :=
  (LiveVideoSource.session .h264 "v" 0 .plain [[.sps], [.pps]]
    [⟨.plain, 40, [.idrSlice]⟩, ⟨.plain, 80, [.idrSlice]⟩]).queue.map Frame.ofPosted

/-- After a failure on its first key frame the second one finds no decoder. -/
theorem decoding_stays_lost : ¬ ∀ (width height : Int) (s : VideoDecoder) (n k : Nat),
    Transition.Reaches step (fun s a => works s a = true) (initial width height) s →
    s.posted = LiveVideoSource.recorded → n < k → failsAt width height s n = true →
    keyAt s k = true → callsAt width height s k = true := by
  intro halways
  obtain ⟨s, hs, hp⟩ := Transition.exists_reaches_of_run step (fun s a => works s a = true)
    (initial 0 0)
    (LiveVideoSource.recorded.map .post ++ round ⟨true, true⟩ ++ round ⟨true, false⟩ ++
      round ⟨true, true⟩)
    (fun s => s.posted = LiveVideoSource.recorded && failsAt 0 0 s 1 && keyAt s 2 &&
      !callsAt 0 0 s 2) (by decide)
  simp only [Bool.and_eq_true, decide_eq_true_eq, Bool.not_eq_true'] at hp
  obtain ⟨⟨⟨hposted, hfails⟩, hkey⟩, hcalls⟩ := hp
  rw [halways 0 0 s 1 2 hs hposted (by decide) hfails hkey] at hcalls
  cases hcalls

end VideoDecoder

/-! ### When the sources post a format -/

def Codec.isSps (c : Codec) (u : Nalu) : Bool :=
  match c.role u with
  | .parameters _ true => true
  | _ => false

def announces (frames : List VideoDecoder.Frame) : Bool :=
  frames.any fun frame => frame.announced.isSome

/-- What has been posted in between comes from a source, with a format or without. -/
def Posts (before after : List VideoDecoder.Frame) (format : Bool) : Prop :=
  ∃ frames, after = before ++ frames ∧ announces frames = format ∧
    ∀ frame ∈ frames, frame.ofSource = true

theorem Posts.refl (queue : List VideoDecoder.Frame) : Posts queue queue false :=
  ⟨[], by simp, rfl, by simp⟩

theorem Posts.single (queue : List VideoDecoder.Frame) {frame : VideoDecoder.Frame}
    (h : frame.ofSource = true) : Posts queue (queue ++ [frame]) frame.announced.isSome :=
  ⟨[frame], rfl, by simp [announces], by simpa using h⟩

theorem Posts.format (queue : List VideoDecoder.Frame) (c : Codec) (width height : Int) :
    Posts queue (queue ++ [.format c.name width height]) true := by
  have hannounced : (VideoDecoder.Frame.format c.name width height).announced =
      some ⟨c.name, width, height⟩ := by
    cases c <;> simp [VideoDecoder.Frame.announced, Codec.name]
  have hknown : (VideoDecoder.Format.mk c.name width height).known = true := by
    cases c <;> simp [VideoDecoder.Format.known, Codec.name]
  have hsource : (VideoDecoder.Frame.format c.name width height).ofSource = true := by
    rw [VideoDecoder.Frame.ofSource, hannounced, Option.all_some, hknown]
  have hposts := Posts.single queue hsource
  rwa [hannounced] at hposts

theorem Posts.content (queue : List VideoDecoder.Frame) (data : List UInt8) (ts : UInt64)
    (frameType : VideoFrameType) : Posts queue (queue ++ [.content data ts frameType]) false := by
  have hsource : (VideoDecoder.Frame.content data ts frameType).ofSource = true := rfl
  exact Posts.single queue hsource

theorem Posts.trans {q q' q'' : List VideoDecoder.Frame} {format format' : Bool}
    (h : Posts q q' format) (h' : Posts q' q'' format') : Posts q q'' (format || format') := by
  obtain ⟨frames, rfl, hformat, hsource⟩ := h
  obtain ⟨frames', rfl, hformat', hsource'⟩ := h'
  refine ⟨frames ++ frames', by rw [List.append_assoc], ?_, fun frame hmem => ?_⟩
  · rw [announces, List.any_append, ← hformat, ← hformat']
    rfl
  · rcases List.mem_append.mp hmem with hmem | hmem
    · exact hsource frame hmem
    · exact hsource' frame hmem

namespace LiveVideoSource

open VideoDecoder.Frame (ofPosted)

variable {c : Codec}

def entries (src : LiveVideoSource) : List VideoDecoder.Frame := src.queue.map ofPosted

theorem posts_format (src : LiveVideoSource) (c : Codec) (width height : Int) :
    Posts src.entries (src.postFormat c.name width height).entries true := by
  simpa [entries, postFormat, ofPosted] using Posts.format src.entries c width height

theorem posts_frame (src : LiveVideoSource) (ts : Int64) (content : List Nalu)
    (frameType : VideoFrameType) :
    Posts src.entries (src.postFrame ts content frameType).entries false := by
  simpa [entries, postFrame, ofPosted] using
    Posts.content src.entries (content.flatMap Nalu.bytes) ts.toUInt64 frameType

theorem onNalu_posts (d : Decoding) (ts : Int64) (src : LiveVideoSource) (acc : List Nalu)
    (u : Nalu) : Posts src.entries (onNalu d c ts (src, acc) u).1.entries (c.isSps u) := by
  unfold onNalu
  cases hrole : c.role u with
  | parameters clears format =>
    cases format with
    | false =>
      simp only [Codec.isSps, hrole]
      exact Posts.refl src.entries
    | true =>
      simp only [Codec.isSps, hrole, if_true, postSps]
      split <;> exact posts_format { src with cfg := _ } c _ _
  | skipped => simpa [Codec.isSps, hrole] using Posts.refl src.entries
  | idr => simpa [Codec.isSps, hrole] using Posts.refl src.entries
  | other =>
    simp only [Codec.isSps, hrole]
    split
    · exact .refl _
    · exact posts_frame src ts [u] .delta

theorem foldl_onNalu_posts (d : Decoding) (ts : Int64) (us : List Nalu) (src : LiveVideoSource)
    (acc : List Nalu) :
    Posts src.entries (us.foldl (onNalu d c ts) (src, acc)).1.entries (us.any c.isSps) := by
  induction us generalizing src acc with
  | nil => exact .refl _
  | cons u us ih => exact (onNalu_posts d ts src acc u).trans (ih _ _)

theorem onH26xData_posts (d : Decoding) (ts : Int64) (buffer : List Nalu) (src : LiveVideoSource) :
    Posts src.entries (src.onH26xData d c ts buffer).entries (buffer.any c.isSps) := by
  have hloop := foldl_onNalu_posts (c := c) d ts buffer src []
  simp only [onH26xData]
  generalize buffer.foldl (onNalu d c ts) (src, []) = x at hloop
  obtain ⟨src', idrContent⟩ := x
  dsimp only at hloop ⊢
  split
  · exact hloop
  · have hboth := hloop.trans (src'.posts_frame ts idrContent .key)
    rwa [Bool.or_false] at hboth

theorem onData_posts_vp9 (d : Decoding) (ts : Int64) (id : String) (buffer : List Nalu)
    {src : LiveVideoSource} (h : src.codec.getD id "" = "VP9") :
    (src.onData d ts id buffer).1.entries = src.entries ++
      [.format "VP9" 0 0, .content (buffer.flatMap Nalu.bytes) ts.toUInt64 .key] := by
  simp [onData, h, entries, postFormat, postFrame, ofPosted, Nalu.bytes]

theorem onData_posts (d : Decoding) (ts : Int64) (id : String) (buffer : List Nalu)
    (src : LiveVideoSource) :
    ∃ format, Posts src.entries (src.onData d ts id buffer).1.entries format := by
  by_cases h264 : src.codec.getD id "" = "H264"
  · refine ⟨buffer.any Codec.h264.isSps, ?_⟩
    simpa [onData, h264, entries, onH264Data] using
      onH26xData_posts (c := .h264) d ts buffer src
  by_cases h265 : src.codec.getD id "" = "H265"
  · refine ⟨buffer.any Codec.h265.isSps, ?_⟩
    simpa [onData, h265, entries, onH265Data] using
      onH26xData_posts (c := .h265) d ts buffer src
  by_cases hvp9 : src.codec.getD id "" = "VP9"
  · rw [onData_posts_vp9 d ts id buffer hvp9]
    exact ⟨true, [.format "VP9" 0 0, .content (buffer.flatMap Nalu.bytes) ts.toUInt64 .key], rfl,
      by simp [announces, VideoDecoder.Frame.announced],
      by simp [VideoDecoder.Frame.ofSource, VideoDecoder.Frame.announced,
        VideoDecoder.Format.known]⟩
  · refine ⟨false, ?_⟩
    have hsame : (src.onData d ts id buffer).1.entries = src.entries := by
      simp [onData, h264, h265, hvp9, entries]
      split <;> rfl
    rw [hsame]
    exact .refl _

end LiveVideoSource

namespace RtmpVideoSource

variable {marker : List UInt8} {parseSps : Codec → List UInt8 → Option (Int × Int)}
  {p : RtmpPacket} {ts : UInt64} {src src' : RtmpVideoSource}

def announcing (parseSps : Codec → List UInt8 → Option (Int × Int)) (p : RtmpPacket)
    (c : Codec) : Bool := (p.spsBytes c).any fun bytes => (parseSps c bytes).isSome

theorem posts_format (src : RtmpVideoSource) (c : Codec) (width height : Int) :
    Posts src.queue (src.postFormat c.name width height).queue true :=
  Posts.format src.queue c width height

theorem posts_frame (src : RtmpVideoSource) (ts : UInt64) (content : List UInt8)
    (frameType : VideoFrameType) :
    Posts src.queue (src.postFrame ts content frameType).queue false :=
  Posts.content src.queue content ts frameType

theorem store_queue {start : Int} (h : src.store marker p start = some src') :
    src'.queue = src.queue := by
  obtain ⟨unit, _, h⟩ := Option.bind_eq_some_iff.mp h
  cases h
  rfl

theorem configH264_posts (h : configH264 marker parseSps p src = some src') :
    Posts src.queue src'.queue (announcing parseSps p .h264) := by
  rw [announcing, p.spsBytes_h264]
  unfold configH264 at h
  by_cases htype : p.naluTypeAt .h264 (11 + 2) = 7
  · simp only [htype, if_true] at h ⊢
    obtain ⟨bytes, hgiven, h⟩ := Option.bind_eq_some_iff.mp h
    rw [hgiven, Option.any_some]
    cases hparse : parseSps .h264 bytes with
    | none =>
      rw [hparse] at h
      cases h
      exact .refl _
    | some size =>
      rw [hparse] at h
      obtain ⟨src₁, hsps, h⟩ := Option.bind_eq_some_iff.mp h
      rw [store_queue h, store_queue hsps]
      exact posts_format _ .h264 size.1 size.2
  · simp only [htype, if_false] at h ⊢
    cases h
    exact .refl _

theorem configH265_posts (h : configH265 marker parseSps p src = some src') :
    Posts src.queue src'.queue (announcing parseSps p .h265) := by
  rw [announcing, p.spsBytes_h265]
  unfold configH265 at h
  by_cases hvps : p.naluTypeAt .h265 (31 + 2) = 32
  · simp only [hvps, if_true] at h ⊢
    obtain ⟨src₁, hstore, h⟩ := Option.bind_eq_some_iff.mp h
    have hfirst := store_queue hstore
    by_cases hsps : p.naluTypeAt .h265 (31 + p.sizeAt 31 + 3 + 2 + 2) = 33
    · simp only [hsps, if_true] at h ⊢
      obtain ⟨bytes, hgiven, h⟩ := Option.bind_eq_some_iff.mp h
      obtain ⟨src₂, hsps, h⟩ := Option.bind_eq_some_iff.mp h
      rw [hgiven, Option.any_some, store_queue h, store_queue hsps]
      cases hparse : parseSps .h265 bytes with
      | none =>
        dsimp only
        rw [hfirst]
        exact .refl _
      | some size =>
        have hposts := posts_format src₁ .h265 size.1 size.2
        rw [hfirst] at hposts
        exact hposts
    · simp only [hsps, if_false] at h ⊢
      cases h
      rw [hfirst]
      exact .refl _
  · simp only [hvps, if_false] at h ⊢
    cases h
    exact .refl _

def isRecord (p : RtmpPacket) : Bool := p.body 0 >>> 4 = 1 && p.body 1 = 0

theorem onVideo_posts {config : RtmpPacket → RtmpVideoSource → Option RtmpVideoSource}
    {format : Bool} (hconfig : ∀ src', config p src = some src' → Posts src.queue src'.queue format)
    (h : src.onVideo marker p ts config = some src') :
    Posts src.queue src'.queue (isRecord p && format) := by
  simp only [onVideo] at h
  by_cases hrecord : p.body 0 >>> 4 = 1 ∧ p.body 1 = 0
  · rw [if_pos hrecord] at h
    have hposts := hconfig _ h
    simpa [isRecord, hrecord] using hposts
  · have hno : isRecord p = false := by simpa [isRecord] using hrecord
    rw [if_neg hrecord] at h
    rw [hno, Bool.false_and]
    split at h
    · obtain ⟨unit, _, h⟩ := Option.bind_eq_some_iff.mp h
      cases h
      exact posts_frame ..
    · split at h
      · obtain ⟨unit, _, h⟩ := Option.bind_eq_some_iff.mp h
        cases h
        exact posts_frame ..
      · cases h
        exact .refl _

/-- `CODEC_ID_AVC` and `CODEC_ID_HEVC` -/
def codecOf (p : RtmpPacket) : Option Codec :=
  if p.body 0 &&& 0x0F = 7 then some .h264
  else if p.body 0 &&& 0x0F = 12 then some .h265
  else none

theorem processVideoPacket_posts (h : src.processVideoPacket marker parseSps p ts = some src') :
    Posts src.queue src'.queue (isRecord p && (codecOf p).any (announcing parseSps p)) := by
  simp only [processVideoPacket] at h
  rw [codecOf]
  split at h
  · rename_i hcodec
    rw [if_pos hcodec, Option.any_some]
    exact onVideo_posts (fun src' hconfig => configH264_posts hconfig) h
  · rename_i hcodec
    rw [if_neg hcodec]
    split at h
    · rename_i hcodec'
      rw [if_pos hcodec', Option.any_some]
      exact onVideo_posts (fun src' hconfig => configH265_posts hconfig) h
    · rename_i hcodec'
      rw [if_neg hcodec', Option.any_none, Bool.and_false]
      cases h
      exact .refl _

end RtmpVideoSource

end WebrtcStreamer
