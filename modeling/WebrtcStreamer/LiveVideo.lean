import Mathlib

/-! `LiveVideoSource`: the NAL units of a session on their way to the decoder queue. -/

set_option autoImplicit false

namespace WebrtcStreamer

/-- A NAL unit of a buffer as `FindNaluIndices` delimits it: the bytes from
`start_offset` to `payload_start_offset`, then `payload_size` bytes. -/
structure Nalu where
  startCode : List UInt8
  payload : List UInt8
  deriving DecidableEq, Repr

namespace Nalu

def bytes (u : Nalu) : List UInt8 := u.startCode ++ u.payload

def header (u : Nalu) : UInt8 := u.payload.headD 0

end Nalu

inductive Codec where
  | h264 | h265
  deriving DecidableEq, Repr

inductive Role where
  /-- it goes into `m_cfg`, which is cleared first or not; with or without a
  format for the decoder -/
  | parameters (clears format : Bool)
  | skipped
  | idr
  /-- it is posted as a frame of its own -/
  | other
  deriving DecidableEq, Repr

namespace Codec

def name : Codec → String
  | .h264 => "H264"
  | .h265 => "H265"

/-- `H264::ParseNaluType` and `H265::ParseNaluType`. -/
def naluType (c : Codec) (u : Nalu) : Nat :=
  match c with
  | .h264 => (u.header &&& 0x1F).toNat
  | .h265 => ((u.header &&& 0x7E) >>> 1).toNat

def headerSize : Codec → Nat
  | .h264 => 1
  | .h265 => 2

/-- The branches on the NAL unit type: 5 `kIdr`, 6 `kSei`, 7 `kSps`, 8 `kPps`;
19 `kIdrWRadl`, 20 `kIdrNLp`, 32 `kVps`, 33 `kSps`, 34 `kPps`. Only `onH264Data`
looks for empty units. -/
def role (c : Codec) (u : Nalu) : Role :=
  match c with
  | .h264 =>
    if u.payload = [] then .skipped
    else if naluType .h264 u = 7 then .parameters true true
    else if naluType .h264 u = 8 then .parameters false false
    else if naluType .h264 u = 6 then .skipped
    else if naluType .h264 u = 5 then .idr
    else .other
  | .h265 =>
    if naluType .h265 u = 32 then .parameters true false
    else if naluType .h265 u = 33 then .parameters false true
    else if naluType .h265 u = 34 then .parameters false false
    else if naluType .h265 u = 19 ∨ naluType .h265 u = 20 then .idr
    else .other

def isIdr (c : Codec) (u : Nalu) : Bool := c.role u = .idr

def isOther (c : Codec) (u : Nalu) : Bool := c.role u = .other

def isParameters (c : Codec) (u : Nalu) : Bool :=
  match c.role u with
  | .parameters _ _ => true
  | _ => false

def isSlice (c : Codec) (u : Nalu) : Bool :=
  match c with
  | .h264 => u.payload ≠ [] && 1 ≤ naluType .h264 u && naluType .h264 u ≤ 5
  | .h265 => naluType .h265 u ≤ 9 || (16 ≤ naluType .h265 u && naluType .h265 u ≤ 21)

end Codec

inductive VideoFrameType where
  | key | delta
  deriving DecidableEq, Repr

/-- An entry of `m_queue`. The bytes of a frame are only ever put together from
whole NAL units; they are kept as the list of these units. -/
inductive Frame where
  | format (format : String) (width height : Int)
  | encoded (content : List Nalu) (timestamp : UInt64) (frameType : VideoFrameType)
  deriving DecidableEq, Repr

namespace Frame

def units : Frame → List Nalu
  | .format _ _ _ => []
  | .encoded content _ _ => content

def keyUnits : Frame → Option (List Nalu)
  | .encoded content _ .key => some content
  | _ => none

end Frame

structure LiveVideoSource where
  /-- `m_codec` -/
  codec : Std.TreeMap String String
  /-- `m_cfg`, as the list of the units it was put together from -/
  cfg : List Nalu
  /-- `m_prevTimestamp`, which the constructor does not set -/
  prevTimestamp : UInt64
  /-- `m_queue` -/
  queue : List Frame

/-- What a call finds besides the source: the SPS parsers, the implementation
name of the decoder that there is, and whether a JPEG image can be decoded. -/
structure Decoding where
  parseSps : Codec → List UInt8 → Option (Int × Int)
  decoder : Option String
  jpeg : Bool

namespace LiveVideoSource

variable (d : Decoding) (c : Codec) (ts : Int64)

def postFormat (src : LiveVideoSource) (format : String) (width height : Int) : LiveVideoSource :=
  { src with queue := src.queue ++ [.format format width height] }

def postFrame (src : LiveVideoSource) (content : List Nalu) (frameType : VideoFrameType) :
    LiveVideoSource :=
  { src with queue := src.queue ++ [.encoded content ts.toUInt64 frameType] }

def dropsPast (src : LiveVideoSource) : Bool :=
  src.prevTimestamp ≠ 0 && ts.toUInt64 < src.prevTimestamp && d.decoder = some "FFmpeg"

/-- `postFormat` with the size that the SPS gives, or 0x0. -/
def postSps (src : LiveVideoSource) (u : Nalu) : LiveVideoSource :=
  match d.parseSps c (u.payload.drop c.headerSize) with
  | none => src.postFormat c.name 0 0
  | some (width, height) => src.postFormat c.name width height

def onNalu (x : LiveVideoSource × List Nalu) (u : Nalu) : LiveVideoSource × List Nalu :=
  let (src, idrContent) := x
  match c.role u with
  | .parameters clears format =>
    let src := { src with cfg := (if clears then [] else src.cfg) ++ [u] }
    (if format then src.postSps d c u else src, idrContent)
  | .skipped => (src, idrContent)
  | .idr => (src, (if idrContent = [] then src.cfg else idrContent) ++ [u])
  | .other => (if src.dropsPast d ts then src else src.postFrame ts [u] .delta, idrContent)

/-- The loop over the NAL units, then the accumulated IDR slices as one key frame. -/
def onH26xData (buffer : List Nalu) (src : LiveVideoSource) : LiveVideoSource :=
  let (src, idrContent) := buffer.foldl (onNalu d c ts) (src, [])
  if idrContent = [] then src else src.postFrame ts idrContent .key

def onH264Data : List Nalu → LiveVideoSource → LiveVideoSource := onH26xData d .h264 ts

def onH265Data : List Nalu → LiveVideoSource → LiveVideoSource := onH26xData d .h265 ts

/-- `onData`, with its result. JPEG images do not go through the queue. -/
def onData (id : String) (buffer : List Nalu) (src : LiveVideoSource) : LiveVideoSource × Bool :=
  let codec := src.codec.getD id ""
  let (src, res) :=
    if codec = "H264" then (src.onH264Data d ts buffer, true)
    else if codec = "H265" then (src.onH265Data d ts buffer, true)
    else if codec = "JPEG" then (src, d.jpeg)
    else if codec = "VP9" then
      ((src.postFormat codec 0 0).postFrame ts [⟨[], buffer.flatMap Nalu.bytes⟩] .key, true)
    else (src, true)
  ({ src with codec := src.codec.insertIfNew id "", prevTimestamp := ts.toUInt64 }, res)

def onNewSession (id media codec : String) (initFrames : List (List Nalu))
    (src : LiveVideoSource) : LiveVideoSource × Bool :=
  if media = "video" ∧ codec ∈ ["H264", "H265", "JPEG", "VP9"] then
    (initFrames.foldl (fun src frame => (src.onData d 0 id frame).1)
      { src with codec := src.codec.insert id codec }, true)
  else (src, false)

end LiveVideoSource

/-! ### The roles -/

namespace Codec

variable {c : Codec} {u : Nalu}

theorem isSlice_of_isIdr (h : c.isIdr u = true) : c.isSlice u = true := by
  have hrole : c.role u = .idr := of_decide_eq_true h
  cases c with
  | h264 =>
    simp only [role] at hrole
    split_ifs at hrole with hempty h7 h8 h6 h5
    simp [isSlice, hempty, h5]
  | h265 =>
    simp only [role] at hrole
    split_ifs at hrole with h32 h33 h34 hidr
    rcases hidr with h19 | h20
    · simp [isSlice, h19]
    · simp [isSlice, h20]

theorem not_isSlice {r : Role} (h : c.role u = r) (hidr : r ≠ .idr) (hother : r ≠ .other) :
    c.isSlice u = false := by
  cases c with
  | h264 =>
    simp only [role] at h
    split_ifs at h with hempty h7 h8 h6 h5
    · simp [isSlice, hempty]
    · simp [isSlice, h7]
    · simp [isSlice, h8]
    · simp [isSlice, h6]
    · exact absurd h.symm hidr
    · exact absurd h.symm hother
  | h265 =>
    simp only [role] at h
    split_ifs at h with h32 h33 h34 h19
    · simp [isSlice, h32]
    · simp [isSlice, h33]
    · simp [isSlice, h34]
    · exact absurd h.symm hidr
    · exact absurd h.symm hother

def config (c : Codec) (cfg : List Nalu) (us : List Nalu) : List Nalu :=
  us.foldl (fun cfg u =>
    match c.role u with
    | .parameters clears _ => (if clears then [] else cfg) ++ [u]
    | _ => cfg) cfg

def gather (c : Codec) (cfg acc us : List Nalu) : List Nalu :=
  (if acc = [] ∧ us.any c.isIdr = true then c.config cfg (us.takeWhile fun u => !c.isIdr u)
    else acc) ++ us.filter c.isIdr

theorem config_parameters {cfg us : List Nalu} (h : ∀ u ∈ cfg, c.isParameters u = true) :
    ∀ u ∈ c.config cfg us, c.isParameters u = true := by
  induction us generalizing cfg with
  | nil => exact h
  | cons v us ih =>
    apply ih
    simp only
    split
    · rename_i clears format hrole
      intro u hu
      rcases List.mem_append.mp hu with hu | hu
      · split at hu
        · cases hu
        · exact h u hu
      · cases List.mem_singleton.mp hu
        simp [isParameters, hrole]
    · exact h

end Codec

/-! ### What one call posts -/

section Call

variable {d : Decoding} {c : Codec} {ts : Int64}

/-- The frames that were posted on the way from one source to the other are
units of their own: what the loop posts before the key frame. -/
structure Posted (c : Codec) (past : Bool) (us : List Nalu) (src src' : LiveVideoSource) :
    Prop where
  cfg : src'.cfg = c.config src.cfg us
  codec : src'.codec = src.codec
  prevTimestamp : src'.prevTimestamp = src.prevTimestamp
  queue : ∃ frames, src'.queue = src.queue ++ frames ∧
    frames.flatMap Frame.units = (if past then [] else us.filter c.isOther) ∧
    frames.filterMap Frame.keyUnits = []

theorem onNalu_posted (d : Decoding) (ts : Int64) (src : LiveVideoSource) (acc : List Nalu)
    (u : Nalu) :
    Posted c (src.dropsPast d ts) [u] src (LiveVideoSource.onNalu d c ts (src, acc) u).1 ∧
      (LiveVideoSource.onNalu d c ts (src, acc) u).2 = c.gather src.cfg acc [u] := by
  unfold LiveVideoSource.onNalu
  cases hrole : c.role u with
  | parameters clears format =>
    refine ⟨?_, by simp [Codec.gather, Codec.isIdr, hrole]⟩
    cases format with
    | false =>
      exact ⟨by simp [Codec.config, hrole], rfl, rfl, [], by simp, by simp [Codec.isOther, hrole],
        rfl⟩
    | true =>
      simp only [if_true, LiveVideoSource.postSps]
      split
      · exact ⟨by simp [Codec.config, hrole, LiveVideoSource.postFormat], rfl, rfl, [_], rfl,
          by simp [Codec.isOther, hrole, Frame.units], rfl⟩
      · exact ⟨by simp [Codec.config, hrole, LiveVideoSource.postFormat], rfl, rfl, [_], rfl,
          by simp [Codec.isOther, hrole, Frame.units], rfl⟩
  | skipped =>
    exact ⟨⟨by simp [Codec.config, hrole], rfl, rfl, [], by simp, by simp [Codec.isOther, hrole],
      rfl⟩, by simp [Codec.gather, Codec.isIdr, hrole]⟩
  | idr =>
    refine ⟨⟨by simp [Codec.config, hrole], rfl, rfl, [], by simp,
      by simp [Codec.isOther, hrole], rfl⟩, ?_⟩
    simp [Codec.gather, Codec.isIdr, hrole, Codec.config]
  | other =>
    refine ⟨?_, by simp [Codec.gather, Codec.isIdr, hrole]⟩
    simp only
    cases src.dropsPast d ts with
    | true => exact ⟨by simp [Codec.config, hrole], rfl, rfl, [], by simp, by simp, rfl⟩
    | false =>
      exact ⟨by simp [Codec.config, hrole, LiveVideoSource.postFrame], rfl, rfl, [_], rfl,
        by simp [Codec.isOther, hrole, Frame.units], rfl⟩

theorem Posted.trans {past : Bool} {us vs : List Nalu} {src src' src'' : LiveVideoSource}
    (h : Posted c past us src src') (h' : Posted c past vs src' src'') :
    Posted c past (us ++ vs) src src'' := by
  obtain ⟨frames, hqueue, hunits, hkeys⟩ := h.queue
  obtain ⟨frames', hqueue', hunits', hkeys'⟩ := h'.queue
  refine ⟨?_, h'.codec.trans h.codec, h'.prevTimestamp.trans h.prevTimestamp, frames ++ frames',
    ?_, ?_, ?_⟩
  · rw [h'.cfg, h.cfg, Codec.config, Codec.config, Codec.config, List.foldl_append]
  · rw [hqueue', hqueue, List.append_assoc]
  · rw [List.flatMap_append, hunits, hunits']
    cases past <;> simp
  · rw [List.filterMap_append, hkeys, hkeys', List.append_nil]

theorem gather_cons (cfg acc : List Nalu) (u : Nalu) (us : List Nalu) :
    c.gather (c.config cfg [u]) (c.gather cfg acc [u]) us = c.gather cfg acc (u :: us) := by
  cases hidr : c.isIdr u with
  | true =>
    have hself : c.gather cfg acc [u] = (if acc = [] then cfg else acc) ++ [u] := by
      simp [Codec.gather, hidr, Codec.config]
    have hne : ¬ ((if acc = [] then cfg else acc) ++ [u]) = [] := by simp
    rw [hself, Codec.gather, if_neg (fun h => hne h.1), Codec.gather]
    simp [hidr, Codec.config]
  | false =>
    have hself : c.gather cfg acc [u] = acc := by simp [Codec.gather, hidr]
    have htake : c.config cfg ((u :: us).takeWhile fun u => !c.isIdr u) =
        c.config (c.config cfg [u]) (us.takeWhile fun u => !c.isIdr u) := by
      rw [List.takeWhile_cons_of_pos (by simp [hidr])]
      rfl
    rw [hself, Codec.gather, Codec.gather, htake, List.any_cons, hidr, Bool.false_or,
      List.filter_cons_of_neg (by simp [hidr])]

theorem foldl_onNalu_posted (d : Decoding) (ts : Int64) (us : List Nalu)
    (src : LiveVideoSource) (acc : List Nalu) :
    Posted c (src.dropsPast d ts) us src
        (us.foldl (LiveVideoSource.onNalu d c ts) (src, acc)).1 ∧
      (us.foldl (LiveVideoSource.onNalu d c ts) (src, acc)).2 = c.gather src.cfg acc us := by
  induction us generalizing src acc with
  | nil =>
    refine ⟨⟨rfl, rfl, rfl, [], by simp, by simp, rfl⟩, ?_⟩
    simp [Codec.gather]
  | cons u us ih =>
    obtain ⟨hfirst, hacc⟩ := onNalu_posted (c := c) d ts src acc u
    obtain ⟨hrest, hgather⟩ := ih (LiveVideoSource.onNalu d c ts (src, acc) u).1
      (LiveVideoSource.onNalu d c ts (src, acc) u).2
    have hpast : (LiveVideoSource.onNalu d c ts (src, acc) u).1.dropsPast d ts =
        src.dropsPast d ts := by
      simp [LiveVideoSource.dropsPast, hfirst.prevTimestamp]
    rw [hpast] at hrest
    rw [List.foldl_cons]
    refine ⟨hfirst.trans hrest, hgather.trans ?_⟩
    rw [hfirst.cfg, hacc, gather_cons]

theorem onH26xData_posted (d : Decoding) (ts : Int64) (buffer : List Nalu) (src : LiveVideoSource) :
    ∃ src', Posted c (src.dropsPast d ts) buffer src src' ∧
      src.onH26xData d c ts buffer =
        if buffer.any c.isIdr then
          src'.postFrame ts (c.config src.cfg (buffer.takeWhile fun u => !c.isIdr u) ++
            buffer.filter c.isIdr) .key
        else src' := by
  obtain ⟨hposted, hgather⟩ := foldl_onNalu_posted (c := c) d ts buffer src []
  refine ⟨_, hposted, ?_⟩
  simp only [LiveVideoSource.onH26xData, hgather, Codec.gather]
  by_cases hany : buffer.any c.isIdr = true
  · obtain ⟨u, hu, hidr⟩ := List.any_eq_true.mp hany
    have hsome : buffer.filter c.isIdr ≠ [] := List.ne_nil_of_mem (List.mem_filter.mpr ⟨hu, hidr⟩)
    simp [hany, hsome]
  · have hnone : buffer.filter c.isIdr = [] := by
      simpa [List.filter_eq_nil_iff] using hany
    simp [hany, hnone]

end Call

/-! ### The order of the slices -/

def postedFrames (src src' : LiveVideoSource) : List Frame := src'.queue.drop src.queue.length

/-- The coded slices of some frames, in queue order and inside each frame. -/
def codedSlices (c : Codec) (frames : List Frame) : List Nalu :=
  (frames.flatMap Frame.units).filter c.isSlice

/-- No other slice comes after an IDR slice of the buffer, and the parameter
sets in front of the first one hold nothing that the codec reads as a slice. -/
def Codec.inOrder (c : Codec) (cfg buffer : List Nalu) : Prop :=
  buffer.Pairwise (fun u v => c.isIdr u = true → c.isSlice v = true → c.isIdr v = true) ∧
    (buffer.any c.isIdr = true →
      ∀ u ∈ c.config cfg (buffer.takeWhile fun u => !c.isIdr u), c.isSlice u = false)

theorem filter_not_append_filter {α : Type} (p : α → Bool) (l : List α) :
    (l.filter fun a => !p a) ++ l.filter p = l ↔
      l.Pairwise fun a b => p a = true → p b = true := by
  induction l with
  | nil => simp
  | cons a l ih =>
    cases ha : p a with
    | false => simp [ha, ih]
    | true =>
      rw [List.pairwise_cons, List.filter_cons_of_neg (by simp [ha]), List.filter_cons_of_pos ha]
      constructor
      · intro heq
        have hall : ∀ b ∈ l, p b = true := by
          cases hfirst : l.filter fun a => !p a with
          | nil => simpa [List.filter_eq_nil_iff] using hfirst
          | cons b rest =>
            rw [hfirst, List.cons_append, List.cons.injEq] at heq
            have hb : b ∈ l.filter fun a => !p a := by rw [hfirst]; exact List.mem_cons_self
            have hpb := (List.mem_filter.mp hb).2
            rw [heq.1, ha] at hpb
            cases hpb
        exact ⟨fun b hb _ => hall b hb, List.pairwise_of_forall_mem_list
          fun _ _ b hb _ => hall b hb⟩
      · rintro ⟨hall, -⟩
        have hnone : (l.filter fun a => !p a) = [] := by
          simpa [List.filter_eq_nil_iff] using fun b hb => hall b hb ha
        have hself : l.filter p = l := List.filter_eq_self.mpr fun b hb => hall b hb ha
        rw [hnone, hself, List.nil_append]

section Slices

variable {d : Decoding} {c : Codec} {ts : Int64}

theorem isOther_of_isSlice {u : Nalu} (h : c.isSlice u = true) :
    c.isOther u = !c.isIdr u := by
  cases hrole : c.role u with
  | parameters clears format =>
    rw [Codec.not_isSlice hrole (by simp) (by simp)] at h
    cases h
  | skipped =>
    rw [Codec.not_isSlice hrole (by simp) (by simp)] at h
    cases h
  | idr => simp [Codec.isOther, Codec.isIdr, hrole]
  | other => simp [Codec.isOther, Codec.isIdr, hrole]

theorem filter_isOther (us : List Nalu) : (us.filter c.isOther).filter c.isSlice =
    (us.filter c.isSlice).filter fun u => !c.isIdr u := by
  rw [List.filter_filter, List.filter_filter]
  apply List.filter_congr
  intro u _
  cases hslice : c.isSlice u with
  | false => simp
  | true => simp [isOther_of_isSlice hslice]

theorem filter_isIdr (us : List Nalu) : (us.filter c.isSlice).filter c.isIdr =
    us.filter c.isIdr := by
  rw [List.filter_filter]
  apply List.filter_congr
  intro u _
  cases hidr : c.isIdr u with
  | false => simp
  | true => simp [Codec.isSlice_of_isIdr hidr]

theorem codedSlices_posted (buffer : List Nalu) (src : LiveVideoSource)
    (hpast : src.dropsPast d ts = false) :
    codedSlices c (postedFrames src (src.onH26xData d c ts buffer)) =
      ((buffer.filter c.isSlice).filter fun u => !c.isIdr u) ++
        ((if buffer.any c.isIdr then
            (c.config src.cfg (buffer.takeWhile fun u => !c.isIdr u)).filter c.isSlice
          else []) ++ (buffer.filter c.isSlice).filter c.isIdr) := by
  obtain ⟨src', hposted, hresult⟩ := onH26xData_posted (c := c) d ts buffer src
  obtain ⟨frames, hqueue, hunits, _⟩ := hposted.queue
  rw [hpast, if_neg (by simp)] at hunits
  by_cases hany : buffer.any c.isIdr = true
  · have hself : (buffer.filter c.isIdr).filter c.isSlice = buffer.filter c.isIdr :=
      List.filter_eq_self.mpr fun u hu => Codec.isSlice_of_isIdr (List.mem_filter.mp hu).2
    have hframes : postedFrames src (src.onH26xData d c ts buffer) = frames ++
        [.encoded (c.config src.cfg (buffer.takeWhile fun u => !c.isIdr u) ++
          buffer.filter c.isIdr) ts.toUInt64 .key] := by
      rw [postedFrames, hresult, if_pos hany, LiveVideoSource.postFrame, hqueue, List.append_assoc,
        List.drop_left]
    rw [codedSlices, hframes, List.flatMap_append, hunits, List.filter_append, filter_isOther,
      List.flatMap_singleton, Frame.units, List.filter_append, hself, filter_isIdr, if_pos hany]
  · have hnone : buffer.filter c.isIdr = [] := by simpa [List.filter_eq_nil_iff] using hany
    have hframes : postedFrames src (src.onH26xData d c ts buffer) = frames := by
      rw [postedFrames, hresult, if_neg hany, hqueue, List.drop_left]
    rw [codedSlices, hframes, hunits, filter_isOther, filter_isIdr, hnone, if_neg hany,
      List.append_nil, List.append_nil]

/-- Outside of the drop of frames in the past, the slices that a call pushes are
those of the buffer, each once and in the order of the buffer, exactly when no
IDR slice is followed by another slice (and the cached parameter sets hold none). -/
theorem decode_order_iff (buffer : List Nalu) (src : LiveVideoSource)
    (hpast : src.dropsPast d ts = false) :
    codedSlices c (postedFrames src (src.onH26xData d c ts buffer)) = buffer.filter c.isSlice ↔
      c.inOrder src.cfg buffer := by
  have horder := filter_not_append_filter c.isIdr (buffer.filter c.isSlice)
  rw [codedSlices_posted buffer src hpast]
  have hpairs : (buffer.filter c.isSlice).Pairwise (fun u v => c.isIdr u = true →
      c.isIdr v = true) ↔ buffer.Pairwise fun u v => c.isIdr u = true → c.isSlice v = true →
        c.isIdr v = true := by
    rw [List.pairwise_filter]
    constructor
    · exact fun h => h.imp fun {u v} huv hu hv => huv (Codec.isSlice_of_isIdr hu) hv hu
    · exact fun h => h.imp fun {u v} huv _ hv hu => huv hu hv
  rw [hpairs] at horder
  by_cases hany : buffer.any c.isIdr = true
  · rw [if_pos hany, Codec.inOrder, ← horder]
    constructor
    · intro heq
      have hlen := congrArg List.length heq
      have hsplit := List.length_eq_length_filter_add c.isIdr (l := buffer.filter c.isSlice)
      simp only [List.length_append] at hlen
      have hclean : (c.config src.cfg (buffer.takeWhile fun u => !c.isIdr u)).filter c.isSlice =
          [] := List.length_eq_zero_iff.mp (by omega)
      rw [hclean, List.nil_append] at heq
      exact ⟨heq, fun _ => by simpa [List.filter_eq_nil_iff] using hclean⟩
    · rintro ⟨heq, hclean⟩
      have hnone : (c.config src.cfg (buffer.takeWhile fun u => !c.isIdr u)).filter c.isSlice =
          [] := by simpa [List.filter_eq_nil_iff] using hclean hany
      rw [hnone, List.nil_append]
      exact heq
  · rw [if_neg hany, List.nil_append, Codec.inOrder, ← horder]
    exact ⟨fun heq => ⟨heq, fun h => absurd h hany⟩, fun h => h.1⟩

end Slices

/-! Concrete units: an SPS, two PPS, an IDR slice and another slice. -/

def Nalu.sps : Nalu := ⟨[0, 0, 0, 1], [0x67, 0x42]⟩
def Nalu.pps : Nalu := ⟨[0, 0, 0, 1], [0x68, 0xCE]⟩
def Nalu.idrSlice : Nalu := ⟨[0, 0, 0, 1], [0x65, 0x88]⟩
def Nalu.slice : Nalu := ⟨[0, 0, 0, 1], [0x41, 0x9A]⟩

def Decoding.plain : Decoding := ⟨fun _ _ => none, none, true⟩

def LiveVideoSource.new (prevTimestamp : UInt64) : LiveVideoSource := ⟨∅, [], prevTimestamp, []⟩

/-- Parameter sets, then the two slices of a key frame. -/
theorem decode_order_key : codedSlices .h264 (postedFrames (.new 0)
    ((LiveVideoSource.new 0).onH264Data .plain 0 [.sps, .pps, .idrSlice, .idrSlice])) =
      [.idrSlice, .idrSlice] :=
  (decode_order_iff (d := .plain) (c := .h264) [.sps, .pps, .idrSlice, .idrSlice]
    (.new 0) (by decide)).mpr ⟨by decide, by decide⟩

/-- A slice after an IDR slice of the same buffer is pushed before it. -/
theorem decode_order_swapped : ¬ ∀ (d : Decoding) (ts : Int64) (buffer : List Nalu)
    (src : LiveVideoSource), (∀ u ∈ buffer, u.payload ≠ []) → src.dropsPast d ts = false →
    codedSlices .h264 (postedFrames src (src.onH264Data d ts buffer)) =
      buffer.filter Codec.h264.isSlice := by
  intro halways
  have hboth := halways .plain 0 [.idrSlice, .slice] (.new 0) (by decide) (by decide)
  exact absurd hboth (by decide)

end WebrtcStreamer
