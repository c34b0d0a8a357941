import WebrtcStreamer.LiveVideo

/-! Which parameter sets a key frame carries, over a whole session. -/

set_option autoImplicit false

namespace WebrtcStreamer

namespace Codec

def sets : Codec → List Nat
  | .h264 => [7, 8]
  | .h265 => [32, 33, 34]

/-- The parameter set that clears `m_cfg`. -/
def leading : Codec → Nat
  | .h264 => 7
  | .h265 => 32

def isSet (c : Codec) (k : Nat) (u : Nalu) : Bool := c.isParameters u && c.naluType u = k

def lastOf (c : Codec) (k : Nat) (us : List Nalu) : Option Nalu := (us.filter (c.isSet k)).getLast?

def sinceLeading (c : Codec) (us : List Nalu) : List Nalu :=
  us.foldl (fun since u => if c.isSet c.leading u then [u] else since ++ [u]) []

variable {c : Codec}

theorem config_append (cfg us : List Nalu) (u : Nalu) :
    c.config cfg (us ++ [u]) = match c.role u with
      | .parameters clears _ => (if clears then [] else c.config cfg us) ++ [u]
      | _ => c.config cfg us := by
  rw [config, List.foldl_append]
  rfl

theorem config_config (cfg us vs : List Nalu) :
    c.config (c.config cfg us) vs = c.config cfg (us ++ vs) := by
  rw [config, config, config, List.foldl_append]

theorem config_of_not_parameters {cfg us : List Nalu}
    (h : ∀ u ∈ us, c.isParameters u = false) : c.config cfg us = cfg := by
  induction us using List.reverseRecOn with
  | nil => rfl
  | append_singleton us u ih =>
    have hbefore := ih fun v hv => h v (List.mem_append_left _ hv)
    have hu := h u (List.mem_append_right _ (List.mem_singleton.mpr rfl))
    rw [config_append]
    cases hrole : c.role u with
    | parameters clears format => simp [isParameters, hrole] at hu
    | skipped | idr | other => exact hbefore

theorem sinceLeading_append (us : List Nalu) (u : Nalu) :
    c.sinceLeading (us ++ [u]) =
      if c.isSet c.leading u then [u] else c.sinceLeading us ++ [u] := by
  simp [sinceLeading]

theorem isSet_leading (u : Nalu) :
    c.isSet c.leading u = true ↔ ∃ format, c.role u = .parameters true format := by
  cases c with
  | h264 =>
    simp only [isSet, isParameters, leading, role]
    split_ifs with hempty h7 h8 h6 h5 <;> simp_all
  | h265 =>
    simp only [isSet, isParameters, leading, role]
    split_ifs with h32 h33 h34 hidr <;> simp_all

/-- `m_cfg` is what has arrived of parameter sets since the last leading one. -/
theorem config_sinceLeading (us : List Nalu) :
    c.config [] us = (c.sinceLeading us).filter c.isParameters := by
  induction us using List.reverseRecOn with
  | nil => rfl
  | append_singleton us u ih =>
    rw [config_append, sinceLeading_append]
    cases hrole : c.role u with
    | parameters clears format =>
      have hparameters : c.isParameters u = true := by simp [isParameters, hrole]
      cases clears with
      | true =>
        have hleading := (isSet_leading u).mpr ⟨format, hrole⟩
        simp [hleading, hparameters]
      | false =>
        have hnot : ¬ c.isSet c.leading u = true := by
          rw [isSet_leading]
          rintro ⟨format', heq⟩
          rw [hrole] at heq
          cases heq
        simp [hnot, hparameters, ih]
    | skipped | idr | other =>
      have hparameters : c.isParameters u = false := by simp [isParameters, hrole]
      simp [isSet, hparameters, ih]

theorem sinceLeading_suffix (us : List Nalu) : c.sinceLeading us <:+ us := by
  induction us using List.reverseRecOn with
  | nil => exact List.suffix_rfl
  | append_singleton us u ih =>
    rw [sinceLeading_append]
    split
    · exact List.suffix_append us [u]
    · obtain ⟨before, hbefore⟩ := ih
      exact ⟨before, by rw [← List.append_assoc, hbefore]⟩

theorem lastOf_sinceLeading {k : Nat} {us : List Nalu}
    (h : (c.sinceLeading us).any (c.isSet k) = true) :
    c.lastOf k us = c.lastOf k (c.sinceLeading us) := by
  obtain ⟨before, hbefore⟩ := c.sinceLeading_suffix us
  have hsome : (c.sinceLeading us).filter (c.isSet k) ≠ [] := by
    obtain ⟨u, hu, hset⟩ := List.any_eq_true.mp h
    exact List.ne_nil_of_mem (List.mem_filter.mpr ⟨hu, hset⟩)
  calc c.lastOf k us = ((before ++ c.sinceLeading us).filter (c.isSet k)).getLast? := by
        rw [hbefore, lastOf]
    _ = c.lastOf k (c.sinceLeading us) := by
        rw [List.filter_append, List.getLast?_append_of_ne_nil _ hsome, lastOf]

theorem mem_of_lastOf {k : Nat} {us : List Nalu} {u : Nalu} (h : c.lastOf k us = some u) :
    u ∈ us ∧ c.isSet k u = true := List.mem_filter.mp (List.mem_of_getLast? h)

theorem isParameters_of_isSet {k : Nat} {u : Nalu} (h : c.isSet k u = true) :
    c.isParameters u = true := by
  rw [isSet, Bool.and_eq_true] at h
  exact h.1

theorem lastOf_mem_config_iff {us : List Nalu}
    (hreceived : ∀ k ∈ c.sets, ∃ u ∈ us, c.isSet k u = true) :
    (∀ k ∈ c.sets, ∀ u, c.lastOf k us = some u → u ∈ c.config [] us) ↔
      ∀ k ∈ c.sets, (c.sinceLeading us).any (c.isSet k) = true := by
  rw [config_sinceLeading]
  constructor
  · intro hcached k hk
    obtain ⟨u, hu, hset⟩ := hreceived k hk
    cases hlast : c.lastOf k us with
    | none =>
      have hnone : us.filter (c.isSet k) = [] := List.getLast?_eq_none_iff.mp hlast
      exact absurd (List.mem_filter.mpr ⟨hu, hset⟩) (by simp [hnone])
    | some v =>
      have hv := (List.mem_filter.mp (hcached k hk v hlast)).1
      exact List.any_eq_true.mpr ⟨v, hv, (mem_of_lastOf hlast).2⟩
  · intro hcomplete k hk u hlast
    rw [lastOf_sinceLeading (hcomplete k hk)] at hlast
    obtain ⟨hu, hset⟩ := mem_of_lastOf hlast
    exact List.mem_filter.mpr ⟨hu, isParameters_of_isSet hset⟩

end Codec

/-! ### A session -/

structure DataCall where
  decoding : Decoding
  timestamp : Int64
  buffer : List Nalu

namespace LiveVideoSource

def run (id : String) (calls : List DataCall) (src : LiveVideoSource) : LiveVideoSource :=
  calls.foldl (fun src call => (src.onData call.decoding call.timestamp id call.buffer).1) src

variable {c : Codec} {id : String}

theorem onH26xData_cfg (d : Decoding) (ts : Int64) (buffer : List Nalu) (src : LiveVideoSource) :
    (src.onH26xData d c ts buffer).cfg = c.config src.cfg buffer ∧
      (src.onH26xData d c ts buffer).codec = src.codec := by
  obtain ⟨src', hposted, hresult⟩ := onH26xData_posted (c := c) d ts buffer src
  rw [hresult]
  split <;> exact ⟨hposted.cfg, hposted.codec⟩

theorem onData_session (d : Decoding) (ts : Int64) (buffer : List Nalu) {src : LiveVideoSource}
    (h : src.codec.getD id "" = c.name) :
    (src.onData d ts id buffer).1.codec.getD id "" = c.name ∧
      (src.onData d ts id buffer).1.cfg = c.config src.cfg buffer ∧
      (src.onData d ts id buffer).1.queue = (src.onH26xData d c ts buffer).queue := by
  obtain ⟨hcfg, hcodec⟩ := onH26xData_cfg (c := c) d ts buffer src
  have hkept : ((src.onH26xData d c ts buffer).codec.insertIfNew id "").getD id "" = c.name := by
    rw [hcodec, Std.TreeMap.getD_insertIfNew, ← h]
    split
    · rename_i hnew
      rw [Std.TreeMap.getD_eq_fallback hnew.2]
    · rfl
  unfold onData
  rw [h]
  cases c with
  | h264 => exact ⟨hkept, hcfg, rfl⟩
  | h265 => exact ⟨hkept, hcfg, rfl⟩

theorem run_cfg (calls : List DataCall) {src : LiveVideoSource}
    (h : src.codec.getD id "" = c.name) :
    (src.run id calls).codec.getD id "" = c.name ∧
      (src.run id calls).cfg = c.config src.cfg (calls.flatMap DataCall.buffer) := by
  induction calls generalizing src with
  | nil => exact ⟨h, rfl⟩
  | cons call calls ih =>
    obtain ⟨hcodec, hcfg, _⟩ := onData_session call.decoding call.timestamp call.buffer h
    obtain ⟨hrest, hconfig⟩ := ih hcodec
    refine ⟨hrest, hconfig.trans ?_⟩
    rw [hcfg, List.flatMap_cons, Codec.config_config]

def keyFrames (src src' : LiveVideoSource) : List (List Nalu) :=
  (postedFrames src src').filterMap Frame.keyUnits

theorem onData_keyFrames (d : Decoding) (ts : Int64) (buffer : List Nalu) {src : LiveVideoSource}
    (h : src.codec.getD id "" = c.name) :
    src.keyFrames (src.onData d ts id buffer).1 =
      if buffer.any c.isIdr then
        [c.config src.cfg (buffer.takeWhile fun u => !c.isIdr u) ++ buffer.filter c.isIdr]
      else [] := by
  obtain ⟨src', hposted, hresult⟩ := onH26xData_posted (c := c) d ts buffer src
  obtain ⟨frames, hqueue, _, hkeys⟩ := hposted.queue
  rw [keyFrames, postedFrames, (onData_session d ts buffer h).2.2, hresult]
  split
  · rw [postFrame, hqueue, List.append_assoc, List.drop_left, List.filterMap_append, hkeys]
    rfl
  · rw [hqueue, List.drop_left, hkeys]

def session (c : Codec) (id : String) (prevTimestamp : UInt64) (d : Decoding)
    (initFrames : List (List Nalu)) (calls : List DataCall) : LiveVideoSource :=
  ((LiveVideoSource.new prevTimestamp).onNewSession d id "video" c.name initFrames).1.run id calls

/-- The units that have arrived when the first IDR slice of the next buffer does. -/
def received (c : Codec) (initFrames : List (List Nalu)) (calls : List DataCall)
    (buffer : List Nalu) : List Nalu :=
  initFrames.flatten ++ calls.flatMap DataCall.buffer ++ buffer.takeWhile fun u => !c.isIdr u

theorem onNewSession_cfg (id : String) (d : Decoding) (initFrames : List (List Nalu))
    (src : LiveVideoSource) :
    (src.onNewSession d id "video" c.name initFrames).1.codec.getD id "" = c.name ∧
      (src.onNewSession d id "video" c.name initFrames).1.cfg =
        c.config src.cfg initFrames.flatten := by
  have hknown : c.name ∈ ["H264", "H265", "JPEG", "VP9"] := by cases c <;> simp [Codec.name]
  have hstart : (src.onNewSession d id "video" c.name initFrames).1 =
      run id (initFrames.map (⟨d, 0, ·⟩)) { src with codec := src.codec.insert id c.name } := by
    rw [onNewSession, if_pos ⟨rfl, hknown⟩, run, List.foldl_map]
  have hbuffers : (initFrames.map (⟨d, 0, ·⟩ : List Nalu → DataCall)).flatMap DataCall.buffer =
      initFrames.flatten := by
    simp [List.flatMap_map]
  have hinit : ({ src with codec := src.codec.insert id c.name } : LiveVideoSource).codec.getD id
      "" = c.name := by simp
  obtain ⟨hcodec, hcfg⟩ := run_cfg (initFrames.map (⟨d, 0, ·⟩ : List Nalu → DataCall)) hinit
  rw [hstart]
  exact ⟨hcodec, by rw [hcfg, hbuffers]⟩

theorem session_cfg (id : String) (prevTimestamp : UInt64) (d : Decoding)
    (initFrames : List (List Nalu)) (calls : List DataCall) :
    (session c id prevTimestamp d initFrames calls).codec.getD id "" = c.name ∧
      (session c id prevTimestamp d initFrames calls).cfg =
        c.config [] (initFrames.flatten ++ calls.flatMap DataCall.buffer) := by
  obtain ⟨hcodec, hcfg⟩ := onNewSession_cfg (c := c) id d initFrames (.new prevTimestamp)
  obtain ⟨hcodec', hcfg'⟩ := run_cfg calls hcodec
  refine ⟨hcodec', ?_⟩
  rw [session, hcfg', hcfg, Codec.config_config]
  rfl

theorem takeWhile_filter_isIdr (us : List Nalu) :
    (us.filter c.isIdr).takeWhile c.isParameters = [] := by
  cases hslices : us.filter c.isIdr with
  | nil => rfl
  | cons u rest =>
    have hu : u ∈ us.filter c.isIdr := by rw [hslices]; exact List.mem_cons_self
    have hrole : c.role u = .idr := of_decide_eq_true (List.mem_filter.mp hu).2
    rw [List.takeWhile_cons_of_neg (by simp [Codec.isParameters, hrole])]

/-- Once one parameter set of each type has arrived, a key frame starts with the
most recent of each exactly when each type has come again since the last SPS
(H264) or VPS (H265). -/
theorem key_frame_parameters_iff (c : Codec) (id : String) (prevTimestamp : UInt64) (d : Decoding)
    (initFrames : List (List Nalu)) (calls : List DataCall) (call : DataCall) (frame : List Nalu)
    (hreceived : ∀ k ∈ c.sets, ∃ u ∈ received c initFrames calls call.buffer,
      c.isSet k u = true)
    (hframe : frame ∈ (session c id prevTimestamp d initFrames calls).keyFrames
      ((session c id prevTimestamp d initFrames calls).onData call.decoding call.timestamp id
        call.buffer).1) :
    (∀ k ∈ c.sets, ∀ u, c.lastOf k (received c initFrames calls call.buffer) = some u →
        u ∈ frame.takeWhile c.isParameters) ↔
      ∀ k ∈ c.sets,
        (c.sinceLeading (received c initFrames calls call.buffer)).any (c.isSet k) = true := by
  obtain ⟨hcodec, hcfg⟩ := session_cfg (c := c) id prevTimestamp d initFrames calls
  rw [onData_keyFrames call.decoding call.timestamp call.buffer hcodec, hcfg,
    Codec.config_config] at hframe
  change frame ∈ (if call.buffer.any c.isIdr = true then
    [c.config [] (received c initFrames calls call.buffer) ++ call.buffer.filter c.isIdr]
    else []) at hframe
  split at hframe
  · rw [List.mem_singleton] at hframe
    have hstart : frame.takeWhile c.isParameters =
        c.config [] (received c initFrames calls call.buffer) := by
      rw [hframe, List.takeWhile_append_of_pos (Codec.config_parameters (by simp)),
        takeWhile_filter_isIdr, List.append_nil]
    rw [hstart]
    exact Codec.lastOf_mem_config_iff hreceived
  · cases hframe

theorem key_frame_parameters_usual :
    [.sps, .pps, .idrSlice] ∈ (session .h264 "v" 0 .plain [] [⟨.plain, 0, [.sps, .pps]⟩]).keyFrames
      ((session .h264 "v" 0 .plain [] [⟨.plain, 0, [.sps, .pps]⟩]).onData .plain 0 "v"
        [.idrSlice]).1 ∧
    ∀ k ∈ Codec.h264.sets, ∀ u, Codec.h264.lastOf k [.sps, .pps] = some u →
      u ∈ [Nalu.sps, .pps, .idrSlice].takeWhile Codec.h264.isParameters := by
  have hframe : [.sps, .pps, .idrSlice] ∈
      (session .h264 "v" 0 .plain [] [⟨.plain, 0, [.sps, .pps]⟩]).keyFrames
        ((session .h264 "v" 0 .plain [] [⟨.plain, 0, [.sps, .pps]⟩]).onData .plain 0 "v"
          [.idrSlice]).1 := by decide
  exact ⟨hframe, (key_frame_parameters_iff .h264 "v" 0 .plain [] [⟨.plain, 0, [.sps, .pps]⟩]
    ⟨.plain, 0, [.idrSlice]⟩ _ (by decide) hframe).mpr (by decide)⟩

/-- The PPS comes before the SPS: the key frame has no PPS. -/
theorem key_frame_without_pps : ¬ ∀ (c : Codec) (id : String) (prevTimestamp : UInt64)
    (d : Decoding) (initFrames : List (List Nalu)) (calls : List DataCall) (call : DataCall)
    (frame : List Nalu),
    (∀ k ∈ c.sets, ∃ u ∈ received c initFrames calls call.buffer, c.isSet k u = true) →
    frame ∈ (session c id prevTimestamp d initFrames calls).keyFrames
      ((session c id prevTimestamp d initFrames calls).onData call.decoding call.timestamp id
        call.buffer).1 →
    ∀ k ∈ c.sets, ∀ u, c.lastOf k (received c initFrames calls call.buffer) = some u →
      u ∈ frame.takeWhile c.isParameters := by
  intro halways
  have hpps := halways .h264 "v" 0 .plain [] [⟨.plain, 0, [.pps, .sps]⟩] ⟨.plain, 0, [.idrSlice]⟩
    [.sps, .idrSlice] (by decide) (by decide) 8 (by decide) .pps (by decide)
  exact absurd hpps (by decide)

end LiveVideoSource

end WebrtcStreamer
