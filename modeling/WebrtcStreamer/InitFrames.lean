import WebrtcStreamer.Base64
import WebrtcStreamer.KeyFrames
import WebrtcStreamer.StdText

/-! The parameter sets that an SDP announces, on their way to the first key frame. -/

set_option autoImplicit false

namespace WebrtcStreamer

def delimiters : List Char := [' ', ';', '\r', '\n']

/-- What stands in front of the first delimiter, by `find_first_of` and `erase`. -/
def untilDelimiter (text : List Char) : List Char := text.takeWhile fun c => c ∉ delimiters

/-- What is not part of this code: `H26X_marker`, `Base64Decode`, `DecodeSprop` with
the SPS and the PPS that it finds, and `FindNaluIndices` of each codec. -/
structure Framing where
  marker : List UInt8
  base64Decode : List Char → Option (List UInt8)
  decodeSprop : List Char → Option (List UInt8 × List UInt8)
  findNaluIndices : Codec → List UInt8 → List Nalu

namespace Framing

variable (w : Framing)

def extractParameters (buffer : List Char) : List UInt8 :=
  match w.base64Decode (untilDelimiter buffer) with
  | none => []
  | some binary => w.marker ++ binary

def getInitFrames (codec : String) (sdp : List Char) : List (List UInt8) :=
  if codec = "H264" then
    let pattern := "sprop-parameter-sets=".toList
    match strstr sdp pattern with
    | none => []
    | some sprop =>
      match w.decodeSprop (untilDelimiter (sprop.drop pattern.length)) with
      | some (sps, pps) => [w.marker ++ sps, w.marker ++ pps]
      | none => []
  else if codec = "H265" then
    let pattern := "sprop-vps=".toList
    match strstr sdp pattern, strstr sdp "sprop-sps=".toList, strstr sdp "sprop-pps=".toList with
    | some spropvps, some spropsps, some sproppps =>
      [w.extractParameters (spropvps.drop pattern.length),
        w.extractParameters (spropsps.drop pattern.length),
        w.extractParameters (sproppps.drop pattern.length)]
    | _, _, _ => []
  else []

def startSession (d : Decoding) (id : String) (c : Codec) (sdp : List Char)
    (src : LiveVideoSource) : LiveVideoSource :=
  (src.onNewSession d id "video" c.name
    ((w.getInitFrames c.name sdp).map (w.findNaluIndices c))).1

end Framing

theorem not_mem_delimiters {bytes : List UInt8} {c : Char} (h : c ∈ Base64.encode bytes) :
    c ∉ delimiters := by
  have hclean : ('=' :: Base64.alphabet).all (fun c => c ∉ delimiters) = true := by decide
  have hmem : c ∈ '=' :: Base64.alphabet := List.mem_cons.mpr (Base64.mem_encode h)
  exact of_decide_eq_true (List.all_eq_true.mp hclean c hmem)

theorem untilDelimiter_encode {bytes : List UInt8} {rest : List Char}
    (hrest : ∀ c ∈ rest.head?, c ∈ delimiters) :
    untilDelimiter (Base64.encode bytes ++ rest) = Base64.encode bytes := by
  have hnone : untilDelimiter rest = [] := by
    cases rest with
    | nil => rfl
    | cons c rest => simp [untilDelimiter, hrest c rfl]
  have htext : ∀ c ∈ Base64.encode bytes, decide (c ∉ delimiters) = true :=
    fun c hc => decide_eq_true (not_mem_delimiters hc)
  calc untilDelimiter (Base64.encode bytes ++ rest)
      = Base64.encode bytes ++ untilDelimiter rest := List.takeWhile_append_of_pos htext
    _ = Base64.encode bytes := by rw [hnone, List.append_nil]

/-- The text has the attribute once, with these bytes as its value. -/
def Announces (sdp : List Char) (name : String) (bytes : List UInt8) : Prop :=
  ∃ before rest, sdp = before ++ name.toList ++ (Base64.encode bytes ++ rest) ∧
    (∀ c ∈ rest.head?, c ∈ delimiters) ∧
    ∀ before' rest', sdp = before' ++ name.toList ++ rest' → before' = before

theorem announces_of_drop {sdp : List Char} {name : String} {bytes : List UInt8} (k : Nat)
    (rest : List Char) (htext : sdp.drop k = name.toList ++ (Base64.encode bytes ++ rest))
    (hrest : ∀ c ∈ rest.head?, c ∈ delimiters)
    (honce : ∀ n < sdp.length + 1, name.toList.isPrefixOf (sdp.drop n) = true → n = k) :
    Announces sdp name bytes := by
  refine ⟨sdp.take k, rest, ?_, hrest, ?_⟩
  · rw [List.append_assoc, ← htext, List.take_append_drop]
  · intro before' rest' hsdp
    rw [List.append_assoc] at hsdp
    have hdrop : sdp.drop before'.length = name.toList ++ rest' := by rw [hsdp, List.drop_left]
    have hlen : before'.length < sdp.length + 1 := by simp [hsdp]
    have hk : before'.length = k := honce _ hlen
      (List.isPrefixOf_iff_prefix.mpr (hdrop ▸ List.prefix_append _ _))
    rw [← hk, hsdp, List.take_left]

structure ParameterSet (k : Nat) where
  bytes : List UInt8
  long : 2 ≤ bytes.length
  type : Codec.h265.naluType ⟨[], bytes⟩ = k
  clean : ¬ [0, 0, 1] <:+: bytes

namespace Framing

variable {w : Framing} {sdp : List Char}

theorem strstr_first {pattern before rest : List Char}
    (honce : ∀ before' rest', before ++ pattern ++ rest = before' ++ pattern ++ rest' →
      before' = before) :
    strstr (before ++ pattern ++ rest) pattern = some (pattern ++ rest) := by
  induction before with
  | nil =>
    cases htext : pattern ++ rest with
    | nil => rw [List.nil_append, htext, strstr, if_pos (List.append_eq_nil_iff.mp htext).1]
    | cons c text =>
      have hprefix : pattern.isPrefixOf (c :: text) = true :=
        List.isPrefixOf_iff_prefix.mpr (htext ▸ List.prefix_append pattern rest)
      rw [List.nil_append, htext, strstr, if_pos hprefix]
  | cons c before ih =>
    have hnot : ¬ pattern.isPrefixOf (c :: (before ++ pattern ++ rest)) = true := by
      intro hprefix
      obtain ⟨rest', hrest⟩ := List.isPrefixOf_iff_prefix.mp hprefix
      exact List.cons_ne_nil _ _ (honce [] rest' (by simpa using hrest.symm)).symm
    rw [List.cons_append, List.cons_append, strstr, if_neg hnot]
    refine ih fun before' rest' heq => ?_
    have hcons := honce (c :: before') rest' (by simpa using heq)
    exact (List.cons.inj hcons).2

theorem extractParameters_announced {name : String} {bytes : List UInt8}
    (hbase64 : w.base64Decode (Base64.encode bytes) = some bytes)
    (h : Announces sdp name bytes) :
    ∃ text, strstr sdp name.toList = some text ∧
      w.extractParameters (text.drop name.toList.length) = w.marker ++ bytes := by
  obtain ⟨before, rest, rfl, hrest, honce⟩ := h
  refine ⟨_, strstr_first honce, ?_⟩
  rw [List.drop_left, extractParameters, untilDelimiter_encode hrest, hbase64]

theorem getInitFrames_announced {vps sps pps : List UInt8}
    (hbase64 : ∀ bytes, w.base64Decode (Base64.encode bytes) = some bytes)
    (hvps : Announces sdp "sprop-vps=" vps) (hsps : Announces sdp "sprop-sps=" sps)
    (hpps : Announces sdp "sprop-pps=" pps) :
    w.getInitFrames "H265" sdp = [w.marker ++ vps, w.marker ++ sps, w.marker ++ pps] := by
  obtain ⟨vpsText, hvpsText, hvps⟩ := extractParameters_announced (hbase64 vps) hvps
  obtain ⟨spsText, hspsText, hsps⟩ := extractParameters_announced (hbase64 sps) hsps
  obtain ⟨ppsText, hppsText, hpps⟩ := extractParameters_announced (hbase64 pps) hpps
  have hlen : ∀ name ∈ ["sprop-sps=", "sprop-pps="],
      name.toList.length = "sprop-vps=".toList.length := by simp
  rw [hlen _ (by simp)] at hsps hpps
  rw [getInitFrames, if_neg (by simp), if_pos rfl]
  simp only [hvpsText, hspsText, hppsText, hvps, hsps, hpps]

theorem config_parameterSets (cfg : List Nalu) (start : List UInt8) (vps : ParameterSet 32)
    (sps : ParameterSet 33) (pps : ParameterSet 34) :
    Codec.h265.config cfg [⟨start, vps.bytes⟩, ⟨start, sps.bytes⟩, ⟨start, pps.bytes⟩] =
      [⟨start, vps.bytes⟩, ⟨start, sps.bytes⟩, ⟨start, pps.bytes⟩] := by
  have hvps : Codec.h265.role ⟨start, vps.bytes⟩ = .parameters true false := by
    have htype : Codec.h265.naluType ⟨start, vps.bytes⟩ = 32 := vps.type
    simp [Codec.role, htype]
  have hsps : Codec.h265.role ⟨start, sps.bytes⟩ = .parameters false true := by
    have htype : Codec.h265.naluType ⟨start, sps.bytes⟩ = 33 := sps.type
    simp [Codec.role, htype]
  have hpps : Codec.h265.role ⟨start, pps.bytes⟩ = .parameters false false := by
    have htype : Codec.h265.naluType ⟨start, pps.bytes⟩ = 34 := pps.type
    simp [Codec.role, htype]
  simp [Codec.config, hvps, hsps, hpps]

theorem startSession_cfg (hmarker : w.marker = [0, 0, 0, 1])
    (hbase64 : ∀ bytes, w.base64Decode (Base64.encode bytes) = some bytes)
    (hindices : ∀ unit, unit ≠ [] → ¬ [0, 0, 1] <:+: unit →
      w.findNaluIndices .h265 ([0, 0, 0, 1] ++ unit) = [⟨[0, 0, 0, 1], unit⟩])
    {vps : ParameterSet 32} {sps : ParameterSet 33} {pps : ParameterSet 34}
    (hvps : Announces sdp "sprop-vps=" vps.bytes) (hsps : Announces sdp "sprop-sps=" sps.bytes)
    (hpps : Announces sdp "sprop-pps=" pps.bytes) (d : Decoding) (id : String)
    (src : LiveVideoSource) :
    (w.startSession d id .h265 sdp src).codec.getD id "" = Codec.h265.name ∧
      (w.startSession d id .h265 sdp src).cfg =
        [⟨[0, 0, 0, 1], vps.bytes⟩, ⟨[0, 0, 0, 1], sps.bytes⟩, ⟨[0, 0, 0, 1], pps.bytes⟩] := by
  have hunit : ∀ {k : Nat} (u : ParameterSet k),
      w.findNaluIndices .h265 ([0, 0, 0, 1] ++ u.bytes) = [⟨[0, 0, 0, 1], u.bytes⟩] :=
    fun u => hindices u.bytes (List.length_pos_iff.mp (Nat.lt_of_lt_of_le Nat.two_pos u.long))
      u.clean
  obtain ⟨hcodec, hcfg⟩ := LiveVideoSource.onNewSession_cfg (c := .h265) id d
    ((w.getInitFrames "H265" sdp).map (w.findNaluIndices .h265)) src
  refine ⟨hcodec, hcfg.trans ?_⟩
  rw [getInitFrames_announced hbase64 hvps hsps hpps, hmarker]
  rw [List.map_cons, List.map_cons, List.map_singleton, hunit, hunit, hunit]
  exact config_parameterSets src.cfg _ vps sps pps

/-- The sets that an H265 SDP announces are what the session caches, and the first
key frame starts with them unless other ones come before it. -/
theorem announced_sets_sent (hmarker : w.marker = [0, 0, 0, 1])
    (hbase64 : ∀ bytes, w.base64Decode (Base64.encode bytes) = some bytes)
    (hindices : ∀ unit, unit ≠ [] → ¬ [0, 0, 1] <:+: unit →
      w.findNaluIndices .h265 ([0, 0, 0, 1] ++ unit) = [⟨[0, 0, 0, 1], unit⟩])
    (vps : ParameterSet 32) (sps : ParameterSet 33) (pps : ParameterSet 34)
    (hvps : Announces sdp "sprop-vps=" vps.bytes) (hsps : Announces sdp "sprop-sps=" sps.bytes)
    (hpps : Announces sdp "sprop-pps=" pps.bytes) (d : Decoding) (id : String)
    (src : LiveVideoSource) :
    (w.startSession d id .h265 sdp src).cfg.flatMap Nalu.bytes =
        [0, 0, 0, 1] ++ vps.bytes ++ [0, 0, 0, 1] ++ sps.bytes ++ [0, 0, 0, 1] ++ pps.bytes ∧
      ∀ (calls : List DataCall) (call : DataCall),
        (∀ u ∈ calls.flatMap DataCall.buffer ++ call.buffer,
          Codec.h265.isParameters u = false) →
        call.buffer.any Codec.h265.isIdr = true →
        let started := (w.startSession d id .h265 sdp src).run id calls
        (started.keyFrames (started.onData call.decoding call.timestamp id call.buffer).1).map
            (List.flatMap Nalu.bytes) =
          [[0, 0, 0, 1] ++ vps.bytes ++ [0, 0, 0, 1] ++ sps.bytes ++ [0, 0, 0, 1] ++ pps.bytes ++
            (call.buffer.filter Codec.h265.isIdr).flatMap Nalu.bytes] := by
  obtain ⟨hcodec, hcfg⟩ := startSession_cfg hmarker hbase64 hindices hvps hsps hpps d id src
  refine ⟨by simp [hcfg, Nalu.bytes], ?_⟩
  intro calls call hsets hidr
  obtain ⟨hcodec', hcfg'⟩ := LiveVideoSource.run_cfg calls hcodec
  have hcalls : ∀ u ∈ calls.flatMap DataCall.buffer, Codec.h265.isParameters u = false :=
    fun u hu => hsets u (List.mem_append_left _ hu)
  have hbuffer : ∀ u ∈ call.buffer.takeWhile fun u => !Codec.h265.isIdr u,
      Codec.h265.isParameters u = false :=
    fun u hu => hsets u (List.mem_append_right _ ((List.takeWhile_prefix _).subset hu))
  simp only [LiveVideoSource.onData_keyFrames call.decoding call.timestamp call.buffer hcodec',
    if_pos hidr, hcfg', Codec.config_of_not_parameters hcalls,
    Codec.config_of_not_parameters hbuffer, hcfg]
  simp [Nalu.bytes]

def oneUnit : Framing :=
  ⟨[0, 0, 0, 1], Base64.decode, fun _ => none, fun _ buffer => [⟨buffer.take 4, buffer.drop 4⟩]⟩

def sdpH265 : List Char := "sprop-sps=QgE=;sprop-pps=RAE= sprop-vps=QAE=".toList

theorem announced_sets_sent_first :
    (oneUnit.startSession .plain "v" .h265 sdpH265 (.new 0)).cfg.flatMap Nalu.bytes =
        [0, 0, 0, 1, 0x40, 1, 0, 0, 0, 1, 0x42, 1, 0, 0, 0, 1, 0x44, 1] ∧
      let started := (oneUnit.startSession .plain "v" .h265 sdpH265 (.new 0)).run "v" []
      (started.keyFrames
          (started.onData .plain 40 "v" [⟨[0, 0, 0, 1], [0x26, 1]⟩]).1).map
          (List.flatMap Nalu.bytes) =
        [[0, 0, 0, 1, 0x40, 1, 0, 0, 0, 1, 0x42, 1, 0, 0, 0, 1, 0x44, 1, 0, 0, 0, 1, 0x26, 1]] := by
  have hvps : Announces sdpH265 "sprop-vps=" [0x40, 1] :=
    announces_of_drop 30 [] (by decide) (by simp) (by decide +kernel)
  have hsps : Announces sdpH265 "sprop-sps=" [0x42, 1] :=
    announces_of_drop 0 ";sprop-pps=RAE= sprop-vps=QAE=".toList (by decide)
      (by simp [delimiters]) (by decide +kernel)
  have hpps : Announces sdpH265 "sprop-pps=" [0x44, 1] :=
    announces_of_drop 15 " sprop-vps=QAE=".toList (by decide) (by simp [delimiters])
      (by decide +kernel)
  have hsets := announced_sets_sent (w := oneUnit) rfl Base64.decode_encode
    (fun _ _ _ => rfl) ⟨[0x40, 1], by decide, by decide, by decide⟩
    ⟨[0x42, 1], by decide, by decide, by decide⟩ ⟨[0x44, 1], by decide, by decide, by decide⟩
    hvps hsps hpps .plain "v" (.new 0)
  exact ⟨hsets.1, hsets.2 [] ⟨.plain, 40, [⟨[0, 0, 0, 1], [0x26, 1]⟩]⟩ (by decide) (by decide)⟩

end Framing

end WebrtcStreamer
