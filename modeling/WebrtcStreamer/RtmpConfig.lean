import WebrtcStreamer.RtmpPictures
import WebrtcStreamer.DecoderRecovery

/-! The parameter sets that `RtmpVideoSource` caches from configuration records. -/

set_option autoImplicit false

namespace WebrtcStreamer

def RtmpPacket.storedAt (p : RtmpPacket) (start : Int) : Option (List UInt8) :=
  p.bytes (start + 2) (start + 2 + p.sizeAt start + 1)

namespace RtmpPacket

/-! The units of a record, by the sizes that are written in it. -/

section Units

variable (p : RtmpPacket)

def sizeField (start : Int) : Nat := 256 * (p.body start).toNat + (p.body (start + 1)).toNat

def unitAt (start : Int) : List UInt8 :=
  (List.range (p.sizeField start)).map fun i : Nat => p.body (start + 2 + i)

def unitNext (start : Int) : List UInt8 :=
  (List.range (p.sizeField start + 1)).map fun i : Nat => p.body (start + 2 + i)

/-- Where the sizes are; the number of PPS, or the head of an array, stands in between. -/
def unitStarts : Codec → List Int
  | .h264 => [11, 11 + (2 + p.sizeField 11) + 1]
  | .h265 =>
    let startSps : Int := 31 + (2 + p.sizeField 31) + 3
    [31, startSps, startSps + (2 + p.sizeField startSps) + 3]

structure HasSet (c : Codec) : Prop where
  types : (p.unitStarts c).map (fun start => c.naluType ⟨[], p.unitAt start⟩) = c.sets
  inside : ∀ start ∈ p.unitStarts c, start + 2 + p.sizeField start ≤ p.size

end Units

section Sizes

variable {p : RtmpPacket} {start : Int} {c : Codec}

theorem length_unitAt : (p.unitAt start).length = p.sizeField start := by simp [unitAt]

theorem length_unitNext : (p.unitNext start).length = p.sizeField start + 1 := by simp [unitNext]

theorem sizeRead_unitAt : SizeRead (p.unitAt start) ↔
    p.sizeField start < 2 ^ 15 ∧ p.sizeField start % 256 < 128 := by
  rw [SizeRead, length_unitAt]

theorem toInt_toInt8 (b : UInt8) :
    b.toInt8.toInt = if b.toNat < 128 then (b.toNat : Int) else b.toNat - 256 := by
  have hlt := b.toNat_lt
  rw [← UInt8.ofNat_toNat (x := b), UInt8.toInt8_ofNat', Int8.toInt_ofNat', Int.bmod_def,
    UInt8.ofNat_toNat]
  simp only [Int8.size]
  split <;> split <;> omega

/-- A size is read as it is, or less by 256, or as a large negative number. -/
theorem sizeAt_cases (start : Int) :
    SizeRead (p.unitAt start) ∧ p.sizeAt start = p.sizeField start ∨
      p.sizeAt start = p.sizeField start - 256 ∨ p.sizeAt start < -1 := by
  have hhigh := (p.body start).toNat_lt
  have hlow := (p.body (start + 1)).toNat_lt
  rw [sizeRead_unitAt, sizeAt, toInt_toInt8, toInt_toInt8, sizeField]
  split <;> split <;> omega

theorem sizeAt_of_read (h : SizeRead (p.unitAt start)) : p.sizeAt start = p.sizeField start := by
  rw [sizeRead_unitAt, sizeField] at h
  have hlow := (p.body (start + 1)).toNat_lt
  rw [sizeAt, toInt_toInt8, toInt_toInt8, if_pos (by omega), if_pos (by omega), sizeField]
  omega

theorem sizeRead_of_sizeAt (h : p.sizeAt start = p.sizeField start) :
    SizeRead (p.unitAt start) := by
  rcases p.sizeAt_cases start with ⟨hread, -⟩ | hsize | hsize
  · exact hread
  all_goals omega

theorem storedAt_of_read (h : SizeRead (p.unitAt start)) :
    p.storedAt start = some (p.unitNext start) := by
  rw [storedAt, bytes, sizeAt_of_read h, if_neg (by omega), unitNext]
  have hlen : (start + 2 + p.sizeField start + 1 - (start + 2)).toNat = p.sizeField start + 1 := by
    omega
  rw [hlen]

theorem naluTypeAt_unitAt {k : Nat} (h : c.naluType ⟨[], p.unitAt start⟩ = k) (hk : k ≠ 0) :
    p.naluTypeAt c (start + 2) = k := by
  rw [unitAt] at h
  cases hsize : p.sizeField start with
  | zero =>
    rw [hsize] at h
    have hzero : c.naluType ⟨[], []⟩ = 0 := by cases c <;> rfl
    exact absurd (h.symm.trans hzero) hk
  | succ n =>
    rw [hsize, List.range_succ_eq_map, List.map_cons] at h
    rw [← h, naluTypeAt]
    cases c <;> simp [Codec.naluType, Nalu.header]

theorem body_of_unitNext {k : Nat} {b : UInt8} (h : (p.unitNext start)[k]? = some b) :
    p.body (start + 2 + k) = b := by
  have hk : k < p.sizeField start + 1 := by
    simpa [length_unitNext] using (List.getElem?_eq_some_iff.mp h).1
  rw [unitNext, List.getElem?_map, List.getElem?_range hk, Option.map_some, Option.some.injEq] at h
  exact h

theorem sizeAt_marker {x y z : List UInt8} (h : x ++ 0 :: 0 :: 0 :: 1 :: y = p.unitNext start ++ z)
    (hlen : x.length + 4 ≤ p.sizeField start + 1) :
    p.sizeAt (start + 2 + x.length) = 0 ∧ p.sizeAt (start + 2 + x.length + 2) = 1 := by
  have hbody (k : Nat) (b : UInt8) (hk : k < 4) (hb : ([0, 0, 0, 1] : List UInt8)[k]? = some b) :
      p.body (start + 2 + x.length + k) = b := by
    have hinside : (p.unitNext start ++ z)[x.length + k]? = (p.unitNext start)[x.length + k]? :=
      List.getElem?_append_left (by rw [length_unitNext]; omega)
    have hmarker : ([0, 0, 0, 1] ++ y)[k]? = ([0, 0, 0, 1] : List UInt8)[k]? :=
      List.getElem?_append_left hk
    have hfound : (p.unitNext start)[x.length + k]? = some b := by
      rw [← hinside, ← h, List.getElem?_append_right (by omega), Nat.add_sub_cancel_left, ← hb]
      exact hmarker
    have hplace := body_of_unitNext hfound
    push_cast at hplace
    rwa [← Int.add_assoc] at hplace
  have h0 := hbody 0 0 (by decide) rfl
  have h1 := hbody 1 0 (by decide) rfl
  have h2 := hbody 2 0 (by decide) rfl
  have h3 := hbody 3 1 (by decide) rfl
  norm_num at h0 h1 h2 h3
  have hnext : start + 2 + (x.length : Int) + 2 + 1 = start + 2 + x.length + 3 := by omega
  rw [sizeAt, sizeAt, h0, h1, h2, hnext, h3]
  decide

end Sizes

end RtmpPacket

namespace RtmpVideoSource

variable {marker : List UInt8} {parseSps : Codec → List UInt8 → Option (Int × Int)}
  {p : RtmpPacket} {ts : UInt64} {c : Codec}

def config (marker : List UInt8) (parseSps : Codec → List UInt8 → Option (Int × Int))
    (p : RtmpPacket) (src : RtmpVideoSource) : Codec → Option RtmpVideoSource
  | .h264 => configH264 marker parseSps p src
  | .h265 => configH265 marker parseSps p src

theorem processVideoPacket_record (hcodec : codecOf p = some c) (hrecord : isRecord p = true)
    (src : RtmpVideoSource) :
    src.processVideoPacket marker parseSps p ts = src.config marker parseSps p c := by
  have hkind : p.body 0 >>> 4 = 1 ∧ p.body 1 = 0 := by simpa [isRecord] using hrecord
  rw [codecOf] at hcodec
  rw [processVideoPacket]
  split at hcodec
  · rename_i havc
    cases hcodec
    simp only [havc, if_true, onVideo, hkind, and_self, config]
  · rename_i havc
    split at hcodec
    · rename_i hhevc
      cases hcodec
      simp only [hhevc, if_true, onVideo, hkind, and_self, config]
      rfl
    · cases hcodec

theorem store_eq (src : RtmpVideoSource) (start : Int) :
    src.store marker p start =
      (p.storedAt start).map fun u => { src with cfg := src.cfg ++ marker ++ u } := by
  rw [store, RtmpPacket.storedAt]
  cases p.bytes (start + 2) (start + 2 + p.sizeAt start + 1) <;> rfl

theorem configH264_eq (src : RtmpVideoSource) (hsps : p.naluTypeAt .h264 13 = 7) :
    src.config marker parseSps p .h264 =
      (p.spsBytes .h264).bind fun bytes =>
        match parseSps .h264 bytes with
        | none => some { src with cfg := [] }
        | some (width, height) =>
          (p.storedAt 11).bind fun sps => (p.storedAt (11 + p.sizeAt 11 + 3)).map fun pps =>
            ⟨annexB marker [sps, pps], src.queue ++ [.format "H264" width height]⟩ := by
  have hsps' : p.naluTypeAt .h264 (11 + 2) = 7 := hsps
  rw [config, configH264, p.spsBytes_h264]
  simp only [hsps', if_true]
  apply Option.bind_congr
  intro bytes _
  cases parseSps .h264 bytes with
  | none => rfl
  | some size =>
    simp only [store_eq, postFormat]
    cases p.storedAt 11 with
    | none => rfl
    | some sps => cases p.storedAt (11 + p.sizeAt 11 + 3) <;> simp [annexB]

theorem configH265_eq (src : RtmpVideoSource) (hvps : p.naluTypeAt .h265 33 = 32) :
    let startSps := 31 + p.sizeAt 31 + 3 + 2
    src.config marker parseSps p .h265 =
      (p.storedAt 31).bind fun vps =>
        if p.naluTypeAt .h265 (startSps + 2) = 33 then
          (p.spsBytes .h265).bind fun bytes => (p.storedAt startSps).bind fun sps =>
            (p.storedAt (startSps + p.sizeAt startSps + 3 + 2)).map fun pps =>
              ⟨annexB marker [vps, sps, pps], src.queue ++
                ((parseSps .h265 bytes).map fun size => .format "H265" size.1 size.2).toList⟩
        else some { src with cfg := annexB marker [vps] } := by
  intro startSps
  have hvps' : p.naluTypeAt .h265 (31 + 2) = 32 := hvps
  rw [config, configH265, p.spsBytes_h265]
  simp only [hvps', if_true, store_eq]
  cases p.storedAt 31 with
  | none => rfl
  | some vps =>
    by_cases hsps : p.naluTypeAt .h265 (startSps + 2) = 33
    · simp only [startSps] at hsps ⊢
      simp only [Option.map_some, Option.bind_some, Option.bind_eq_bind, hsps, if_true]
      apply Option.bind_congr
      intro bytes _
      generalize 31 + p.sizeAt 31 + 3 + 2 = startSps
      cases p.storedAt startSps with
      | none => rfl
      | some sps =>
        cases p.storedAt (startSps + p.sizeAt startSps + 3 + 2) with
        | none => rfl
        | some pps => cases parseSps .h265 bytes <;> simp [annexB, postFormat]
    · simp only [startSps] at hsps ⊢
      simp [hsps, annexB]

end RtmpVideoSource

/-! ### Records with one parameter set of each type -/

namespace ConfigRecord

def parameterSets (r : ConfigRecord) (pps : List UInt8) : Codec → List (List UInt8)
  | .h264 => [r.sps, pps]
  | .h265 => [r.vps, r.sps, pps]

/-- Between the SPS and the size of the PPS: the number of PPS, or the head of
their array. -/
def gap : Codec → Nat
  | .h264 => 1
  | .h265 => 3

structure Complete (r : ConfigRecord) (pps : List UInt8) (c : Codec) : Prop where
  time : r.time.length = 3
  fields : r.fields.length = fieldsSize c
  types : (r.parameterSets pps c).map (fun u => c.naluType ⟨[], u⟩) = c.sets
  sizes : ∀ u ∈ r.parameterSets pps c, 2 ≤ u.length ∧ u.length < 2 ^ 16
  rest : ∃ between tail, between.length = gap c ∧ r.rest = between ++ sized pps ++ tail

end ConfigRecord

section Record

variable {parseSps : Codec → List UInt8 → Option (Int × Int)} {p : RtmpPacket} {ts : UInt64}
  {r : ConfigRecord} {pps : List UInt8} {c : Codec} {src src' : RtmpVideoSource}

theorem RtmpPacket.Holds.unit_body {before u rest : List UInt8} {j : Nat} {b : UInt8}
    (h : p.Holds (before ++ sized u ++ rest)) (hj : u[j]? = some b) :
    p.body (before.length + 2 + j) = b := by
  have hlt : j < u.length := (List.getElem?_eq_some_iff.mp hj).1
  have hget : (before ++ sized u ++ rest)[before.length + 2 + j]? = some b := by
    rw [List.append_assoc, List.getElem?_append_right (by omega),
      List.getElem?_append_left (by simp [sized]; omega)]
    have hindex : before.length + 2 + j - before.length = j + 2 := by omega
    rw [hindex]
    simpa [sized] using hj
  have hbody := h _ _ hget
  push_cast at hbody
  exact hbody

theorem RtmpPacket.Holds.sizeField {before u rest : List UInt8}
    (h : p.Holds (before ++ sized u ++ rest)) (hu : u.length < 2 ^ 16) :
    p.sizeField before.length = u.length := by
  obtain ⟨hhigh, hlow⟩ := h.size_body
  rw [RtmpPacket.sizeField, hhigh, hlow, UInt8.toNat_ofNat', UInt8.toNat_ofNat']
  omega

theorem RtmpPacket.Holds.sizeAt_cases {before u rest : List UInt8}
    (h : p.Holds (before ++ sized u ++ rest)) (hu : u.length < 2 ^ 16) :
    p.sizeAt before.length = u.length ∨ p.sizeAt before.length = u.length - 256 ∨
      p.sizeAt before.length < -1 := by
  rw [← h.sizeField hu]
  exact (p.sizeAt_cases before.length).imp_left And.right

theorem marker_at {x y z : List UInt8} (h : x ++ 0 :: 0 :: 0 :: 1 :: y = z) :
    z[x.length]? = some 0 ∧ z[x.length + 1]? = some 0 ∧ z[x.length + 2]? = some 0 ∧
      z[x.length + 3]? = some 1 := by
  subst h
  simp

theorem marker_not_next {a b x y : List UInt8}
    (h : a ++ 0 :: 0 :: 0 :: 1 :: b = x ++ 0 :: 0 :: 0 :: 1 :: y) :
    a.length ≠ x.length + 1 := by
  intro hlength
  have hfound := (marker_at h).2.2.1
  have hsame : a.length + 2 = x.length + 3 := by omega
  rw [hsame, (marker_at rfl).2.2.2] at hfound
  exact absurd hfound (by decide)

theorem RtmpPacket.length_bytes {first last : Int} {u : List UInt8}
    (h : p.bytes first last = some u) : (u.length : Int) = last - first := by
  rw [bytes] at h
  split at h
  · cases h
  · cases h
    simp only [List.length_map, List.length_range]
    omega

theorem RtmpPacket.length_storedAt {start : Int} {u : List UInt8}
    (h : p.storedAt start = some u) : (u.length : Int) = p.sizeAt start + 1 := by
  have hlen := length_bytes h
  omega

theorem RtmpPacket.length_spsBytes {bytes : List UInt8} (h : p.spsBytes .h264 = some bytes) :
    (bytes.length : Int) = p.sizeAt 11 := by
  rw [p.spsBytes_h264, Option.ite_none_right_eq_some] at h
  have hlen := length_bytes h.2
  omega

theorem RtmpPacket.Holds.sizeAt_inside {before u rest z : List UInt8} {start : Int} {k : Nat}
    {high low : UInt8} (h : p.Holds (before ++ sized u ++ rest))
    (hstart : (before.length : Int) = start) (hk : k + 1 < u.length)
    (hhigh : (u ++ z)[k]? = some high) (hlow : (u ++ z)[k + 1]? = some low) :
    p.sizeAt (start + 2 + k) = 256 * high.toInt8.toInt + low.toInt8.toInt := by
  rw [List.getElem?_append_left (by omega)] at hhigh hlow
  have hlow' := h.unit_body hlow
  have hnext : (before.length + 2 + k : Int) + 1 = before.length + 2 + (k + 1 : Nat) := by
    push_cast
    ring
  rw [← hstart, RtmpPacket.sizeAt, h.unit_body hhigh, hnext, hlow']

theorem ConfigRecord.isRecord (hp : p.Holds (r.bytes c)) :
    RtmpVideoSource.codecOf p = some c ∧ RtmpVideoSource.isRecord p = true := by
  have hrecord : p.body 1 = 0 := by
    cases c with
    | h264 => exact hp 1 0 rfl
    | h265 => exact hp 1 0 rfl
  cases c with
  | h264 =>
    have hfirst : p.body 0 = 0x17 := hp 0 0x17 rfl
    rw [RtmpVideoSource.codecOf, RtmpVideoSource.isRecord, hfirst, hrecord]
    exact ⟨rfl, rfl⟩
  | h265 =>
    have hfirst : p.body 0 = 0x1C := hp 0 0x1C rfl
    rw [RtmpVideoSource.codecOf, RtmpVideoSource.isRecord, hfirst, hrecord]
    exact ⟨rfl, rfl⟩

theorem ConfigRecord.Complete.not_exact_h264 (hr : r.Complete pps .h264)
    (hp : p.Holds (r.bytes .h264)) (h : src.config [0, 0, 0, 1] parseSps p .h264 = some src') :
    src'.cfg ≠ annexB [0, 0, 0, 1] [r.sps, pps] := by
  have hstart : (r.before .h264).length = 11 := by
    simp [before, hr.time, hr.fields, fieldsSize]
  have hstart' : ((r.before .h264).length : Int) = 11 := by rw [hstart]; rfl
  obtain ⟨hspsSize, hspsSize'⟩ := hr.sizes r.sps (by simp [parameterSets])
  obtain ⟨hppsSize, -⟩ := hr.sizes pps (by simp [parameterSets])
  have hholds : p.Holds (r.before .h264 ++ sized r.sps ++ r.rest) := hp
  have hsize := hholds.sizeAt_cases hspsSize'
  have htype : p.naluTypeAt .h264 13 = 7 := by
    have hsps := hholds.naluTypeAt (c := .h264) (List.ne_nil_of_length_pos (by omega))
    rw [hstart] at hsps
    have htypes := hr.types
    simp only [parameterSets, List.map_cons, Codec.sets, List.cons.injEq] at htypes
    exact hsps.trans htypes.1
  rw [hstart] at hsize
  norm_num at hsize
  rw [RtmpVideoSource.configH264_eq src htype] at h
  obtain ⟨bytes, hbytes, h⟩ := Option.bind_eq_some_iff.mp h
  intro hexact
  cases hparse : parseSps .h264 bytes with
  | none =>
    rw [hparse] at h
    cases h
    simp [annexB] at hexact
  | some size =>
    rw [hparse] at h
    obtain ⟨a, ha, h⟩ := Option.bind_eq_some_iff.mp h
    obtain ⟨b, hb, h⟩ := Option.map_eq_some_iff.mp h
    cases h
    simp only [annexB, List.flatMap_cons, List.flatMap_nil, List.cons_append, List.nil_append,
      List.append_nil, List.cons.injEq, true_and] at hexact
    have hfound := marker_at hexact
    have hlen := RtmpPacket.length_storedAt ha
    have hgiven := RtmpPacket.length_spsBytes hbytes
    rcases hsize with heq | heq | hneg
    · exact marker_not_next hexact (by omega)
    · have hlast : p.sizeAt (11 + 2 + a.length) = 0 := by
        exact (hholds.sizeAt_inside hstart' (by omega) hfound.1 hfound.2.1).trans (by decide)
      have hnext : (11 + 2 + a.length : Int) = 11 + p.sizeAt 11 + 3 := by omega
      have hlen' := RtmpPacket.length_storedAt hb
      rw [← hnext, hlast] at hlen'
      have htotal := congrArg List.length hexact
      simp only [List.length_append, List.length_cons] at htotal
      omega
    · omega

theorem ConfigRecord.Complete.not_exact_h265 (hr : r.Complete pps .h265)
    (hp : p.Holds (r.bytes .h265)) (h : src.config [0, 0, 0, 1] parseSps p .h265 = some src') :
    src'.cfg ≠ annexB [0, 0, 0, 1] [r.vps, r.sps, pps] := by
  have hstart : ([0x1C, 0] ++ r.time ++ r.fields ++ [r.count] ++ [r.vpsArray, 0, 1]).length =
      31 := by
    simp [hr.time, hr.fields, fieldsSize]
  have hstart' : (([0x1C, 0] ++ r.time ++ r.fields ++ [r.count] ++
      [r.vpsArray, 0, 1]).length : Int) = 31 := by rw [hstart]; rfl
  obtain ⟨hvpsSize, hvpsSize'⟩ := hr.sizes r.vps (by simp [parameterSets])
  have hholds : p.Holds (([0x1C, 0] ++ r.time ++ r.fields ++ [r.count] ++ [r.vpsArray, 0, 1]) ++
      sized r.vps ++ ([r.spsArray, 0, r.spsCount] ++ sized r.sps ++ r.rest)) := by
    simpa [bytes, before] using hp
  have hsize := hholds.sizeAt_cases hvpsSize'
  have htype : p.naluTypeAt .h265 33 = 32 := by
    have hvps := hholds.naluTypeAt (c := .h265) (List.ne_nil_of_length_pos (by omega))
    rw [hstart] at hvps
    have htypes := hr.types
    simp only [parameterSets, List.map_cons, Codec.sets, List.cons.injEq] at htypes
    exact hvps.trans htypes.1
  rw [hstart] at hsize
  norm_num at hsize
  rw [RtmpVideoSource.configH265_eq src htype] at h
  obtain ⟨v, hv, h⟩ := Option.bind_eq_some_iff.mp h
  have hlen := RtmpPacket.length_storedAt hv
  intro hexact
  split at h
  · obtain ⟨bytes, -, h⟩ := Option.bind_eq_some_iff.mp h
    obtain ⟨a, ha, h⟩ := Option.bind_eq_some_iff.mp h
    obtain ⟨b, hb, h⟩ := Option.map_eq_some_iff.mp h
    cases h
    simp only [annexB, List.flatMap_cons, List.flatMap_nil, List.cons_append, List.nil_append,
      List.append_nil, List.cons.injEq, true_and] at hexact
    have hfound := marker_at hexact
    rcases hsize with heq | heq | hneg
    · exact marker_not_next hexact (by omega)
    · -- the sizes of the SPS and of the PPS are read from start codes inside of the VPS
      have hsps : p.sizeAt (31 + 2 + (v.length + 2 : Nat)) = 1 := by
        exact (hholds.sizeAt_inside hstart' (by omega) hfound.2.2.1 hfound.2.2.2).trans (by decide)
      have hspsAt : (31 + 2 + (v.length + 2 : Nat) : Int) = 31 + p.sizeAt 31 + 3 + 2 := by
        push_cast
        omega
      rw [hspsAt] at hsps
      have hlen' := RtmpPacket.length_storedAt ha
      have hsecond : (v ++ 0 :: 0 :: 0 :: 1 :: a) ++ 0 :: 0 :: 0 :: 1 :: b =
          r.vps ++ 0 :: 0 :: 0 :: 1 :: (r.sps ++ 0 :: 0 :: 0 :: 1 :: pps) := by
        simpa using hexact
      have hfound' := marker_at hsecond
      have hlength : (v ++ 0 :: 0 :: 0 :: 1 :: a).length = v.length + 6 := by
        simp only [List.length_append, List.length_cons]
        omega
      rw [hlength] at hfound'
      have hpps : p.sizeAt (31 + 2 + (v.length + 6 + 2 : Nat)) = 1 := by
        exact (hholds.sizeAt_inside hstart' (by omega) hfound'.2.2.1 hfound'.2.2.2).trans
          (by decide)
      have hppsAt : (31 + 2 + (v.length + 6 + 2 : Nat) : Int) =
          31 + p.sizeAt 31 + 3 + 2 + p.sizeAt (31 + p.sizeAt 31 + 3 + 2) + 3 + 2 := by
        push_cast
        omega
      rw [hppsAt] at hpps
      have hlen'' := RtmpPacket.length_storedAt hb
      have htotal := congrArg List.length hexact
      simp only [List.length_append, List.length_cons] at htotal
      omega
    · omega
  · cases h
    have htotal := congrArg List.length hexact
    simp only [annexB, List.flatMap_cons, List.flatMap_nil, List.length_append,
      List.length_cons, List.length_nil] at htotal
    omega

/-- The cache never becomes the parameter sets of the record. -/
theorem config_never_exact {marker : List UInt8} (hmarker : marker = [0, 0, 0, 1])
    (hr : r.Complete pps c) (hp : p.Holds (r.bytes c)) (src : RtmpVideoSource) :
    ¬ ∃ src', src.processVideoPacket marker parseSps p ts = some src' ∧
      src'.cfg = annexB marker (r.parameterSets pps c) := by
  rintro ⟨src', hsrc, hexact⟩
  subst hmarker
  obtain ⟨hcodec, hrecord⟩ := r.isRecord hp
  rw [RtmpVideoSource.processVideoPacket_record hcodec hrecord] at hsrc
  cases c with
  | h264 => exact hr.not_exact_h264 hp hsrc hexact
  | h265 => exact hr.not_exact_h265 hp hsrc hexact

end Record

theorem ConfigRecord.camera_complete : camera.Complete [0x68, 0xCE] .h264 :=
  ⟨rfl, rfl, by decide, by decide, [1], [], rfl, rfl⟩

theorem config_never_exact_camera : ¬ ∃ src' : RtmpVideoSource,
    (⟨[], []⟩ : RtmpVideoSource).processVideoPacket [0, 0, 0, 1] (fun _ _ => some (640, 480))
      (.ofBytes (ConfigRecord.camera.bytes .h264)) 0 = some src' ∧
    src'.cfg = annexB [0, 0, 0, 1] [[0x67, 0x42, 0x00], [0x68, 0xCE]] :=
  config_never_exact rfl ConfigRecord.camera_complete (RtmpPacket.holds_ofBytes _) ⟨[], []⟩

/-- The number of PPS is cached behind the SPS, and a byte that is not in the packet
behind the PPS. -/
theorem config_with_next_bytes : ¬ ∀ (parseSps : Codec → List UInt8 → Option (Int × Int))
    (p : RtmpPacket) (ts : UInt64) (r : ConfigRecord) (pps : List UInt8) (c : Codec)
    (src : RtmpVideoSource), r.Complete pps c → p.Holds (r.bytes c) →
    p.size = (r.bytes c).length → RtmpVideoSource.announcing parseSps p c = true →
    ∃ src', src.processVideoPacket [0, 0, 0, 1] parseSps p ts = some src' ∧
      src'.cfg = annexB [0, 0, 0, 1] (r.parameterSets pps c) := by
  intro halways
  obtain ⟨src', hsrc, hexact⟩ := halways (fun _ _ => some (640, 480))
    (.ofBytes (ConfigRecord.camera.bytes .h264)) 0 .camera [0x68, 0xCE] .h264 ⟨[], []⟩
    ConfigRecord.camera_complete (RtmpPacket.holds_ofBytes _) rfl (by decide)
  have hcached : (⟨[], []⟩ : RtmpVideoSource).processVideoPacket [0, 0, 0, 1]
      (fun _ _ => some (640, 480)) (.ofBytes (ConfigRecord.camera.bytes .h264)) 0 =
        some ⟨[0, 0, 0, 1, 0x67, 0x42, 0x00, 1, 0, 0, 0, 1, 0x68, 0xCE, 0],
          [.format "H264" 640 480]⟩ := by decide
  rw [hcached, Option.some.injEq] at hsrc
  rw [← hsrc] at hexact
  exact absurd hexact (by decide)

/-! ### Records that the cache survives -/

namespace RtmpVideoSource

/-- The units that the record has, one of each type. The byte behind each of them is
copied with it. -/
def CompleteSet (marker : List UInt8) (p : RtmpPacket) (c : Codec) (cfg : List UInt8) : Prop :=
  p.HasSet c ∧ cfg = annexB marker ((p.unitStarts c).map p.unitNext)

/-- The cache stays, or there is the complete set of the record in its place and the
format that the SPS gives is posted. -/
def KeptOrReplaced (marker : List UInt8) (parseSps : Codec → List UInt8 → Option (Int × Int))
    (p : RtmpPacket) (c : Codec) (src src' : RtmpVideoSource) : Prop :=
  src'.cfg = src.cfg ∧ src'.queue = src.queue ∨
    CompleteSet marker p c src'.cfg ∧ ∀ bytes size, p.spsBytes c = some bytes →
      parseSps c bytes = some size → src'.queue = src.queue ++ [.format c.name size.1 size.2]

def ReadsSet (p : RtmpPacket) (c : Codec) : Prop :=
  p.HasSet c ∧ ∀ start ∈ p.unitStarts c, SizeRead (p.unitAt start)

/-- The record starts with another unit, or its complete set can be read. In H264 the
SPS has to be one that can be parsed, or nothing has been cached yet. -/
def Brings (parseSps : Codec → List UInt8 → Option (Int × Int)) (p : RtmpPacket)
    (cfg : List UInt8) : Codec → Prop
  | .h264 => p.naluTypeAt .h264 13 = 7 →
      if announcing parseSps p .h264 = true then ReadsSet p .h264 else 0 ≤ p.sizeAt 11 ∧ cfg = []
  | .h265 => p.naluTypeAt .h265 33 = 32 → ReadsSet p .h265

variable {marker : List UInt8} {parseSps : Codec → List UInt8 → Option (Int × Int)}
  {p : RtmpPacket} {ts : UInt64} {c : Codec} {src src' : RtmpVideoSource}

theorem exists_spsBytes (htype : p.naluTypeAt .h264 13 = 7) (h : 0 ≤ p.sizeAt 11) :
    ∃ bytes, p.spsBytes .h264 = some bytes := by
  have htype' : p.naluTypeAt .h264 (11 + 2) = 7 := htype
  rw [p.spsBytes_h264, if_pos htype', RtmpPacket.bytes, if_neg (by omega)]
  exact ⟨_, rfl⟩

theorem configH264_cases (hsps : p.naluTypeAt .h264 13 = 7)
    (h : src.config marker parseSps p .h264 = some src') :
    0 ≤ p.sizeAt 11 ∧ ∃ units, src'.cfg = annexB marker units ∧
      if announcing parseSps p .h264 = true then ∃ sps pps, units = [sps, pps] ∧
        p.storedAt 11 = some sps ∧ p.storedAt (11 + p.sizeAt 11 + 3) = some pps
      else units = [] := by
  rw [configH264_eq src hsps] at h
  obtain ⟨bytes, hbytes, h⟩ := Option.bind_eq_some_iff.mp h
  have hgiven := RtmpPacket.length_spsBytes hbytes
  refine ⟨by omega, ?_⟩
  rw [announcing, hbytes, Option.any_some]
  cases hparse : parseSps .h264 bytes with
  | none =>
    rw [hparse] at h
    cases h
    exact ⟨[], rfl, by simp⟩
  | some size =>
    rw [hparse] at h
    obtain ⟨sps, hsps, h⟩ := Option.bind_eq_some_iff.mp h
    obtain ⟨pps, hpps, h⟩ := Option.map_eq_some_iff.mp h
    cases h
    exact ⟨[sps, pps], rfl, by simp [hsps, hpps]⟩

theorem configH265_cases (hvps : p.naluTypeAt .h265 33 = 32)
    (h : src.config marker parseSps p .h265 = some src') :
    let startSps := 31 + p.sizeAt 31 + 3 + 2
    ∃ vps, p.storedAt 31 = some vps ∧ ∃ units, src'.cfg = annexB marker (vps :: units) ∧
      if p.naluTypeAt .h265 (startSps + 2) = 33 then ∃ sps pps, units = [sps, pps] ∧
        p.storedAt startSps = some sps ∧
        p.storedAt (startSps + p.sizeAt startSps + 3 + 2) = some pps
      else units = [] := by
  intro startSps
  rw [configH265_eq src hvps] at h
  obtain ⟨vps, hstored, h⟩ := Option.bind_eq_some_iff.mp h
  refine ⟨vps, hstored, ?_⟩
  split at h
  · rename_i hsps
    obtain ⟨bytes, -, h⟩ := Option.bind_eq_some_iff.mp h
    obtain ⟨sps, hstoredSps, h⟩ := Option.bind_eq_some_iff.mp h
    obtain ⟨pps, hstoredPps, h⟩ := Option.map_eq_some_iff.mp h
    cases h
    exact ⟨[sps, pps], rfl, by rw [if_pos hsps]; exact ⟨sps, pps, rfl, hstoredSps, hstoredPps⟩⟩
  · rename_i hsps
    cases h
    exact ⟨[], rfl, by rw [if_neg hsps]⟩

/-- What is stored first is not shorter than it should be, unless a size is read from
inside of it. -/
theorem sizeRead_of_stored {start : Int} {x y z : List UInt8} (hx : p.storedAt start = some x)
    (h : x ++ 0 :: 0 :: 0 :: 1 :: y = p.unitNext start ++ z) :
    (SizeRead (p.unitAt start) ∧ p.sizeAt start = p.sizeField start) ∨
      (x.length + 256 = p.sizeField start + 1 ∧ p.sizeAt (start + p.sizeAt start + 3) = 0 ∧
        p.sizeAt (start + p.sizeAt start + 3 + 2) = 1) := by
  have hlen := RtmpPacket.length_storedAt hx
  refine (p.sizeAt_cases start).imp_right fun hread => ?_
  have hlen' : x.length + 256 = p.sizeField start + 1 := by omega
  obtain ⟨hfirst, hnext⟩ := RtmpPacket.sizeAt_marker h (by omega)
  have hplace : start + p.sizeAt start + 3 = start + 2 + x.length := by omega
  rw [hplace]
  exact ⟨hlen', hfirst, hnext⟩

theorem sizeRead_pair {start : Int} (gap : Int) {x y : List UInt8} (hgap : gap = 0 ∨ gap = 2)
    (hx : p.storedAt start = some x) (hy : p.storedAt (start + p.sizeAt start + 3 + gap) = some y)
    (h : x ++ 0 :: 0 :: 0 :: 1 :: y = p.unitNext start ++
      0 :: 0 :: 0 :: 1 :: p.unitNext (start + (2 + p.sizeField start) + 1 + gap)) :
    SizeRead (p.unitAt start) ∧
      SizeRead (p.unitAt (start + (2 + p.sizeField start) + 1 + gap)) := by
  have hlenY := RtmpPacket.length_storedAt hy
  have htotal := congrArg List.length h
  simp only [List.length_append, List.length_cons, RtmpPacket.length_unitNext] at htotal
  rcases sizeRead_of_stored hx h with ⟨hread, hsize⟩ | ⟨hlen, hfirst, hnext⟩
  · rw [RtmpPacket.storedAt_of_read hread, Option.some.injEq] at hx
    subst hx
    have hplace : start + p.sizeAt start + 3 + gap =
        start + (2 + p.sizeField start) + 1 + gap := by omega
    rw [hplace] at hlenY
    rw [RtmpPacket.length_unitNext] at htotal
    refine ⟨hread, RtmpPacket.sizeRead_of_sizeAt ?_⟩
    omega
  · rcases hgap with rfl | rfl
    · rw [add_zero, hfirst] at hlenY
      omega
    · rw [hnext] at hlenY
      omega

theorem readsSet_h264 {sps pps : List UInt8} (hset : p.HasSet .h264)
    (hsps : p.storedAt 11 = some sps) (hpps : p.storedAt (11 + p.sizeAt 11 + 3) = some pps)
    (h : annexB [0, 0, 0, 1] [sps, pps] =
      annexB [0, 0, 0, 1] ((p.unitStarts .h264).map p.unitNext)) : ReadsSet p .h264 := by
  simp only [annexB, RtmpPacket.unitStarts, List.map_cons, List.map_nil, List.flatMap_cons,
    List.flatMap_nil, List.cons_append, List.nil_append, List.append_nil, List.cons.injEq,
    true_and] at h
  have hpair := sizeRead_pair 0 (.inl rfl) hsps (by rwa [add_zero])
    (by rwa [add_zero])
  rw [add_zero] at hpair
  refine ⟨hset, ?_⟩
  simpa [RtmpPacket.unitStarts] using hpair

theorem readsSet_h265 {vps sps pps : List UInt8} (hset : p.HasSet .h265)
    (hvps : p.storedAt 31 = some vps)
    (hsps : p.storedAt (31 + p.sizeAt 31 + 3 + 2) = some sps)
    (hpps : p.storedAt (31 + p.sizeAt 31 + 3 + 2 + p.sizeAt (31 + p.sizeAt 31 + 3 + 2) + 3 + 2) =
      some pps)
    (h : annexB [0, 0, 0, 1] [vps, sps, pps] =
      annexB [0, 0, 0, 1] ((p.unitStarts .h265).map p.unitNext)) : ReadsSet p .h265 := by
  simp only [annexB, RtmpPacket.unitStarts, List.map_cons, List.map_nil, List.flatMap_cons,
    List.flatMap_nil, List.cons_append, List.nil_append, List.append_nil, List.cons.injEq,
    true_and] at h
  rcases sizeRead_of_stored hvps h with ⟨hread, hsize⟩ | ⟨hlen, -, hnext⟩
  · have hstart : 31 + p.sizeAt 31 + 3 + 2 = 31 + (2 + (p.sizeField 31 : Int)) + 3 := by omega
    rw [RtmpPacket.storedAt_of_read hread, Option.some.injEq] at hvps
    subst hvps
    rw [hstart] at hsps hpps
    simp only [List.append_cancel_left_eq, List.cons.injEq, true_and] at h
    have hnext (start : Int) : start + (2 + p.sizeField start) + 1 + 2 =
        start + (2 + p.sizeField start) + 3 := by ring
    have hpair := sizeRead_pair 2 (.inr rfl) hsps hpps (by rwa [hnext])
    rw [hnext] at hpair
    refine ⟨hset, ?_⟩
    simpa [RtmpPacket.unitStarts] using ⟨hread, hpair⟩
  · -- the sizes of the SPS and of the PPS are read from start codes inside of the VPS
    have hlenV := RtmpPacket.length_storedAt hvps
    have hlenS := RtmpPacket.length_storedAt hsps
    have hlenP := RtmpPacket.length_storedAt hpps
    have hsecond : (vps ++ 0 :: 0 :: 0 :: 1 :: sps) ++ 0 :: 0 :: 0 :: 1 :: pps = p.unitNext 31 ++
        0 :: 0 :: 0 :: 1 :: (p.unitNext (31 + (2 + p.sizeField 31) + 3) ++ 0 :: 0 :: 0 :: 1 ::
          p.unitNext (31 + (2 + p.sizeField 31) + 3 +
            (2 + p.sizeField (31 + (2 + p.sizeField 31) + 3)) + 3)) := by
      simpa using h
    have hlength : (vps ++ 0 :: 0 :: 0 :: 1 :: sps).length = vps.length + 4 + sps.length := by
      simp only [List.length_append, List.length_cons]
      omega
    rw [hnext] at hlenS hlenP
    have hplace : (31 : Int) + 2 + (vps ++ 0 :: 0 :: 0 :: 1 :: sps).length + 2 =
        31 + p.sizeAt 31 + 3 + 2 + 1 + 3 + 2 := by
      rw [hlength]
      omega
    have hsize := (RtmpPacket.sizeAt_marker hsecond (by rw [hlength]; omega)).2
    rw [hplace] at hsize
    have htotal := congrArg List.length hsecond
    simp only [List.length_append, List.length_cons, RtmpPacket.length_unitNext] at htotal
    omega

/-- Otherwise the complete set of the record is not what is put into the cache. -/
theorem incomplete_of_not_brings (hbrings : ¬ Brings parseSps p src.cfg c)
    (h : src.config [0, 0, 0, 1] parseSps p c = some src') :
    ¬ CompleteSet [0, 0, 0, 1] p c src'.cfg ∧ (src'.cfg = [] → src.cfg ≠ []) := by
  cases c with
  | h264 =>
    simp only [Brings, Classical.not_imp] at hbrings
    obtain ⟨hsps, hbrings⟩ := hbrings
    obtain ⟨hsize, units, hcfg, hunits⟩ := configH264_cases hsps h
    rw [hcfg]
    split at hunits
    · rename_i hann
      obtain ⟨sps, pps, rfl, hstored, hstoredPps⟩ := hunits
      rw [if_pos hann] at hbrings
      refine ⟨fun hcomplete => hbrings ?_, fun hempty => by simp [annexB] at hempty⟩
      exact readsSet_h264 hcomplete.1 hstored hstoredPps hcomplete.2
    · rename_i hann
      subst hunits
      rw [if_neg hann] at hbrings
      refine ⟨fun hcomplete => ?_, fun _ hempty => hbrings ⟨hsize, hempty⟩⟩
      have hsome := hcomplete.2
      simp [annexB, RtmpPacket.unitStarts] at hsome
  | h265 =>
    simp only [Brings, Classical.not_imp] at hbrings
    obtain ⟨hvps, hbrings⟩ := hbrings
    obtain ⟨vps, hstored, units, hcfg, hunits⟩ := configH265_cases hvps h
    rw [hcfg]
    refine ⟨fun hcomplete => hbrings ?_, fun hempty => by simp [annexB] at hempty⟩
    split at hunits
    · obtain ⟨sps, pps, rfl, hstoredSps, hstoredPps⟩ := hunits
      exact readsSet_h265 hcomplete.1 hstored hstoredSps hstoredPps hcomplete.2
    · -- a VPS alone is too short
      subst hunits
      have hlen := RtmpPacket.length_storedAt hstored
      have htotal := congrArg List.length hcomplete.2
      simp only [annexB, RtmpPacket.unitStarts, List.map_cons, List.flatMap_cons,
        List.flatMap_nil, List.length_append, List.length_cons, List.length_nil,
        RtmpPacket.length_unitNext] at htotal
      rcases p.sizeAt_cases 31 with hsize | hsize | hsize <;> omega

theorem kept_or_replaced_h264 (src : RtmpVideoSource)
    (hbrings : Brings parseSps p src.cfg .h264) :
    ∃ src', src.config marker parseSps p .h264 = some src' ∧
      KeptOrReplaced marker parseSps p .h264 src src' := by
  by_cases hsps : p.naluTypeAt .h264 13 = 7
  · have hbrings := hbrings hsps
    split at hbrings
    · rename_i hann
      obtain ⟨hset, hread⟩ := hbrings
      simp only [RtmpPacket.unitStarts, List.forall_mem_cons, List.not_mem_nil, false_implies,
        implies_true, and_true] at hread
      obtain ⟨bytes, hbytes, size, hparse⟩ : ∃ bytes, p.spsBytes .h264 = some bytes ∧
          ∃ size, parseSps .h264 bytes = some size := by
        rw [announcing, Option.any_eq_true_iff_get] at hann
        obtain ⟨hgiven, hsome⟩ := hann
        exact ⟨_, (Option.some_get hgiven).symm, Option.isSome_iff_exists.mp hsome⟩
      have hplace : 11 + p.sizeAt 11 + 3 = 11 + (2 + (p.sizeField 11 : Int)) + 1 := by
        rw [RtmpPacket.sizeAt_of_read hread.1]
        omega
      rw [configH264_eq src hsps, hbytes, Option.bind_some, hparse, hplace,
        RtmpPacket.storedAt_of_read hread.1, RtmpPacket.storedAt_of_read hread.2]
      refine ⟨_, rfl, .inr ⟨⟨hset, rfl⟩, fun bytes' size' hbytes' hsize' => ?_⟩⟩
      cases hbytes.symm.trans hbytes'
      cases hparse.symm.trans hsize'
      rfl
    · rename_i hann
      obtain ⟨hsize, hempty⟩ := hbrings
      obtain ⟨bytes, hbytes⟩ := exists_spsBytes hsps hsize
      have hparse : parseSps .h264 bytes = none := by
        simpa [announcing, hbytes] using hann
      rw [configH264_eq src hsps, hbytes, Option.bind_some, hparse]
      exact ⟨_, rfl, .inl ⟨hempty.symm, rfl⟩⟩
  · have hsps' : ¬ p.naluTypeAt .h264 (11 + 2) = 7 := hsps
    exact ⟨src, by simp only [config, configH264, hsps', if_false], .inl ⟨rfl, rfl⟩⟩

theorem kept_or_replaced_h265 (src : RtmpVideoSource)
    (hbrings : Brings parseSps p src.cfg .h265) :
    ∃ src', src.config marker parseSps p .h265 = some src' ∧
      KeptOrReplaced marker parseSps p .h265 src src' := by
  by_cases hvps : p.naluTypeAt .h265 33 = 32
  · obtain ⟨hset, hread⟩ := hbrings hvps
    have htypes := hset.types
    simp only [RtmpPacket.unitStarts, List.map_cons, List.map_nil, Codec.sets, List.cons.injEq,
      and_true] at htypes
    simp only [RtmpPacket.unitStarts, List.forall_mem_cons, List.not_mem_nil, false_implies,
      implies_true, and_true] at hread
    obtain ⟨hreadVps, hreadSps, hreadPps⟩ := hread
    have hsps := RtmpPacket.naluTypeAt_unitAt htypes.2.1 (by decide)
    have hstart : 31 + p.sizeAt 31 + 3 + 2 = 31 + (2 + (p.sizeField 31 : Int)) + 3 := by
      rw [RtmpPacket.sizeAt_of_read hreadVps]
      omega
    obtain ⟨bytes, hbytes⟩ : ∃ bytes, p.spsBytes .h265 = some bytes := by
      have hvps' : p.naluTypeAt .h265 (31 + 2) = 32 := hvps
      rw [p.spsBytes_h265, if_pos hvps', hstart, if_pos hsps, RtmpPacket.bytes,
        RtmpPacket.sizeAt_of_read hreadSps, if_neg (by omega)]
      exact ⟨_, rfl⟩
    have hplace (start : Int) : start + p.sizeField start + 3 + 2 =
        start + (2 + p.sizeField start) + 3 := by ring
    rw [configH265_eq src hvps]
    simp only [hstart, hsps, hbytes, hplace, RtmpPacket.storedAt_of_read hreadVps,
      RtmpPacket.storedAt_of_read hreadSps, RtmpPacket.storedAt_of_read hreadPps,
      RtmpPacket.sizeAt_of_read hreadSps, Option.bind_some, Option.map_some, if_true]
    refine ⟨_, rfl, .inr ⟨⟨hset, rfl⟩, fun bytes' size' hbytes' hsize' => ?_⟩⟩
    cases hbytes.symm.trans hbytes'
    rw [hsize']
    rfl
  · have hvps' : ¬ p.naluTypeAt .h265 (31 + 2) = 32 := hvps
    exact ⟨src, by simp only [config, configH265, hvps', if_false], .inl ⟨rfl, rfl⟩⟩

theorem kept_or_replaced_of_brings (src : RtmpVideoSource)
    (hbrings : Brings parseSps p src.cfg c) :
    ∃ src', src.config marker parseSps p c = some src' ∧
      KeptOrReplaced marker parseSps p c src src' := by
  cases c with
  | h264 => exact kept_or_replaced_h264 src hbrings
  | h265 => exact kept_or_replaced_h265 src hbrings

theorem onVideo_cfg {config : RtmpPacket → RtmpVideoSource → Option RtmpVideoSource}
    (hrecord : isRecord p = false) (h : src.onVideo marker p ts config = some src') :
    src'.cfg = src.cfg := by
  have hno : ¬ (p.body 0 >>> 4 = 1 ∧ p.body 1 = 0) := by simpa [isRecord] using hrecord
  simp only [onVideo] at h
  rw [if_neg hno] at h
  split at h
  · obtain ⟨unit, -, h⟩ := Option.bind_eq_some_iff.mp h
    cases h
    rfl
  · split at h
    · obtain ⟨unit, -, h⟩ := Option.bind_eq_some_iff.mp h
      cases h
      rfl
    · cases h
      rfl

theorem processVideoPacket_cfg (h : src.processVideoPacket marker parseSps p ts = some src')
    (hother : codecOf p = none ∨ isRecord p = false) : src'.cfg = src.cfg := by
  rw [processVideoPacket] at h
  split at h
  · rename_i havc
    have hrecord : isRecord p = false := by simpa [codecOf, havc] using hother
    exact onVideo_cfg hrecord h
  · rename_i havc
    split at h
    · rename_i hhevc
      have hrecord : isRecord p = false := by simpa [codecOf, havc, hhevc] using hother
      exact onVideo_cfg hrecord h
    · cases h
      rfl

def step (marker : List UInt8) (parseSps : Codec → List UInt8 → Option (Int × Int))
    (src : RtmpVideoSource) (x : RtmpPacket × UInt64) : Option RtmpVideoSource :=
  src.processVideoPacket marker parseSps x.1 x.2

/-- Every configuration record brings a complete set, or none of it. -/
def Sound (parseSps : Codec → List UInt8 → Option (Int × Int)) (src : RtmpVideoSource)
    (x : RtmpPacket × UInt64) : Prop :=
  ∀ c, codecOf x.1 = some c → isRecord x.1 = true → Brings parseSps x.1 src.cfg c

def CachesRecord (marker : List UInt8) (cfg : List UInt8) : Prop :=
  cfg = [] ∨ ∃ p c, codecOf p = some c ∧ isRecord p = true ∧ CompleteSet marker p c cfg

theorem CachesRecord.step (hcfg : CachesRecord marker src.cfg) {x : RtmpPacket × UInt64}
    (hsound : Sound parseSps src x) (hstep : step marker parseSps src x = some src') :
    CachesRecord marker src'.cfg := by
  obtain ⟨p, ts⟩ := x
  have hprocess : src.processVideoPacket marker parseSps p ts = some src' := hstep
  by_cases hkind : (∃ c, codecOf p = some c) ∧ isRecord p = true
  · obtain ⟨⟨c, hcodec⟩, hrecord⟩ := hkind
    obtain ⟨src₁, hsrc₁, hkept⟩ : ∃ src₁, src.config marker parseSps p c = some src₁ ∧
        KeptOrReplaced marker parseSps p c src src₁ :=
      kept_or_replaced_of_brings src (hsound c hcodec hrecord)
    rw [processVideoPacket_record hcodec hrecord, hsrc₁, Option.some.injEq] at hprocess
    rw [← hprocess]
    rcases hkept with ⟨hsame, -⟩ | ⟨hcomplete, -⟩
    · rwa [hsame]
    · exact .inr ⟨p, c, hcodec, hrecord, hcomplete⟩
  · have hother : codecOf p = none ∨ isRecord p = false := by
      rw [not_and_or, Bool.not_eq_true, ← Option.isSome_iff_exists, Bool.not_eq_true,
        Option.isSome_eq_false_iff, Option.isNone_iff_eq_none] at hkind
      exact hkind
    rwa [processVideoPacket_cfg hprocess hother]

/-- Along a run of such packets nothing but complete sets is cached, and each further
record of this kind leaves the cache or replaces it by its own set. A record of
another kind does not put its complete set into the cache, and leaves the cache empty only
if it was not. -/
theorem cache_kept_or_replaced
    (hrun : Transition.Reaches (step marker parseSps) (Sound parseSps) ⟨[], []⟩ src) :
    CachesRecord marker src.cfg ∧
    ∀ p ts c, codecOf p = some c → isRecord p = true →
      (Brings parseSps p src.cfg c → ∃ src',
        src.processVideoPacket marker parseSps p ts = some src' ∧
          KeptOrReplaced marker parseSps p c src src') ∧
      (¬ Brings parseSps p src.cfg c → marker = [0, 0, 0, 1] → ∀ src',
        src.processVideoPacket marker parseSps p ts = some src' →
          ¬ CompleteSet marker p c src'.cfg ∧ (src'.cfg = [] → src.cfg ≠ [])) := by
  constructor
  · exact hrun.invariant (fun src => CachesRecord marker src.cfg) (.inl rfl)
      fun _ _ _ hcfg hsound hstep => hcfg.step hsound hstep
  · intro p ts c hcodec hrecord
    rw [processVideoPacket_record hcodec hrecord]
    refine ⟨kept_or_replaced_of_brings src, ?_⟩
    rintro hnot rfl src' h
    exact incomplete_of_not_brings hnot h

def parsesThree (_ : Codec) (bytes : List UInt8) : Option (Int × Int) :=
  if bytes.length = 3 then some (640, 480) else none

def ofCamera : RtmpVideoSource :=
  ⟨[0, 0, 0, 1, 0x67, 0x42, 0x00, 1, 0, 0, 0, 1, 0x68, 0xCE, 0], [.format "H264" 640 480]⟩

theorem readsSet_camera : ReadsSet (.ofBytes (ConfigRecord.camera.bytes .h264)) .h264 :=
  ⟨⟨by decide, by decide⟩, by unfold SizeRead; decide⟩

theorem reaches_ofCamera : Transition.Reaches (step [0, 0, 0, 1] parsesThree) (Sound parsesThree)
    ⟨[], []⟩ ofCamera := by
  have hsound : Sound parsesThree ⟨[], []⟩ (.ofBytes (ConfigRecord.camera.bytes .h264), 0) := by
    intro c hcodec _
    have hc : c = .h264 := (Option.some.inj hcodec).symm
    subst hc
    exact fun _ => readsSet_camera
  exact .single hsound (by decide)

theorem cache_kept_or_replaced_again : ∃ src',
    ofCamera.processVideoPacket [0, 0, 0, 1] parsesThree
      (.ofBytes (ConfigRecord.camera.bytes .h264)) 40 = some src' ∧
    KeptOrReplaced [0, 0, 0, 1] parsesThree (.ofBytes (ConfigRecord.camera.bytes .h264)) .h264
      ofCamera src' :=
  ((cache_kept_or_replaced reaches_ofCamera).2 _ 40 .h264 rfl rfl).1 fun _ => readsSet_camera

/-- A record whose SPS cannot be parsed empties the cache. -/
theorem cache_lost : ¬ ∀ (marker : List UInt8)
    (parseSps : Codec → List UInt8 → Option (Int × Int)) (src : RtmpVideoSource),
    Transition.Reachable (step marker parseSps) ⟨[], []⟩ src →
    ∀ p ts c, codecOf p = some c → isRecord p = true → ∃ src',
      src.processVideoPacket marker parseSps p ts = some src' ∧
        KeptOrReplaced marker parseSps p c src src' := by
  intro halways
  obtain ⟨src', hsrc, hkept⟩ := halways [0, 0, 0, 1] parsesThree ofCamera
    reaches_ofCamera.reachable
    (.ofBytes [0x17, 0, 0, 0, 0, 1, 0x42, 0, 0x1F, 0xFF, 0xE1, 0, 2, 0x67, 0x42, 1]) 40 .h264 rfl
    rfl
  have hempty : ofCamera.processVideoPacket [0, 0, 0, 1] parsesThree
      (.ofBytes [0x17, 0, 0, 0, 0, 1, 0x42, 0, 0x1F, 0xFF, 0xE1, 0, 2, 0x67, 0x42, 1]) 40 =
        some ⟨[], ofCamera.queue⟩ := by decide
  rw [hempty, Option.some.injEq] at hsrc
  subst hsrc
  rcases hkept with ⟨hcfg, -⟩ | ⟨⟨-, hcfg⟩, -⟩
  · exact absurd hcfg (by decide)
  · simp [annexB, RtmpPacket.unitStarts] at hcfg

end RtmpVideoSource

end WebrtcStreamer
