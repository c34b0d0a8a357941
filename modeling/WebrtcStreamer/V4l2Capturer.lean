import WebrtcStreamer.Histories
import WebrtcStreamer.NaluIndexes

/-! `V4l2Capturer::CaptureThread`: the parameter sets that are kept between the
buffers of the device, and put in front of an IDR slice that comes without. -/

set_option autoImplicit false

namespace WebrtcStreamer

structure DeviceRead where
  frameSize : Int
  buffer : List UInt8
  bound : frameSize ≤ buffer.length

def DeviceRead.data (r : DeviceRead) : List UInt8 := r.buffer.take r.frameSize.toNat

inductive CaptureFault where
  /-- a span of a negative size -/
  | negativeSize
  /-- a byte that was not read -/
  | outside (offset : Nat)
  | nullParameterSet
  deriving DecidableEq, Repr

namespace V4l2Capturer

structure ParameterSets where
  sps : Option (List UInt8)
  pps : Option (List UInt8)
  deriving DecidableEq, Repr

structure EncodedFrame where
  encodedData : List UInt8
  key : Bool
  deriving DecidableEq, Repr

structure NaluScan where
  sets : ParameterSets
  idr : Bool
  cfg : Nat
  deriving DecidableEq, Repr

/-- A NAL unit: 5 is `kIdr`, 7 `kSps` and 8 `kPps`. -/
def parseNalu (data : List UInt8) (x : NaluScan) (index : NaluIndex) :
    Except CaptureFault NaluScan :=
  match data[index.payloadStartOffset]? with
  | none => .error (.outside index.payloadStartOffset)
  | some b =>
    let naluType := (b &&& 0x1F).toNat
    let bytes := (data.drop index.startOffset).take
      (index.payloadSize + index.payloadStartOffset - index.startOffset)
    if naluType = 7 then .ok ⟨{ x.sets with sps := some bytes }, x.idr, x.cfg + 1⟩
    else if naluType = 8 then .ok ⟨{ x.sets with pps := some bytes }, x.idr, x.cfg + 1⟩
    else if naluType = 5 then .ok { x with idr := true }
    else .ok x

/-- The last SPS and PPS in front of the data, if neither is empty. -/
def addSets (sets : ParameterSets) (data : List UInt8) : Except CaptureFault (List UInt8) :=
  match sets.sps with
  | none => .error .nullParameterSet
  | some sps =>
    if sps.length = 0 then .ok data
    else
      match sets.pps with
      | none => .error .nullParameterSet
      | some pps => .ok (if pps.length = 0 then data else sps ++ pps ++ data)

variable (findNaluIndices : List UInt8 → List NaluIndex) (verbose : Bool)

/-- A round of `CaptureThread`. With `verbose` the sizes of both sets are logged. -/
def capture (sets : ParameterSets) (r : DeviceRead) :
    Except CaptureFault (ParameterSets × EncodedFrame) :=
  if r.frameSize < 0 then .error .negativeSize
  else do
    let x ← (findNaluIndices r.data).foldlM (parseNalu r.data) ⟨sets, false, 0⟩
    if verbose && (x.sets.sps.isNone || x.sets.pps.isNone) then .error .nullParameterSet
    else (fun encodedData => (x.sets, ⟨encodedData, x.idr⟩)) <$>
      if x.idr && x.cfg = 0 then addSets x.sets r.data else .ok r.data

def captureAll (reads : List DeviceRead) : Except CaptureFault ParameterSets :=
  reads.foldlM (fun sets r => Prod.fst <$> capture findNaluIndices verbose sets r) ⟨none, none⟩

/-! ### What has been seen -/

def unitsIn (data : List UInt8) (naluType : Nat) (indexes : List NaluIndex) : List (List UInt8) :=
  (indexes.filter fun i => Codec.h264.naluType (i.nalu data) = naluType).map fun i =>
    (i.nalu data).bytes

def units (r : DeviceRead) (naluType : Nat) : List (List UInt8) :=
  unitsIn r.data naluType (findNaluIndices r.data)

def seen (reads : List DeviceRead) (naluType : Nat) : List (List UInt8) :=
  reads.flatMap fun r => units findNaluIndices r naluType

/-- Each round is carried out, and from the time when both sets have been seen an
IDR slice is broadcast with the last ones in front, as far as they are missing. -/
def Sound (reads : List DeviceRead) : Prop :=
  ∀ earlier r later, reads = earlier ++ r :: later → ∃ sets sets' frame,
    captureAll findNaluIndices verbose earlier = .ok sets ∧
    capture findNaluIndices verbose sets r = .ok (sets', frame) ∧
    (units findNaluIndices r 5 ≠ [] → ∀ sps,
      (seen findNaluIndices (earlier ++ [r]) 7).getLast? = some sps → ∀ pps,
      (seen findNaluIndices (earlier ++ [r]) 8).getLast? = some pps →
      frame.encodedData = (if units findNaluIndices r 7 = [] then sps else []) ++
        (if units findNaluIndices r 8 = [] then pps else []) ++ r.data)

structure Fine (earlier : List DeviceRead) (r : DeviceRead) : Prop where
  size : 0 ≤ r.frameSize
  /-- the last unit is not empty -/
  ended : ∀ i ∈ findNaluIndices r.data, i.payloadStartOffset < r.data.length
  logged : verbose = true → ∀ k ∈ [7, 8], seen findNaluIndices (earlier ++ [r]) k ≠ []
  /-- an IDR slice without a set comes behind both -/
  bare : units findNaluIndices r 5 ≠ [] → units findNaluIndices r 7 = [] →
    units findNaluIndices r 8 = [] → ∀ k ∈ [7, 8], seen findNaluIndices earlier k ≠ []
  /-- an IDR slice with one set only comes before the other -/
  single : units findNaluIndices r 5 ≠ [] → ∀ x ∈ [(7, 8), (8, 7)],
    units findNaluIndices r x.1 ≠ [] → units findNaluIndices r x.2 = [] →
    seen findNaluIndices earlier x.2 = []

section Scan

variable {data : List UInt8} {indexes part : List NaluIndex} {i : NaluIndex}

theorem unitsIn_cons (data : List UInt8) (k : Nat) (i : NaluIndex) (part : List NaluIndex) :
    unitsIn data k (i :: part) =
      (if Codec.h264.naluType (i.nalu data) = k then [(i.nalu data).bytes] else []) ++
        unitsIn data k part := by
  by_cases h : Codec.h264.naluType (i.nalu data) = k <;> simp [unitsIn, h]

def NaluScan.add (x : NaluScan) (naluType : Nat) (bytes : List UInt8) : NaluScan where
  sets := ⟨if naluType = 7 then some bytes else x.sets.sps,
    if naluType = 8 then some bytes else x.sets.pps⟩
  idr := x.idr || naluType = 5
  cfg := x.cfg + if naluType = 7 ∨ naluType = 8 then 1 else 0

theorem parseNalu_ok (h : NaluIndex.Delimits data indexes) (hi : i ∈ indexes)
    (hlt : i.payloadStartOffset < data.length) (x : NaluScan) :
    parseNalu data x i =
      .ok (x.add (Codec.h264.naluType (i.nalu data)) (i.nalu data).bytes) := by
  obtain ⟨hstart, -, -⟩ := h.bounds hi
  have hbytes : (i.nalu data).bytes =
      (data.drop i.startOffset).take (i.endOffset - i.startOffset) :=
    NaluIndex.nalu_bytes (by omega)
  rw [NaluIndex.endOffset] at hbytes
  rw [parseNalu, h.header hi hlt, ← hbytes]
  have htype : ((i.nalu data).header &&& 0x1F).toNat = Codec.h264.naluType (i.nalu data) := rfl
  simp only [htype, NaluScan.add]
  generalize Codec.h264.naluType (i.nalu data) = k
  by_cases h7 : k = 7
  · simp [h7]
  · by_cases h8 : k = 8
    · simp [h8]
    · by_cases h5 : k = 5 <;> simp [h5, h7, h8]

theorem scan_ok (h : NaluIndex.Delimits data indexes) (hpart : part ⊆ indexes)
    (hlt : ∀ i ∈ part, i.payloadStartOffset < data.length) (x : NaluScan) :
    part.foldlM (parseNalu data) x =
      .ok ⟨⟨(unitsIn data 7 part).getLast?.or x.sets.sps,
          (unitsIn data 8 part).getLast?.or x.sets.pps⟩,
        x.idr || !(unitsIn data 5 part).isEmpty,
        x.cfg + (unitsIn data 7 part).length + (unitsIn data 8 part).length⟩ := by
  induction part generalizing x with
  | nil => simp [unitsIn, pure, Except.pure]
  | cons i part ih =>
    have hi := hpart List.mem_cons_self
    rw [List.foldlM_cons, parseNalu_ok h hi (hlt i List.mem_cons_self)]
    have hrest := ih (fun j hj => hpart (List.mem_cons_of_mem _ hj))
      (fun j hj => hlt j (List.mem_cons_of_mem _ hj))
      (x.add (Codec.h264.naluType (i.nalu data)) (i.nalu data).bytes)
    have hlast : ∀ (c : Prop) [Decidable c] (bytes : List UInt8) (l : List (List UInt8))
        (old : Option (List UInt8)), l.getLast?.or (if c then some bytes else old) =
          ((if c then [bytes] else []) ++ l).getLast?.or old := by
      intro c _ bytes l old
      by_cases hc : c <;> cases hl : l.getLast? <;> simp [hc, hl, List.getLast?_cons]
    refine hrest.trans ?_
    simp only [unitsIn_cons, NaluScan.add, hlast]
    generalize Codec.h264.naluType (i.nalu data) = k
    congr 2
    · by_cases h5 : k = 5 <;> simp [h5]
    · by_cases h7 : k = 7
      · simp [h7]
        omega
      · by_cases h8 : k = 8
        · simp [h8]
          omega
        · simp [h7, h8]

theorem scan_bounds {x y : NaluScan} (h : part.foldlM (parseNalu data) x = .ok y) :
    ∀ i ∈ part, i.payloadStartOffset < data.length := by
  induction part generalizing x with
  | nil => simp
  | cons i part ih =>
    rw [List.foldlM_cons] at h
    cases hparse : parseNalu data x i with
    | error fault =>
      rw [hparse] at h
      cases h
    | ok z =>
      rw [hparse] at h
      intro j hj
      rcases List.mem_cons.mp hj with rfl | hj
      · by_contra hge
        rw [parseNalu, List.getElem?_eq_none (by omega)] at hparse
        cases hparse
      · exact ih h j hj

end Scan

section Rounds

theorem map_ok {ε α β : Type} {x : Except ε α} {f : α → β} {b : β} (h : f <$> x = .ok b) :
    ∃ a, x = .ok a ∧ f a = b := by
  cases x with
  | error e => cases h
  | ok a =>
    cases h
    exact ⟨a, rfl, rfl⟩

variable {findNaluIndices : List UInt8 → List NaluIndex} {verbose : Bool}
  {earlier reads : List DeviceRead} {r : DeviceRead} {k : Nat}

def lastSets (findNaluIndices : List UInt8 → List NaluIndex) (reads : List DeviceRead) :
    ParameterSets :=
  ⟨(seen findNaluIndices reads 7).getLast?, (seen findNaluIndices reads 8).getLast?⟩

theorem seen_concat (earlier : List DeviceRead) (r : DeviceRead) (k : Nat) :
    seen findNaluIndices (earlier ++ [r]) k =
      seen findNaluIndices earlier k ++ units findNaluIndices r k := by
  simp [seen]

theorem ne_nil_of_mem_seen (hfind : ∀ data, NaluIndex.Delimits data (findNaluIndices data))
    {bytes : List UInt8} (h : bytes ∈ seen findNaluIndices reads k) : bytes ≠ [] := by
  obtain ⟨r, -, hr⟩ := List.mem_flatMap.mp h
  obtain ⟨i, hi, rfl⟩ := List.mem_map.mp hr
  obtain ⟨hstart, hend, -⟩ := (hfind r.data).bounds (List.mem_filter.mp hi).1
  rw [NaluIndex.nalu_bytes (by omega)]
  intro hnil
  have hlength := congrArg List.length hnil
  rw [List.length_take, List.length_drop, List.length_nil] at hlength
  rw [NaluIndex.endOffset] at hend hlength
  omega

theorem capture_eq (hfind : ∀ data, NaluIndex.Delimits data (findNaluIndices data))
    (hsize : 0 ≤ r.frameSize)
    (hended : ∀ i ∈ findNaluIndices r.data, i.payloadStartOffset < r.data.length) :
    capture findNaluIndices verbose (lastSets findNaluIndices earlier) r =
      let sets := lastSets findNaluIndices (earlier ++ [r])
      let idr := !(units findNaluIndices r 5).isEmpty
      if verbose && (sets.sps.isNone || sets.pps.isNone) then .error .nullParameterSet
      else (fun encodedData => (sets, ⟨encodedData, idr⟩)) <$>
        if idr && (units findNaluIndices r 7).length + (units findNaluIndices r 8).length = 0 then
          addSets sets r.data
        else .ok r.data := by
  rw [capture, if_neg (by omega), scan_ok (hfind r.data) (List.Subset.refl _) hended]
  simp only [lastSets, seen_concat, List.getLast?_append, units, Bool.false_or, Nat.zero_add]
  rfl

theorem capture_bounds {sets : ParameterSets} {out : ParameterSets × EncodedFrame}
    (h : capture findNaluIndices verbose sets r = .ok out) :
    0 ≤ r.frameSize ∧ ∀ i ∈ findNaluIndices r.data, i.payloadStartOffset < r.data.length := by
  rw [capture] at h
  split at h
  · cases h
  · refine ⟨by omega, ?_⟩
    cases hscan : (findNaluIndices r.data).foldlM (parseNalu r.data) ⟨sets, false, 0⟩ with
    | error fault =>
      rw [hscan] at h
      cases h
    | ok y => exact scan_bounds hscan

theorem capture_sets (hfind : ∀ data, NaluIndex.Delimits data (findNaluIndices data))
    {out : ParameterSets × EncodedFrame}
    (h : capture findNaluIndices verbose (lastSets findNaluIndices earlier) r = .ok out) :
    out.1 = lastSets findNaluIndices (earlier ++ [r]) := by
  obtain ⟨hsize, hended⟩ := capture_bounds h
  rw [capture_eq hfind hsize hended] at h
  simp only at h
  split at h
  · cases h
  · obtain ⟨encodedData, -, rfl⟩ := map_ok h
    rfl

theorem captureAll_sets (hfind : ∀ data, NaluIndex.Delimits data (findNaluIndices data))
    {sets : ParameterSets} (h : captureAll findNaluIndices verbose reads = .ok sets) :
    sets = lastSets findNaluIndices reads := by
  induction reads using List.reverseRecOn generalizing sets with
  | nil =>
    cases h
    rfl
  | append_singleton earlier r ih =>
    rw [captureAll, List.foldlM_append] at h
    cases hearlier : captureAll findNaluIndices verbose earlier with
    | error fault =>
      rw [captureAll] at hearlier
      rw [hearlier] at h
      cases h
    | ok sets₁ =>
      cases ih hearlier
      rw [captureAll] at hearlier
      rw [hearlier] at h
      have hlast : Prod.fst <$> capture findNaluIndices verbose
          (lastSets findNaluIndices earlier) r = .ok sets := by
        simp only [List.foldlM_cons, List.foldlM_nil, bind_pure] at h
        exact h
      obtain ⟨out, hround, rfl⟩ := map_ok hlast
      exact capture_sets hfind hround

theorem addSets_eq (hfind : ∀ data, NaluIndex.Delimits data (findNaluIndices data))
    (data : List UInt8) : addSets (lastSets findNaluIndices reads) data =
      match (seen findNaluIndices reads 7).getLast?, (seen findNaluIndices reads 8).getLast? with
      | some sps, some pps => .ok (sps ++ pps ++ data)
      | _, _ => .error .nullParameterSet := by
  rw [addSets, lastSets]
  cases hsps : (seen findNaluIndices reads 7).getLast? with
  | none => rfl
  | some sps =>
    have hsps_ne := ne_nil_of_mem_seen hfind (List.mem_of_getLast? hsps)
    cases hpps : (seen findNaluIndices reads 8).getLast? with
    | none => simp [hsps_ne]
    | some pps =>
      have hpps_ne := ne_nil_of_mem_seen hfind (List.mem_of_getLast? hpps)
      simp [hsps_ne, hpps_ne]

def RoundSound (findNaluIndices : List UInt8 → List NaluIndex) (verbose : Bool)
    (earlier : List DeviceRead) (r : DeviceRead) : Prop :=
  ∃ sets' frame,
    capture findNaluIndices verbose (lastSets findNaluIndices earlier) r = .ok (sets', frame) ∧
    (units findNaluIndices r 5 ≠ [] → ∀ sps,
      (seen findNaluIndices (earlier ++ [r]) 7).getLast? = some sps → ∀ pps,
      (seen findNaluIndices (earlier ++ [r]) 8).getLast? = some pps →
      frame.encodedData = (if units findNaluIndices r 7 = [] then sps else []) ++
        (if units findNaluIndices r 8 = [] then pps else []) ++ r.data)

theorem logged_iff : (verbose && ((lastSets findNaluIndices reads).sps.isNone ||
      (lastSets findNaluIndices reads).pps.isNone)) = false ↔
    (verbose = true → ∀ k ∈ [7, 8], seen findNaluIndices reads k ≠ []) := by
  cases verbose <;> simp [lastSets]

theorem missing_iff (hfind : ∀ data, NaluIndex.Delimits data (findNaluIndices data))
    (reads : List DeviceRead) (k : Nat) (data : List UInt8) :
    (∀ bytes, (seen findNaluIndices reads k).getLast? = some bytes → data = bytes ++ data) ↔
      seen findNaluIndices reads k = [] := by
  constructor
  · intro h
    by_contra hseen
    obtain ⟨bytes, hlast⟩ := Option.ne_none_iff_exists'.mp (mt List.getLast?_eq_none_iff.mp hseen)
    have hself : bytes ++ data = [] ++ data := (h bytes hlast).symm
    exact ne_nil_of_mem_seen hfind (List.mem_of_getLast? hlast) (List.append_cancel_right hself)
  · intro hseen bytes hlast
    rw [hseen] at hlast
    cases hlast

theorem broadcast_iff (hfind : ∀ data, NaluIndex.Delimits data (findNaluIndices data))
    (earlier : List DeviceRead) (r : DeviceRead) :
    (∃ encodedData, (if true && (units findNaluIndices r 7).length +
          (units findNaluIndices r 8).length = 0 then
        addSets (lastSets findNaluIndices (earlier ++ [r])) r.data else .ok r.data) =
        .ok encodedData ∧ ∀ sps,
      (seen findNaluIndices (earlier ++ [r]) 7).getLast? = some sps → ∀ pps,
      (seen findNaluIndices (earlier ++ [r]) 8).getLast? = some pps →
      encodedData = (if units findNaluIndices r 7 = [] then sps else []) ++
        (if units findNaluIndices r 8 = [] then pps else []) ++ r.data) ↔
    (units findNaluIndices r 7 = [] → units findNaluIndices r 8 = [] →
      ∀ k ∈ [7, 8], seen findNaluIndices earlier k ≠ []) ∧
    ∀ x ∈ [(7, 8), (8, 7)], units findNaluIndices r x.1 ≠ [] → units findNaluIndices r x.2 = [] →
      seen findNaluIndices earlier x.2 = [] := by
  have hsps := missing_iff hfind earlier 7 r.data
  have hpps := missing_iff hfind earlier 8 r.data
  rw [addSets_eq hfind]
  simp only [seen_concat]
  by_cases h7 : units findNaluIndices r 7 = []
  · by_cases h8 : units findNaluIndices r 8 = []
    · simp only [h7, h8, List.append_nil, List.length_nil, if_true]
      cases hlast : (seen findNaluIndices earlier 7).getLast? with
      | none =>
        have hnil := List.getLast?_eq_none_iff.mp hlast
        simp [hnil]
      | some sps =>
        have hne : seen findNaluIndices earlier 7 ≠ [] := by
          rintro hnil
          simp [hnil] at hlast
        cases hlast' : (seen findNaluIndices earlier 8).getLast? with
        | none =>
          have hnil := List.getLast?_eq_none_iff.mp hlast'
          simp [hnil]
        | some pps =>
          have hne' : seen findNaluIndices earlier 8 ≠ [] := by
            rintro hnil
            simp [hnil] at hlast'
          simp [hne, hne', h7, h8]
    · obtain ⟨pps, hlast⟩ := Option.ne_none_iff_exists'.mp (mt List.getLast?_eq_none_iff.mp h8)
      simpa [h7, h8, List.getLast?_append, hlast] using hsps
  · obtain ⟨sps, hlast⟩ := Option.ne_none_iff_exists'.mp (mt List.getLast?_eq_none_iff.mp h7)
    by_cases h8 : units findNaluIndices r 8 = []
    · simpa [h7, h8, List.getLast?_append, hlast] using hpps
    · simp [h7, h8]

theorem roundSound_iff (hfind : ∀ data, NaluIndex.Delimits data (findNaluIndices data)) :
    RoundSound findNaluIndices verbose earlier r ↔ Fine findNaluIndices verbose earlier r := by
  by_cases hbounds : 0 ≤ r.frameSize ∧
      ∀ i ∈ findNaluIndices r.data, i.payloadStartOffset < r.data.length
  swap
  · refine iff_of_false ?_ fun hfine => hbounds ⟨hfine.size, hfine.ended⟩
    rintro ⟨sets', frame, hround, -⟩
    exact hbounds (capture_bounds hround)
  obtain ⟨hsize, hended⟩ := hbounds
  rw [RoundSound, capture_eq hfind hsize hended]
  by_cases hlogged : verbose = true → ∀ k ∈ [7, 8], seen findNaluIndices (earlier ++ [r]) k ≠ []
  swap
  · refine iff_of_false ?_ fun hfine => hlogged hfine.logged
    rintro ⟨sets', frame, hround, -⟩
    have hnull := mt logged_iff.mp hlogged
    rw [Bool.not_eq_false] at hnull
    simp only [hnull, if_true] at hround
    cases hround
  simp only [logged_iff.mpr hlogged, Bool.false_eq_true, if_false]
  by_cases hidr : units findNaluIndices r 5 = []
  · refine iff_of_true ⟨lastSets findNaluIndices (earlier ++ [r]),
      ⟨r.data, !(units findNaluIndices r 5).isEmpty⟩, ?_, fun h => absurd hidr h⟩
      ⟨hsize, hended, hlogged, fun h => absurd hidr h, fun h => absurd hidr h⟩
    rw [hidr]
    rfl
  have hcases := broadcast_iff hfind earlier r
  constructor
  · rintro ⟨sets', frame, hround, hframe⟩
    obtain ⟨encodedData, hdata, hout⟩ := map_ok hround
    cases hout
    have hidr' : (units findNaluIndices r 5).isEmpty = false := by simpa using hidr
    rw [hidr'] at hdata
    obtain ⟨hbare, hsingle⟩ := hcases.mp ⟨encodedData, hdata, hframe hidr⟩
    exact ⟨hsize, hended, hlogged, fun _ => hbare, fun _ => hsingle⟩
  · intro hfine
    obtain ⟨encodedData, hdata, hframe⟩ := hcases.mpr ⟨hfine.bare hidr, hfine.single hidr⟩
    have hidr' : (units findNaluIndices r 5).isEmpty = false := by simpa using hidr
    refine ⟨lastSets findNaluIndices (earlier ++ [r]), ⟨encodedData, true⟩, ?_, fun _ => hframe⟩
    rw [hidr', Bool.not_false, hdata]
    rfl

/-- As long as the thread can cope with the reads, it goes on, by induction on them. -/
theorem captureAll_fine (hfind : ∀ data, NaluIndex.Delimits data (findNaluIndices data))
    (h : ∀ earlier r later, reads = earlier ++ r :: later →
      Fine findNaluIndices verbose earlier r) :
    captureAll findNaluIndices verbose reads = .ok (lastSets findNaluIndices reads) := by
  induction reads using List.reverseRecOn with
  | nil => rfl
  | append_singleton earlier r ih =>
    obtain ⟨hbefore, hlast⟩ := Histories.forall_split_concat.mp h
    have hearlier := ih hbefore
    obtain ⟨sets', frame, hround, -⟩ := (roundSound_iff hfind).mpr hlast
    have hsets := capture_sets hfind hround
    rw [captureAll] at hearlier
    rw [captureAll, List.foldlM_append, hearlier]
    simp only [List.foldlM_cons, List.foldlM_nil, bind_pure]
    have hstep : Prod.fst <$> capture findNaluIndices verbose (lastSets findNaluIndices earlier) r =
        .ok (lastSets findNaluIndices (earlier ++ [r])) := by
      rw [hround, ← hsets]
      rfl
    exact hstep

/-- All rounds do what is asked exactly when the thread can cope with all reads. -/
theorem key_frames_iff (hfind : ∀ data, NaluIndex.Delimits data (findNaluIndices data))
    (verbose : Bool) (reads : List DeviceRead) :
    Sound findNaluIndices verbose reads ↔ ∀ earlier r later, reads = earlier ++ r :: later →
      Fine findNaluIndices verbose earlier r := by
  constructor
  · intro hsound earlier r later heq
    obtain ⟨sets, sets', frame, hall, hround, hframe⟩ := hsound earlier r later heq
    cases captureAll_sets hfind hall
    exact (roundSound_iff hfind).mp ⟨sets', frame, hround, hframe⟩
  · intro hfine earlier r later heq
    have hall : captureAll findNaluIndices verbose earlier =
        .ok (lastSets findNaluIndices earlier) :=
      captureAll_fine hfind (Histories.forall_split_append (heq ▸ hfine))
    obtain ⟨sets', frame, hround, hframe⟩ :=
      (roundSound_iff hfind).mpr (hfine earlier r later heq)
    exact ⟨_, sets', frame, hall, hround, hframe⟩

end Rounds

def keyPicture : List UInt8 := [0, 0, 1, 0x67, 0, 0, 1, 0x68, 0, 0, 1, 0x65]

def slice : List UInt8 := [0, 0, 1, 0x65]

def someIndices (data : List UInt8) : List NaluIndex :=
  if data = keyPicture then [⟨0, 3, 1⟩, ⟨4, 7, 1⟩, ⟨8, 11, 1⟩]
  else if data = slice then [⟨0, 3, 1⟩]
  else []

theorem someIndices_delimits (data : List UInt8) :
    NaluIndex.Delimits data (someIndices data) := by
  unfold someIndices
  split
  · rename_i h
    subst h
    simp [NaluIndex.Delimits, NaluIndex.nalu, NaluIndex.endOffset, keyPicture]
  · split
    · rename_i h
      subst h
      simp [NaluIndex.Delimits, NaluIndex.nalu, NaluIndex.endOffset, slice]
    · trivial

def readOf (data : List UInt8) : DeviceRead := ⟨data.length, data, le_refl _⟩

theorem key_frames_slice : ∃ sets sets' frame,
    captureAll someIndices false [readOf keyPicture] = .ok sets ∧
    capture someIndices false sets (readOf slice) = .ok (sets', frame) ∧
    frame.encodedData = [0, 0, 1, 0x67] ++ [0, 0, 1, 0x68] ++ slice := by
  have hsound : Sound someIndices false [readOf keyPicture, readOf slice] := by
    refine (key_frames_iff someIndices_delimits false _).mpr ?_
    intro earlier r later heq
    rcases earlier with _ | ⟨first, earlier⟩
    · cases heq
      exact ⟨by decide, by decide, by decide, by decide, by decide⟩
    · rcases earlier with _ | ⟨second, earlier⟩
      · cases heq
        exact ⟨by decide, by decide, by decide, by decide, by decide⟩
      · simp at heq
  obtain ⟨sets, sets', frame, hall, hround, hframe⟩ :=
    hsound [readOf keyPicture] (readOf slice) [] rfl
  exact ⟨sets, sets', frame, hall, hround,
    hframe (by decide) [0, 0, 1, 0x67] (by decide) [0, 0, 1, 0x68] (by decide)⟩

/-- An IDR slice that comes first is looked at before there are sets. -/
theorem slice_without_sets : ¬ ∀ (findNaluIndices : List UInt8 → List NaluIndex) (verbose : Bool)
    (reads : List DeviceRead), (∀ data, NaluIndex.Delimits data (findNaluIndices data)) →
    Sound findNaluIndices verbose reads := by
  intro halways
  obtain ⟨sets, sets', frame, hall, hround, -⟩ :=
    halways someIndices false [readOf slice] someIndices_delimits [] (readOf slice) [] rfl
  have hsets : sets = ⟨none, none⟩ := by
    cases hall
    rfl
  rw [hsets] at hround
  have hfault : capture someIndices false ⟨none, none⟩ (readOf slice) =
      .error .nullParameterSet := by decide
  rw [hfault] at hround
  cases hround

end V4l2Capturer

end WebrtcStreamer
