import WebrtcStreamer.Histories
import WebrtcStreamer.KeyFrames

/-! How large the parameter-set cache of a session gets. -/

set_option autoImplicit false

namespace WebrtcStreamer

namespace Codec

/-- No unit is cached twice, and what is cached is not longer than the different
parameter sets among these units. -/
def Distinct (c : Codec) (received cfg : List Nalu) : Prop :=
  (cfg.map Nalu.payload).Nodup ∧ (cfg.flatMap Nalu.bytes).length ≤
    ((received.filter c.isParameters).dedup.flatMap Nalu.bytes).length

/-- A parameter set that does not clear the cache has not been received before, or one
that clears it has come since then. -/
def FreshUnit (c : Codec) (received : List Nalu) (u : Nalu) : Prop :=
  c.isParameters u = true → c.isSet c.leading u = false → ∀ before v between,
    received = before ++ v :: between → v.payload = u.payload →
      ∃ w ∈ between, c.isSet c.leading w = true

def NotCached (c : Codec) (cfg : List Nalu) (u : Nalu) : Prop :=
  c.isParameters u = true → c.isSet c.leading u = false → u.payload ∉ cfg.map Nalu.payload

instance (c : Codec) (cfg : List Nalu) (u : Nalu) : Decidable (c.NotCached cfg u) :=
  inferInstanceAs (Decidable (_ → _ → _))

variable {c : Codec} {cfg us : List Nalu} {u : Nalu}

theorem config_subset (h : u ∈ c.config [] us) : u ∈ us.filter c.isParameters := by
  rw [config_sinceLeading] at h
  obtain ⟨hmem, hparameters⟩ := List.mem_filter.mp h
  exact List.mem_filter.mpr ⟨(c.sinceLeading_suffix us).subset hmem, hparameters⟩

theorem distinct_of_nodup (h : ((c.config [] us).map Nalu.payload).Nodup) :
    c.Distinct us (c.config [] us) := by
  refine ⟨h, ?_⟩
  have hsub : (c.config [] us).Subperm (us.filter c.isParameters).dedup :=
    (h.of_map Nalu.payload).subperm fun u hu => List.mem_dedup.mpr (config_subset hu)
  obtain ⟨l, hperm, hsublist⟩ := hsub
  calc ((c.config [] us).flatMap Nalu.bytes).length
      = (l.flatMap Nalu.bytes).length := by
        rw [List.length_flatMap, List.length_flatMap]
        exact (hperm.map fun u : Nalu => u.bytes.length).sum_eq.symm
    _ ≤ ((us.filter c.isParameters).dedup.flatMap Nalu.bytes).length := by
        rw [List.length_flatMap, List.length_flatMap]
        exact (hsublist.map fun u : Nalu => u.bytes.length).sum_le_sum (by simp)

theorem config_step (cfg us : List Nalu) (u : Nalu) :
    c.config cfg (us ++ [u]) =
      if c.isParameters u then
        if c.isSet c.leading u then [u] else c.config cfg us ++ [u]
      else c.config cfg us := by
  rw [config_append]
  cases hrole : c.role u with
  | parameters clears format =>
    have hparameters : c.isParameters u = true := by simp [isParameters, hrole]
    have hleading : c.isSet c.leading u = clears := by
      rw [Bool.eq_iff_iff, isSet_leading, hrole]
      cases clears <;> simp
    rw [hparameters, hleading]
    cases clears <;> rfl
  | skipped | idr | other => simp [isParameters, hrole]

/-- What is cached is what has come since the last leading parameter set. -/
theorem mem_config_iff {v : Nalu} : v ∈ c.config [] us ↔ c.isParameters v = true ∧
    ∃ before between, us = before ++ v :: between ∧
      ∀ w ∈ between, c.isSet c.leading w = false := by
  induction us using List.reverseRecOn with
  | nil => simp [config]
  | append_singleton us u ih =>
    rw [config_step]
    constructor
    · intro hmem
      have hcases : (v = u ∧ c.isParameters u = true) ∨
          (v ∈ c.config [] us ∧ c.isSet c.leading u = false) := by
        split at hmem
        · rename_i hparameters
          split at hmem
          · exact .inl ⟨List.mem_singleton.mp hmem, hparameters⟩
          · rename_i hleading
            rcases List.mem_append.mp hmem with hmem | hmem
            · exact .inr ⟨hmem, by simpa using hleading⟩
            · exact .inl ⟨List.mem_singleton.mp hmem, hparameters⟩
        · rename_i hparameters
          exact .inr ⟨hmem, by simp [isSet, hparameters]⟩
      rcases hcases with ⟨rfl, hparameters⟩ | ⟨hmem, hleading⟩
      · exact ⟨hparameters, us, [], rfl, by simp⟩
      · obtain ⟨hparameters, before, between, rfl, hbetween⟩ := ih.mp hmem
        refine ⟨hparameters, before, between ++ [u], by simp, ?_⟩
        simpa [or_imp, forall_and, hleading] using hbetween
    · rintro ⟨hparameters, before, between, heq, hbetween⟩
      cases between using List.reverseRecOn with
      | nil =>
        obtain ⟨rfl, hsame⟩ := List.append_inj' heq rfl
        cases hsame
        rw [if_pos hparameters]
        split <;> simp
      | append_singleton between w =>
        rw [← List.cons_append, ← List.append_assoc] at heq
        obtain ⟨rfl, hsame⟩ := List.append_inj' heq rfl
        cases hsame
        have hmem := ih.mpr ⟨hparameters, before, between, rfl, fun w hw =>
          hbetween w (List.mem_append_left _ hw)⟩
        have hleading : c.isSet c.leading u = false := hbetween u (by simp)
        split
        · rw [if_neg (by simp [hleading])]
          exact List.mem_append_left _ hmem
        · exact hmem

theorem isParameters_congr {v : Nalu} (h : v.payload = u.payload) :
    c.isParameters v = c.isParameters u := by
  obtain ⟨startCode, payload⟩ := v
  obtain ⟨startCode', payload'⟩ := u
  cases h
  cases c <;> rfl

theorem freshUnit_iff : c.FreshUnit us u ↔ c.NotCached (c.config [] us) u := by
  refine forall_congr' fun hparameters => forall_congr' fun _ => ?_
  constructor
  · intro hfresh hmem
    obtain ⟨v, hv, hpayload⟩ := List.mem_map.mp hmem
    obtain ⟨-, before, between, heq, hbetween⟩ := mem_config_iff.mp hv
    obtain ⟨w, hw, hleading⟩ := hfresh before v between heq hpayload
    rw [hbetween w hw] at hleading
    cases hleading
  · intro hnew before v between heq hpayload
    by_contra hnone
    refine hnew (List.mem_map.mpr ⟨v, mem_config_iff.mpr ⟨?_, before, between, heq, ?_⟩, hpayload⟩)
    · rw [isParameters_congr hpayload, hparameters]
    · simpa using hnone

/-- From units that are fresh one after the other nothing is cached twice; by
induction from the last unit. -/
theorem nodup_config (hcfg : (cfg.map Nalu.payload).Nodup)
    (hfresh : ∀ seen u unseen, us = seen ++ u :: unseen → c.NotCached (c.config cfg seen) u) :
    ((c.config cfg us).map Nalu.payload).Nodup := by
  induction us using List.reverseRecOn with
  | nil => exact hcfg
  | append_singleton us u ih =>
    obtain ⟨hseen, hlast⟩ := Histories.forall_split_concat.mp hfresh
    have hbefore := ih hseen
    rw [config_step]
    split
    · rename_i hparameters
      split
      · simp
      · rename_i hleading
        have hnew := hlast hparameters (by simpa using hleading)
        rw [List.map_append, List.map_singleton]
        refine List.nodup_append.mpr ⟨hbefore, List.nodup_singleton _, fun payload hmem v hv => ?_⟩
        rw [List.mem_singleton.mp hv]
        exact fun heq => hnew (heq ▸ hmem)
    · exact hbefore

end Codec

namespace LiveVideoSource

variable {c : Codec} {id : String} {src : LiveVideoSource}

/-- `m_cfg` in a call that has seen these units of its buffer. -/
def cfgAfter (c : Codec) (src : LiveVideoSource) (call : DataCall) (seen : List Nalu) :
    List Nalu := (src.onH26xData call.decoding c call.timestamp seen).cfg

theorem cfgAfter_run (hcodec : src.codec.getD id "" = c.name) (hcfg : src.cfg = [])
    (calls : List DataCall) (call : DataCall) (seen : List Nalu) :
    cfgAfter c (src.run id calls) call seen =
      c.config [] (calls.flatMap DataCall.buffer ++ seen) := by
  rw [cfgAfter, (onH26xData_cfg ..).1, (run_cfg calls hcodec).2, hcfg, Codec.config_config]

/-- In every state of a session the cache holds no parameter set twice exactly when each
PPS (in H265, each SPS and PPS) that comes again comes after another SPS (in H265, VPS). -/
theorem cache_distinct_iff (hcodec : src.codec.getD id "" = c.name) (hcfg : src.cfg = [])
    (calls : List DataCall) :
    (∀ done call rest, calls = done ++ call :: rest → ∀ seen, seen <+: call.buffer →
      c.Distinct (done.flatMap DataCall.buffer ++ seen)
        (cfgAfter c (src.run id done) call seen)) ↔
      ∀ received u later, calls.flatMap DataCall.buffer = received ++ u :: later →
        c.FreshUnit received u := by
  simp only [cfgAfter_run hcodec hcfg, Codec.freshUnit_iff]
  constructor
  · intro hdistinct
    rw [Histories.forall_split_flatMap]
    intro done call rest heq seen u unseen hbuffer hparameters hleading
    have hseen := (hdistinct done call rest heq (seen ++ [u]) ⟨unseen, by rw [hbuffer]; simp⟩).1
    rw [← List.append_assoc, Codec.config_step, if_pos hparameters,
      if_neg (by simp [hleading]), List.map_append, List.nodup_append] at hseen
    exact fun hmem => hseen.2.2 _ hmem _ (List.mem_singleton.mpr rfl) rfl
  · rintro hfresh done call rest rfl seen ⟨unseen, hbuffer⟩
    refine Codec.distinct_of_nodup
      (Codec.nodup_config List.nodup_nil fun received u later heq => ?_)
    refine hfresh received u (later ++ unseen ++ rest.flatMap DataCall.buffer) ?_
    rw [List.flatMap_append, List.flatMap_cons, ← hbuffer, ← List.append_assoc,
      ← List.append_assoc, heq]
    simp

def startedH264 : LiveVideoSource := { LiveVideoSource.new 0 with codec := {("v", "H264")} }

theorem cache_distinct_again :
    (startedH264.run "v"
      [⟨.plain, 0, [.sps, .pps]⟩, ⟨.plain, 40, [.sps, .pps, .idrSlice]⟩]).cfg = [.sps, .pps] ∧
    ∀ done call rest,
      [⟨.plain, 0, [.sps, .pps]⟩, ⟨.plain, 40, [.sps, .pps, .idrSlice]⟩] =
          done ++ (call : DataCall) :: rest →
        ∀ seen, seen <+: call.buffer →
          Codec.h264.Distinct (done.flatMap DataCall.buffer ++ seen)
            (cfgAfter .h264 (startedH264.run "v" done) call seen) := by
  refine ⟨by decide, (cache_distinct_iff (by decide) rfl _).mpr (Histories.forall_split.mpr ?_)⟩
  simp only [Codec.freshUnit_iff]
  decide

/-- The PPS sent again without an SPS in front. -/
theorem cache_repeats_pps : ¬ ∀ (c : Codec) (id : String) (src : LiveVideoSource),
    src.codec.getD id "" = c.name → src.cfg = [] → ∀ (calls done : List DataCall) call rest,
      calls = done ++ call :: rest → ∀ seen, seen <+: call.buffer →
        c.Distinct (done.flatMap DataCall.buffer ++ seen)
          (cfgAfter c (src.run id done) call seen) := fun halways =>
  absurd (halways .h264 "v" startedH264 (by decide) rfl _ [⟨.plain, 0, [.sps, .pps]⟩]
    ⟨.plain, 40, [.pps]⟩ [] rfl [.pps] (List.prefix_refl _)).1 (by decide)

end LiveVideoSource

end WebrtcStreamer
