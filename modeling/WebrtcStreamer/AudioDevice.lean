import WebrtcStreamer.SharedSources
import WebrtcStreamer.SourceUrls

/-! The audio device module that all streams share, over the runs of the machine. -/

set_option autoImplicit false

namespace WebrtcStreamer

structure AudioSetup where
  cfg : Config
  build : Build
  publishFilter : String → Bool
  /-- the device that an audio source was asked to capture; `none` for a source of
  another branch -/
  device : Source → Option Int

structure AudioState where
  machine : State
  adm : AudioDeviceModule

def AudioState.initial (adm : AudioDeviceModule) : AudioState := ⟨.initial, adm⟩

abbrev AudioAction := Action × AudioAnswers

def State.creating (s : State) : Action → Option (Request × Option Source)
  | .run t e =>
    match s.threads[t]? with
    | some (.streams r _ .create) => some (r, e.audioSource)
    | _ => none
  | _ => none

/-- The number in an audio URL, of any size; 0 where there is none. -/
def askedDevice (audiourl : String) : Int :=
  (leadingInt (afterScheme "audiocap://" audiourl)).getD 0

/-- The device that a URL asks for, where it is captured. -/
def AudioCapturer.device (audiourl : String) : AudioCapturer → Option Int
  | .rtsp | .file => none
  | .audiocap => some (askedDevice audiourl)

def Pc.storing : Pc → Option AudioVideoPair
  | .streams _ _ (.store pair) => some pair
  | _ => none

def State.pairs (s : State) : List AudioVideoPair :=
  s.shared.streamMap.toList.map Prod.snd ++ s.threads.filterMap Pc.storing

namespace AudioSetup

variable (x : AudioSetup)

def audioUrl (r : Request) : String := audioOf x.cfg.aliases r.toStreamRequest

/-- A step of the machine. Where it creates sources, the worker thread executes
`CreateAudioSource`, which decides what kind of source there is. -/
def step (s : AudioState) (a : AudioAction) : Option AudioState := do
  let machine ← WebrtcStreamer.step x.cfg s.machine a.1
  match s.machine.creating a.1 with
  | none => some ⟨machine, s.adm⟩
  | some (r, source) =>
    let (adm, o) := CapturerFactory.audioSource x.build x.publishFilter s.adm a.2 (x.audioUrl r)
    if source.map x.device = o.returned.map (AudioCapturer.device (x.audioUrl r)) then
      some ⟨machine, adm⟩
    else none

def captured (s : AudioState) : List Int :=
  s.machine.pairs.filterMap fun pair => pair.2.bind x.device

/-- The last branch selects the device of the number in its URL, and it is the one that
the other sources capture. -/
def agrees (s : AudioState) (a : AudioAnswers) (audiourl : String) : Bool :=
  let adm := s.adm.init a.init
  let index := CapturerFactory.idxAudioDevice adm a audiourl
  !CapturerFactory.selects adm a audiourl ||
    ((!a.set || (x.captured s).all (· = index)) &&
      (!a.created || (askedDevice audiourl = index &&
        (a.set || adm.recordingDevice = some index))))

/-- While a device is captured no RTSP or file source is created, and no source
that captures another one. -/
def harmless (s : AudioState) (a : AudioAction) : Bool :=
  match s.machine.creating a.1 with
  | none => true
  | some (r, _) =>
    match CapturerFactory.createAudioSource x.publishFilter (x.audioUrl r) with
    | none => true
    | some c =>
      if c = .audiocap then x.agrees s a.2 (x.audioUrl r)
      else !x.build.live555 || (x.captured s).isEmpty

end AudioSetup

/-! ### What the calls do to the module -/

section Module

variable {adm : AudioDeviceModule} {i index : Int} {ok : Bool} {a : AudioAnswers}
  {audiourl : String}

def AudioDeviceModule.Selected (adm : AudioDeviceModule) (i : Int) : Prop :=
  adm.initialized = true ∧ adm.recordingDevice = some i

theorem AudioDeviceModule.Selected.init (h : adm.Selected i) (ok : Bool) :
    (adm.init ok).Selected i :=
  ⟨by simp [AudioDeviceModule.init, h.1], h.2⟩

theorem AudioDeviceModule.Selected.setRecordingDevice (h : adm.Selected i)
    (hsame : ok = true → i = index) : (adm.setRecordingDevice index ok).Selected i := by
  unfold AudioDeviceModule.setRecordingDevice
  split
  · rename_i hset
    rw [Bool.and_eq_true] at hset
    exact ⟨hset.1, congrArg some (hsame hset.2).symm⟩
  · exact h

theorem AudioDeviceModule.setRecordingDevice_selected (hinit : adm.initialized = true)
    (hset : ok = true ∨ adm.recordingDevice = some index) :
    (adm.setRecordingDevice index ok).Selected index := by
  unfold AudioDeviceModule.setRecordingDevice
  cases ok with
  | true => simp [AudioDeviceModule.Selected, hinit]
  | false =>
    have hdevice := hset.resolve_left Bool.false_ne_true
    simp [AudioDeviceModule.Selected, hinit, hdevice]

/-- Otherwise there would be -1 devices. -/
theorem initialized_of_selects (h : CapturerFactory.selects adm a audiourl = true) :
    adm.initialized = true := by
  cases hinit : adm.initialized with
  | true => rfl
  | false =>
    simp only [CapturerFactory.selects, AudioDeviceModule.recordingDevices, hinit,
      Bool.false_eq_true, if_false, Bool.and_eq_true, decide_eq_true_eq] at h
    omega

end Module

/-! ### The sources that a step leaves -/

section Pairs

variable {cfg : Config} {t : Tid} {e : Env} {sh sh' : Shared} {pc pc' : Pc} {s s' : State}
  {pair : AudioVideoPair}

theorem State.mem_pairs : pair ∈ s.pairs ↔
    (∃ l : Label, s.shared.streamMap[l]? = some pair) ∨
      ∃ pc ∈ s.threads, pc.storing = some pair := by
  rw [State.pairs, List.mem_append, List.mem_filterMap, List.mem_map]
  refine or_congr_left ⟨?_, ?_⟩
  · rintro ⟨⟨l, pair'⟩, hmem, rfl⟩
    exact ⟨l, Std.TreeMap.mem_toList_iff_getElem?_eq_some.mp hmem⟩
  · rintro ⟨l, hl⟩
    exact ⟨(l, pair), Std.TreeMap.mem_toList_iff_getElem?_eq_some.mpr hl, rfl⟩

theorem Executed.storing (hx : Executed cfg e sh pc sh' pc') (h : pc'.storing = some pair) :
    ∃ r o, pc = .streams r o .create ∧ pair = (e.videoSource, e.audioSource) := by
  cases hx with
  | created r o =>
    cases h
    exact ⟨r, o, rfl, rfl⟩
  | registered r o => split at h <;> cases h
  | audio r o pair' ret ret' _ =>
    rw [apply_afterStreams Pc.storing r o (ret || ret') rfl rfl rfl] at h
    cases h
  | described r o _ => split at h <;> cases h
  | resumed caller => cases caller <;> cases h
  | _ => cases h

theorem StreamEffect.stored (h : StreamEffect cfg e t sh pc sh') {l : Label}
    (hl : sh'.streamMap[l]? = some pair) :
    sh.streamMap[l]? = some pair ∨ pc.storing = some pair := by
  cases h with
  | keep map =>
    rw [map] at hl
    exact .inl hl
  | attach _ _ _ _ _ _ _ map =>
    rw [map] at hl
    exact .inl hl
  | store r o pair' =>
    by_cases hmem : r.label cfg ∈ sh.streamMap
    · rw [congrFun (Shared.storeStream_old pair' hmem) l] at hl
      exact .inl hl
    · rw [congrFun (Shared.storeStream_new pair' (by simpa using hmem)) l,
        Function.update_apply] at hl
      split at hl
      · exact .inr hl
      · exact .inl hl
  | erase caller peerid o l' rest =>
    rw [congrFun (Shared.eraseStream_update sh l') l, Function.update_apply] at hl
    split at hl
    · cases hl
    · exact .inl hl

theorem Stepped.pairs {a : Action} (h : Stepped cfg s a s') (hmem : pair ∈ s'.pairs) :
    pair ∈ s.pairs ∨ ∃ r, s.creating a = some (r, pair.2) := by
  have hspawn : ∀ pc : Pc, pc.storing = none → pair ∈ (s.spawn pc).pairs → pair ∈ s.pairs := by
    intro pc hpc hpair
    simpa [State.pairs, State.spawn, hpc] using hpair
  cases h with
  | request r => exact .inl (hspawn _ rfl hmem)
  | hangUp peerid => exact .inl (hspawn _ rfl hmem)
  | iceClosed o => exact .inl (hspawn _ rfl hmem)
  | look os =>
    refine .inl ?_
    simpa [State.pairs, (Shared.foldl_touch os s.shared).2.1] using hmem
  | crash => exact .inl hmem
  | @run t e pc pc' sh hpos hx =>
    rw [State.mem_pairs] at hmem
    rcases hmem with ⟨l, hl⟩ | ⟨pc₁, hin, hstoring⟩
    · rcases (hx.streamEffect (t := t)).stored hl with hold | hstoring
      · exact .inl (State.mem_pairs.mpr (.inl ⟨l, hold⟩))
      · exact .inl (State.mem_pairs.mpr (.inr ⟨pc, List.mem_of_getElem? hpos, hstoring⟩))
    · rcases List.mem_or_eq_of_mem_set hin with hin | rfl
      · exact .inl (State.mem_pairs.mpr (.inr ⟨pc₁, hin, hstoring⟩))
      · obtain ⟨r, o, rfl, rfl⟩ := hx.storing hstoring
        exact .inr ⟨r, by simp [State.creating, hpos]⟩

end Pairs

/-! ### Runs -/

namespace AudioSetup

variable {x : AudioSetup} {s s' : AudioState} {a : AudioAction} {i : Int}

def Undisturbed (x : AudioSetup) (s : AudioState) : Prop := ∀ i ∈ x.captured s, s.adm.Selected i

theorem agrees_spec {b : AudioAnswers} {audiourl : String} (h : x.Undisturbed s)
    (hagrees : x.agrees s b audiourl = true) :
    (∀ i ∈ x.captured s,
      (CapturerFactory.audiocapSource (s.adm.init b.init) b audiourl).1.Selected i) ∧
    ((CapturerFactory.audiocapSource (s.adm.init b.init) b audiourl).2.returned = some .audiocap →
      (CapturerFactory.audiocapSource (s.adm.init b.init) b audiourl).1.Selected
        (askedDevice audiourl)) := by
  unfold CapturerFactory.audiocapSource
  cases hselects : CapturerFactory.selects (s.adm.init b.init) b audiourl with
  | false => exact ⟨fun i hi => (h i hi).init b.init, nofun⟩
  | true =>
    simp only [agrees, hselects, Bool.not_true, Bool.false_or, Bool.and_eq_true, Bool.or_eq_true,
      Bool.not_eq_true', List.all_eq_true, decide_eq_true_eq] at hagrees
    obtain ⟨hothers, hown⟩ := hagrees
    simp only [if_true]
    constructor
    · intro i hi
      refine ((h i hi).init b.init).setRecordingDevice fun hset => ?_
      rcases hothers with hfailed | hothers
      · rw [hset] at hfailed
        cases hfailed
      · exact hothers i hi
    · intro hreturned
      rw [Option.ite_none_right_eq_some] at hreturned
      rcases hown with hnull | ⟨hdevice, hset⟩
      · rw [hreturned.1] at hnull
        cases hnull
      · rw [hdevice]
        exact AudioDeviceModule.setRecordingDevice_selected (initialized_of_selects hselects) hset

theorem audioSource_spec {r : Request} {source : Option Source} (h : x.Undisturbed s)
    (hcreating : s.machine.creating a.1 = some (r, source)) (hok : x.harmless s a = true) :
    (∀ i ∈ x.captured s, (CapturerFactory.audioSource x.build x.publishFilter s.adm a.2
      (x.audioUrl r)).1.Selected i) ∧
    ((CapturerFactory.audioSource x.build x.publishFilter s.adm a.2 (x.audioUrl r)).2.returned =
        some .audiocap →
      (CapturerFactory.audioSource x.build x.publishFilter s.adm a.2 (x.audioUrl r)).1.Selected
        (askedDevice (x.audioUrl r))) := by
  simp only [harmless, hcreating] at hok
  unfold CapturerFactory.audioSource
  cases hbranch : CapturerFactory.createAudioSource x.publishFilter (x.audioUrl r) with
  | none => exact ⟨h, nofun⟩
  | some c =>
    simp only [hbranch] at hok ⊢
    by_cases hc : c = .audiocap
    · rw [if_pos hc] at hok ⊢
      exact agrees_spec h hok
    · rw [if_neg hc] at hok ⊢
      cases hlive : x.build.live555 with
      | false => exact ⟨h, nofun⟩
      | true =>
        have hnone : x.captured s = [] := by simpa [hlive] using hok
        refine ⟨fun i hi => ?_, fun hreturned => ?_⟩
        · rw [hnone] at hi
          cases hi
        · simp only [if_true, Option.ite_none_right_eq_some, Option.some.injEq] at hreturned
          exact absurd hreturned.2 hc

theorem mem_captured : i ∈ x.captured s ↔
    ∃ pair ∈ s.machine.pairs, pair.2.bind x.device = some i := by
  rw [captured, List.mem_filterMap]

theorem Undisturbed.step (h : x.Undisturbed s) (hok : x.harmless s a = true)
    (hstep : x.step s a = some s') : x.Undisturbed s' := by
  simp only [AudioSetup.step, Option.bind_eq_bind, Option.bind_eq_some_iff] at hstep
  obtain ⟨machine, hmachine, hstep⟩ := hstep
  have hpairs : ∀ pair ∈ machine.pairs, pair ∈ s.machine.pairs ∨
      ∃ r, s.machine.creating a.1 = some (r, pair.2) :=
    fun _ hmem => (step_stepped hmachine).pairs hmem
  intro i hi
  obtain ⟨pair, hmem, hdevice⟩ := mem_captured.mp hi
  cases hcreating : s.machine.creating a.1 with
  | none =>
    rw [hcreating] at hstep
    cases hstep
    rcases hpairs pair hmem with hold | ⟨r, hnew⟩
    · exact h i (mem_captured.mpr ⟨pair, hold, hdevice⟩)
    · rw [hcreating] at hnew
      cases hnew
  | some created =>
    obtain ⟨r, source⟩ := created
    obtain ⟨hothers, hown⟩ := audioSource_spec h hcreating hok
    simp only [hcreating, Option.ite_none_right_eq_some, Option.some.injEq] at hstep
    obtain ⟨hsource, rfl⟩ := hstep
    rcases hpairs pair hmem with hold | ⟨r', hnew⟩
    · exact hothers i (mem_captured.mpr ⟨pair, hold, hdevice⟩)
    · rw [hcreating] at hnew
      cases hnew
      obtain ⟨src, hsrc, hasked⟩ := Option.bind_eq_some_iff.mp hdevice
      rw [hsrc, Option.map_some, hasked] at hsource
      obtain ⟨c, hreturned, hc⟩ := Option.map_eq_some_iff.mp hsource.symm
      cases c with
      | rtsp => cases hc
      | file => cases hc
      | audiocap =>
        rw [← Option.some.inj hc]
        exact hown hreturned

/-- Along a run of harmless steps every stored stream that captures a device finds
the module initialised and its own device selected. -/
theorem captured_device_kept {adm : AudioDeviceModule}
    (h : Transition.Reaches x.step (fun s a => x.harmless s a = true) (.initial adm) s)
    {l : Label} {video : Option Source} {src : Source}
    (hstored : s.machine.shared.streamMap[l]? = some (video, some src))
    (hdevice : x.device src = some i) :
    s.adm.initialized = true ∧ s.adm.recordingDevice = some i := by
  have hinitial : x.Undisturbed (.initial adm) := by
    intro i hi
    obtain ⟨pair, hmem, _⟩ := mem_captured.mp hi
    have hnone : (AudioState.initial adm).machine.pairs = [] := rfl
    rw [hnone] at hmem
    cases hmem
  have hundisturbed := h.invariant x.Undisturbed hinitial fun _ _ _ hs hok hstep =>
    hs.step hok hstep
  exact hundisturbed i (mem_captured.mpr
    ⟨(video, some src), State.mem_pairs.mpr (.inl ⟨l, hstored⟩), hdevice⟩)

def plain : AudioSetup where
  cfg := .plain 0
  build := ⟨true, true, true, true⟩
  publishFilter := fun _ => true
  device := fun src => if src = 5 then some 0 else none

def listens (t : Tid) (n : Nat) (source : Source) : List AudioAction :=
  (runs t n { Env.fine 0 with videoSource := none, audioSource := some source }).map
    (·, ⟨true, 1, true, true, true, 0⟩)

def asks (peerid : PeerId) (audiourl : String) : AudioAction :=
  (.request { Request.plain .call peerid "" with audiourl }, ⟨true, 1, true, true, true, 0⟩)

theorem captured_device_kept_run : ∃ s : AudioState,
    s.machine.shared.streamMap["|audiocap0||builtin"]? = some (none, some 5) ∧
    s.adm.initialized = true ∧ s.adm.recordingDevice = some 0 := by
  obtain ⟨s, hs, hp⟩ := Transition.exists_reaches_of_run plain.step
    (fun s a => plain.harmless s a = true) (.initial ⟨true, none⟩)
    (asks "a" "audiocap://0" :: listens 0 9 5)
    (fun s => decide (s.machine.shared.streamMap["|audiocap0||builtin"]? = some (none, some 5)))
    (by decide)
  rw [decide_eq_true_eq] at hp
  exact ⟨s, hp, captured_device_kept hs hp rfl⟩

/-- A camera with sound is added for another peer: the module is terminated. -/
theorem captured_device_lost : ¬ ∀ (x : AudioSetup) (adm : AudioDeviceModule) (s : AudioState)
    (l : Label) (video : Option Source) (src : Source) (i : Int),
    Transition.Reachable x.step (.initial adm) s →
    s.machine.shared.streamMap[l]? = some (video, some src) → x.device src = some i →
    s.adm.initialized = true ∧ s.adm.recordingDevice = some i := by
  intro halways
  obtain ⟨s, hs, hp⟩ := Transition.exists_reaches_of_run plain.step (fun _ _ => True)
    (.initial ⟨true, none⟩)
    (asks "a" "audiocap://0" :: listens 0 9 5 ++ asks "b" "rtsp://cam" :: listens 1 8 6)
    (fun s => decide (s.machine.shared.streamMap["|audiocap0||builtin"]? = some (none, some 5)) &&
      !s.adm.initialized) (by decide)
  rw [Bool.and_eq_true, decide_eq_true_eq, Bool.not_eq_true'] at hp
  have hinitialized := (halways plain ⟨true, none⟩ s _ _ _ _ hs hp.1 rfl).1
  rw [hp.2] at hinitialized
  cases hinitialized

end AudioSetup

end WebrtcStreamer
