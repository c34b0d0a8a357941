import WebrtcStreamer.StreamsInUse
import WebrtcStreamer.StreamEntries

/-! One execution of `AddStreams` among executions of `hangUp`: it finds its
entry again unless a `hangUp` erases it after the decision not to create one. -/

set_option autoImplicit false

namespace WebrtcStreamer

/-- What makes this section of `AddStreams` succeed: a source can be created,
the track can be added. -/
def StreamsPc.served (e : Env) : StreamsPc → Bool
  | .create => e.videoSource.isSome || e.audioSource.isSome
  | .video _ => e.videoAdded
  | .audio _ _ => e.audioAdded
  | _ => true

/-- Only thread `t`, inside `AddStreams`, and threads inside `hangUp` go on. -/
def hangUpsOnly (t : Tid) (s : State) : Action → Bool
  | .run j e =>
    match s.threads[j]? with
    | some (.hangUp _ _ _) => true
    | some (.streams _ _ a) => j = t && a.served e
    | _ => false
  | _ => true

/-- No `hangUp` erases the label while thread `t` is on its way from its decision
to its last lookup. -/
def labelKept (cfg : Config) (t : Tid) (r : Request) (o : ObsId) (s : State) : Action → Bool
  | .run j _ =>
    match s.threads[j]? with
    | some (.hangUp _ _ (.close _ l _)) =>
      l ≠ r.label cfg || s.threads[t]? ≠ some (.streams r o .final)
    | _ => true
  | _ => true

/-- Thread `t` is about to execute `AddStreams`, and nobody else is in its last
section. The connection exists, the options can be read, and an entry that is
already stored under the label has a source. -/
structure Entering (cfg : Config) (s : State) (t : Tid) (r : Request) (o : ObsId) : Prop where
  position : s.threads[t]? = some (.streams r o .setup)
  unlocked : s.shared.streamMapLocked = false
  connected : (s.shared.obs o).pc.isSome = true
  setUp : setUpStreams cfg r o s.shared = .ok ()
  stored : s.shared.streamMap[r.label cfg]? ≠ some (none, none)

def StreamsPc.onTrack (cfg : Config) (r : Request) (sh : Shared) : StreamsPc → Prop
  | .setup | .lookup | .create => True
  | .store pair | .video pair => pair ≠ (none, none)
  | .final => r.label cfg ∈ sh.streamMap
  | .audio pair ret => ret = true ∨ pair.2.isSome = true

structure OnTrack (cfg : Config) (sh : Shared) (r : Request) (o : ObsId) (pc : Pc) : Prop where
  position : pc = afterStreams r o true ∨ ∃ a : StreamsPc, pc = .streams r o a ∧ a.onTrack cfg r sh
  lock : sh.streamMapLocked = pc.attaching.isSome
  connected : (sh.obs o).pc.isSome = true
  setUp : setUpStreams cfg r o sh = .ok ()
  stored : sh.streamMap[r.label cfg]? ≠ some (none, none)

section Step

variable {cfg : Config} {e : Env} {sh sh' : Shared} {pc' : Pc} {r : Request} {o : ObsId}

theorem afterStreams_addingStreams (r : Request) (o : ObsId) (ret : Bool) :
    (afterStreams r o ret).addingStreams = false ∧ (afterStreams r o ret).attaching = none ∧
      (afterStreams r o ret).hangingUp = false := by
  refine ⟨?_, ?_, ?_⟩
  · exact apply_afterStreams Pc.addingStreams r o ret rfl rfl rfl
  · exact apply_afterStreams Pc.attaching r o ret rfl rfl rfl
  · exact apply_afterStreams Pc.hangingUp r o ret rfl rfl rfl

theorem setUpStreams_congr (h : (sh'.obs o).pc.isSome = (sh.obs o).pc.isSome) :
    setUpStreams cfg r o sh' = setUpStreams cfg r o sh := by
  have hnone : (sh'.obs o).pc.isNone = (sh.obs o).pc.isNone := by
    cases hpc : (sh.obs o).pc <;> cases hpc' : (sh'.obs o).pc <;> simp [hpc, hpc'] at h ⊢
  simp [setUpStreams, setBitrate, hnone]

theorem Executed.hangUp_streams {caller : Caller} {peerid : PeerId} {h : HangPc}
    (hx : Executed cfg e sh (.hangUp caller peerid h) sh' pc') :
    sh'.streamMapLocked = sh.streamMapLocked ∧ pc'.addingStreams = false ∧
    (sh'.streamMap = sh.streamMap ∨ ∃ o' l rest, h = .close o' l rest ∧
      sh.streamMapLocked = false ∧ sh' = sh.eraseStream l) := by
  cases hx with
  | closed _ _ o' l rest unlocked =>
    exact ⟨rfl, rfl, .inr ⟨o', l, rest, rfl, unlocked, rfl⟩⟩
  | entered | unknown | took | resumed =>
    refine ⟨?_, ?_, .inl ?_⟩
    · simp [logPeerId_lock, readMember_lock, Shared.erasePeer]
    · cases caller <;> rfl
    · simp [(logPeerId_streams _ _ _).1, (readMember_streams _ _).1, Shared.erasePeer]
  | _ =>
    refine ⟨?_, rfl, .inl ?_⟩ <;> simp [Shared.deleteObserver, Shared.modifyObs]

theorem OnTrack.hangUp {pc : Pc} (h : OnTrack cfg sh r o pc) {caller : Caller} {peerid : PeerId}
    {hpc : HangPc} (hx : Executed cfg e sh (.hangUp caller peerid hpc) sh' pc')
    (hkept : ∀ o' l rest, hpc = .close o' l rest →
      l ≠ r.label cfg ∨ pc ≠ .streams r o .final) : OnTrack cfg sh' r o pc := by
  obtain ⟨hlock, _, hstreams⟩ := hx.hangUp_streams
  have heffect : Effect cfg e 0 sh _ sh' pc' := hx.effect
  have hconnected := heffect.connected h.connected
  have hsame : (sh'.obs o).pc.isSome = (sh.obs o).pc.isSome := hconnected.trans h.connected.symm
  refine ⟨?_, hlock.trans h.lock, hconnected, (setUpStreams_congr hsame).trans h.setUp, ?_⟩
  · rcases h.position with hdone | ⟨a, ha, htrack⟩
    · exact .inl hdone
    · refine .inr ⟨a, ha, ?_⟩
      cases a with
      | final =>
        rcases hstreams with hmap | ⟨o', l, rest, hclose, _, rfl⟩
        · rw [StreamsPc.onTrack, hmap]
          exact htrack
        · have hne : l ≠ r.label cfg := (hkept o' l rest hclose).resolve_right (not_not_intro ha)
          have hupdate := congrFun (sh.eraseStream_update l) (r.label cfg)
          rw [Function.update_of_ne (Ne.symm hne)] at hupdate
          rw [StreamsPc.onTrack, mem_streamMap, hupdate, ← mem_streamMap]
          exact htrack
      | _ => exact htrack
  · rcases hstreams with hmap | ⟨o', l, rest, _, _, rfl⟩
    · rw [hmap]
      exact h.stored
    · rw [congrFun (sh.eraseStream_update l) (r.label cfg), Function.update_apply]
      split
      · simp
      · exact h.stored

theorem OnTrack.inside {a : StreamsPc} {r' : Request} {o' : ObsId}
    (h : OnTrack cfg sh r o (.streams r' o' a)) : r' = r ∧ o' = o := by
  rcases h.position with hdone | ⟨a', ha, _⟩
  · have hleft := (afterStreams_addingStreams r o true).1
    rw [← hdone] at hleft
    cases hleft
  · cases ha
    exact ⟨rfl, rfl⟩

theorem OnTrack.advance {a : StreamsPc} (h : OnTrack cfg sh r o (.streams r o a))
    (hserved : a.served e = true) (hx : Executed cfg e sh (.streams r o a) sh' pc') :
    OnTrack cfg sh' r o pc' := by
  have htrack : a.onTrack cfg r sh := by
    rcases h.position with hdone | ⟨a', ha, htrack⟩
    · have hleft := (afterStreams_addingStreams r o true).1
      rw [← hdone] at hleft
      cases hleft
    · cases ha
      exact htrack
  have hstay : ∀ {a' : StreamsPc}, a'.onTrack cfg r sh →
      (Pc.streams r o a').attaching = (Pc.streams r o a).attaching →
      OnTrack cfg sh r o (.streams r o a') := fun hnext hat =>
    ⟨.inr ⟨_, rfl, hnext⟩, by rw [hat]; exact h.lock, h.connected, h.setUp, h.stored⟩
  cases hx with
  | setup => exact hstay trivial rfl
  | found _ _ _ present => exact hstay present rfl
  | missing => exact hstay trivial rfl
  | created =>
    refine hstay ?_ rfl
    rintro hnone
    simp only [Prod.mk.injEq] at hnone
    simp [StreamsPc.served, hnone] at hserved
  | stored _ _ pair unlocked =>
    refine ⟨.inr ⟨.final, rfl, ?_⟩, h.lock, h.connected, h.setUp, ?_⟩
    · simp [StreamsPc.onTrack, Shared.storeStream]
    · rw [Shared.storeStream_self]
      cases hfound : sh.streamMap[r.label cfg]? with
      | none => exact fun heq => htrack (Option.some.inj heq)
      | some pair' => exact fun heq => h.stored (hfound.trans heq)
  | lost _ _ _ absent =>
    rw [StreamsPc.onTrack, mem_streamMap] at htrack
    exact absurd absent htrack
  | locked _ _ pair unlocked present =>
    refine ⟨.inr ⟨.video pair, rfl, fun hnone => ?_⟩, rfl, h.connected, h.setUp, h.stored⟩
    exact h.stored (hnone ▸ present)
  | video _ _ pair ret attached =>
    have hsame := SameOwners.attachTrack attached
    obtain ⟨hlock, hmap⟩ := Shared.attachTrack_lock attached
    refine ⟨.inr ⟨.audio pair ret, rfl, ?_⟩, hlock.trans h.lock,
      ((hsame.obs o).2.2).trans h.connected,
      (setUpStreams_congr (hsame.obs o).2.2).trans h.setUp, by rw [hmap]; exact h.stored⟩
    have hadded : e.videoAdded = true := hserved
    rw [StreamsPc.onTrack, attachTrack_ret attached, offersTrack, hadded, Bool.or_true,
      Bool.and_true]
    obtain ⟨video, audio⟩ := pair
    cases video with
    | some src => exact .inl rfl
    | none =>
      cases audio with
      | some src => exact .inr rfl
      | none => exact absurd rfl htrack
  | audio _ _ pair ret ret' attached =>
    have hsame := SameOwners.attachTrack attached
    obtain ⟨hlock, hmap⟩ := Shared.attachTrack_lock attached
    have hadded : e.audioAdded = true := hserved
    have hret : (ret || ret') = true := by
      rw [attachTrack_ret attached, offersTrack, hadded, Bool.or_true, Bool.and_true]
      simpa [StreamsPc.onTrack] using htrack
    rw [hret]
    refine ⟨.inl rfl, ?_, ((hsame.obs o).2.2).trans h.connected,
      (setUpStreams_congr (hsame.obs o).2.2).trans h.setUp, ?_⟩
    · rw [(afterStreams_addingStreams r o true).2.1]
      rfl
    · exact hmap ▸ h.stored

def StreamsPc.left : StreamsPc → Nat
  | .setup => 6
  | .lookup => 5
  | .create => 4
  | .store _ => 3
  | .final => 2
  | .video _ => 1
  | .audio _ _ => 0

theorem OnTrack.enabled {a : StreamsPc} (h : OnTrack cfg sh r o (.streams r o a)) :
    ∃ sh' pc', exec cfg (.fine 0) sh (.streams r o a) = .next sh' pc' ∧
      (pc'.addingStreams = true → ∃ a', pc' = .streams r o a' ∧ a'.left < a.left) := by
  have hlock := h.lock
  cases a with
  | setup =>
    refine ⟨sh, .streams r o .lookup, ?_, fun _ => ⟨_, rfl, by decide⟩⟩
    simp only [exec, execStreams, h.setUp]
  | lookup =>
    have hfree : sh.streamMapLocked = false := hlock
    by_cases hmem : r.label cfg ∈ sh.streamMap
    · exact ⟨sh, .streams r o .final, by simp [exec, execStreams, hfree, hmem],
        fun _ => ⟨.final, rfl, by decide⟩⟩
    · exact ⟨sh, .streams r o .create, by simp [exec, execStreams, hfree, hmem],
        fun _ => ⟨.create, rfl, by decide⟩⟩
  | create =>
    exact ⟨sh, _, rfl, fun _ => ⟨_, rfl, by simp [StreamsPc.left]⟩⟩
  | store pair =>
    have hfree : sh.streamMapLocked = false := hlock
    exact ⟨_, .streams r o .final, by simp [exec, execStreams, hfree]; rfl,
      fun _ => ⟨.final, rfl, by simp [StreamsPc.left]⟩⟩
  | final =>
    have hfree : sh.streamMapLocked = false := hlock
    cases hfound : sh.streamMap[r.label cfg]? with
    | none =>
      exact ⟨sh, .failed, by simp [exec, execStreams, hfree, hfound],
        fun hadding => by cases hadding⟩
    | some pair =>
      exact ⟨_, .streams r o (.video pair), by simp [exec, execStreams, hfree, hfound]; rfl,
        fun _ => ⟨_, rfl, by simp [StreamsPc.left]⟩⟩
  | video pair =>
    obtain ⟨⟨sh', ret⟩, hattach⟩ :=
      Shared.attachTrack_connected h.connected (r.label cfg) .video pair.1 true true
    refine ⟨sh', .streams r o (.audio pair ret), ?_, fun _ => ⟨_, rfl, by simp [StreamsPc.left]⟩⟩
    simp only [exec, execStreams, Env.fine, hattach]
  | audio pair ret =>
    obtain ⟨⟨sh', ret'⟩, hattach⟩ :=
      Shared.attachTrack_connected h.connected (r.label cfg) .audio pair.2 true true
    refine ⟨sh'.lockStreamMap false, afterStreams r o (ret || ret'), ?_, fun hadding => ?_⟩
    · simp only [exec, execStreams, Env.fine, hattach]
    · rw [(afterStreams_addingStreams _ _ _).1] at hadding
      cases hadding

end Step

section Run

variable {cfg : Config} {t : Tid} {r : Request} {o : ObsId} {s s' : State} {a : Action}

def Succeeding (cfg : Config) (t : Tid) (r : Request) (o : ObsId) (s : State) : Prop :=
  ∃ pc, s.threads[t]? = some pc ∧ OnTrack cfg s.shared r o pc

def Failing (cfg : Config) (t : Tid) (r : Request) (o : ObsId) (s : State) : Prop :=
  s.threads[t]? = some .failed ∨
    (s.threads[t]? = some (.streams r o .final) ∧ r.label cfg ∉ s.shared.streamMap)

theorem OnTrack.not_hangUp {sh : Shared} {pc : Pc} (h : OnTrack cfg sh r o pc) :
    pc.hangingUp = false := by
  rcases h.position with rfl | ⟨a, rfl, _⟩
  · exact (afterStreams_addingStreams r o true).2.2
  · rfl

theorem spawn_keeps {pc pc' : Pc} (h : s.threads[t]? = some pc) :
    (s.spawn pc').threads[t]? = some pc := by
  obtain ⟨hlt, _⟩ := List.getElem?_eq_some_iff.mp h
  rw [State.spawn, List.getElem?_append_left hlt]
  exact h

theorem OnTrack.look {sh : Shared} {pc : Pc} (h : OnTrack cfg sh r o pc) (os : List ObsId) :
    OnTrack cfg (os.foldl Shared.touch sh) r o pc := by
  obtain ⟨_, hstreams, hlock, hobservers⟩ := Shared.foldl_touch os sh
  have hobs : (os.foldl Shared.touch sh).obs o = sh.obs o := by simp [Shared.obs, hobservers]
  refine ⟨?_, hlock.trans h.lock, by rw [hobs]; exact h.connected,
    (setUpStreams_congr (by rw [hobs])).trans h.setUp, by rw [hstreams]; exact h.stored⟩
  rcases h.position with hdone | ⟨a, ha, htrack⟩
  · exact .inl hdone
  · refine .inr ⟨a, ha, ?_⟩
    cases a with
    | final =>
      rw [StreamsPc.onTrack, hstreams]
      exact htrack
    | _ => exact htrack

theorem Succeeding.step (h : Succeeding cfg t r o s) (honly : hangUpsOnly t s a = true)
    (hkept : labelKept cfg t r o s a = true) (hs : WebrtcStreamer.step cfg s a = some s') :
    Succeeding cfg t r o s' := by
  obtain ⟨pc, hpc, htrack⟩ := h
  cases step_stepped hs with
  | request | hangUp | iceClosed => exact ⟨pc, spawn_keeps hpc, htrack⟩
  | look os hos => exact ⟨pc, hpc, htrack.look os⟩
  | crash j e f => exact ⟨pc, hpc, htrack⟩
  | @run j e pcj pc' sh' hpos hx =>
    simp only [hangUpsOnly, hpos] at honly
    simp only [labelKept, hpos] at hkept
    cases pcj with
    | hangUp caller peerid hp =>
      have hne : j ≠ t := by
        rintro rfl
        rw [hpos] at hpc
        cases hpc
        exact absurd htrack.not_hangUp (by simp [Pc.hangingUp])
      refine ⟨pc, by simpa [List.getElem?_set_ne hne] using hpc, htrack.hangUp hx ?_⟩
      rintro o' l rest rfl
      simpa [hpc] using hkept
    | streams r' o' a' =>
      simp only [Bool.and_eq_true, decide_eq_true_eq] at honly
      obtain ⟨rfl, hserved⟩ := honly
      rw [hpos] at hpc
      cases hpc
      obtain ⟨rfl, rfl⟩ := htrack.inside
      have hlt : j < s.threads.length := (List.getElem?_eq_some_iff.mp hpos).1
      exact ⟨pc', by simp [hlt], htrack.advance hserved hx⟩
    | _ => cases honly

theorem Failing.of_lost (hbad : labelKept cfg t r o s a = false)
    (hs : WebrtcStreamer.step cfg s a = some s') : Failing cfg t r o s' := by
  cases a with
  | run j e =>
    obtain ⟨pcj, hpos, hrun⟩ := step_run hs
    simp only [labelKept, hpos] at hbad
    split at hbad
    · rename_i caller peerid o' l rest heq
      cases heq
      simp only [Bool.or_eq_false_iff, decide_eq_false_iff_not, not_not] at hbad
      obtain ⟨rfl, hfinal⟩ := hbad
      have hne : j ≠ t := by
        rintro rfl
        rw [hpos] at hfinal
        cases hfinal
      rcases hrun with ⟨f, hfault, _⟩ | ⟨sh', pc', hx, rfl⟩
      · simp only [exec, execHangUp] at hfault
        split at hfault <;> cases hfault
      · refine .inr ⟨by simpa [List.getElem?_set_ne hne] using hfinal, ?_⟩
        cases hx with
        | closed => simp [Shared.eraseStream]
    · cases hbad
  | _ => cases hbad

theorem Failing.step (h : Failing cfg t r o s) (honly : hangUpsOnly t s a = true)
    (hs : WebrtcStreamer.step cfg s a = some s') : Failing cfg t r o s' := by
  cases step_stepped hs with
  | request | hangUp | iceClosed =>
    exact h.imp spawn_keeps fun hfinal => ⟨spawn_keeps hfinal.1, hfinal.2⟩
  | look os hos =>
    refine h.imp id fun hfinal => ⟨hfinal.1, ?_⟩
    rw [(Shared.foldl_touch os s.shared).2.1]
    exact hfinal.2
  | crash j e f => exact h
  | @run j e pcj pc' sh' hpos hx =>
    simp only [hangUpsOnly, hpos] at honly
    have hlt : j < s.threads.length := (List.getElem?_eq_some_iff.mp hpos).1
    cases pcj with
    | hangUp caller peerid hp =>
      have hne : j ≠ t := by
        rintro rfl
        rcases h with hfailed | ⟨hfinal, _⟩
        · rw [hpos] at hfailed
          cases hfailed
        · rw [hpos] at hfinal
          cases hfinal
      have hset : (s.threads.set j pc')[t]? = s.threads[t]? := List.getElem?_set_ne hne
      refine h.imp (fun hfailed => hset.trans hfailed) fun hfinal => ⟨hset.trans hfinal.1, ?_⟩
      obtain ⟨_, _, hstreams⟩ := hx.hangUp_streams
      rcases hstreams with hmap | ⟨o', l, rest, _, _, rfl⟩
      · rw [hmap]
        exact hfinal.2
      · intro hmem
        exact hfinal.2 (Std.TreeMap.mem_of_mem_erase hmem)
    | streams r' o' a' =>
      simp only [Bool.and_eq_true, decide_eq_true_eq] at honly
      obtain ⟨rfl, _⟩ := honly
      rcases h with hfailed | ⟨hfinal, hout⟩
      · rw [hpos] at hfailed
        cases hfailed
      · rw [hpos] at hfinal
        cases hfinal
        cases hx with
        | lost => exact .inl (by simp [hlt])
        | locked _ _ pair _ present =>
          rw [mem_streamMap, not_not, present] at hout
          cases hout
    | _ => cases honly

def Guarded (cfg : Config) (t : Tid) (r : Request) (o : ObsId) : State → State → Prop :=
  Transition.Reaches (WebrtcStreamer.step cfg)
    fun s a => (hangUpsOnly t s a && labelKept cfg t r o s a) = true

theorem Entering.succeeding (h : Entering cfg s t r o) : Succeeding cfg t r o s :=
  ⟨_, h.position, .inr ⟨.setup, rfl, trivial⟩, h.unlocked, h.connected, h.setUp, h.stored⟩

theorem Guarded.succeeding (h₀ : Entering cfg s t r o) (h : Guarded cfg t r o s s') :
    Succeeding cfg t r o s' :=
  h.invariant (Succeeding cfg t r o) h₀.succeeding fun _ _ _ hi hok hs => by
    rw [Bool.and_eq_true] at hok
    exact hi.step hok.1 hok.2 hs

theorem Succeeding.finishes (h : Succeeding cfg t r o s) (hfine : s.fault = none) :
    ∃ s', Guarded cfg t r o s s' ∧ s'.threads[t]? = some (afterStreams r o true) := by
  obtain ⟨pc, hpc, htrack⟩ := h
  rcases htrack.position with rfl | ⟨a, rfl, -⟩
  · exact ⟨s, .refl, hpc⟩
  · -- on the number of sections that are left
    induction hn : a.left using Nat.strong_induction_on generalizing s a with
    | _ n ih =>
      obtain ⟨sh', pc', hexec, hnext⟩ := htrack.enabled
      obtain ⟨s₁, hstep, hfine₁, hpool⟩ : ∃ s₁, WebrtcStreamer.step cfg s (.run t (.fine 0)) =
          some s₁ ∧ s₁.fault = none ∧ s₁.threads = s.threads.set t pc' := by
        simp [WebrtcStreamer.step, hfine, hpc, hexec]
      have honly : hangUpsOnly t s (.run t (.fine 0)) = true := by
        simp only [hangUpsOnly, hpc]
        cases a <;> simp [StreamsPc.served, Env.fine]
      have hkept : labelKept cfg t r o s (.run t (.fine 0)) = true := by
        simp only [labelKept, hpc]
      have hfirst : Guarded cfg t r o s s₁ := .single (by rw [honly, hkept]; rfl) hstep
      obtain ⟨pc₁, hpc₁, htrack₁⟩ := Succeeding.step ⟨_, hpc, htrack⟩ honly hkept hstep
      have hlt : t < s.threads.length := (List.getElem?_eq_some_iff.mp hpc).1
      have hself : pc₁ = pc' := by simpa [hpool, hlt, eq_comm] using hpc₁
      subst hself
      rcases htrack₁.position with rfl | ⟨a', rfl, _⟩
      · exact ⟨s₁, hfirst, hpc₁⟩
      · obtain ⟨a'', heq, hless⟩ := hnext rfl
        cases heq
        obtain ⟨s', hrest, hdone⟩ := ih a'.left (hn ▸ hless) hfine₁ a' hpc₁ htrack₁ rfl
        exact ⟨s', hfirst.trans hrest, hdone⟩

/-- A run in which only this `AddStreams` and executions of `hangUp` go on has
kept the label or has lost it. -/
theorem Entering.guarded_or_failing
    (h : Transition.Reaches (WebrtcStreamer.step cfg) (fun s a => hangUpsOnly t s a = true) s s') :
    Guarded cfg t r o s s' ∨ Failing cfg t r o s' := by
  induction h with
  | refl => exact .inl .refl
  | @tail s₁ s₂ a _ honly hs ih =>
    rcases ih with hguarded | hfailing
    · cases hkept : labelKept cfg t r o s₁ a with
      | true => exact .inl (hguarded.tail (by rw [honly, hkept]; rfl) hs)
      | false => exact .inr (.of_lost hkept hs)
    · exact .inr (hfailing.step honly hs)

theorem afterStreams_ne_failed (r : Request) (o : ObsId) : afterStreams r o true ≠ .failed := by
  intro heq
  obtain ⟨_, hret⟩ | ⟨hnext, _⟩ | ⟨hnext, _⟩ := afterStreams_cases r o true
  · cases hret
  · cases hnext.symm.trans heq
  · cases hnext.symm.trans heq

/-- An `AddStreams` for which a source is available, among executions of
`hangUp` in any interleaving: once it has returned, it has returned true exactly
when no `hangUp` has erased its label between the decision not to create a
source and the last lookup; and without such an erasure it can always go on to
return true. -/
theorem addStreams_succeeds_iff (h₀ : Entering cfg s t r o)
    (h : Transition.Reaches (step cfg) (fun s a => hangUpsOnly t s a = true) s s') :
    (∀ pc, s'.threads[t]? = some pc → pc.addingStreams = false →
      (pc = afterStreams r o true ↔ Guarded cfg t r o s s')) ∧
    (Guarded cfg t r o s s' → s'.fault = none →
      ∃ s'', Guarded cfg t r o s' s'' ∧ s''.threads[t]? = some (afterStreams r o true)) := by
  refine ⟨fun pc hpc hleft => ⟨fun hdone => ?_, fun hguarded => ?_⟩,
    fun hguarded hfine => (hguarded.succeeding h₀).finishes hfine⟩
  · subst hdone
    rcases Entering.guarded_or_failing h with hguarded | hfailed | ⟨hfinal, _⟩
    · exact hguarded
    · rw [hpc] at hfailed
      exact absurd (Option.some.inj hfailed) (afterStreams_ne_failed r o)
    · rw [hpc] at hfinal
      rw [Option.some.inj hfinal] at hleft
      cases hleft
  · obtain ⟨pc', hpc', htrack⟩ := hguarded.succeeding h₀
    rw [hpc] at hpc'
    cases hpc'
    rcases htrack.position with hdone | ⟨a, rfl, _⟩
    · exact hdone
    · cases hleft

end Run

def entering (cfg : Config) (s : State) (t : Tid) (r : Request) (o : ObsId) : Bool :=
  decide (s.threads[t]? = some (.streams r o .setup)) && !s.shared.streamMapLocked &&
    (s.shared.obs o).pc.isSome && (setUpStreams cfg r o s.shared).toOption.isSome &&
    decide (s.shared.streamMap[r.label cfg]? ≠ some (none, none))

theorem Entering.of_test {cfg : Config} {s : State} {t : Tid} {r : Request} {o : ObsId}
    (h : entering cfg s t r o = true) : Entering cfg s t r o := by
  simp only [entering, Bool.and_eq_true, decide_eq_true_eq, Bool.not_eq_true'] at h
  obtain ⟨⟨⟨⟨hpos, hunlocked⟩, hconnected⟩, hsetUp⟩, hstored⟩ := h
  refine ⟨hpos, hunlocked, hconnected, ?_, hstored⟩
  cases hset : setUpStreams cfg r o s.shared with
  | error f => simp [hset, Except.toOption] at hsetUp
  | ok _ => rfl

theorem addStreams_succeeds_run : ∃ s s' : State, Reachable (.plain 0) s ∧
    Transition.Reaches (step (.plain 0)) (fun s a => hangUpsOnly 1 s a = true) s s' ∧
    Event.destroyed 2 .client 0 ∈ s'.trace ∧
    s'.threads[1]? = some (afterStreams (.plain .call "b" "rtsp://cam") 1 true) := by
  obtain ⟨s, hs, hp⟩ := Reachable.of_run (.plain 0)
    ([Action.request (.plain .call "a" "rtsp://cam")] ++ runs 0 14 (.fine 7) ++
      [Action.request (.plain .call "b" "rtsp://cam")] ++ runs 1 5 (.fine 8))
    (fun s => entering (.plain 0) s 1 (.plain .call "b" "rtsp://cam") 1 &&
      (Transition.run (step (.plain 0)) (fun s a => (hangUpsOnly 1 s a &&
          labelKept (.plain 0) 1 (.plain .call "b" "rtsp://cam") 1 s a) = true) s
        (Action.hangUp "a" :: (runs 2 8 (.fine 7) ++ runs 1 7 (.fine 8)))).any
          fun s' : State => decide (Event.destroyed 2 .client 0 ∈ s'.trace) &&
            (s'.threads[1]?).any fun pc : Pc => !pc.addingStreams) (by decide +kernel)
  rw [Bool.and_eq_true] at hp
  obtain ⟨s', hs', hp'⟩ := Transition.exists_reaches_of_run _ _ s _ _ hp.2
  rw [Bool.and_eq_true, decide_eq_true_eq, Option.any_eq_true] at hp'
  obtain ⟨htrace, pc, hpc, hleft⟩ := hp'
  have honly : Transition.Reaches (step (.plain 0)) (fun s a => hangUpsOnly 1 s a = true) s s' :=
    hs'.mono fun s a hok => by
      rw [Bool.and_eq_true] at hok
      exact hok.1
  have hdone := ((addStreams_succeeds_iff (.of_test hp.1) honly).1 pc hpc
    (by simpa using hleft)).mpr hs'
  exact ⟨s, s', hs, honly, htrace, by rw [hpc, hdone]⟩

/-- The other user of the label is hung up between the lookup that finds the
entry and the one that fetches it. -/
theorem addStreams_fails : ¬ ∀ (cfg : Config) (t : Tid) (r : Request) (o : ObsId) (s s' : State),
    Reachable cfg s → Entering cfg s t r o →
    Transition.Reaches (step cfg) (fun s a => hangUpsOnly t s a = true) s s' →
    ∀ pc, s'.threads[t]? = some pc → pc.addingStreams = false → pc = afterStreams r o true := by
  intro halways
  obtain ⟨s, hs, hp⟩ := Reachable.of_run (.plain 0)
    ([Action.request (.plain .call "a" "rtsp://cam")] ++ runs 0 14 (.fine 7) ++
      [Action.request (.plain .call "b" "rtsp://cam")] ++ runs 1 5 (.fine 8))
    (fun s => entering (.plain 0) s 1 (.plain .call "b" "rtsp://cam") 1 &&
      (Transition.run (step (.plain 0)) (fun s a => hangUpsOnly 1 s a = true) s
        (runs 1 2 (.fine 8) ++ Action.hangUp "a" :: (runs 2 5 (.fine 7) ++ runs 1 1 (.fine 8)))).any
          fun s' : State => decide (s'.threads[1]? = some Pc.failed)) (by decide +kernel)
  rw [Bool.and_eq_true] at hp
  obtain ⟨s', hs', hp'⟩ := Transition.exists_reaches_of_run _ _ s _ _ hp.2
  have hfailed := halways _ _ _ _ s s' hs (.of_test hp.1) hs' _ (of_decide_eq_true hp') rfl
  exact afterStreams_ne_failed _ _ hfailed.symm

end WebrtcStreamer
