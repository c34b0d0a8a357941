import WebrtcStreamer.ApiSafety

/-! Peer connections that could not be created: who may come to use one, in any run. -/

set_option autoImplicit false

namespace WebrtcStreamer

def setsBitrate (cfg : Config) (r : Request) : Bool :=
  ((streamOptions cfg.aliases r.toStreamRequest)["bitrate"]?.bind stoi).isSome

/-- A `createOffer` whose peer connection could not be created has nothing to do
with it: no bitrate, and no source under its label. -/
def Pc.leavesNullAlone (cfg : Config) (sh : Shared) : Pc → Bool
  | .streams r o .setup => r.api ≠ .createOffer || (sh.obs o).pc.isSome || !setsBitrate cfg r
  | .streams r o (.video pair) =>
    r.api ≠ .createOffer || (sh.obs o).pc.isSome || (pair.1.isNone && pair.2.isNone)
  | _ => true

def leavesNullAlone (cfg : Config) (s : State) : Action → Bool
  | .run t _ => s.threads[t]?.all (Pc.leavesNullAlone cfg s.shared)
  | _ => true

/-- What a position of the code needs to go on without a null peer connection. -/
def Pc.connected (sh : Shared) : Pc → Prop
  | .register _ o | .describe _ o | .hangUp _ _ (.senders o) => (sh.obs o).pc.isSome = true
  | .streams r o (.audio pair ret) =>
    (sh.obs o).pc.isSome = true ∨ (r.api = .createOffer ∧ pair.2 = none ∧ ret = false)
  | .streams r o _ => (sh.obs o).pc.isSome = true ∨ r.api = .createOffer
  | _ => True

structure Unused (s : State) : Prop where
  peers : ConnectedPeers s.shared
  threads : ∀ pc ∈ s.threads, pc.connected s.shared
  fault : s.fault ≠ some .nullPeerConnection

section Step

variable {cfg : Config} {e : Env} {sh sh' : Shared} {pc pc' : Pc}

theorem Pc.connected.mono (h : pc.connected sh)
    (hkeep : ∀ o, (sh.obs o).pc.isSome = true → (sh'.obs o).pc.isSome = true) :
    pc.connected sh' := by
  cases pc with
  | register r o => exact hkeep o h
  | describe r o => exact hkeep o h
  | hangUp caller peerid hp =>
    cases hp with
    | senders o => exact hkeep o h
    | _ => trivial
  | streams r o a =>
    cases a with
    | audio pair ret => exact h.imp_left (hkeep o)
    | _ => exact Or.imp_left (hkeep o) h
  | _ => trivial

theorem setBitrate_null {r : Request} {o : ObsId}
    (h : setBitrate cfg r o sh = .error .nullPeerConnection) :
    (sh.obs o).pc.isSome = false ∧ setsBitrate cfg r = true := by
  unfold setBitrate at h
  split at h
  · cases h
  · rename_i text htext
    split at h
    · cases h
    · rename_i hread
      split at h
      · rename_i hnull
        refine ⟨by simpa using hnull, ?_⟩
        rw [setsBitrate, htext, Option.bind_some, hread]
        rfl
      · cases h

theorem setUpStreams_null {r : Request} {o : ObsId}
    (h : setUpStreams cfg r o sh = .error .nullPeerConnection) :
    (sh.obs o).pc.isSome = false ∧ setsBitrate cfg r = true := by
  unfold setUpStreams at h
  split at h
  · cases h
  · exact setBitrate_null h

theorem attachTrack_null {o : ObsId} {l : Label} {kind : Kind} {source : Option Source}
    {track added : Bool} {f : Fault} (h : sh.attachTrack o l kind source track added = .error f) :
    (sh.obs o).pc.isSome = false ∧ source.isSome = true := by
  unfold Shared.attachTrack at h
  split at h
  · cases h
  · split at h
    · cases h
    · split at h
      · rename_i hnull
        exact ⟨by simpa using hnull, rfl⟩
      · split at h <;> cases h

theorem execHangUp_connected {caller : Caller} {peerid : PeerId} {hp : HangPc}
    (hpeers : ConnectedPeers sh) (h : (Pc.hangUp caller peerid hp).connected sh) :
    execHangUp cfg e sh caller peerid hp ≠ .fault .nullPeerConnection := by
  intro hx
  cases hp with
  | take =>
    simp only [execHangUp] at hx
    split at hx <;> cases hx
  | senders o =>
    have hsome : (sh.obs o).pc.isSome = true := h
    simp only [execHangUp] at hx
    split at hx
    · rename_i hnull
      simp [hnull] at hsome
    · cases hx
  | scan o rest =>
    rcases rest with _ | ⟨_ | ⟨l, ls⟩, rest⟩
    · cases hx
    · cases hx
    · obtain ⟨stillUsed, hused⟩ := hpeers.streamStillUsed l
      simp only [execHangUp, hused] at hx
      cases hx
  | close o l rest =>
    simp only [execHangUp] at hx
    split at hx <;> cases hx
  | _ => cases hx

theorem execStreams_connected {r : Request} {o : ObsId} {a : StreamsPc}
    (h : (Pc.streams r o a).connected sh)
    (hok : (Pc.streams r o a).leavesNullAlone cfg sh = true) :
    execStreams cfg e sh r o a ≠ .fault .nullPeerConnection := by
  intro hx
  cases a with
  | setup =>
    simp only [execStreams] at hx
    split at hx
    · rename_i f hfault
      cases hx
      obtain ⟨hnull, hbitrate⟩ := setUpStreams_null hfault
      have hoffer : r.api = .createOffer := h.resolve_left (by simp [hnull])
      simp [Pc.leavesNullAlone, hoffer, hnull, hbitrate] at hok
    · cases hx
  | lookup =>
    simp only [execStreams] at hx
    split at hx <;> cases hx
  | store pair =>
    simp only [execStreams] at hx
    split at hx <;> cases hx
  | final =>
    simp only [execStreams] at hx
    split at hx
    · cases hx
    · split at hx <;> cases hx
  | video pair =>
    simp only [execStreams] at hx
    split at hx
    · rename_i f hfault
      cases hx
      obtain ⟨hnull, hsource⟩ := attachTrack_null hfault
      have hoffer : r.api = .createOffer := h.resolve_left (by simp [hnull])
      simp only [Pc.leavesNullAlone, hoffer, hnull] at hok
      cases hpair : pair.1 with
      | none => simp [hpair] at hsource
      | some source => simp [hpair] at hok
    · cases hx
  | audio pair ret =>
    simp only [execStreams] at hx
    split at hx
    · rename_i f hfault
      cases hx
      obtain ⟨hnull, hsource⟩ := attachTrack_null hfault
      rcases h with hsome | ⟨_, hnone, _⟩
      · simp [hnull] at hsome
      · simp [hnone] at hsource
    · cases hx
  | create => cases hx

theorem exec_connected (hpeers : ConnectedPeers sh) (h : pc.connected sh)
    (hok : pc.leavesNullAlone cfg sh = true) : exec cfg e sh pc ≠ .fault .nullPeerConnection := by
  intro hx
  cases pc with
  | accept r =>
    simp only [exec] at hx
    split at hx <;> cases hx
  | construct r =>
    simp only [exec] at hx
    split at hx <;> cases hx
  | opened r o =>
    simp only [exec] at hx
    split at hx
    · cases hx
    · split at hx <;> cases hx
  | describe r o =>
    have hsome : (sh.obs o).pc.isSome = true := h
    simp only [exec] at hx
    split at hx
    · rename_i hnull
      rw [Option.isNone_iff_eq_none] at hnull
      simp [hnull] at hsome
    · cases hx
  | gather r o retry => cases retry <;> cases hx
  | hangUp caller peerid hp => exact execHangUp_connected hpeers h hx
  | streams r o a => exact execStreams_connected h hok hx
  | _ => cases hx

theorem Effect.peers {t : Tid} (hx : Effect cfg e t sh pc sh' pc') (hpeers : ConnectedPeers sh)
    (h : pc.connected sh) : ConnectedPeers sh' := by
  have hkeep := fun (o : ObsId) => hx.connected (o := o)
  intro p o hp
  cases hx with
  | keep same =>
    rw [same.map] at hp
    exact hkeep o (hpeers p o hp)
  | construct r connected time => exact hkeep o (hpeers p o hp)
  | register r o' =>
    rcases Shared.registerPeer_lookup hp with hold | ⟨_, _, rfl⟩
    · exact hpeers p o hold
    · exact h
  | take caller peerid o' =>
    have hold := (Shared.erasePeer_lookup hp).2
    rw [(SameOwners.readMember caller sh).map] at hold
    exact hkeep o (hpeers p o hold)
  | delete o' same =>
    rw [Shared.deleteObserver_peerConnectionObsMap, same.map] at hp
    exact hkeep o (hpeers p o hp)

theorem Executed.connected (hx : Executed cfg e sh pc sh' pc') (hpeers : ConnectedPeers sh)
    (h : pc.connected sh) (hok : pc.leavesNullAlone cfg sh = true) : pc'.connected sh' := by
  have hkeep := fun (o : ObsId) => (hx.effect (t := 0)).connected (o := o)
  cases hx with
  | offering r o offer => exact .inr offer
  | answering r o answer connected => exact hkeep o connected
  | registered r o =>
    split
    · exact h
    · exact .inl h
  | setup r o | found r o | missing r o | created r o | stored r o | locked r o =>
    exact Or.imp_left (hkeep o) h
  | video r o pair ret attached =>
    cases hsome : (sh.obs o).pc.isSome with
    | true => exact .inl (hkeep o hsome)
    | false =>
      have hoffer : r.api = .createOffer := h.resolve_left (by simp [hsome])
      simp only [Pc.leavesNullAlone, hoffer, hsome, ne_eq, not_true_eq_false, decide_false,
        Bool.or_self, Bool.false_or, Bool.and_eq_true, Option.isNone_iff_eq_none] at hok
      rw [hok.1] at attached
      cases attached
      exact .inr ⟨hoffer, hok.2, rfl⟩
  | audio r o pair ret ret' attached =>
    rcases h with hsome | ⟨hoffer, hnone, rfl⟩
    · have hafter := hkeep o hsome
      rcases afterStreams_cases r o (ret || ret') with ⟨hnext, _⟩ | ⟨hnext, _⟩ | ⟨hnext, _⟩
      · rw [hnext]
        trivial
      · rw [hnext]
        exact hafter
      · rw [hnext]
        exact hafter
    · rw [hnone] at attached
      cases attached
      trivial
  | described r o connected => split <;> trivial
  | took caller peerid o present => exact hkeep o (hpeers _ o present)
  | resumed caller peerid result => cases caller <;> trivial
  | _ => trivial

theorem Unused.spawn {s : State} (h : Unused s) (hpc : pc.connected s.shared) :
    Unused (s.spawn pc) := by
  refine ⟨h.peers, fun pcj hj => ?_, h.fault⟩
  rcases List.mem_append.mp hj with hj | hj
  · exact h.threads pcj hj
  · rw [List.mem_singleton.mp hj]
    exact hpc

theorem Unused.look {s : State} (h : Unused s) (os : List ObsId) :
    Unused { s with shared := os.foldl Shared.touch s.shared } := by
  obtain ⟨hmap, -, -, hobservers⟩ := Shared.foldl_touch os s.shared
  have hobs : ∀ o, (os.foldl Shared.touch s.shared).obs o = s.shared.obs o := fun o => by
    rw [Shared.obs, hobservers, Shared.obs]
  refine ⟨fun p o hp => ?_, fun pc hpc => (h.threads pc hpc).mono fun o ho => ?_, h.fault⟩
  · rw [hmap] at hp
    rw [hobs]
    exact h.peers p o hp
  · rw [hobs]
    exact ho

theorem Unused.run {s s' : State} {t : Tid} (h : Unused s)
    (hok : WebrtcStreamer.leavesNullAlone cfg s (.run t e) = true)
    (hs : WebrtcStreamer.step cfg s (.run t e) = some s') : Unused s' := by
  obtain ⟨pc, hpos, hcases⟩ := step_run hs
  have hmem := List.mem_of_getElem? hpos
  have hpc : pc.leavesNullAlone cfg s.shared = true := by
    simpa [WebrtcStreamer.leavesNullAlone, hpos] using hok
  rcases hcases with ⟨f, hfault, rfl⟩ | ⟨sh, pc', hx, rfl⟩
  · refine ⟨h.peers, h.threads, fun hnull => ?_⟩
    rw [Option.some.inj hnull] at hfault
    exact exec_connected h.peers (h.threads pc hmem) hpc hfault
  · refine ⟨(hx.effect (t := t)).peers h.peers (h.threads pc hmem), fun pcj hj => ?_, h.fault⟩
    rcases Transition.mem_set hj with rfl | hj
    · exact hx.connected h.peers (h.threads pc hmem) hpc
    · exact (h.threads pcj hj).mono fun o => (hx.effect (t := t)).connected

theorem Unused.step {s s' : State} {a : Action} (h : Unused s)
    (hok : WebrtcStreamer.leavesNullAlone cfg s a = true)
    (hs : WebrtcStreamer.step cfg s a = some s') : Unused s' := by
  cases step_stepped hs with
  | request r => exact h.spawn trivial
  | hangUp peerid => exact h.spawn trivial
  | iceClosed o halive hconnected => exact h.spawn trivial
  | look os hos => exact h.look os
  | crash t e f => exact h.run hok hs
  | run hpos hx => exact h.run hok hs

end Step

/-- As long as each `createOffer` leaves a connection that could not be created alone,
every registered observer has one, and no method is called through a null one. -/
theorem null_connection_unused {cfg : Config} {s : State}
    (h : Transition.Reaches (step cfg) (fun s a => leavesNullAlone cfg s a = true) .initial s) :
    ConnectedPeers s.shared ∧ s.fault ≠ some .nullPeerConnection := by
  have hinitial : Unused .initial := by
    refine ⟨fun p o hp => ?_, fun pc hpc => ?_, by simp [State.initial]⟩
    · simp [State.initial, Shared.initial] at hp
    · cases hpc
  have hunused := h.invariant Unused hinitial fun _ _ _ hi hok hs => hi.step hok hs
  exact ⟨hunused.peers, hunused.fault⟩

theorem null_connection_unused_offer : ∃ s, Transition.Reaches (step (.plain 0))
    (fun s a => leavesNullAlone (.plain 0) s a = true) .initial s ∧
    (s.shared.obs 0).pc = none ∧ "a" ∈ s.shared.peerConnectionObsMap ∧
    ConnectedPeers s.shared := by
  obtain ⟨s, hs, hp⟩ := Transition.exists_reaches_of_run (step (.plain 0))
    (fun s a => leavesNullAlone (.plain 0) s a = true) .initial
    ([Action.request (.plain .createOffer "b" "rtsp://cam")] ++
      runs 0 11 { Env.fine 7 with connected := false, videoSource := none } ++
      [Action.request (.plain .call "a" "rtsp://cam")] ++ runs 1 5 (.fine 7))
    (fun s => decide ((s.shared.obs 0).pc = none) &&
      decide ("a" ∈ s.shared.peerConnectionObsMap)) (by decide +kernel)
  simp only [Bool.and_eq_true, decide_eq_true_eq] at hp
  exact ⟨s, hs, hp.1, hp.2, (null_connection_unused hs).1⟩

/-- `createOffer` adds a track to the connection that it has not got. -/
theorem null_connection_used : ¬ ∀ (cfg : Config) (s : State), Reachable cfg s →
    ConnectedPeers s.shared ∧ s.fault ≠ some .nullPeerConnection := by
  intro halways
  obtain ⟨s, hs, hp⟩ := Reachable.of_run (.plain 0)
    ([Action.request (.plain .createOffer "a" "rtsp://cam")] ++
      runs 0 10 { Env.fine 7 with connected := false })
    (fun s => s.fault = some .nullPeerConnection) (by decide +kernel)
  exact (halways _ s hs).2 (of_decide_eq_true hp)

end WebrtcStreamer
