import WebrtcStreamer.Replies

/-! Every observer ends in the peer map or is deleted, as long as the thread
that constructed it gets to hand it over. -/

set_option autoImplicit false

namespace WebrtcStreamer

def Pc.finished : Pc → Bool
  | .done _ => true
  | _ => false

def State.quiet (s : State) : Bool := s.threads.all Pc.finished

/-- The observer is in the peer map exactly once, or it has been deleted and is
not in the map. -/
def Accounted (sh : Shared) (o : ObsId) : Prop :=
  ((sh.obs o).alive = true ∧ ∃! p : PeerId, sh.peerConnectionObsMap[p]? = some o) ∨
    ((sh.obs o).alive = false ∧ ∀ p : PeerId, sh.peerConnectionObsMap[p]? ≠ some o)

/-- The thread hands its observer over: the peerid is free at the registration,
and `createOffer` has got a track from `AddStreams`. -/
def discharges (cfg : Config) (s : State) : Action → Bool
  | .run t e =>
    match s.threads[t]? with
    | some (.register r _) => r.peerid ∉ s.shared.peerConnectionObsMap
    | some (.streams r _ .final) => r.api ≠ .createOffer || r.label cfg ∈ s.shared.streamMap
    | some (.streams r _ (.audio pair ret)) =>
      r.api ≠ .createOffer || ret || offersTrack pair.2 e.audioTrack e.audioAdded
    | _ => true
  | _ => true

/-- Nobody can delete the observer any more. -/
structure Leaked (sh : Shared) (threads : List Pc) (o : ObsId) : Prop where
  alive : (sh.obs o).alive = true
  unregistered : ∀ p : PeerId, sh.peerConnectionObsMap[p]? ≠ some o
  unheld : ∀ pc ∈ threads, pc.holds ≠ some o

/-- Every living observer is in the map or some thread is going to delete or to
register it. -/
def Tracked (sh : Shared) (threads : List Pc) : Prop :=
  ∀ o : ObsId, (sh.obs o).alive = true →
    (∃ p : PeerId, sh.peerConnectionObsMap[p]? = some o) ∨ ∃ pc ∈ threads, pc.holds = some o

variable {cfg : Config} {t : Tid} {e : Env} {sh sh' : Shared} {pc pc' : Pc} {threads : List Pc}

theorem Executed.lets_go (hx : Executed cfg e sh pc sh' pc') {o : ObsId}
    (hholds : pc.holds = some o) (hgone : pc'.holds ≠ some o) :
    (∃ r, pc = .register r o ∧ sh' = sh.registerPeer r.peerid o) ∨
    (∃ r, pc = .streams r o .final ∧ r.api = .createOffer ∧ r.label cfg ∉ sh.streamMap) ∨
    (∃ r pair, pc = .streams r o (.audio pair false) ∧ r.api = .createOffer ∧
      offersTrack pair.2 e.audioTrack e.audioAdded = false) ∨
    (sh'.obs o).alive = false := by
  cases hx with
  | registered r o' =>
    cases hholds
    exact .inl ⟨r, rfl, rfl⟩
  | lost r o' unlocked absent =>
    simp only [Pc.holds, Option.ite_none_right_eq_some, Option.some.injEq] at hholds
    obtain ⟨hoffer, rfl⟩ := hholds
    have hout : r.label cfg ∉ sh.streamMap := by
      rw [Std.TreeMap.mem_iff_isSome_getElem?, absent]
      simp
    exact .inr (.inl ⟨r, rfl, hoffer, hout⟩)
  | audio r o' pair ret ret' attached =>
    simp only [Pc.holds, Option.ite_none_right_eq_some, Option.some.injEq] at hholds
    obtain ⟨hoffer, rfl⟩ := hholds
    rw [attachTrack_ret attached] at hgone
    cases hret : ret || offersTrack pair.2 e.audioTrack e.audioAdded with
    | true => simp [hret, afterStreams, hoffer, Pc.holds] at hgone
    | false =>
      rw [Bool.or_eq_false_iff] at hret
      obtain ⟨rfl, hnone⟩ := hret
      exact .inr (.inr (.inl ⟨r, pair, rfl, hoffer, hnone⟩))
  | discarded r o' =>
    cases hholds
    simp
  | destroyed caller peerid o' =>
    cases hholds
    simp
  | answering r o' => exact absurd hholds hgone
  | offering r o' offer =>
    cases hholds
    simp [Pc.holds, offer] at hgone
  | setup | found | missing | created | stored | locked | video => exact absurd hholds hgone
  | listed | scanned | unlabelled | inUse | unused | closed => exact absurd hholds hgone
  | _ => cases hholds

theorem Leaked.not_accounted {o : ObsId} (h : Leaked sh threads o) : ¬ Accounted sh o := by
  rintro (⟨_, p, hp, _⟩ | ⟨hdead, _⟩)
  · exact h.unregistered p hp
  · rw [h.alive] at hdead
    cases hdead

/-! ### A leak is for ever -/

theorem Leaked.effect {o : Nat} (h : Leaked sh threads o) (hpos : threads[t]? = some pc)
    (heffect : Effect cfg e t sh pc sh' pc') : Leaked sh' (threads.set t pc') o := by
  have hself := h.unheld pc (List.mem_of_getElem? hpos)
  have hothers : pc'.holds ≠ some o → ∀ x ∈ threads.set t pc', x.holds ≠ some o := by
    intro hne x hx
    rcases Transition.mem_set hx with rfl | hx
    · exact hne
    · exact h.unheld x hx
  have hlt := Shared.obs_lt_of_alive h.alive
  cases heffect with
  | keep same holds =>
    exact ⟨(same.obs o).1.trans h.alive, by rw [same.map]; exact h.unregistered,
      hothers fun hc => hself (holds o hc)⟩
  | construct r connected time =>
    refine ⟨?_, h.unregistered, hothers fun hc => ?_⟩
    · rw [Shared.construct_obs, if_neg (by omega)]
      exact h.alive
    · have heq : sh.observers.length = o := Option.some.inj hc
      omega
  | register r o' holds =>
    refine ⟨h.alive, fun p hp => ?_, hothers (by simp [holds])⟩
    rcases Shared.registerPeer_lookup hp with hold | ⟨_, _, rfl⟩
    · exact h.unregistered p hold
    · exact hself rfl
  | take caller peerid o' found =>
    have hread := SameOwners.readMember caller sh
    refine ⟨(hread.obs o).1.trans h.alive, fun p hp => ?_, hothers fun hc => ?_⟩
    · have hold := (Shared.erasePeer_lookup hp).2
      rw [hread.map] at hold
      exact h.unregistered p hold
    · cases hc
      exact h.unregistered _ found
  | delete o' same holds holds' =>
    have hne : o' ≠ o := fun heq => hself (heq ▸ holds)
    refine ⟨?_, ?_, hothers (by simp [holds'])⟩
    · rw [Shared.deleteObserver_obs, if_neg hne]
      exact (same.obs o).1.trans h.alive
    · rw [Shared.deleteObserver_peerConnectionObsMap, same.map]
      exact h.unregistered

theorem Leaked.spawn {o : ObsId} (h : Leaked sh threads o) (hpc : pc.holds = none) :
    Leaked sh (threads ++ [pc]) o := by
  refine ⟨h.alive, h.unregistered, fun x hx => ?_⟩
  rcases List.mem_append.mp hx with hx | hx
  · exact h.unheld x hx
  · cases List.mem_singleton.mp hx
    simp [hpc]

theorem Leaked.step {s s' : State} {a : Action} {o : ObsId} (h : Leaked s.shared s.threads o)
    (howned : Owned s.shared s.threads) (hs : WebrtcStreamer.step cfg s a = some s') :
    Leaked s'.shared s'.threads o := by
  cases step_stepped hs with
  | request r => exact h.spawn rfl
  | hangUp peerid => exact h.spawn rfl
  | iceClosed o' _ _ => exact h.spawn rfl
  | look os hos =>
    rw [howned.look hos]
    exact h
  | crash t e f => exact h
  | run hpos hx => exact h.effect hpos hx.effect

/-! ### Without a leak every observer is tracked -/

theorem discharges_run {s : State} (hpos : s.threads[t]? = some pc)
    (hok : discharges cfg s (.run t e) = true) {o : ObsId} (hholds : pc.holds = some o)
    (hgone : pc'.holds ≠ some o) (hx : Executed cfg e s.shared pc sh' pc') :
    (∃ p : PeerId, sh'.peerConnectionObsMap[p]? = some o) ∨ (sh'.obs o).alive = false := by
  simp only [discharges, hpos] at hok
  rcases hx.lets_go hholds hgone with
    ⟨r, rfl, rfl⟩ | ⟨r, rfl, hoffer, hout⟩ | ⟨r, pair, rfl, hoffer, hnone⟩ | hdead
  · have hfree : s.shared.peerConnectionObsMap[r.peerid]? = none := by simpa using hok
    have hnew := congrFun (Shared.registerPeer_new o hfree) r.peerid
    rw [Function.update_self] at hnew
    exact .inl ⟨r.peerid, hnew⟩
  · simp [hoffer, hout] at hok
  · simp [hoffer, hnone] at hok
  · exact .inr hdead

namespace Tracked

theorem spawn (h : Tracked sh threads) : Tracked sh (threads ++ [pc]) := by
  intro o halive
  rcases h o halive with hreg | ⟨x, hx, hholds⟩
  · exact .inl hreg
  · exact .inr ⟨x, List.mem_append_left _ hx, hholds⟩

theorem effect (h : Tracked sh threads) (hpos : threads[t]? = some pc)
    (heffect : Effect cfg e t sh pc sh' pc')
    (hgo : ∀ o, pc.holds = some o → pc'.holds ≠ some o →
      (∃ p : PeerId, sh'.peerConnectionObsMap[p]? = some o) ∨ (sh'.obs o).alive = false) :
    Tracked sh' (threads.set t pc') := by
  have hlt : t < threads.length := (List.getElem?_eq_some_iff.mp hpos).1
  have hself : pc' ∈ threads.set t pc' := List.mem_set hlt pc'
  intro (o : Nat) halive
  have hheld : ∀ x ∈ threads, x.holds = some o →
      (∃ p : PeerId, sh'.peerConnectionObsMap[p]? = some o) ∨
        ∃ x ∈ threads.set t pc', x.holds = some o := by
    intro x hx hholds
    obtain ⟨j, hj⟩ := List.mem_iff_getElem?.mp hx
    by_cases hjt : j = t
    · subst hjt
      rw [hpos] at hj
      cases hj
      by_cases hstill : pc'.holds = some o
      · exact .inr ⟨pc', hself, hstill⟩
      · rcases hgo o hholds hstill with hreg | hdead
        · exact .inl hreg
        · rw [halive] at hdead
          cases hdead
    · have hkeep : (threads.set t pc')[j]? = some x := by
        rw [List.getElem?_set_ne (Ne.symm hjt)]
        exact hj
      exact .inr ⟨x, List.mem_of_getElem? hkeep, hholds⟩
  have hold : (sh.obs o).alive = true → (∀ p : PeerId, sh.peerConnectionObsMap[p]? = some o →
      (∃ p : PeerId, sh'.peerConnectionObsMap[p]? = some o) ∨
        ∃ x ∈ threads.set t pc', x.holds = some o) →
      (∃ p : PeerId, sh'.peerConnectionObsMap[p]? = some o) ∨
        ∃ x ∈ threads.set t pc', x.holds = some o := by
    intro hbefore hreg
    rcases h o hbefore with ⟨p, hp⟩ | ⟨x, hx, hholds⟩
    · exact hreg p hp
    · exact hheld x hx hholds
  cases heffect with
  | keep same =>
    exact hold ((same.obs o).1.symm.trans halive) fun p hp => .inl ⟨p, by rw [same.map]; exact hp⟩
  | construct r connected time =>
    by_cases ho : o = sh.observers.length
    · exact .inr ⟨_, hself, by rw [ho]; rfl⟩
    · rw [Shared.construct_obs, if_neg ho] at halive
      exact hold halive fun p hp => .inl ⟨p, hp⟩
  | register r o' =>
    exact hold halive fun p hp => .inl ⟨p, Shared.registerPeer_keeps hp⟩
  | take caller peerid o' found =>
    have hread := SameOwners.readMember caller sh
    refine hold ((hread.obs o).1.symm.trans halive) fun p hp => ?_
    by_cases hsame : p = caller.target e sh peerid
    · subst hsame
      rw [found] at hp
      cases hp
      exact .inr ⟨_, hself, rfl⟩
    · have hupdate := congrFun ((caller.readMember sh).erasePeer_update
        (caller.target e sh peerid)) p
      rw [Function.update_of_ne hsame, hread.map] at hupdate
      exact .inl ⟨p, hupdate.trans hp⟩
  | delete o' same =>
    have hmap := same.map
    by_cases ho : o' = o
    · rw [Shared.deleteObserver_obs, if_pos ho] at halive
      cases halive
    · rw [Shared.deleteObserver_obs, if_neg ho] at halive
      refine hold ((same.obs o).1.symm.trans halive) fun p hp => .inl ⟨p, ?_⟩
      rw [Shared.deleteObserver_peerConnectionObsMap, hmap]
      exact hp

theorem step {s s' : State} {a : Action} (h : Tracked s.shared s.threads)
    (howned : Owned s.shared s.threads) (hok : discharges cfg s a = true)
    (hs : WebrtcStreamer.step cfg s a = some s') : Tracked s'.shared s'.threads := by
  cases step_stepped hs with
  | request r => exact h.spawn
  | hangUp peerid => exact h.spawn
  | iceClosed o' _ _ => exact h.spawn
  | look os hos =>
    rw [howned.look hos]
    exact h
  | crash t e f => exact h
  | run hpos hx =>
    exact h.effect hpos hx.effect fun o hholds hgone => discharges_run hpos hok hholds hgone hx

end Tracked

theorem Owned.accounted (h : Owned sh threads) (htracked : Tracked sh threads)
    (hquiet : threads.all Pc.finished = true) (o : ObsId) : Accounted sh o := by
  cases halive : (sh.obs o).alive with
  | true =>
    refine .inl ⟨halive, ?_⟩
    rcases htracked o halive with ⟨p, hp⟩ | ⟨x, hx, hholds⟩
    · refine ⟨p, hp, fun q hq => ?_⟩
      exact (h.registered q o hq).2.symm.trans (h.registered p o hp).2
    · have hdone := List.all_eq_true.mp hquiet x hx
      cases x <;> simp [Pc.finished, Pc.holds] at hdone hholds
  | false =>
    refine .inr ⟨halive, fun p hp => ?_⟩
    rw [(h.registered p o hp).1] at halive
    cases halive

/-! ### A section that lets its observer go makes a leak -/

theorem Owned.leaks (h : Owned sh threads) {o : ObsId} (hpos : threads[t]? = some pc)
    (hholds : pc.holds = some o) (hgone : pc'.holds ≠ some o)
    (halive : (sh'.obs o).alive = (sh.obs o).alive)
    (hmap : ∀ p : PeerId, sh'.peerConnectionObsMap[p]? = sh.peerConnectionObsMap[p]?) :
    Leaked sh' (threads.set t pc') o := by
  obtain ⟨hbefore, hout⟩ := h.held t pc o hpos hholds
  refine ⟨halive.trans hbefore, fun p hp => hout p ((hmap p).symm.trans hp), fun x hx hheld => ?_⟩
  obtain ⟨j, hj⟩ := List.mem_iff_getElem?.mp hx
  rcases Transition.get_set hj with ⟨_, rfl⟩ | ⟨hne, hj⟩
  · exact hgone hheld
  · exact hne (h.sole j t x pc o hj hpos hheld hholds)

theorem Executed.leaks {s : State} (h : Owned s.shared s.threads)
    (hpos : s.threads[t]? = some pc) (hbad : discharges cfg s (.run t e) = false)
    (hx : Executed cfg e s.shared pc sh' pc') : ∃ o, Leaked sh' (s.threads.set t pc') o := by
  simp only [discharges, hpos] at hbad
  cases hx with
  | registered r o =>
    refine ⟨o, h.leaks hpos rfl ?_ rfl fun p => ?_⟩
    · by_cases hoffer : r.api = .createOffer <;> simp [hoffer, Pc.holds]
    · exact congrFun (Shared.registerPeer_old o (by simpa using hbad)) p
  | lost r o =>
    simp only [Bool.or_eq_false_iff, decide_eq_false_iff_not, not_not] at hbad
    exact ⟨o, h.leaks hpos (by simp [Pc.holds, hbad.1]) (by simp [Pc.failed, Pc.holds]) rfl
      fun _ => rfl⟩
  | locked r o pair unlocked present =>
    have hmem : r.label cfg ∈ s.shared.streamMap := by
      rw [Std.TreeMap.mem_iff_isSome_getElem?, present]
      rfl
    simp [hmem] at hbad
  | audio r o pair ret ret' attached =>
    have hsame := SameOwners.attachTrack attached
    simp only [Bool.or_eq_false_iff, decide_eq_false_iff_not, not_not] at hbad
    obtain ⟨⟨hoffer, rfl⟩, hnone⟩ := hbad
    rw [attachTrack_ret attached, hnone]
    exact ⟨o, h.leaks hpos (by simp [Pc.holds, hoffer])
      (by simp [afterStreams, Pc.failed, Pc.holds]) ((hsame.obs o).1)
      fun p => by rw [← hsame.map]; rfl⟩
  | _ => cases hbad

theorem leaked_of_not_discharges {s s' : State} {a : Action} (h : Owned s.shared s.threads)
    (hbad : discharges cfg s a = false) (hs : step cfg s a = some s') :
    (∃ o, Leaked s'.shared s'.threads o) ∨ (s'.fault.isSome = true ∧ s'.quiet = false) := by
  cases a with
  | run t e =>
    obtain ⟨pc, hpos, ⟨f, hfault, rfl⟩ | ⟨sh, pc', hx, rfl⟩⟩ := step_run hs
    · refine .inr ⟨rfl, ?_⟩
      have hunfinished : pc.finished = false := by
        cases pc with
        | done reply => cases hfault
        | _ => rfl
      rw [State.quiet, List.all_eq_false]
      exact ⟨pc, List.mem_of_getElem? hpos, by simp [hunfinished]⟩
    · exact .inl (hx.leaks h hpos hbad)
  | _ => cases hbad

/-- A run has leaked an observer, or has crashed, or every step has met the condition. -/
theorem Reachable.discharges {s : State} (h : Reachable cfg s) :
    (∃ o, Leaked s.shared s.threads o) ∨ (s.fault.isSome = true ∧ s.quiet = false) ∨
      Transition.Reaches (step cfg) (fun s a => discharges cfg s a = true) .initial s := by
  induction h with
  | refl => exact .inr (.inr .refl)
  | @tail s₁ s₂ a hreach _ hs ih =>
    have howned := Reachable.owned hreach
    rcases ih with ⟨o, hleaked⟩ | ⟨hfault, _⟩ | hmet
    · exact .inl ⟨o, hleaked.step howned hs⟩
    · simp [step, hfault] at hs
    · cases hok : WebrtcStreamer.discharges cfg s₁ a with
      | true => exact .inr (.inr (hmet.tail hok hs))
      | false =>
        rcases leaked_of_not_discharges howned hok hs with hleaked | hcrash
        · exact .inl hleaked
        · exact .inr (.inl hcrash)

theorem Reachable.tracked {s : State}
    (h : Transition.Reaches (step cfg) (fun s a => WebrtcStreamer.discharges cfg s a = true)
      .initial s) : Tracked s.shared s.threads := by
  have hboth := h.invariant (fun s => Owned s.shared s.threads ∧ Tracked s.shared s.threads)
    ⟨.initial, fun o halive => by simp [State.initial, Shared.initial, Shared.obs] at halive⟩
    fun _ _ _ hi hok hs => ⟨hi.1.step hs, hi.2.step hi.1 hok hs⟩
  exact hboth.2

/-- Once no request is in flight, every observer ever constructed is in the map
or deleted exactly when every thread of the run has handed its observer over. -/
theorem observers_accounted_iff {s : State} (h : Reachable cfg s) (hquiet : s.quiet = true) :
    (∀ o < s.shared.observers.length, Accounted s.shared o) ↔
      Transition.Reaches (step cfg) (fun s a => discharges cfg s a = true) .initial s := by
  constructor
  · intro hall
    rcases h.discharges with ⟨o, hleaked⟩ | ⟨_, hbusy⟩ | hmet
    · exact absurd (hall o (Shared.obs_lt_of_alive hleaked.alive)) hleaked.not_accounted
    · rw [hquiet] at hbusy
      cases hbusy
    · exact hmet
  · exact fun hmet o _ => h.owned.accounted (Reachable.tracked hmet) hquiet o

theorem observers_accounted_run : ∃ s, Reachable (.plain 0) s ∧ s.quiet = true ∧
    s.shared.observers.length = 2 ∧ ∀ o < s.shared.observers.length, Accounted s.shared o := by
  obtain ⟨s, hs, hp⟩ := Transition.exists_reaches_of_run (step (.plain 0))
    (fun s a => discharges (.plain 0) s a = true) .initial
    ([Action.request (.plain .call "a" "rtsp://cam")] ++ runs 0 14 (.fine 7) ++
      [Action.hangUp "a"] ++ runs 1 8 (.fine 7) ++
      [Action.request (.plain .createOffer "b" "rtsp://cam")] ++ runs 2 14 (.fine 8))
    (fun s => s.quiet && decide (s.shared.observers.length = 2)) (by decide +kernel)
  simp only [Bool.and_eq_true, decide_eq_true_eq] at hp
  exact ⟨s, hs.reachable, hp.1, hp.2,
    (observers_accounted_iff hs.reachable hp.1).mpr hs⟩

/-- The second call with one peerid is answered, and its observer stays alive
outside the map. -/
theorem observer_leaked : ¬ ∀ (cfg : Config) (s : State), Reachable cfg s → s.quiet = true →
    ∀ o < s.shared.observers.length, Accounted s.shared o := by
  intro halways
  obtain ⟨s, hs, hp⟩ := Reachable.of_run (.plain 0)
    ([Action.request (.plain .call "a" "rtsp://cam")] ++ runs 0 14 (.fine 7) ++
      [Action.request (.plain .call "a" "rtsp://cam")] ++ runs 1 12 (.fine 7))
    (fun s => s.quiet && decide (s.shared.observers.length = 2) && (s.shared.obs 1).alive &&
      decide (1 ∉ s.shared.registered)) (by decide +kernel)
  simp only [Bool.and_eq_true, decide_eq_true_eq] at hp
  obtain ⟨⟨⟨hquiet, hlen⟩, halive⟩, hout⟩ := hp
  rcases halways _ s hs hquiet 1 (by omega) with ⟨_, p, hreg, _⟩ | ⟨hdead, _⟩
  · exact hout (s.shared.mem_registered.mpr ⟨p, hreg⟩)
  · rw [halive] at hdead
    cases hdead

end WebrtcStreamer
