import WebrtcStreamer.Ownership

/-! Who reads an observer, and who hangs up whom.

An observer is deleted by the `hangUp` that took it out of the map. The loop of
`getAnswer` and the detached thread of `OnIceConnectionChange` go on reading it
without owning it, and the detached thread names its target by the peerid that
it reads there. -/

set_option autoImplicit false

namespace WebrtcStreamer

/-- The thread is on its way to a read of an observer that it does not own. -/
def Pc.mayRead (cfg : Config) (o : ObsId) : Pc → Bool
  | .hangUp (.detached o') _ .enter | .hangUp (.detached o') _ .take => o' = o
  | .hangUp (.detached o') _ _ => cfg.logInfo && o' = o
  | .streams r o' _ | .describe r o' => r.api = .whep && o' = o
  | .gather _ o' _ => o' = o
  | _ => false

def Pc.reporter : Pc → Option ObsId
  | .hangUp (.detached o) _ _ => some o
  | _ => none

/-- `hangUp` may delete an observer only when no thread is going to read it. -/
def unread (cfg : Config) (s : State) : Action → Bool
  | .run t _ =>
    match s.threads[t]? with
    | some (.hangUp _ _ (.destroy o)) => s.threads.all fun pc => !pc.mayRead cfg o
    | _ => true
  | _ => true

section Step

variable {cfg : Config} {t : Tid} {e : Env} {sh sh' : Shared} {pc pc' : Pc}

theorem Executed.mayRead (hx : Executed cfg e sh pc sh' pc') {o : ObsId}
    (h : pc'.mayRead cfg o = true) : pc.mayRead cfg o = true ∨ ∃ r, pc = .register r o := by
  cases hx with
  | registered r o' =>
    by_cases hoffer : r.api = .createOffer
    · simp [hoffer, Pc.mayRead] at h
    · simp [hoffer, Pc.mayRead] at h
      exact .inr ⟨r, by rw [h.2]⟩
  | audio r o' pair ret ret' _ =>
    obtain ⟨hnext, _⟩ | ⟨hnext, _⟩ | ⟨hnext, _⟩ := afterStreams_cases r o' (ret || ret')
    · rw [hnext] at h
      cases h
    · rw [hnext] at h
      cases h
    · rw [hnext] at h
      exact .inl h
  | described r o' _ =>
    by_cases hwhep : r.api = .whep
    · simp [hwhep, Pc.mayRead] at h
      exact .inl (by simp [Pc.mayRead, hwhep, h])
    · simp [hwhep, Pc.mayRead] at h
  | resumed caller peerid result => cases caller <;> cases h
  | entered caller | unknown caller | took caller | listed caller | scanned caller
  | unlabelled caller | inUse caller | unused caller | closed caller | destroyed caller =>
    cases caller with
    | detached o' => simp_all [Pc.mayRead]
    | client => cases h
    | evict => cases h
  | offering r o' offer => simp [Pc.mayRead, offer] at h
  | setup | found | missing | created | stored | locked | video => exact .inl h
  | gathering => exact .inl h
  | _ => cases h

theorem Executed.reporter (hx : Executed cfg e sh pc sh' pc') {o : ObsId}
    (h : pc'.reporter = some o) : pc.reporter = some o := by
  cases hx with
  | registered r o' => split at h <;> cases h
  | audio r o' pair ret ret' _ =>
    rw [apply_afterStreams Pc.reporter r o' (ret || ret') rfl rfl rfl] at h
    cases h
  | described r o' _ => split at h <;> cases h
  | resumed caller peerid result => cases caller <;> cases h
  | entered caller | unknown caller | took caller | listed caller | scanned caller
  | unlabelled caller | inUse caller | unused caller | closed caller | destroyed caller =>
    cases caller <;> exact h
  | _ => cases h

theorem Caller.readMember_alive {caller : Caller}
    (h : ∀ o, caller = .detached o → (sh.obs o).alive = true) : caller.readMember sh = sh := by
  cases caller with
  | detached o => exact sh.touch_of_alive (h o rfl)
  | client => rfl
  | evict r => rfl

theorem Caller.logPeerId_alive {caller : Caller}
    (h : ∀ o, caller = .detached o → cfg.logInfo = true → (sh.obs o).alive = true) :
    caller.logPeerId cfg sh = sh := by
  unfold Caller.logPeerId
  split
  · rename_i hlog
    exact readMember_alive fun o hcaller => h o hcaller hlog
  · rfl

theorem Executed.staleReads (hx : Executed cfg e sh pc sh' pc')
    (hregistered : ∀ (p : PeerId) (o : ObsId), sh.peerConnectionObsMap[p]? = some o →
      (sh.obs o).alive = true)
    (hheld : ∀ o, pc.holds = some o → (sh.obs o).alive = true)
    (hread : ∀ o, pc.mayRead cfg o = true → (sh.obs o).alive = true) :
    sh'.staleReads = sh.staleReads := by
  have hlook := sh.touchRegistered_of_alive hregistered
  cases hx with
  | room | evicting =>
    split
    · rw [hlook]
    · rfl
  | offering r o offer => rw [sh.touch_of_alive (hheld o rfl)]
  | answering r o => rw [sh.touch_of_alive (hheld o rfl)]
  | discarded r o =>
    rw [sh.touch_of_alive (hheld o rfl), Shared.deleteObserver, sh.touch_of_alive (hheld o rfl)]
    rfl
  | video r o pair ret attached =>
    rcases Shared.attachTrack_cases attached with rfl | ⟨src, _, _, rfl⟩ <;> rfl
  | audio r o pair ret ret' attached =>
    rcases Shared.attachTrack_cases attached with rfl | ⟨src, _, _, rfl⟩ <;> rfl
  | gathered r o retry => rw [sh.touch_of_alive (hread o (by simp [Pc.mayRead]))]
  | gathering r o retry => rw [sh.touch_of_alive (hread o (by simp [Pc.mayRead]))]
  | entered caller peerid =>
    have halive : ∀ o, caller = .detached o → (sh.obs o).alive = true := by
      rintro o rfl
      exact hread o (by simp [Pc.mayRead])
    rw [Caller.readMember_alive halive, Caller.logPeerId_alive fun o hcaller _ => halive o hcaller]
  | unknown caller peerid _ | took caller peerid o _ =>
    have halive : ∀ o, caller = .detached o → (sh.obs o).alive = true := by
      rintro o rfl
      exact hread o (by simp [Pc.mayRead])
    rw [Caller.readMember_alive halive]
    try rfl
  | listed caller peerid o => rw [sh.touch_of_alive (hheld o rfl)]
  | inUse | unused => rw [hlook]
  | destroyed caller peerid o =>
    rw [Shared.deleteObserver, sh.touch_of_alive (hheld o rfl)]
    rfl
  | resumed caller peerid result =>
    rw [Caller.logPeerId_alive]
    rintro o rfl hlog
    exact hread o (by cases result <;> simp [Pc.mayRead, hlog])
  | _ => rfl

end Step

/-- Threads that may read an observer find it alive, and no stale read has
happened. Only an observer with a connection gets ICE reports. -/
structure Lifetimes (cfg : Config) (sh : Shared) (threads : List Pc) : Prop where
  owned : Owned sh threads
  readers : ∀ pc ∈ threads, ∀ o, pc.mayRead cfg o = true → (sh.obs o).alive = true
  reporters : ∀ pc ∈ threads, ∀ o, pc.reporter = some o → (sh.obs o).pc.isSome = true
  fresh : sh.staleReads = []

namespace Lifetimes

variable {cfg : Config} {threads : List Pc} {sh sh' : Shared} {pc pc' : Pc}

theorem initial : Lifetimes cfg .initial [] where
  owned := .initial
  readers pc h := by simp at h
  reporters pc h := by simp at h
  fresh := rfl

theorem spawn (h : Lifetimes cfg sh threads) (howned : Owned sh (threads ++ [pc]))
    (hread : ∀ o, pc.mayRead cfg o = true → (sh.obs o).alive = true)
    (hreport : ∀ o, pc.reporter = some o → (sh.obs o).pc.isSome = true) :
    Lifetimes cfg sh (threads ++ [pc]) := by
  refine ⟨howned, fun pcj hj o ho => ?_, fun pcj hj o ho => ?_, h.fresh⟩
  · rcases List.mem_append.mp hj with hj | hj
    · exact h.readers pcj hj o ho
    · have heq : pcj = pc := by simpa using hj
      exact hread o (heq ▸ ho)
  · rcases List.mem_append.mp hj with hj | hj
    · exact h.reporters pcj hj o ho
    · have heq : pcj = pc := by simpa using hj
      exact hreport o (heq ▸ ho)

theorem reader_of_null (h : Lifetimes cfg sh threads) {t j : Nat} {r : Request} {o : ObsId}
    (hpos : threads[t]? = some (.opened r o)) (hnull : (sh.obs o).pc.isNone = true)
    (hj : threads[j]? = some pc) (hread : pc.mayRead cfg o = true) : j = t := by
  have hnodetached : pc.reporter ≠ some o := by
    intro hreport
    have hsome := h.reporters pc (List.mem_of_getElem? hj) o hreport
    rw [Option.isSome_iff_ne_none] at hsome
    exact hsome (by simpa using hnull)
  have hcreating : ∃ r', pc.creating = some (r', o) := by
    cases pc with
    | hangUp caller peerid hp =>
      cases caller with
      | detached o' =>
        have heq : o' = o := by cases hp <;> simp_all [Pc.mayRead]
        exact absurd (congrArg some heq) hnodetached
      | client => cases hread
      | evict r' => cases hread
    | streams r' o' a =>
      simp [Pc.mayRead] at hread
      exact ⟨r', by simp [Pc.creating, hread.2]⟩
    | describe r' o' =>
      simp [Pc.mayRead] at hread
      exact ⟨r', by simp [Pc.creating, hread.2]⟩
    | gather r' o' n =>
      simp [Pc.mayRead] at hread
      exact ⟨r', by simp [Pc.creating, hread]⟩
    | _ => cases hread
  obtain ⟨r', hr'⟩ := hcreating
  exact h.owned.creator j t pc _ r' r o hj hpos hr' rfl

theorem run {t : Nat} {e : Env} (h : Lifetimes cfg sh threads) (hpos : threads[t]? = some pc)
    (hx : Executed cfg e sh pc sh' pc')
    (hok : ∀ caller peerid o, pc = .hangUp caller peerid (.destroy o) →
      ∀ pcj ∈ threads, pcj.mayRead cfg o = false) :
    Lifetimes cfg sh' (threads.set t pc') := by
  have heffect := hx.effect (t := t)
  have hmem := List.mem_of_getElem? hpos
  have hheld : ∀ o, pc.holds = some o → (sh.obs o).alive = true := fun o ho =>
    (h.owned.held t pc o hpos ho).1
  refine ⟨h.owned.effect hpos heffect, fun pcj hj o ho => ?_, fun pcj hj o ho => ?_, ?_⟩
  · obtain ⟨j, hj⟩ := List.mem_iff_getElem?.mp hj
    rcases Transition.get_set hj with ⟨rfl, rfl⟩ | ⟨hne, hj⟩
    · rcases hx.mayRead ho with hread | ⟨r, rfl⟩
      · rcases heffect.alive (h.readers pc hmem o hread) with hkeep | ⟨_, _, rfl⟩ | ⟨_, rfl, _⟩
        · exact hkeep
        · rw [hok _ _ o rfl _ hmem] at hread
          cases hread
        · cases hread
      · rcases heffect.alive (hheld o rfl) with hkeep | ⟨_, _, hpc⟩ | ⟨_, hpc, _⟩
        · exact hkeep
        · cases hpc
        · cases hpc
    · have hmemj := List.mem_of_getElem? hj
      rcases heffect.alive (h.readers pcj hmemj o ho) with hkeep | ⟨_, _, rfl⟩ | ⟨_, rfl, hnull⟩
      · exact hkeep
      · rw [hok _ _ o rfl _ hmemj] at ho
        cases ho
      · exact absurd (h.reader_of_null hpos hnull hj ho) hne
  · rcases Transition.mem_set hj with rfl | hj
    · exact heffect.connected (h.reporters pc hmem o (hx.reporter ho))
    · exact heffect.connected (h.reporters pcj hj o ho)
  · rw [hx.staleReads (fun p o hp => (h.owned.registered p o hp).1) hheld (h.readers pc hmem)]
    exact h.fresh

theorem step {s s' : State} {a : Action} (h : Lifetimes cfg s.shared s.threads)
    (hok : unread cfg s a = true) (hs : WebrtcStreamer.step cfg s a = some s') :
    Lifetimes cfg s'.shared s'.threads := by
  have howned := h.owned.step hs
  cases step_stepped hs with
  | request r => exact h.spawn howned (fun o ho => by cases ho) (fun o ho => by cases ho)
  | hangUp peerid => exact h.spawn howned (fun o ho => by cases ho) (fun o ho => by cases ho)
  | iceClosed o halive hconnected =>
    refine h.spawn howned (fun o' ho' => ?_) (fun o' ho' => ?_)
    · have heq : o = o' := by simpa [Pc.mayRead] using ho'
      exact heq ▸ halive
    · have heq : o = o' := by simpa [Pc.reporter] using ho'
      exact heq ▸ hconnected
  | look os hos =>
    rw [h.owned.look hos]
    exact h
  | crash t e f => exact h
  | run hpos hx =>
    refine h.run hpos hx fun caller peerid o hpc pcj hj => ?_
    subst hpc
    simp only [unread, hpos, List.all_eq_true, Bool.not_eq_true'] at hok
    exact hok pcj hj

end Lifetimes

/-- Where every deletion waits for the threads that may still read, nothing
deleted is ever read. -/
theorem no_stale_read {cfg : Config} {s : State}
    (h : Transition.Reaches (step cfg) (fun s a => unread cfg s a = true) .initial s) :
    s.shared.staleReads = [] :=
  (h.invariant (fun s => Lifetimes cfg s.shared s.threads) .initial
    fun _ _ _ hi hok hs => hi.step hok hs).fresh

/-- A `whep` request gathers to the end, then its peer is hung up and lists are
asked for. -/
theorem no_stale_read_run : ∃ s, Transition.Reaches (step (.plain 0))
    (fun s a => unread (.plain 0) s a = true) .initial s ∧
    Event.destroyed 1 .client 0 ∈ s.trace ∧ s.shared.staleReads = [] := by
  obtain ⟨s, hs, hp⟩ := Transition.exists_reaches_of_run (step (.plain 0))
    (fun s a => unread (.plain 0) s a = true) .initial
    ([Action.request (.plain .whep "a" "rtsp://cam")] ++ runs 0 15 (.fine 7) ++
      [Action.list, .lookup "a", .hangUp "a"] ++ runs 1 8 (.fine 7) ++ [Action.list])
    (fun s => decide (Event.destroyed 1 .client 0 ∈ s.trace)) (by decide +kernel)
  exact ⟨s, hs, by simpa using hp, no_stale_read hs⟩

/-- `getAnswer` of a `whep` request polls the gathering state of an observer
that a client has hung up in the meantime. -/
theorem stale_read_by_polling : ¬ ∀ (cfg : Config) (s : State), Reachable cfg s →
    s.shared.staleReads = [] := by
  intro halways
  obtain ⟨s, hs, hp⟩ := Reachable.of_run (.plain 0)
    ([Action.request (.plain .whep "a" "rtsp://cam")] ++
      runs 0 13 { Env.fine 7 with gathered := false } ++
      [Action.hangUp "a"] ++ runs 1 8 (.fine 7) ++ runs 0 1 (.fine 7))
    (fun s => decide (s.shared.staleReads = [0])) (by decide +kernel)
  have hstale : s.shared.staleReads = [0] := by simpa using hp
  rw [halways _ s hs] at hstale
  cases hstale

/-! ### The target of a detached `hangUp` -/

def Pc.aims : Pc → Option ObsId
  | .hangUp (.detached o) _ .enter | .hangUp (.detached o) _ .take => some o
  | _ => none

/-- The observer that a detached `hangUp` has taken out, after the one that reported. -/
def Pc.hits : Pc → Option (ObsId × ObsId)
  | .hangUp (.detached o) _ (.senders o') | .hangUp (.detached o) _ (.scan o' _)
  | .hangUp (.detached o) _ (.close o' _ _) | .hangUp (.detached o) _ (.destroy o') => some (o, o')
  | _ => none

/-- An ICE report comes from an observer whose peerid is its own or free. While the
detached `hangUp` has not looked into the map, a free peerid of the observer is not
registered anew, and the observer is not deleted. -/
def onTarget (s : State) : Action → Bool
  | .iceClosed o => (s.shared.peerConnectionObsMap[(s.shared.obs o).peerid]?).all (· = o)
  | .run t _ =>
    match s.threads[t]? with
    | some (.register r o) =>
      decide (r.peerid ∈ s.shared.peerConnectionObsMap) || s.threads.all fun pc =>
        pc.aims.all fun o' => (s.shared.obs o').peerid ≠ r.peerid || o' = o
    | some (.hangUp _ _ (.destroy o)) => s.threads.all fun pc => pc.aims ≠ some o
    | _ => true
  | _ => true

def Event.ownTarget : Event → Bool
  | .tookOut _ (.detached o) _ o' | .destroyed _ (.detached o) o' => o' = o
  | _ => true

section Step

variable {cfg : Config} {t : Tid} {e : Env} {sh sh' : Shared} {pc pc' : Pc}

theorem Executed.aims (hx : Executed cfg e sh pc sh' pc') {o : ObsId}
    (h : pc'.aims = some o) : pc.aims = some o := by
  cases hx with
  | registered r o => split at h <;> cases h
  | audio r o pair ret ret' _ =>
    rw [apply_afterStreams Pc.aims r o (ret || ret') rfl rfl rfl] at h
    cases h
  | described r o _ => split at h <;> cases h
  | resumed caller => cases caller <;> cases h
  | entered caller => cases caller <;> exact h
  | unknown caller | took caller | listed caller | scanned caller | unlabelled caller
  | inUse caller | unused caller | closed caller | destroyed caller => cases caller <;> cases h
  | _ => cases h

theorem Executed.hits (hx : Executed cfg e sh pc sh' pc') {o o' : ObsId}
    (h : pc'.hits = some (o, o')) : pc.hits = some (o, o') ∨ pc.aims = some o ∧
      sh.peerConnectionObsMap[Caller.target e sh "" (.detached o)]? = some o' := by
  cases hx with
  | registered r o => split at h <;> cases h
  | audio r o pair ret ret' _ =>
    rw [apply_afterStreams Pc.hits r o (ret || ret') rfl rfl rfl] at h
    cases h
  | described r o _ => split at h <;> cases h
  | resumed caller => cases caller <;> cases h
  | took caller peerid o₁ present =>
    cases caller with
    | detached o₂ =>
      cases h
      exact .inr ⟨rfl, present⟩
    | client => cases h
    | evict r => cases h
  | entered caller | unknown caller | destroyed caller => cases caller <;> cases h
  | listed caller | scanned caller | unlabelled caller | inUse caller | unused caller
  | closed caller => cases caller <;> exact .inl h
  | _ => cases h

end Step

/-- A detached `hangUp` will read the peerid of the observer that reported, and find
that observer under it or none. -/
structure AimsAt (sh : Shared) (o : ObsId) : Prop where
  alive : (sh.obs o).alive = true
  connected : (sh.obs o).pc.isSome = true
  found : ∀ o', sh.peerConnectionObsMap[(sh.obs o).peerid]? = some o' → o' = o

structure Aimed (sh : Shared) (threads : List Pc) (trace : List Event) : Prop where
  aims : ∀ pc ∈ threads, ∀ o, pc.aims = some o → AimsAt sh o
  hits : ∀ pc ∈ threads, ∀ o o', pc.hits = some (o, o') → o' = o
  events : ∀ ev ∈ trace, ev.ownTarget = true

theorem AimsAt.target {sh : Shared} {o o' : ObsId} (h : AimsAt sh o) {e : Env} {peerid : PeerId}
    (hfound : sh.peerConnectionObsMap[Caller.target e sh peerid (.detached o)]? = some o') :
    o' = o := by
  rw [Caller.target, if_pos h.alive] at hfound
  exact h.found o' hfound

/-- What keeps an observer the target: it is not deleted, and its free peerid is not
registered for another one. -/
theorem AimsAt.effect {cfg : Config} {t : Tid} {e : Env} {sh sh' : Shared} {pc pc' : Pc} {o : ObsId}
    (h : AimsAt sh o) (hx : Effect cfg e t sh pc sh' pc')
    (hkept : ∀ caller peerid, pc ≠ .hangUp caller peerid (.destroy o))
    (hfree : ∀ r o', pc = .register r o' → r.peerid ∉ sh.peerConnectionObsMap →
      (sh.obs o).peerid = r.peerid → o' = o) : AimsAt sh' o where
  alive := by
    rcases hx.alive h.alive with halive | ⟨caller, peerid, hpc⟩ | ⟨r, _, hnull⟩
    · exact halive
    · exact absurd hpc (hkept caller peerid)
    · have hsome := h.connected
      rw [Option.isNone_iff_eq_none.mp hnull] at hsome
      cases hsome
  connected := hx.connected h.connected
  found := by
    intro o' hfound
    rw [hx.peerid (Shared.obs_lt_of_alive h.alive)] at hfound
    cases hx with
    | keep same => exact h.found o' (same.map ▸ hfound)
    | construct => exact h.found o' hfound
    | register r o₁ =>
      rcases Shared.registerPeer_lookup hfound with hold | ⟨hnew, hid, rfl⟩
      · exact h.found o' hold
      · exact hfree r o' rfl hnew hid
    | take caller p o₁ =>
      have hold := (Shared.erasePeer_lookup hfound).2
      rw [(SameOwners.readMember caller sh).map] at hold
      exact h.found o' hold
    | delete o₁ same =>
      rw [Shared.deleteObserver_peerConnectionObsMap, same.map] at hfound
      exact h.found o' hfound

namespace Aimed

variable {cfg : Config} {threads : List Pc} {trace : List Event} {sh sh' : Shared} {pc pc' : Pc}
  {e : Env}

theorem initial : Aimed .initial [] [] where
  aims pc h := by simp at h
  hits pc h := by simp at h
  events ev h := by simp at h

theorem spawn (h : Aimed sh threads trace) (hhits : pc.hits = none)
    (haims : ∀ o, pc.aims = some o → AimsAt sh o) : Aimed sh (threads ++ [pc]) trace := by
  refine ⟨fun pcj hj => ?_, fun pcj hj => ?_, h.events⟩
  · rcases List.mem_append.mp hj with hj | hj
    · exact h.aims pcj hj
    · have heq : pcj = pc := by simpa using hj
      exact heq ▸ haims
  · rcases List.mem_append.mp hj with hj | hj
    · exact h.hits pcj hj
    · have heq : pcj = pc := by simpa using hj
      simp [heq, hhits]

theorem emitted (h : Aimed sh threads trace) {t : Tid} {ev : Event} (hmem : pc ∈ threads)
    (hev : Emitted cfg e t sh pc ev) : ev.ownTarget = true := by
  cases hev with
  | tookOut caller peerid o' present =>
    cases caller with
    | detached o => simpa [Event.ownTarget] using (h.aims _ hmem o rfl).target present
    | client => rfl
    | evict r => rfl
  | destroyed caller peerid o' =>
    cases caller with
    | detached o => simpa [Event.ownTarget] using h.hits _ hmem o o' rfl
    | client => rfl
    | evict r => rfl
  | discarded | inserted | answered | stored | closed => rfl

theorem run {t : Nat} (h : Aimed sh threads trace) (hpos : threads[t]? = some pc)
    (hx : Executed cfg e sh pc sh' pc')
    (hkept : ∀ caller peerid o, pc = .hangUp caller peerid (.destroy o) →
      ∀ pcj ∈ threads, pcj.aims ≠ some o)
    (hfree : ∀ r o, pc = .register r o → r.peerid ∉ sh.peerConnectionObsMap →
      ∀ pcj ∈ threads, ∀ o', pcj.aims = some o' → (sh.obs o').peerid = r.peerid → o' = o) :
    Aimed sh' (threads.set t pc') (WebrtcStreamer.events cfg e t sh pc ++ trace) := by
  have hmem := List.mem_of_getElem? hpos
  have hbefore : ∀ pcj ∈ threads.set t pc', ∀ o, pcj.aims = some o →
      ∃ pc₀ ∈ threads, pc₀.aims = some o := by
    intro pcj hj o haim
    rcases Transition.mem_set hj with rfl | hj
    · exact ⟨pc, hmem, hx.aims haim⟩
    · exact ⟨pcj, hj, haim⟩
  refine ⟨fun pcj hj o haim => ?_, fun pcj hj o o' hhit => ?_, fun ev hev => ?_⟩
  · obtain ⟨pc₀, hj₀, haim₀⟩ := hbefore pcj hj o haim
    refine (h.aims pc₀ hj₀ o haim₀).effect (hx.effect (t := t)) ?_ ?_
    · intro caller peerid hpc
      exact hkept caller peerid o hpc pc₀ hj₀ haim₀
    · intro r o' hpc hnew hid
      exact (hfree r o' hpc hnew pc₀ hj₀ o haim₀ hid).symm
  · rcases Transition.mem_set hj with rfl | hj
    · rcases hx.hits hhit with hold | ⟨haim, hfound⟩
      · exact h.hits pc hmem o o' hold
      · exact (h.aims pc hmem o haim).target hfound
    · exact h.hits pcj hj o o' hhit
  · rcases List.mem_append.mp hev with hev | hev
    · exact h.emitted hmem (emitted_of_mem hev)
    · exact h.events ev hev

theorem step {s s' : State} {a : Action} (h : Aimed s.shared s.threads s.trace)
    (howned : Owned s.shared s.threads) (hok : onTarget s a = true)
    (hs : WebrtcStreamer.step cfg s a = some s') : Aimed s'.shared s'.threads s'.trace := by
  cases step_stepped hs with
  | request r => exact h.spawn rfl fun _ haim => by cases haim
  | hangUp peerid => exact h.spawn rfl fun _ haim => by cases haim
  | iceClosed o halive hconnected =>
    refine h.spawn rfl fun o' haim => ?_
    cases haim
    exact ⟨halive, hconnected, fun o₁ hfound => by simpa [onTarget, hfound] using hok⟩
  | look os hos =>
    rw [howned.look hos]
    exact h
  | crash t e f => exact h
  | run hpos hx =>
    refine h.run hpos hx (fun caller peerid o hpc pcj hj haim => ?_)
      fun r o hpc hnew pcj hj o' haim hid => ?_
    · subst hpc
      simp only [onTarget, hpos, List.all_eq_true, decide_eq_true_eq] at hok
      exact hok pcj hj haim
    · subst hpc
      simp only [onTarget, hpos, Bool.or_eq_true, decide_eq_true_eq, hnew, false_or,
        List.all_eq_true] at hok
      have hall := hok pcj hj
      rw [haim] at hall
      simpa [hid] using hall

end Aimed

/-- Where each ICE report and each registration finds the peerid in order, and the
observer that has reported lives until its thread has looked into the map, the `hangUp`
of a detached thread removes and deletes its own observer only. -/
theorem iceClosed_own_target {cfg : Config} {s : State}
    (h : Transition.Reaches (step cfg) (fun s a => onTarget s a = true) .initial s) :
    (∀ t o peerid o', Event.tookOut t (.detached o) peerid o' ∈ s.trace → o' = o) ∧
      ∀ t o o', Event.destroyed t (.detached o) o' ∈ s.trace → o' = o := by
  have hboth := h.invariant
    (fun s => Owned s.shared s.threads ∧ Aimed s.shared s.threads s.trace) ⟨.initial, .initial⟩
    fun _ _ _ hi hok hs => ⟨hi.1.step hs, hi.2.step hi.1 hok hs⟩
  refine ⟨fun t o peerid o' hev => ?_, fun t o o' hev => ?_⟩
  · simpa [Event.ownTarget] using hboth.2.events _ hev
  · simpa [Event.ownTarget] using hboth.2.events _ hev

theorem iceClosed_own_target_run : ∃ s, Transition.Reaches (step (.plain 0))
    (fun s a => onTarget s a = true) .initial s ∧
    Event.destroyed 1 (.detached 0) 0 ∈ s.trace ∧ Event.inserted "a" 1 ∈ s.trace ∧
    ∀ t o o', Event.destroyed t (.detached o) o' ∈ s.trace → o' = o := by
  obtain ⟨s, hs, hp⟩ := Transition.exists_reaches_of_run (step (.plain 0))
    (fun s a => onTarget s a = true) .initial
    ([Action.request (.plain .call "a" "rtsp://cam")] ++ runs 0 5 (.fine 7) ++
      [Action.iceClosed 0] ++ runs 1 5 (.fine 7) ++
      [Action.request (.plain .call "a" "rtsp://cam")] ++ runs 2 5 (.fine 7))
    (fun s => decide (Event.destroyed 1 (.detached 0) 0 ∈ s.trace) &&
      decide (Event.inserted "a" 1 ∈ s.trace)) (by decide +kernel)
  simp only [Bool.and_eq_true, decide_eq_true_eq] at hp
  exact ⟨s, hs, hp.1, hp.2, (iceClosed_own_target hs).2⟩

/-- The second call with one peerid is never registered; when its ICE fails,
the first call is hung up. -/
theorem iceClosed_hits_namesake : ¬ ∀ (cfg : Config) (s : State), Reachable cfg s →
    (∀ t o peerid o', Event.tookOut t (.detached o) peerid o' ∈ s.trace → o' = o) ∧
      ∀ t o o', Event.destroyed t (.detached o) o' ∈ s.trace → o' = o := by
  intro halways
  obtain ⟨s, hs, hp⟩ := Reachable.of_run (.plain 0)
    ([Action.request (.plain .call "a" "rtsp://cam")] ++ runs 0 5 (.fine 7) ++
      [Action.request (.plain .call "a" "rtsp://cam")] ++ runs 1 5 (.fine 7) ++
      [Action.iceClosed 1] ++
      runs 2 5 (.fine 7))
    (fun s => decide (Event.destroyed 2 (.detached 1) 0 ∈ s.trace)) (by decide +kernel)
  have hdestroyed : Event.destroyed 2 (.detached 1) 0 ∈ s.trace := by simpa using hp
  cases (halways _ s hs).2 2 1 0 hdestroyed

end WebrtcStreamer
