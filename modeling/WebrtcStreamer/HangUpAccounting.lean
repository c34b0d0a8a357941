import WebrtcStreamer.Ownership

/-! Hangup accounting: the insertions, the entries taken out, the deletions and
the answers of every run balance. -/

set_option autoImplicit false

namespace WebrtcStreamer

/-- The insertions into and the removals from the peer map, newest first. -/
def peerHistory (trace : List Event) : List (Ledger.Entry PeerId ObsId) :=
  trace.filterMap Event.peerEntry

def deletions (trace : List Event) : List ObsId := trace.filterMap Event.deletion

/-- The trace accounts for the peer map and for the observers deleted so far. -/
structure Accounts (sh : Shared) (threads : List Pc) (trace : List Event) : Prop where
  history : Ledger.Valid (peerHistory trace) fun p => sh.peerConnectionObsMap[p]?
  listed : ∀ o : Nat, o ∈ Ledger.stored (peerHistory trace) →
    o < sh.observers.length ∧ ∀ pc ∈ threads, pc.unregistered ≠ some o
  once : (Ledger.stored (peerHistory trace)).Nodup
  dead : ∀ o : Nat, o ∈ deletions trace → o < sh.observers.length ∧ (sh.obs o).alive = false
  deletedOnce : (deletions trace).Nodup

namespace Accounts

variable {cfg : Config} {t : Tid} {e : Env} {sh sh' : Shared} {threads : List Pc}
  {trace : List Event} {pc pc' : Pc}

theorem initial : Accounts .initial [] [] where
  history := by simpa [peerHistory, Shared.initial] using Ledger.Valid.nil
  listed o h := by simp [peerHistory, Ledger.stored] at h
  once := by simp [peerHistory, Ledger.stored]
  dead o h := by simp [deletions] at h
  deletedOnce := by simp [deletions]

theorem spawn (h : Accounts sh threads trace) (hholds : pc.holds = none) :
    Accounts sh (threads ++ [pc]) trace := by
  refine ⟨h.history, fun o ho => ?_, h.once, h.dead, h.deletedOnce⟩
  obtain ⟨hlt, hnone⟩ := h.listed o ho
  refine ⟨hlt, fun pcj hj hun => ?_⟩
  rcases List.mem_append.mp hj with hj | hj
  · exact hnone pcj hj hun
  · have heq : pcj = pc := by simpa using hj
    have hsome := Pc.holds_of_unregistered hun
    rw [heq, hholds] at hsome
    cases hsome

theorem congr (h : Accounts sh threads trace) (same : SameOwners sh sh') :
    Accounts sh' threads trace := by
  refine ⟨?_, fun o ho => ?_, h.once, fun o ho => ?_, h.deletedOnce⟩
  · rw [same.map]
    exact h.history
  · rw [same.length]
    exact h.listed o ho
  · rw [same.length, (same.obs o).1]
    exact h.dead o ho

theorem shrink (h : Accounts sh threads trace) (hpos : threads[t]? = some pc)
    (hun : ∀ o, pc'.unregistered = some o → pc.unregistered = some o) :
    Accounts sh (threads.set t pc') trace := by
  refine ⟨h.history, fun o ho => ?_, h.once, h.dead, h.deletedOnce⟩
  obtain ⟨hlt, hnone⟩ := h.listed o ho
  refine ⟨hlt, fun pcj hj hunj => ?_⟩
  rcases Transition.mem_set hj with rfl | hj
  · exact hnone pc (List.mem_of_getElem? hpos) (hun o hunj)
  · exact hnone pcj hj hunj

theorem silent {es : List Event} (h : Accounts sh threads trace)
    (hentries : es.filterMap Event.peerEntry = []) (hdeletions : es.filterMap Event.deletion = []) :
    Accounts sh threads (es ++ trace) := by
  have hh : peerHistory (es ++ trace) = peerHistory trace := by
    simp [peerHistory, List.filterMap_append, hentries]
  have hd : deletions (es ++ trace) = deletions trace := by
    simp [deletions, List.filterMap_append, hdeletions]
  refine ⟨?_, ?_, ?_, ?_, ?_⟩
  · rw [hh]
    exact h.history
  · rw [hh]
    exact h.listed
  · rw [hh]
    exact h.once
  · rw [hd]
    exact h.dead
  · rw [hd]
    exact h.deletedOnce

theorem construct {r : Request} (h : Accounts sh threads trace) (connected : Bool) (time : UInt64) :
    Accounts (sh.construct r.peerid connected time)
      (threads.set t (.opened r sh.observers.length)) trace := by
  have hlen := sh.construct_length r.peerid connected time
  refine ⟨h.history, fun o ho => ?_, h.once, fun o ho => ?_, h.deletedOnce⟩
  · obtain ⟨hlt, hnone⟩ := h.listed o ho
    refine ⟨by omega, fun pcj hj hun => ?_⟩
    rcases Transition.mem_set hj with rfl | hj
    · cases hun
      omega
    · exact hnone pcj hj hun
  · obtain ⟨hlt, hdead⟩ := h.dead o ho
    refine ⟨by omega, ?_⟩
    rw [Shared.construct_obs, if_neg (by omega)]
    exact hdead

theorem register {r : Request} {o : ObsId} (h : Accounts sh threads trace)
    (howned : Owned sh threads) (hpos : threads[t]? = some (.register r o))
    (hholds : pc'.holds = none) :
    Accounts (sh.registerPeer r.peerid o) (threads.set t pc')
      (events cfg e t sh (.register r o) ++ trace) := by
  have hun : ∀ o', pc'.unregistered = some o' → (Pc.register r o).unregistered = some o' :=
    fun o' hun => absurd (Pc.holds_of_unregistered hun) (by simp [hholds])
  have hkeep := h.shrink hpos hun
  by_cases hmem : r.peerid ∈ sh.peerConnectionObsMap
  · refine ⟨?_, ?_, ?_, ?_, ?_⟩
    · rw [Shared.registerPeer_old o hmem]
      simpa [events, hmem] using hkeep.history
    · simpa [events, hmem] using hkeep.listed
    · simpa [events, hmem] using hkeep.once
    · simpa [events, hmem] using h.dead
    · simpa [events, hmem] using hkeep.deletedOnce
  · have hnone : sh.peerConnectionObsMap[r.peerid]? = none := by
      simpa using hmem
    have hevents : events cfg e t sh (.register r o) = [.inserted r.peerid o] := by
      simp [events, hmem]
    have hhist : peerHistory (events cfg e t sh (.register r o) ++ trace) =
        .put r.peerid o :: peerHistory trace := by
      rw [hevents]
      rfl
    have hdel : deletions (events cfg e t sh (.register r o) ++ trace) = deletions trace := by
      rw [hevents]
      rfl
    have hlive := howned.held t _ o hpos rfl
    have hnew : o ∉ Ledger.stored (peerHistory trace) := fun hin =>
      (h.listed o hin).2 _ (List.mem_of_getElem? hpos) rfl
    refine ⟨?_, ?_, ?_, ?_, ?_⟩
    · rw [hhist, Shared.registerPeer_new o hnone]
      exact .put h.history hnone
    · rw [hhist]
      intro o' ho'
      rcases List.mem_cons.mp ho' with rfl | ho'
      · refine ⟨Shared.obs_lt_of_alive hlive.1, fun pcj hj hunj => ?_⟩
        obtain ⟨j, hj⟩ := List.mem_iff_getElem?.mp hj
        rcases Transition.get_set hj with ⟨_, rfl⟩ | ⟨hne, hj⟩
        · have hsome := Pc.holds_of_unregistered hunj
          rw [hholds] at hsome
          cases hsome
        · exact hne (howned.sole j t pcj _ _ hj hpos (Pc.holds_of_unregistered hunj) rfl)
      · exact hkeep.listed o' ho'
    · rw [hhist]
      exact List.nodup_cons.mpr ⟨hnew, h.once⟩
    · rw [hdel]
      exact h.dead
    · rw [hdel]
      exact h.deletedOnce

theorem take {caller : Caller} {given peerid : PeerId} {o : ObsId} (h : Accounts sh threads trace)
    (hpos : threads[t]? = some (.hangUp caller given .take))
    (hfound : sh.peerConnectionObsMap[peerid]? = some o) :
    Accounts (sh.erasePeer peerid) (threads.set t (.hangUp caller peerid (.senders o)))
      (.tookOut t caller peerid o :: trace) := by
  have hun : ∀ o', (Pc.hangUp caller peerid (.senders o)).unregistered = some o' →
      (Pc.hangUp caller given .take).unregistered = some o' := fun o' hun => by cases hun
  have hkeep := h.shrink hpos hun
  refine ⟨?_, hkeep.listed, hkeep.once, hkeep.dead, hkeep.deletedOnce⟩
  rw [Shared.erasePeer_update]
  exact .take h.history hfound

theorem delete {o : ObsId} {es : List Event} (h : Accounts sh threads trace)
    (howned : Owned sh threads) (hpos : threads[t]? = some pc) (hholds : pc.holds = some o)
    (hholds' : pc'.holds = none) (hentries : es.filterMap Event.peerEntry = [])
    (hdeletions : es.filterMap Event.deletion = [o]) :
    Accounts (sh.deleteObserver o) (threads.set t pc') (es ++ trace) := by
  have hhist : peerHistory (es ++ trace) = peerHistory trace := by
    simp [peerHistory, List.filterMap_append, hentries]
  have hdel : deletions (es ++ trace) = o :: deletions trace := by
    simp [deletions, List.filterMap_append, hdeletions]
  have hlen := sh.deleteObserver_length o
  have hmap := sh.deleteObserver_peerConnectionObsMap o
  have hlive := (howned.held t pc o hpos hholds).1
  have hun : ∀ o', pc'.unregistered = some o' → pc.unregistered = some o' :=
    fun o' hun => absurd (Pc.holds_of_unregistered hun) (by simp [hholds'])
  have hkeep := h.shrink hpos hun
  refine ⟨?_, ?_, ?_, ?_, ?_⟩
  · rw [hhist, hmap]
    exact h.history
  · rw [hhist, hlen]
    exact hkeep.listed
  · rw [hhist]
    exact h.once
  · rw [hdel, hlen]
    intro o' ho'
    rw [Shared.deleteObserver_obs]
    rcases List.mem_cons.mp ho' with rfl | ho'
    · exact ⟨Shared.obs_lt_of_alive hlive, by simp⟩
    · obtain ⟨hlt, hdead⟩ := h.dead o' ho'
      refine ⟨hlt, ?_⟩
      split <;> simp [hdead]
  · rw [hdel]
    refine List.nodup_cons.mpr ⟨fun hin => ?_, h.deletedOnce⟩
    have hdead := (h.dead o hin).2
    rw [hlive] at hdead
    cases hdead

theorem effect (h : Accounts sh threads trace) (howned : Owned sh threads)
    (hpos : threads[t]? = some pc) (heffect : Effect cfg e t sh pc sh' pc') :
    Accounts sh' (threads.set t pc') (events cfg e t sh pc ++ trace) := by
  cases heffect with
  | keep same holds creating entries deletions =>
    have hun : ∀ o, pc'.unregistered = some o → pc.unregistered = some o := by
      intro o hun
      obtain ⟨hhold, r, hcreate⟩ := Pc.unregistered_iff.mp hun
      exact Pc.unregistered_iff.mpr ⟨holds o hhold, r, creating _ hcreate⟩
    exact ((h.shrink hpos hun).congr same).silent entries deletions
  | construct r connected time => exact h.construct connected time
  | register r o holds creating => exact h.register howned hpos holds
  | take caller peerid o found =>
    have hread := SameOwners.readMember caller sh
    have htake := (h.congr hread).take hpos (by rw [hread.map]; exact found)
    simpa [events, found] using htake
  | delete o same holds holds' creating entries deletions _ =>
    exact (h.congr same).delete (howned.congr same) hpos holds holds' entries deletions

theorem step {s s' : State} {a : Action} (h : Accounts s.shared s.threads s.trace)
    (howned : Owned s.shared s.threads) (hs : WebrtcStreamer.step cfg s a = some s') :
    Accounts s'.shared s'.threads s'.trace := by
  cases step_stepped hs with
  | request r => exact h.spawn rfl
  | hangUp peerid => exact h.spawn rfl
  | iceClosed o _ _ => exact h.spawn rfl
  | look os hos =>
    rw [howned.look hos]
    exact h
  | crash t e f => exact h
  | run hpos hx => exact h.effect howned hpos hx.effect

end Accounts

/-! ### The log of one execution of `hangUp`

A thread executes `hangUp` at most once, so its events name the execution. -/

def Event.ofHangUp (t : Tid) : Event → Bool
  | .tookOut t' _ _ _ | .destroyed t' _ _ | .answered t' _ _ => t' = t
  | _ => false

/-- The log of a thread that is through with its `hangUp`, or executes none. -/
inductive Settled (t : Tid) : List Event → Prop where
  | unused : Settled t []
  | refused (peerid : PeerId) : Settled t [.answered t peerid false]
  | hungUp (caller : Caller) (peerid : PeerId) (o : ObsId) :
      Settled t [.answered t peerid true, .destroyed t caller o, .tookOut t caller peerid o]

def Pc.HangLog (t : Tid) : Pc → List Event → Prop
  | .accept _, log | .oldest _, log | .hangUp _ _ .enter, log | .hangUp _ _ .take, log
  | .hangUp _ _ (.answer false), log => log = []
  | .hangUp caller peerid (.senders o), log | .hangUp caller peerid (.scan o _), log
  | .hangUp caller peerid (.close o _ _), log | .hangUp caller peerid (.destroy o), log =>
    log = [.tookOut t caller peerid o]
  | .hangUp caller peerid (.answer true), log =>
    ∃ o, log = [.destroyed t caller o, .tookOut t caller peerid o]
  | _, log => Settled t log

def Pc.afterHangUp : Pc → Bool
  | .accept _ | .oldest _ | .hangUp _ _ _ => false
  | _ => true

theorem Pc.hangLog_of_after {pc : Pc} {t : Tid} {log : List Event} (h : pc.afterHangUp = true) :
    pc.HangLog t log ↔ Settled t log := by
  cases pc <;> simp [Pc.afterHangUp] at h <;> rfl

section HangLog

variable {cfg : Config} {t : Tid} {e : Env} {sh sh' : Shared} {pc pc' : Pc} {log : List Event}

theorem Executed.after (hx : Executed cfg e sh pc sh' pc') (h : pc.afterHangUp = true) :
    pc'.afterHangUp = true ∧ (events cfg e t sh pc).filter (Event.ofHangUp t) = [] := by
  cases hx with
  | accepted | refused | room | evicting | entered | unknown | took | listed | scanned |
      unlabelled | inUse | unused | closed | destroyed | resumed => cases h
  | constructed | unavailable | setup | found | missing | created | lost | locked | video |
      gathered | gathering | replied => exact ⟨rfl, rfl⟩
  | offering | discarded | answering | stored =>
    refine ⟨rfl, ?_⟩
    simp only [events]
    split <;> rfl
  | registered r o =>
    refine ⟨by split <;> rfl, ?_⟩
    simp only [events]
    split <;> rfl
  | audio r o pair ret ret' _ =>
    exact ⟨apply_afterStreams Pc.afterHangUp r o (ret || ret') rfl rfl rfl, rfl⟩
  | described r o _ => exact ⟨by split <;> rfl, rfl⟩

theorem Executed.hangLog (hx : Executed cfg e sh pc sh' pc') (hlog : pc.HangLog t log) :
    pc'.HangLog t ((events cfg e t sh pc).filter (Event.ofHangUp t) ++ log) := by
  by_cases hafter : pc.afterHangUp = true
  · obtain ⟨hafter', hnone⟩ := hx.after hafter
    rw [hnone, List.nil_append, Pc.hangLog_of_after hafter']
    exact (Pc.hangLog_of_after hafter).mp hlog
  · cases hx with
    | accepted | evicting | entered | listed | scanned | unlabelled | inUse | unused => exact hlog
    | refused | room =>
      have hempty : log = [] := hlog
      subst hempty
      exact .unused
    | unknown caller peerid absent => simpa [events, absent, Pc.HangLog] using hlog
    | took caller peerid o present =>
      simpa [events, present, Pc.HangLog, Event.ofHangUp] using hlog
    | closed caller peerid o l rest _ =>
      simp only [events]
      split <;> exact hlog
    | destroyed caller peerid o =>
      have htook : log = [.tookOut t caller peerid o] := hlog
      exact ⟨o, by simp [events, Event.ofHangUp, htook]⟩
    | resumed caller peerid result =>
      have hsettled : Settled t (Event.answered t peerid result :: log) := by
        cases result with
        | false =>
          have hempty : log = [] := hlog
          rw [hempty]
          exact .refused peerid
        | true =>
          obtain ⟨o, hdone⟩ := hlog
          rw [hdone]
          exact .hungUp caller peerid o
      have hevents : (events cfg e t sh (.hangUp caller peerid (.answer result))).filter
          (Event.ofHangUp t) ++ log = Event.answered t peerid result :: log := by
        simp [events, Event.ofHangUp]
      rw [hevents]
      cases caller <;> exact hsettled
    | _ => exact absurd rfl hafter

theorem events_other {t' : Tid} (hne : t' ≠ t) :
    (events cfg e t sh pc).filter (Event.ofHangUp t') = [] := by
  rw [List.filter_eq_nil_iff]
  intro ev hev
  cases emitted_of_mem hev <;> simp [Event.ofHangUp, Ne.symm hne]

end HangLog

structure Logged (threads : List Pc) (trace : List Event) : Prop where
  fits : ∀ (t : Nat) (pc : Pc), threads[t]? = some pc →
    pc.HangLog t (trace.filter (Event.ofHangUp t))
  absent : ∀ t : Nat, threads.length ≤ t → trace.filter (Event.ofHangUp t) = []

namespace Logged

variable {cfg : Config} {threads : List Pc} {trace : List Event} {pc : Pc}

theorem initial : Logged [] [] := ⟨fun t pc h => by simp at h, fun _ _ => rfl⟩

theorem spawn (h : Logged threads trace) (hfirst : ∀ t, pc.HangLog t []) :
    Logged (threads ++ [pc]) trace := by
  refine ⟨fun j pcj hj => ?_, fun j hj => ?_⟩
  · rcases Transition.get_push hj with hj | ⟨rfl, rfl⟩
    · exact h.fits j pcj hj
    · rw [h.absent _ (Nat.le_refl _)]
      exact hfirst _
  · rw [List.length_append, List.length_singleton] at hj
    exact h.absent j (by omega)

theorem run {t : Nat} {e : Env} {sh sh' : Shared} {pc' : Pc} (h : Logged threads trace)
    (hpos : threads[t]? = some pc) (hx : Executed cfg e sh pc sh' pc') :
    Logged (threads.set t pc') (events cfg e t sh pc ++ trace) := by
  obtain ⟨hlt, _⟩ := List.getElem?_eq_some_iff.mp hpos
  refine ⟨fun j pcj hj => ?_, fun j hj => ?_⟩
  · rw [List.filter_append]
    rcases Transition.get_set hj with ⟨rfl, rfl⟩ | ⟨hne, hj⟩
    · exact hx.hangLog (h.fits j pc hpos)
    · rw [events_other hne, List.nil_append]
      exact h.fits j pcj hj
  · rw [List.length_set] at hj
    have hne : j ≠ t := by omega
    rw [List.filter_append, events_other hne, List.nil_append]
    exact h.absent j hj

theorem step {s s' : State} {a : Action} (h : Logged s.threads s.trace)
    (hs : WebrtcStreamer.step cfg s a = some s') : Logged s'.threads s'.trace := by
  cases step_stepped hs with
  | request r => exact h.spawn fun _ => rfl
  | hangUp peerid => exact h.spawn fun _ => rfl
  | iceClosed o _ _ => exact h.spawn fun _ => rfl
  | look os _ => exact h
  | crash t e f => exact h
  | run hpos hx => exact h.run hpos hx

end Logged

theorem Reachable.accounts {cfg : Config} {s : State} (h : Reachable cfg s) :
    Accounts s.shared s.threads s.trace := by
  have hboth := h.invariant
    (fun s => Owned s.shared s.threads ∧ Accounts s.shared s.threads s.trace)
    ⟨.initial, .initial⟩ fun _ _ _ hi _ hs => ⟨hi.1.step hs, hi.2.step hi.1 hs⟩
  exact hboth.2

theorem Reachable.logged {cfg : Config} {s : State} (h : Reachable cfg s) :
    Logged s.threads s.trace :=
  h.invariant (fun s => Logged s.threads s.trace) .initial fun _ _ _ hi _ hs => hi.step hs

/-! ### The accounts of a run -/

def Event.insertsAt (peerid : PeerId) : Event → Bool
  | .inserted p _ => p = peerid
  | _ => false

def Event.takesAt (peerid : PeerId) : Event → Bool
  | .tookOut _ _ p _ => p = peerid
  | _ => false

def takenOut (trace : List Event) : List ObsId := trace.filterMap fun
  | .tookOut _ _ _ o => some o
  | _ => none

def Event.tookBy (t : Tid) : Event → Bool
  | .tookOut t' _ _ _ => t' = t
  | _ => false

def Event.answeredBy (t : Tid) : Event → Bool
  | .answered t' _ _ => t' = t
  | _ => false

theorem peerHistory_counts (trace : List Event) (p : PeerId) :
    (peerHistory trace).countP (Ledger.Entry.putAt p) = trace.countP (Event.insertsAt p) ∧
      (peerHistory trace).countP (Ledger.Entry.takeAt p) = trace.countP (Event.takesAt p) ∧
      Ledger.taken (peerHistory trace) = takenOut trace := by
  induction trace with
  | nil => exact ⟨rfl, rfl, rfl⟩
  | cons ev trace ih =>
    obtain ⟨hput, htake, htaken⟩ := ih
    cases ev with
    | inserted p' o =>
      have hh : peerHistory (.inserted p' o :: trace) = .put p' o :: peerHistory trace := rfl
      refine ⟨?_, ?_, htaken⟩
      · simp [hh, List.countP_cons, hput, Ledger.Entry.putAt, Event.insertsAt]
      · simp [hh, htake, Ledger.Entry.takeAt, Event.takesAt]
    | tookOut t caller p' o =>
      have hh : peerHistory (.tookOut t caller p' o :: trace) =
        .take p' o :: peerHistory trace := rfl
      refine ⟨?_, ?_, ?_⟩
      · simp [hh, hput, Ledger.Entry.putAt, Event.insertsAt]
      · simp [hh, List.countP_cons, htake, Ledger.Entry.takeAt, Event.takesAt]
      · rw [hh]
        exact congrArg (o :: ·) htaken
    | destroyed | discarded | answered | stored | closed => exact ⟨hput, htake, htaken⟩

theorem Pc.HangLog.atMostOnce {t : Tid} {pc : Pc} {log : List Event} (h : pc.HangLog t log) :
    log.countP (Event.tookBy t) ≤ 1 ∧ log.countP (Event.answeredBy t) ≤ 1 := by
  have hsettled : ∀ {log : List Event}, Settled t log →
      log.countP (Event.tookBy t) ≤ 1 ∧ log.countP (Event.answeredBy t) ≤ 1 := by
    intro log hs
    cases hs <;> simp [Event.tookBy, Event.answeredBy]
  by_cases hafter : pc.afterHangUp = true
  · exact hsettled ((Pc.hangLog_of_after hafter).mp h)
  · cases pc with
    | accept | oldest =>
      have hempty : log = [] := h
      simp [hempty]
    | hangUp caller peerid hp =>
      cases hp with
      | enter | take =>
        have hempty : log = [] := h
        simp [hempty]
      | senders o | scan o | close o | destroy o =>
        have htook : log = [.tookOut t caller peerid o] := h
        simp [htook, Event.tookBy, Event.answeredBy]
      | answer result =>
        cases result with
        | false =>
          have hempty : log = [] := h
          simp [hempty]
        | true =>
          obtain ⟨o, hlog⟩ := h
          simp [hlog, Event.tookBy, Event.answeredBy]
    | _ => exact absurd rfl hafter

theorem countP_ofHangUp (t : Tid) (trace : List Event) :
    (trace.filter (Event.ofHangUp t)).countP (Event.tookBy t) = trace.countP (Event.tookBy t) ∧
      (trace.filter (Event.ofHangUp t)).countP (Event.answeredBy t) =
        trace.countP (Event.answeredBy t) := by
  have hmem : ∀ ev : Event, (ev.tookBy t && ev.ofHangUp t) = ev.tookBy t ∧
      (ev.answeredBy t && ev.ofHangUp t) = ev.answeredBy t := by
    intro ev
    cases ev <;> simp [Event.tookBy, Event.answeredBy, Event.ofHangUp]
  constructor
  · simp [List.countP_filter, (hmem _).1]
  · simp [List.countP_filter, (hmem _).2]

/-- Each thread executes `hangUp` at most once, in every run. -/
theorem Reachable.one_hangUp {cfg : Config} {s : State} (h : Reachable cfg s) (t : Nat) :
    s.trace.countP (Event.tookBy t) ≤ 1 ∧ s.trace.countP (Event.answeredBy t) ≤ 1 := by
  rw [← (countP_ofHangUp t s.trace).1, ← (countP_ofHangUp t s.trace).2]
  cases hpos : s.threads[t]? with
  | none =>
    have hlen : s.threads.length ≤ t := List.getElem?_eq_none_iff.mp hpos
    simp [h.logged.absent t hlen]
  | some pc => exact (h.logged.fits t pc hpos).atMostOnce

theorem Reachable.settled {cfg : Config} {s : State} (h : Reachable cfg s)
    (hquiet : ∀ pc ∈ s.threads, pc.hangingUp = false) (t : Nat) :
    Settled t (s.trace.filter (Event.ofHangUp t)) := by
  cases hpos : s.threads[t]? with
  | none =>
    have hlen : s.threads.length ≤ t := List.getElem?_eq_none_iff.mp hpos
    rw [h.logged.absent t hlen]
    exact .unused
  | some pc =>
    have hfits := h.logged.fits t pc hpos
    have hpc := hquiet pc (List.mem_of_getElem? hpos)
    cases pc with
    | accept | oldest =>
      have hempty : s.trace.filter (Event.ofHangUp t) = [] := hfits
      rw [hempty]
      exact .unused
    | hangUp => cases hpc
    | _ => exact hfits

theorem Settled.took_iff_confirmed {t : Tid} {log : List Event} (h : Settled t log) (p : PeerId) :
    (∃ caller o, Event.tookOut t caller p o ∈ log) ↔ Event.answered t p true ∈ log := by
  cases h with
  | unused => simp
  | refused p' => simp
  | hungUp caller p' o =>
    simp only [List.mem_cons, reduceCtorEq, false_or, List.not_mem_nil, or_false,
      Event.tookOut.injEq, Event.answered.injEq, true_and, and_true]
    exact ⟨fun ⟨_, _, _, hp, _⟩ => hp, fun hp => ⟨caller, o, rfl, hp, rfl⟩⟩

/-- The accounts of the peer map in every state of every run: insertions and
removals balance, no observer is taken out or deleted twice, a thread stands
for one execution, and with no `hangUp` in flight the executions that answered
true are those that took an entry out. -/
theorem hangUp_accounting {cfg : Config} {s : State} (h : Reachable cfg s) :
    (∀ p : PeerId, s.trace.countP (Event.insertsAt p) = s.trace.countP (Event.takesAt p) +
      if p ∈ s.shared.peerConnectionObsMap then 1 else 0) ∧
    (takenOut s.trace).Nodup ∧ (deletions s.trace).Nodup ∧
    (∀ t : Nat, s.trace.countP (Event.tookBy t) ≤ 1 ∧ s.trace.countP (Event.answeredBy t) ≤ 1) ∧
    ((∀ pc ∈ s.threads, pc.hangingUp = false) → ∀ (t : Nat) (p : PeerId),
      (∃ caller o, Event.tookOut t caller p o ∈ s.trace) ↔ Event.answered t p true ∈ s.trace) := by
  have haccounts := h.accounts
  refine ⟨fun p => ?_, ?_, haccounts.deletedOnce, h.one_hangUp, fun hquiet t p => ?_⟩
  · obtain ⟨hput, htake, _⟩ := peerHistory_counts s.trace p
    have hbalance := haccounts.history.countP_put p
    rw [hput, htake] at hbalance
    simpa only [Std.TreeMap.mem_iff_isSome_getElem?] using hbalance
  · rw [← (peerHistory_counts s.trace "").2.2]
    exact (haccounts.history.nodup_taken haccounts.once).2.2
  · have hiff := (h.settled hquiet t).took_iff_confirmed p
    simpa [List.mem_filter, Event.ofHangUp] using hiff

theorem hangUp_accounting_run : ∃ s, Reachable (.plain 0) s ∧
    Event.answered 1 "a" true ∈ s.trace ∧ Event.answered 2 "a" false ∈ s.trace ∧
    s.trace.countP (Event.insertsAt "a") = s.trace.countP (Event.takesAt "a") ∧
    (takenOut s.trace).Nodup ∧ (∃ caller o, Event.tookOut 1 caller "a" o ∈ s.trace) := by
  obtain ⟨s, hs, hp⟩ := Reachable.of_run (.plain 0)
    ([Action.request (.plain .call "a" "rtsp://cam")] ++ runs 0 5 (.fine 7) ++
      [Action.hangUp "a", .hangUp "a"] ++ runs 1 2 (.fine 7) ++ runs 2 3 (.fine 7) ++
      runs 1 4 (.fine 7))
    (fun s => s.threads.all (fun pc => !pc.hangingUp) &&
      decide (Event.answered 1 "a" true ∈ s.trace) &&
      decide (Event.answered 2 "a" false ∈ s.trace) &&
      decide ("a" ∉ s.shared.peerConnectionObsMap))
    (by decide)
  simp only [Bool.and_eq_true, List.all_eq_true, Bool.not_eq_true', decide_eq_true_eq] at hp
  obtain ⟨⟨⟨hquiet, htrue⟩, hfalse⟩, hout⟩ := hp
  obtain ⟨hbalance, htaken, _, _, hiff⟩ := hangUp_accounting hs
  refine ⟨s, hs, htrue, hfalse, ?_, htaken, (hiff hquiet 1 "a").mpr htrue⟩
  rw [hbalance "a", if_neg hout, Nat.add_zero]

end WebrtcStreamer
