import WebrtcStreamer.LockOrder
import WebrtcStreamer.Manager

/-! What the functions of `PeerConnectionManager` wait for. Each is the list of
the locks it takes and gives back; what it reads decides how long the list is.

A call through a proxy of WebRTC waits for the signaling thread, and `BlockingCall` for
the worker thread; each runs one call or callback at a time and is one more lock. The
signaling thread may have to wait for the worker thread in turn. What else the threads of
WebRTC wait for among themselves is not modelled, nor are the waits with a time limit. -/

set_option autoImplicit false

namespace WebrtcStreamer

namespace Locks

open LockOrder

inductive Lock where
  -- `m_peerMapMutex`
  | peerMap
  -- `m_streamMapMutex`
  | streamMap
  -- the signaling thread of WebRTC
  | signaling
  -- `m_workerThread`
  | worker
  -- `m_iceCandidateMutex` of an observer
  | iceCandidate (o : ObsId)
  -- `m_reportMutex` of the statistics callback of an observer
  | report (o : ObsId)
  deriving DecidableEq, Repr

abbrev Program := List (Op Lock)

structure Waits where
  -- WebRTC lets calls on the signaling thread wait for the worker thread
  forWorker : Bool
  -- the server opens recording devices
  audiocap : Bool
  deriving DecidableEq, Repr

variable (w : Waits)

/-- A call on the signaling thread; `hop` if it waits for the worker thread there. -/
def signalingCall (hop : Bool) (body : Program) : Program :=
  guarded .signaling ((if w.forWorker && hop then guarded .worker [] else []) ++ body)

def blockingCall (hop : Bool) : Program := signalingCall w hop []

def blockingCalls (hops : List Bool) : Program := hops.flatMap (blockingCall w)

/-! ### The callbacks, on the signaling thread -/

/-- ICE failed or closed clears the candidates. The `hangUp` that follows runs in
a thread of its own. -/
def onIceConnectionChange (o : ObsId) (closed : Bool) : Program :=
  if closed then guarded (.iceCandidate o) [] else []

def onIceCandidate (o : ObsId) : Program := guarded (.iceCandidate o) []

def onStatsDelivered (o : ObsId) : Program := guarded (.report o) []

/-! ### The members of an observer -/

/-- `~PeerConnectionObserver` closes the connection, which calls `OnIceConnectionChange`. -/
def closeObserver (o : ObsId) (connected closed hop : Bool) : Program :=
  if connected then signalingCall w hop (onIceConnectionChange o closed) else []

/-- `CreatePeerConnectionOrError` and `CreateDataChannelOrError` -/
def constructObserver (connected : Bool) (hops : Bool × Bool) : Program :=
  blockingCall w hops.1 ++ if connected then blockingCall w hops.2 else []

def triggerStatsUpdate (o : ObsId) (delivered hop : Bool) : Program :=
  signalingCall w hop (if delivered then onStatsDelivered o else [])

def getIceCandidateListOf (o : ObsId) : Program := guarded (.iceCandidate o) []

/-! ### `PeerConnectionManager` -/

/-- `applied`: the peer is registered. -/
def addIceCandidate (parsed applied hop : Bool) : Program :=
  if parsed then guarded .peerMap (if applied then blockingCall w hop else []) else []

def patch (lines : List (Bool × Bool × Bool)) : Program :=
  lines.flatMap fun line => addIceCandidate w line.1 line.2.1 line.2.2

def setAnswer (parsed applied hop : Bool) : Program :=
  if parsed then guarded .peerMap [] ++ if applied then blockingCall w hop else [] else []

def streamStillUsed (peers : List (List Bool)) : Program :=
  guarded .peerMap (peers.flatMap (blockingCalls w))

/-- What `hangUp` finds for a sender with a label: what `streamStillUsed` looks at and
answers, and then the sender is removed. -/
structure Removed where
  peers : List (List Bool)
  stillUsed : Bool
  removeTrack : Bool
  deriving DecidableEq, Repr

structure HungUp where
  observer : ObsId
  getSenders : Bool
  senders : List (Bool × Option Removed)
  closed : Bool
  close : Bool
  deriving DecidableEq, Repr

def hangUpSender (x : Bool × Option Removed) : Program :=
  blockingCall w x.1 ++
    match x.2 with
    | none => []
    | some r =>
      streamStillUsed w r.peers ++ (if r.stillUsed then [] else guarded .streamMap []) ++
        blockingCall w r.removeTrack

def hangUp (found : Option HungUp) : Program :=
  guarded .peerMap [] ++
    match found with
    | none => []
    | some h =>
      blockingCall w h.getSenders ++ h.senders.flatMap (hangUpSender w) ++
        closeObserver w h.observer true h.closed h.close

def getIceCandidateList (found : Option ObsId) : Program :=
  guarded .peerMap (found.elim [] getIceCandidateListOf)

/-- A peer in `getPeerConnectionList`: with a local description it is described, by
further calls of WebRTC. -/
structure Listed where
  observer : ObsId
  localDescription : Bool
  described : Bool
  delivered : Bool
  getStats : Bool
  calls : List Bool
  deriving DecidableEq, Repr

def listPeer (p : Listed) : Program :=
  blockingCall w p.localDescription ++
    if p.described then
      triggerStatsUpdate w p.observer p.delivered p.getStats ++
        (List.replicate 4 (guarded (.report p.observer) [])).flatten ++
        getIceCandidateListOf p.observer ++ blockingCalls w p.calls
    else []

def getPeerConnectionList (peers : List Listed) : Program :=
  guarded .peerMap (peers.flatMap (listPeer w))

def getStreamList : Program := guarded .streamMap []

def getOldestPeerCannection : Program := guarded .peerMap []

/-- `evicted`: the oldest peer has a name, and its `hangUp` finds this. -/
def createPeerConnection (evicted : Option (Option HungUp)) (factory connected : Bool)
    (hops : Bool × Bool) : Program :=
  getOldestPeerCannection ++ evicted.elim [] (hangUp w) ++
    if factory then constructObserver w connected hops else []

/-- On the worker thread, where the source of a recording device is created by the
factory of the peer connections, through its proxy. -/
def createAudioSource (device : Bool) : Program :=
  guarded .worker (if w.audiocap && device then guarded .signaling [] else [])

/-- What `AddStreams` comes to: the call for the bitrate, the device if sources are
created, and the calls of the last section, none if the stream is gone. -/
structure Added where
  bitrate : Option Bool
  created : Option Bool
  tracks : List Bool
  deriving DecidableEq, Repr

def addStreams (a : Added) : Program :=
  a.bitrate.elim [] (blockingCall w) ++ guarded .streamMap [] ++
    (match a.created with
      | none => []
      | some device => createAudioSource w device ++ guarded .streamMap []) ++
    guarded .streamMap (blockingCalls w a.tracks)

structure Created where
  evicted : Option (Option HungUp)
  factory : Bool
  connected : Bool
  construct : Bool × Bool
  observer : ObsId
  closed : Bool
  -- the remote description, which is set before the streams are added
  remote : List Bool
  streams : Added
  added : Bool
  -- calls of WebRTC after the tracks were added
  calls : List Bool
  deriving DecidableEq, Repr

def createOffer (c : Created) : Program :=
  createPeerConnection w c.evicted c.factory c.connected c.construct ++
    if c.factory then
      addStreams w c.streams ++
        if c.added then guarded .peerMap [] ++ blockingCalls w c.calls else []
    else []

/-- Also `call`, and `whep` with POST. -/
def getAnswer (c : Created) : Program :=
  createPeerConnection w c.evicted c.factory c.connected c.construct ++
    if c.factory then
      if c.connected then
        blockingCalls w c.remote ++ guarded .peerMap [] ++ addStreams w c.streams ++
          if c.added then blockingCalls w c.calls else []
      else closeObserver w c.observer false c.closed false
    else []

inductive Call where
  | addIceCandidate (parsed applied hop : Bool)
  | patch (lines : List (Bool × Bool × Bool))
  | setAnswer (parsed applied hop : Bool)
  -- also the detached `hangUp` of `OnIceConnectionChange`
  | hangUp (found : Option HungUp)
  | getIceCandidateList (found : Option ObsId)
  | getPeerConnectionList (peers : List Listed)
  | getStreamList
  | createOffer (c : Created)
  | getAnswer (c : Created)
  | iceConnectionChange (o : ObsId) (closed hop : Bool)
  | iceCandidate (o : ObsId)
  | statsDelivered (o : ObsId)
  deriving DecidableEq, Repr

def program : Call → Program
  | .addIceCandidate parsed applied hop => addIceCandidate w parsed applied hop
  | .patch lines => patch w lines
  | .setAnswer parsed applied hop => setAnswer w parsed applied hop
  | .hangUp found => hangUp w found
  | .getIceCandidateList found => getIceCandidateList found
  | .getPeerConnectionList peers => getPeerConnectionList w peers
  | .getStreamList => getStreamList
  | .createOffer c => createOffer w c
  | .getAnswer c => getAnswer w c
  | .iceConnectionChange o closed hop => signalingCall w hop (onIceConnectionChange o closed)
  | .iceCandidate o => signalingCall w false (onIceCandidate o)
  | .statsDelivered o => signalingCall w false (onStatsDelivered o)

/-! ### The order -/

/-- The two threads of WebRTC come in the order in which one may wait for the other. -/
def rank : Lock → Nat
  | .peerMap | .streamMap => 0
  | .signaling => if w.audiocap then 2 else 1
  | .worker => if w.audiocap then 1 else 2
  | .iceCandidate _ | .report _ => 3

def Ordered : Prop := ¬ (w.forWorker = true ∧ w.audiocap = true)

abbrev Outer (p : Program) : Prop := Within (rank w) 1 p

abbrev Inner (p : Program) : Prop := Within (rank w) 3 p

abbrev Free (p : Program) : Prop := Within (rank w) 0 p

section Order

variable {w} {p p' : Program} {n : Nat}

theorem within_flatten_replicate (h : Within (rank w) n p) (k : Nat) :
    Within (rank w) n (List.replicate k p).flatten := by
  induction k with
  | zero => exact .nil
  | succ k ih =>
    rw [List.replicate_succ, List.flatten_cons]
    exact h.append ih

theorem inner_iceCandidate (o : ObsId) : Inner w (guarded (.iceCandidate o) []) :=
  .guarded .nil (Nat.le_refl _)

theorem inner_report (o : ObsId) : Inner w (guarded (.report o) []) :=
  .guarded .nil (Nat.le_refl _)

theorem inner_onIceConnectionChange (o : ObsId) (closed : Bool) :
    Inner w (onIceConnectionChange o closed) :=
  .ite (inner_iceCandidate o) .nil

theorem Inner.outer (h : Inner w p) : Outer w p := h.mono (by decide)

theorem Outer.free (h : Outer w p) : Free w p := h.mono (Nat.zero_le _)

theorem free_peerMap (h : Outer w p) : Free w (guarded .peerMap p) := .guarded h (Nat.zero_le _)

theorem free_streamMap (h : Outer w p) : Free w (guarded .streamMap p) :=
  .guarded h (Nat.zero_le _)

theorem free_createAudioSource (device : Bool) : Free w (createAudioSource w device) := by
  refine .guarded ?_ (Nat.zero_le _)
  cases haudiocap : w.audiocap with
  | false => simpa [haudiocap] using Within.nil
  | true =>
    have hworker : rank w .worker + 1 = 2 := by simp [rank, haudiocap]
    rw [hworker]
    exact .ite (.guarded .nil (by simp [rank, haudiocap])) .nil

variable (hw : Ordered w)

include hw

theorem outer_signaling (h : Inner w p) (hop : Bool) : Outer w (signalingCall w hop p) := by
  cases haudiocap : w.audiocap with
  | false =>
    have hsignaling : rank w .signaling + 1 = 2 := by simp [rank, haudiocap]
    refine .guarded ?_ (by simp [rank, haudiocap])
    rw [hsignaling]
    exact .append (.ite (.guarded .nil (by simp [rank, haudiocap])) .nil) (h.mono (by decide))
  | true =>
    have hnever : w.forWorker = false := by
      cases hforWorker : w.forWorker with
      | false => rfl
      | true => exact absurd ⟨hforWorker, haudiocap⟩ hw
    have hsignaling : rank w .signaling + 1 = 3 := by simp [rank, haudiocap]
    refine .guarded ?_ (by simp [rank, haudiocap])
    rw [hsignaling]
    exact .append (by simpa [hnever] using Within.nil) h

theorem outer_blockingCall (hop : Bool) : Outer w (blockingCall w hop) :=
  outer_signaling hw .nil hop

theorem outer_blockingCalls (hops : List Bool) : Outer w (blockingCalls w hops) :=
  .flatMap fun hop _ => outer_blockingCall hw hop

theorem outer_closeObserver (o : ObsId) (connected closed hop : Bool) :
    Outer w (closeObserver w o connected closed hop) :=
  .ite (outer_signaling hw (inner_onIceConnectionChange o closed) hop) .nil

theorem free_addIceCandidate (parsed applied hop : Bool) :
    Free w (addIceCandidate w parsed applied hop) :=
  .ite (free_peerMap (.ite (outer_blockingCall hw hop) .nil)) .nil

theorem free_setAnswer (parsed applied hop : Bool) : Free w (setAnswer w parsed applied hop) :=
  .ite ((free_peerMap .nil).append (.ite (outer_blockingCall hw hop).free .nil)) .nil

theorem free_streamStillUsed (peers : List (List Bool)) : Free w (streamStillUsed w peers) :=
  free_peerMap (.flatMap fun hops _ => outer_blockingCalls hw hops)

theorem free_hangUpSender (x : Bool × Option Removed) : Free w (hangUpSender w x) := by
  refine .append (outer_blockingCall hw x.1).free ?_
  cases x.2 with
  | none => exact .nil
  | some r =>
    exact .append (.append (free_streamStillUsed hw r.peers) (.ite .nil (free_streamMap .nil)))
      (outer_blockingCall hw r.removeTrack).free

theorem free_hangUp (found : Option HungUp) : Free w (hangUp w found) := by
  refine .append (free_peerMap .nil) ?_
  cases found with
  | none => exact .nil
  | some h =>
    exact ((outer_blockingCall hw h.getSenders).free.append
      (.flatMap fun x _ => free_hangUpSender hw x)).append (outer_closeObserver hw _ _ _ _).free

theorem outer_listPeer (p : Listed) : Outer w (listPeer w p) := by
  refine (outer_blockingCall hw _).append (.ite (.append (.append (.append ?_ ?_) ?_)
    (outer_blockingCalls hw _)) .nil)
  · exact outer_signaling hw (.ite (inner_report _) .nil) _
  · exact within_flatten_replicate (inner_report _).outer 4
  · exact (inner_iceCandidate _).outer

theorem free_createPeerConnection (evicted : Option (Option HungUp)) (factory connected : Bool)
    (hops : Bool × Bool) : Free w (createPeerConnection w evicted factory connected hops) := by
  refine .append (.append (free_peerMap .nil) ?_) (.ite ((outer_blockingCall hw _).free.append
    (.ite (outer_blockingCall hw _).free .nil)) .nil)
  cases evicted with
  | none => exact .nil
  | some found => exact free_hangUp hw found

theorem free_addStreams (a : Added) : Free w (addStreams w a) := by
  refine .append (.append (.append ?_ (free_streamMap .nil)) ?_)
    (free_streamMap (outer_blockingCalls hw _))
  · cases a.bitrate with
    | none => exact .nil
    | some hop => exact (outer_blockingCall hw hop).free
  · cases a.created with
    | none => exact .nil
    | some device => exact (free_createAudioSource device).append (free_streamMap .nil)

theorem free_createOffer (c : Created) : Free w (createOffer w c) :=
  (free_createPeerConnection hw _ _ _ _).append (.ite ((free_addStreams hw _).append
    (.ite ((free_peerMap .nil).append (outer_blockingCalls hw _).free) .nil)) .nil)

theorem free_getAnswer (c : Created) : Free w (getAnswer w c) :=
  (free_createPeerConnection hw _ _ _ _).append (.ite (.ite
    (.append (.append (.append (outer_blockingCalls hw _).free (free_peerMap .nil))
      (free_addStreams hw _)) (.ite (outer_blockingCalls hw _).free .nil))
    (outer_closeObserver hw _ _ _ _).free) .nil)

theorem free_program (call : Call) : Free w (program w call) := by
  cases call with
  | addIceCandidate parsed applied hop => exact free_addIceCandidate hw parsed applied hop
  | patch lines => exact .flatMap fun line _ => free_addIceCandidate hw _ _ _
  | setAnswer parsed applied hop => exact free_setAnswer hw parsed applied hop
  | hangUp found => exact free_hangUp hw found
  | getIceCandidateList found =>
    refine free_peerMap ?_
    cases found with
    | none => exact .nil
    | some o => exact (inner_iceCandidate o).outer
  | getPeerConnectionList peers => exact free_peerMap (.flatMap fun p _ => outer_listPeer hw p)
  | getStreamList => exact free_streamMap .nil
  | createOffer c => exact free_createOffer hw c
  | getAnswer c => exact free_getAnswer hw c
  | iceConnectionChange o closed hop =>
    exact (outer_signaling hw (inner_onIceConnectionChange o closed) hop).free
  | iceCandidate o => exact (outer_signaling hw (inner_iceCandidate o) false).free
  | statsDelivered o => exact (outer_signaling hw (inner_report o) false).free

end Order

/-- From every reachable pool of threads no schedule is endless, one that is not at its
end can go on, and at its end every thread has finished and holds no lock. -/
def NeverDeadlocks : Prop :=
  ∀ threads, Transition.Reachable (LockOrder.step (program w)) [] threads →
    ((∃ x ∈ threads, x.rest ≠ []) → ∃ threads', Runs (program w) threads threads') ∧
    (∀ schedule : Nat → List (Thread Lock), schedule 0 = threads →
      ∃ n, ¬ Runs (program w) (schedule n) (schedule (n + 1))) ∧
    ∀ threads', Relation.ReflTransGen (Runs (program w)) threads threads' →
      (∀ threads'', ¬ Runs (program w) threads' threads'') →
      ∀ x ∈ threads', x.rest = [] ∧ x.held = []

variable {w}

theorem Ordered.neverDeadlocks (hw : Ordered w) : NeverDeadlocks w := by
  intro threads h
  have hprogram := fun call => (free_program hw call).disciplined
  have hall := allDisciplined_of_reachable hprogram h
  exact ⟨hall.progress, (hall.drains hprogram).no_endless_run, fun _ hrun hstuck =>
    (hall.drains hprogram).done_of_stuck hrun hstuck⟩

def recording : Created where
  evicted := none
  factory := true
  connected := true
  construct := (false, false)
  observer := 0
  closed := false
  remote := []
  streams := ⟨none, some true, []⟩
  added := true
  calls := []

/-- A call opens its recording device, and is on the worker thread, when the answer of
another peer is applied on the signaling thread: each waits for the thread of the other. -/
theorem deadlock_reachable : ∃ threads,
    Transition.Reachable (LockOrder.step (program ⟨true, true⟩)) [] threads ∧
      Deadlocked threads := by
  obtain ⟨threads, hrun, hp⟩ := Transition.exists_reaches_of_run
    (LockOrder.step (program ⟨true, true⟩)) (fun _ _ => True) []
    (.start (.getAnswer recording) :: List.replicate 11 (.run 0) ++
      .start (.setAnswer true true true) :: List.replicate 3 (.run 1))
    (fun threads => decide (Deadlocked threads)) (by decide +kernel)
  exact ⟨threads, hrun, of_decide_eq_true hp⟩

/-- No set of requests, detached hangups and callbacks can wait for one another, exactly
as long as WebRTC does not let its signaling thread wait for the worker thread, or no
audio source is created from a recording device. -/
theorem locks_never_deadlock_iff (w : Waits) : NeverDeadlocks w ↔ Ordered w := by
  refine ⟨fun h => ?_, Ordered.neverDeadlocks⟩
  rintro ⟨hforWorker, haudiocap⟩
  obtain rfl : w = ⟨true, true⟩ := by
    cases w
    cases hforWorker
    cases haudiocap
    rfl
  obtain ⟨threads, hrun, hdead⟩ := deadlock_reachable
  obtain ⟨threads', hruns⟩ := (h threads hrun).1 hdead.unfinished
  exact hdead.not_runs threads' hruns

/-- On the signaling thread itself `hangUp` would break the order. -/
example : ¬ Free w (guarded .signaling (hangUp w none)) :=
  fun h => Nat.not_lt_zero _ (h.disciplined.2.1 .signaling List.mem_cons_self)

end Locks

end WebrtcStreamer
