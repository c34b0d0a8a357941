import WebrtcStreamer.Requests
import WebrtcStreamer.Transition
import WebrtcStreamer.Ledger

/-! All interleavings of the requests and of the detached hangup threads.

A thread is at a position of the code (`Pc`). A step of the machine lets one
thread execute one section that the mutexes make atomic, or lets a request or
an ICE report arrive. -/

set_option autoImplicit false

namespace WebrtcStreamer

abbrev Tid := Nat

inductive HangPc where
  | enter
  | take
  | senders (o : ObsId)
  -- the senders that are left, by their stream ids
  | scan (o : ObsId) (rest : List (List Label))
  -- `streamStillUsed` was false for this label
  | close (o : ObsId) (streamLabel : Label) (rest : List (List Label))
  | destroy (o : ObsId)
  | answer (result : Bool)
  deriving DecidableEq, Repr

inductive StreamsPc where
  | setup
  | lookup
  | create
  | store (pair : AudioVideoPair)
  | final
  -- inside the last section, `m_streamMapMutex` held
  | video (pair : AudioVideoPair)
  | audio (pair : AudioVideoPair) (ret : Bool)
  deriving DecidableEq, Repr

inductive Reply where
  | description (d : Option Description)
  | hungUp (result : Bool)
  deriving DecidableEq, Repr

inductive Pc where
  | accept (r : Request)
  | oldest (r : Request)
  | hangUp (caller : Caller) (peerid : PeerId) (h : HangPc)
  | construct (r : Request)
  | opened (r : Request) (o : ObsId)
  | register (r : Request) (o : ObsId)
  | streams (r : Request) (o : ObsId) (a : StreamsPc)
  | describe (r : Request) (o : ObsId)
  | gather (r : Request) (o : ObsId) (retry : Nat)
  | await (r : Request) (o : ObsId)
  | done (reply : Reply)
  deriving DecidableEq, Repr

def Pc.failed : Pc := .done (.description none)

def Pc.hangingUp : Pc → Bool
  | .hangUp _ _ _ => true
  | _ => false

inductive Outcome where
  | next (sh : Shared) (pc : Pc)
  | fault (f : Fault)
  | blocked

def Caller.resume : Caller → Bool → Pc
  | .evict r, _ => .construct r
  | _, result => .done (.hungUp result)

def execHangUp (cfg : Config) (e : Env) (sh : Shared) (caller : Caller) (peerid : PeerId) :
    HangPc → Outcome
  | .enter => .next (caller.logPeerId cfg (caller.readMember sh)) (.hangUp caller peerid .take)
  | .take =>
    let peerid := caller.target e sh peerid
    let sh := caller.readMember sh
    match sh.peerConnectionObsMap[peerid]? with
    | none => .next sh (.hangUp caller peerid (.answer false))
    | some o => .next (sh.erasePeer peerid) (.hangUp caller peerid (.senders o))
  | .senders o =>
    match (sh.obs o).pc with
    | none => .fault .nullPeerConnection
    | some localstreams =>
      .next (sh.touch o) (.hangUp caller peerid (.scan o (localstreams.map Sender.streamIds)))
  | .scan o [] => .next sh (.hangUp caller peerid (.destroy o))
  | .scan o ([] :: rest) => .next sh (.hangUp caller peerid (.scan o rest))
  | .scan o ((streamLabel :: _) :: rest) =>
    match sh.streamStillUsed streamLabel with
    | .error f => .fault f
    | .ok stillUsed =>
      .next sh.touchRegistered (.hangUp caller peerid
        (if stillUsed then .scan o rest else .close o streamLabel rest))
  | .close o streamLabel rest =>
    if sh.streamMapLocked then .blocked
    else .next (sh.eraseStream streamLabel) (.hangUp caller peerid (.scan o rest))
  | .destroy o => .next (sh.deleteObserver o) (.hangUp caller peerid (.answer true))
  | .answer result => .next (caller.logPeerId cfg sh) (caller.resume result)

def afterStreams (r : Request) (o : ObsId) (ret : Bool) : Pc :=
  if !ret then .failed
  else if r.api = .createOffer then .register r o
  else .describe r o

theorem afterStreams_cases (r : Request) (o : ObsId) (ret : Bool) :
    (afterStreams r o ret = .failed ∧ ret = false) ∨
    (afterStreams r o ret = .register r o ∧ r.api = .createOffer) ∨
    (afterStreams r o ret = .describe r o ∧ r.api ≠ .createOffer) := by
  unfold afterStreams
  cases ret with
  | false => exact .inl ⟨rfl, rfl⟩
  | true =>
    by_cases hoffer : r.api = .createOffer
    · exact .inr (.inl ⟨by simp [hoffer], hoffer⟩)
    · exact .inr (.inr ⟨by simp [hoffer], hoffer⟩)

theorem apply_afterStreams {β : Type} (f : Pc → β) {b : β} (r : Request) (o : ObsId) (ret : Bool)
    (hfailed : f .failed = b) (hregister : f (.register r o) = b)
    (hdescribe : f (.describe r o) = b) : f (afterStreams r o ret) = b := by
  obtain ⟨hnext, _⟩ | ⟨hnext, _⟩ | ⟨hnext, _⟩ := afterStreams_cases r o ret
  · rw [hnext, hfailed]
  · rw [hnext, hregister]
  · rw [hnext, hdescribe]

def execStreams (cfg : Config) (e : Env) (sh : Shared) (r : Request) (o : ObsId) :
    StreamsPc → Outcome
  | .setup =>
    match setUpStreams cfg r o sh with
    | .error f => .fault f
    | .ok _ => .next sh (.streams r o .lookup)
  | .lookup =>
    if sh.streamMapLocked then .blocked
    else .next sh (.streams r o (if r.label cfg ∈ sh.streamMap then .final else .create))
  | .create => .next sh (.streams r o (.store (e.videoSource, e.audioSource)))
  | .store pair =>
    if sh.streamMapLocked then .blocked
    else .next (sh.storeStream (r.label cfg) pair) (.streams r o .final)
  | .final =>
    if sh.streamMapLocked then .blocked
    else
      match sh.streamMap[r.label cfg]? with
      | none => .next sh .failed
      | some pair => .next (sh.lockStreamMap true) (.streams r o (.video pair))
  | .video pair =>
    match sh.attachTrack o (r.label cfg) .video pair.1 e.videoTrack e.videoAdded with
    | .error f => .fault f
    | .ok (sh, ret) => .next sh (.streams r o (.audio pair ret))
  | .audio pair ret =>
    match sh.attachTrack o (r.label cfg) .audio pair.2 e.audioTrack e.audioAdded with
    | .error f => .fault f
    | .ok (sh, ret') => .next (sh.lockStreamMap false) (afterStreams r o (ret || ret'))

def Request.offerRead (e : Env) (r : Request) : Bool :=
  match r.api with
  | .call => e.message && e.parsed
  | .whep => e.parsed
  | .createOffer => true

/-- One atomic section of a thread, with what the environment answers to it. -/
def exec (cfg : Config) (e : Env) (sh : Shared) : Pc → Outcome
  | .accept r =>
    if r.offerRead e then .next sh (.oldest (r.identified e)) else .next sh .failed
  | .oldest r =>
    let oldestpeerid := sh.getOldestPeerCannection cfg
    .next (if sh.peersFull cfg then sh.touchRegistered else sh)
      (if oldestpeerid = "" then .construct r else .hangUp (.evict r) oldestpeerid .enter)
  | .hangUp caller peerid h => execHangUp cfg e sh caller peerid h
  | .construct r =>
    if cfg.factory r.useNullCodec then
      .next (sh.construct r.peerid e.connected e.time) (.opened r sh.observers.length)
    else .next sh .failed
  | .opened r o =>
    if r.api = .createOffer then .next (sh.touch o) (.streams r o .setup)
    else if (sh.obs o).pc.isNone then .next ((sh.touch o).deleteObserver o) .failed
    else .next (sh.touch o) (.register r o)
  | .register r o =>
    .next (sh.registerPeer r.peerid o)
      (if r.api = .createOffer then .describe r o else .streams r o .setup)
  | .streams r o a => execStreams cfg e sh r o a
  | .describe r o =>
    if (sh.obs o).pc.isNone then .fault .nullPeerConnection
    else .next sh (if r.api = .whep then .gather r o 5 else .await r o)
  | .gather r o 0 => .next (sh.touch o) (.await r o)
  | .gather r o (retry + 1) =>
    .next (sh.touch o) (if e.gathered then .await r o else .gather r o retry)
  | .await _ o => .next sh (.done (.description (e.description.map (⟨o, ·⟩))))
  | .done _ => .blocked

/-- Every way in which a section can end, with what the code has tested on the way. -/
inductive Executed (cfg : Config) (e : Env) (sh : Shared) : Pc → Shared → Pc → Prop where
  | accepted (r : Request) (read : r.offerRead e = true) :
      Executed cfg e sh (.accept r) sh (.oldest (r.identified e))
  | refused (r : Request) : Executed cfg e sh (.accept r) sh .failed
  | room (r : Request) (empty : sh.getOldestPeerCannection cfg = "") :
      Executed cfg e sh (.oldest r) (if sh.peersFull cfg then sh.touchRegistered else sh)
        (.construct r)
  | evicting (r : Request) (named : sh.getOldestPeerCannection cfg ≠ "") :
      Executed cfg e sh (.oldest r) (if sh.peersFull cfg then sh.touchRegistered else sh)
        (.hangUp (.evict r) (sh.getOldestPeerCannection cfg) .enter)
  | constructed (r : Request) (factory : cfg.factory r.useNullCodec = true) :
      Executed cfg e sh (.construct r) (sh.construct r.peerid e.connected e.time)
        (.opened r sh.observers.length)
  | unavailable (r : Request) : Executed cfg e sh (.construct r) sh .failed
  | offering (r : Request) (o : ObsId) (offer : r.api = .createOffer) :
      Executed cfg e sh (.opened r o) (sh.touch o) (.streams r o .setup)
  | discarded (r : Request) (o : ObsId) (answer : r.api ≠ .createOffer)
      (null : (sh.obs o).pc.isNone = true) :
      Executed cfg e sh (.opened r o) ((sh.touch o).deleteObserver o) .failed
  | answering (r : Request) (o : ObsId) (answer : r.api ≠ .createOffer)
      (connected : (sh.obs o).pc.isSome = true) :
      Executed cfg e sh (.opened r o) (sh.touch o) (.register r o)
  | registered (r : Request) (o : ObsId) :
      Executed cfg e sh (.register r o) (sh.registerPeer r.peerid o)
        (if r.api = .createOffer then .describe r o else .streams r o .setup)
  | setup (r : Request) (o : ObsId) :
      Executed cfg e sh (.streams r o .setup) sh (.streams r o .lookup)
  | found (r : Request) (o : ObsId) (unlocked : sh.streamMapLocked = false)
      (present : r.label cfg ∈ sh.streamMap) :
      Executed cfg e sh (.streams r o .lookup) sh (.streams r o .final)
  | missing (r : Request) (o : ObsId) (unlocked : sh.streamMapLocked = false)
      (absent : r.label cfg ∉ sh.streamMap) :
      Executed cfg e sh (.streams r o .lookup) sh (.streams r o .create)
  | created (r : Request) (o : ObsId) :
      Executed cfg e sh (.streams r o .create) sh
        (.streams r o (.store (e.videoSource, e.audioSource)))
  | stored (r : Request) (o : ObsId) (pair : AudioVideoPair)
      (unlocked : sh.streamMapLocked = false) :
      Executed cfg e sh (.streams r o (.store pair)) (sh.storeStream (r.label cfg) pair)
        (.streams r o .final)
  | lost (r : Request) (o : ObsId) (unlocked : sh.streamMapLocked = false)
      (absent : sh.streamMap[r.label cfg]? = none) :
      Executed cfg e sh (.streams r o .final) sh .failed
  | locked (r : Request) (o : ObsId) (pair : AudioVideoPair) (unlocked : sh.streamMapLocked = false)
      (present : sh.streamMap[r.label cfg]? = some pair) :
      Executed cfg e sh (.streams r o .final) (sh.lockStreamMap true) (.streams r o (.video pair))
  | video {sh' : Shared} (r : Request) (o : ObsId) (pair : AudioVideoPair) (ret : Bool)
      (attached : sh.attachTrack o (r.label cfg) .video pair.1 e.videoTrack e.videoAdded =
        .ok (sh', ret)) :
      Executed cfg e sh (.streams r o (.video pair)) sh' (.streams r o (.audio pair ret))
  | audio {sh' : Shared} (r : Request) (o : ObsId) (pair : AudioVideoPair) (ret ret' : Bool)
      (attached : sh.attachTrack o (r.label cfg) .audio pair.2 e.audioTrack e.audioAdded =
        .ok (sh', ret')) :
      Executed cfg e sh (.streams r o (.audio pair ret)) (sh'.lockStreamMap false)
        (afterStreams r o (ret || ret'))
  | described (r : Request) (o : ObsId) (connected : (sh.obs o).pc.isSome = true) :
      Executed cfg e sh (.describe r o) sh (if r.api = .whep then .gather r o 5 else .await r o)
  | gathered (r : Request) (o : ObsId) (retry : Nat) :
      Executed cfg e sh (.gather r o retry) (sh.touch o) (.await r o)
  | gathering (r : Request) (o : ObsId) (retry : Nat) :
      Executed cfg e sh (.gather r o (retry + 1)) (sh.touch o) (.gather r o retry)
  | replied (r : Request) (o : ObsId) :
      Executed cfg e sh (.await r o) sh (.done (.description (e.description.map (⟨o, ·⟩))))
  | entered (caller : Caller) (peerid : PeerId) :
      Executed cfg e sh (.hangUp caller peerid .enter)
        (caller.logPeerId cfg (caller.readMember sh)) (.hangUp caller peerid .take)
  | unknown (caller : Caller) (peerid : PeerId)
      (absent : sh.peerConnectionObsMap[caller.target e sh peerid]? = none) :
      Executed cfg e sh (.hangUp caller peerid .take) (caller.readMember sh)
        (.hangUp caller (caller.target e sh peerid) (.answer false))
  | took (caller : Caller) (peerid : PeerId) (o : ObsId)
      (present : sh.peerConnectionObsMap[caller.target e sh peerid]? = some o) :
      Executed cfg e sh (.hangUp caller peerid .take)
        ((caller.readMember sh).erasePeer (caller.target e sh peerid))
        (.hangUp caller (caller.target e sh peerid) (.senders o))
  | listed (caller : Caller) (peerid : PeerId) (o : ObsId) (localstreams : List Sender)
      (connected : (sh.obs o).pc = some localstreams) :
      Executed cfg e sh (.hangUp caller peerid (.senders o)) (sh.touch o)
        (.hangUp caller peerid (.scan o (localstreams.map Sender.streamIds)))
  | scanned (caller : Caller) (peerid : PeerId) (o : ObsId) :
      Executed cfg e sh (.hangUp caller peerid (.scan o [])) sh (.hangUp caller peerid (.destroy o))
  | unlabelled (caller : Caller) (peerid : PeerId) (o : ObsId) (rest : List (List Label)) :
      Executed cfg e sh (.hangUp caller peerid (.scan o ([] :: rest))) sh
        (.hangUp caller peerid (.scan o rest))
  | inUse (caller : Caller) (peerid : PeerId) (o : ObsId) (l : Label) (ls : List Label)
      (rest : List (List Label)) (used : sh.streamStillUsed l = .ok true) :
      Executed cfg e sh (.hangUp caller peerid (.scan o ((l :: ls) :: rest))) sh.touchRegistered
        (.hangUp caller peerid (.scan o rest))
  | unused (caller : Caller) (peerid : PeerId) (o : ObsId) (l : Label) (ls : List Label)
      (rest : List (List Label)) (free : sh.streamStillUsed l = .ok false) :
      Executed cfg e sh (.hangUp caller peerid (.scan o ((l :: ls) :: rest))) sh.touchRegistered
        (.hangUp caller peerid (.close o l rest))
  | closed (caller : Caller) (peerid : PeerId) (o : ObsId) (l : Label) (rest : List (List Label))
      (unlocked : sh.streamMapLocked = false) :
      Executed cfg e sh (.hangUp caller peerid (.close o l rest)) (sh.eraseStream l)
        (.hangUp caller peerid (.scan o rest))
  | destroyed (caller : Caller) (peerid : PeerId) (o : ObsId) :
      Executed cfg e sh (.hangUp caller peerid (.destroy o)) (sh.deleteObserver o)
        (.hangUp caller peerid (.answer true))
  | resumed (caller : Caller) (peerid : PeerId) (result : Bool) :
      Executed cfg e sh (.hangUp caller peerid (.answer result)) (caller.logPeerId cfg sh)
        (caller.resume result)

section Inversion

variable {cfg : Config} {e : Env} {sh sh' : Shared} {pc' : Pc}

theorem execHangUp_executed {caller : Caller} {peerid : PeerId} {h : HangPc}
    (hx : execHangUp cfg e sh caller peerid h = .next sh' pc') :
    Executed cfg e sh (.hangUp caller peerid h) sh' pc' := by
  cases h with
  | enter =>
    cases hx
    exact .entered caller peerid
  | take =>
    have hmap : (caller.readMember sh).peerConnectionObsMap = sh.peerConnectionObsMap := by
      cases caller <;> simp [Caller.readMember]
    simp only [execHangUp, hmap] at hx
    split at hx
    · rename_i habsent
      cases hx
      exact .unknown caller peerid habsent
    · rename_i o hpresent
      cases hx
      exact .took caller peerid o hpresent
  | senders o =>
    simp only [execHangUp] at hx
    split at hx
    · cases hx
    · rename_i localstreams hconnected
      cases hx
      exact .listed caller peerid o localstreams hconnected
  | scan o rest =>
    match rest with
    | [] =>
      cases hx
      exact .scanned caller peerid o
    | [] :: rest =>
      cases hx
      exact .unlabelled caller peerid o rest
    | (l :: ls) :: rest =>
      simp only [execHangUp] at hx
      split at hx
      · cases hx
      · rename_i stillUsed hused
        cases hx
        cases stillUsed with
        | true => exact .inUse caller peerid o l ls rest hused
        | false => exact .unused caller peerid o l ls rest hused
  | close o l rest =>
    simp only [execHangUp] at hx
    split at hx
    · cases hx
    · rename_i hunlocked
      cases hx
      exact .closed caller peerid o l rest (by simpa using hunlocked)
  | destroy o =>
    cases hx
    exact .destroyed caller peerid o
  | answer result =>
    cases hx
    exact .resumed caller peerid result

theorem execStreams_executed {r : Request} {o : ObsId} {a : StreamsPc}
    (hx : execStreams cfg e sh r o a = .next sh' pc') :
    Executed cfg e sh (.streams r o a) sh' pc' := by
  cases a with
  | setup =>
    simp only [execStreams] at hx
    split at hx
    · cases hx
    · cases hx
      exact .setup r o
  | lookup =>
    simp only [execStreams] at hx
    split at hx
    · cases hx
    · rename_i hunlocked
      have hfree : sh.streamMapLocked = false := by simpa using hunlocked
      by_cases hmem : r.label cfg ∈ sh.streamMap
      · rw [if_pos hmem] at hx
        cases hx
        exact .found r o hfree hmem
      · rw [if_neg hmem] at hx
        cases hx
        exact .missing r o hfree hmem
  | create =>
    cases hx
    exact .created r o
  | store pair =>
    simp only [execStreams] at hx
    split at hx
    · cases hx
    · rename_i hunlocked
      cases hx
      exact .stored r o pair (by simpa using hunlocked)
  | final =>
    simp only [execStreams] at hx
    split at hx
    · cases hx
    · rename_i hunlocked
      have hfree : sh.streamMapLocked = false := by simpa using hunlocked
      split at hx
      · rename_i habsent
        cases hx
        exact .lost r o hfree habsent
      · rename_i pair hpresent
        cases hx
        exact .locked r o pair hfree hpresent
  | video pair =>
    simp only [execStreams] at hx
    split at hx
    · cases hx
    · rename_i hattached
      cases hx
      exact .video r o pair _ hattached
  | audio pair ret =>
    simp only [execStreams] at hx
    split at hx
    · cases hx
    · rename_i hattached
      cases hx
      exact .audio r o pair ret _ hattached

/-- Inversion of `exec`; later proofs split on its cases and do not unfold `exec`. -/
theorem exec_executed {pc : Pc} (hx : exec cfg e sh pc = .next sh' pc') :
    Executed cfg e sh pc sh' pc' := by
  cases pc with
  | accept r =>
    simp only [exec] at hx
    split at hx
    · rename_i hread
      cases hx
      exact .accepted r hread
    · cases hx
      exact .refused r
  | oldest r =>
    simp only [exec] at hx
    by_cases hempty : sh.getOldestPeerCannection cfg = ""
    · rw [if_pos hempty] at hx
      cases hx
      exact .room r hempty
    · rw [if_neg hempty] at hx
      cases hx
      exact .evicting r hempty
  | hangUp caller peerid h => exact execHangUp_executed hx
  | construct r =>
    simp only [exec] at hx
    split at hx
    · rename_i hfactory
      cases hx
      exact .constructed r hfactory
    · cases hx
      exact .unavailable r
  | opened r o =>
    simp only [exec] at hx
    by_cases hoffer : r.api = .createOffer
    · rw [if_pos hoffer] at hx
      cases hx
      exact .offering r o hoffer
    · rw [if_neg hoffer] at hx
      by_cases hnull : (sh.obs o).pc.isNone = true
      · rw [if_pos hnull] at hx
        cases hx
        exact .discarded r o hoffer hnull
      · rw [if_neg hnull] at hx
        cases hx
        exact .answering r o hoffer (by simpa [Option.isSome_iff_ne_none] using hnull)
  | register r o =>
    cases hx
    exact .registered r o
  | streams r o a => exact execStreams_executed hx
  | describe r o =>
    simp only [exec] at hx
    split at hx
    · cases hx
    · rename_i hnull
      cases hx
      exact .described r o (by simpa [Option.isSome_iff_ne_none] using hnull)
  | gather r o retry =>
    cases retry with
    | zero =>
      cases hx
      exact .gathered r o 0
    | succ retry =>
      by_cases hdone : e.gathered = true
      · simp only [exec, hdone, if_true] at hx
        cases hx
        exact .gathered r o _
      · simp only [exec, hdone] at hx
        cases hx
        exact .gathering r o retry
  | await r o =>
    cases hx
    exact .replied r o
  | done reply => cases hx

end Inversion

inductive Event where
  | inserted (peerid : PeerId) (o : ObsId)
  | tookOut (t : Tid) (caller : Caller) (peerid : PeerId) (o : ObsId)
  | destroyed (t : Tid) (caller : Caller) (o : ObsId)
  -- deleted by `getAnswer`, which found no peer connection
  | discarded (o : ObsId)
  | answered (t : Tid) (peerid : PeerId) (result : Bool)
  | stored (streamLabel : Label) (pair : AudioVideoPair)
  | closed (streamLabel : Label) (pair : AudioVideoPair)
  deriving DecidableEq, Repr

def events (cfg : Config) (e : Env) (t : Tid) (sh : Shared) : Pc → List Event
  | .opened r o =>
    if r.api ≠ .createOffer ∧ (sh.obs o).pc.isNone then [.discarded o] else []
  | .register r o =>
    if r.peerid ∈ sh.peerConnectionObsMap then [] else [.inserted r.peerid o]
  | .hangUp caller peerid .take =>
    match sh.peerConnectionObsMap[caller.target e sh peerid]? with
    | none => []
    | some o => [.tookOut t caller (caller.target e sh peerid) o]
  | .hangUp caller _ (.destroy o) => [.destroyed t caller o]
  | .hangUp _ peerid (.answer result) => [.answered t peerid result]
  | .hangUp _ _ (.close _ streamLabel _) =>
    match sh.streamMap[streamLabel]? with
    | none => []
    | some pair => [.closed streamLabel pair]
  | .streams r _ (.store pair) =>
    if r.label cfg ∈ sh.streamMap then [] else [.stored (r.label cfg) pair]
  | _ => []

/-- The events of a step, each with what the code has tested before it. -/
inductive Emitted (cfg : Config) (e : Env) (t : Tid) (sh : Shared) : Pc → Event → Prop where
  | discarded (r : Request) (o : ObsId) (null : (sh.obs o).pc.isNone = true) :
      Emitted cfg e t sh (.opened r o) (.discarded o)
  | inserted (r : Request) (o : ObsId) (absent : r.peerid ∉ sh.peerConnectionObsMap) :
      Emitted cfg e t sh (.register r o) (.inserted r.peerid o)
  | tookOut (caller : Caller) (peerid : PeerId) (o : ObsId)
      (present : sh.peerConnectionObsMap[caller.target e sh peerid]? = some o) :
      Emitted cfg e t sh (.hangUp caller peerid .take)
        (.tookOut t caller (caller.target e sh peerid) o)
  | destroyed (caller : Caller) (peerid : PeerId) (o : ObsId) :
      Emitted cfg e t sh (.hangUp caller peerid (.destroy o)) (.destroyed t caller o)
  | answered (caller : Caller) (peerid : PeerId) (result : Bool) :
      Emitted cfg e t sh (.hangUp caller peerid (.answer result)) (.answered t peerid result)
  | stored (r : Request) (o : ObsId) (pair : AudioVideoPair) (absent : r.label cfg ∉ sh.streamMap) :
      Emitted cfg e t sh (.streams r o (.store pair)) (.stored (r.label cfg) pair)
  | closed (caller : Caller) (peerid : PeerId) (o : ObsId) (l : Label) (rest : List (List Label))
      (pair : AudioVideoPair) (present : sh.streamMap[l]? = some pair) :
      Emitted cfg e t sh (.hangUp caller peerid (.close o l rest)) (.closed l pair)

theorem emitted_of_mem {cfg : Config} {e : Env} {t : Tid} {sh : Shared} {pc : Pc} {ev : Event}
    (h : ev ∈ events cfg e t sh pc) : Emitted cfg e t sh pc ev := by
  cases pc with
  | opened r o =>
    simp only [events] at h
    split at h
    · rename_i hnull
      cases List.mem_singleton.mp h
      exact .discarded r o hnull.2
    · cases h
  | register r o =>
    simp only [events] at h
    split at h
    · cases h
    · rename_i habsent
      cases List.mem_singleton.mp h
      exact .inserted r o habsent
  | hangUp caller peerid hp =>
    cases hp with
    | take =>
      simp only [events] at h
      split at h
      · cases h
      · rename_i o hpresent
        cases List.mem_singleton.mp h
        exact .tookOut caller peerid o hpresent
    | destroy o =>
      cases List.mem_singleton.mp h
      exact .destroyed caller peerid o
    | answer result =>
      cases List.mem_singleton.mp h
      exact .answered caller peerid result
    | close o l rest =>
      simp only [events] at h
      split at h
      · cases h
      · rename_i pair hpresent
        cases List.mem_singleton.mp h
        exact .closed caller peerid o l rest pair hpresent
    | enter | senders | scan => cases h
  | streams r o a =>
    cases a with
    | store pair =>
      simp only [events] at h
      split at h
      · cases h
      · rename_i habsent
        cases List.mem_singleton.mp h
        exact .stored r o pair habsent
    | _ => cases h
  | _ => cases h

structure State where
  shared : Shared
  threads : List Pc
  /-- the events so far, newest first -/
  trace : List Event
  /-- set when the process has crashed -/
  fault : Option Fault

def State.initial : State := ⟨.initial, [], [], none⟩

inductive Action where
  /-- a request arrives that creates a peer connection -/
  | request (r : Request)
  /-- `/api/hangup` or `whep` with DELETE -/
  | hangUp (peerid : PeerId)
  /-- a lookup of one peer: `getIceCandidateList`, `addIceCandidate`, `setAnswer`,
  `whep` with PATCH -/
  | lookup (peerid : PeerId)
  /-- `getPeerConnectionList` -/
  | list
  /-- WebRTC reports ICE failed or closed to an observer -/
  | iceClosed (o : ObsId)
  /-- the thread executes its next section -/
  | run (t : Tid) (e : Env)
  deriving DecidableEq, Repr

def State.spawn (s : State) (pc : Pc) : State := { s with threads := s.threads ++ [pc] }

def step (cfg : Config) (s : State) (a : Action) : Option State :=
  if s.fault.isSome then none
  else
    match a with
    | .request r => some (s.spawn (.accept r))
    | .hangUp peerid => some (s.spawn (.hangUp .client peerid .enter))
    | .lookup peerid =>
      some { s with shared :=
        (s.shared.peerConnectionObsMap[peerid]?).elim s.shared s.shared.touch }
    | .list => some { s with shared := s.shared.touchRegistered }
    | .iceClosed o =>
      -- the thread reads the peerid itself
      if (s.shared.obs o).alive && (s.shared.obs o).pc.isSome then
        some (s.spawn (.hangUp (.detached o) "" .enter))
      else none
    | .run t e =>
      match s.threads[t]? with
      | none => none
      | some pc =>
        match exec cfg e s.shared pc with
        | .blocked => none
        | .fault f => some { s with fault := some f }
        | .next sh pc' =>
          some { s with
            shared := sh
            threads := s.threads.set t pc'
            trace := events cfg e t s.shared pc ++ s.trace }

inductive Stepped (cfg : Config) (s : State) : Action → State → Prop where
  | request (r : Request) : Stepped cfg s (.request r) (s.spawn (.accept r))
  | hangUp (peerid : PeerId) :
      Stepped cfg s (.hangUp peerid) (s.spawn (.hangUp .client peerid .enter))
  | iceClosed (o : ObsId) (alive : (s.shared.obs o).alive = true)
      (connected : (s.shared.obs o).pc.isSome = true) :
      Stepped cfg s (.iceClosed o) (s.spawn (.hangUp (.detached o) "" .enter))
  | look {a : Action} (os : List ObsId) (registered : ∀ o ∈ os, o ∈ s.shared.registered) :
      Stepped cfg s a { s with shared := os.foldl Shared.touch s.shared }
  | crash (t : Tid) (e : Env) (f : Fault) : Stepped cfg s (.run t e) { s with fault := some f }
  | run {t : Tid} {e : Env} {pc pc' : Pc} {sh : Shared} (position : s.threads[t]? = some pc)
      (executed : Executed cfg e s.shared pc sh pc') :
      Stepped cfg s (.run t e)
        { s with
          shared := sh
          threads := s.threads.set t pc'
          trace := events cfg e t s.shared pc ++ s.trace }

theorem step_stepped {cfg : Config} {s s' : State} {a : Action} (h : step cfg s a = some s') :
    Stepped cfg s a s' := by
  unfold step at h
  split at h
  · cases h
  · cases a with
    | request r =>
      cases h
      exact .request r
    | hangUp peerid =>
      cases h
      exact .hangUp peerid
    | lookup peerid =>
      cases hp : s.shared.peerConnectionObsMap[peerid]? with
      | none =>
        simp only [hp, Option.elim_none, Option.some.injEq] at h
        subst h
        exact .look [] (by simp)
      | some o =>
        simp only [hp, Option.elim_some, Option.some.injEq] at h
        subst h
        exact .look [o] (by simpa using s.shared.mem_registered.mpr ⟨peerid, hp⟩)
    | list =>
      cases h
      exact .look s.shared.registered fun _ => id
    | iceClosed o =>
      simp only at h
      split at h
      · rename_i hok
        cases h
        rw [Bool.and_eq_true] at hok
        exact .iceClosed o hok.1 hok.2
      · cases h
    | run t e =>
      simp only at h
      split at h
      · cases h
      · rename_i pc hpc
        split at h
        · cases h
        · rename_i f _
          cases h
          exact .crash t e f
        · rename_i hnext
          cases h
          exact .run hpc (exec_executed hnext)

theorem step_run {cfg : Config} {t : Tid} {e : Env} {s s' : State}
    (hs : step cfg s (.run t e) = some s') :
    ∃ pc, s.threads[t]? = some pc ∧
      ((∃ f, exec cfg e s.shared pc = .fault f ∧ s' = { s with fault := some f }) ∨
        ∃ sh pc', Executed cfg e s.shared pc sh pc' ∧
          s' = { s with
            shared := sh
            threads := s.threads.set t pc'
            trace := events cfg e t s.shared pc ++ s.trace }) := by
  unfold step at hs
  split at hs
  · cases hs
  · simp only at hs
    split at hs
    · cases hs
    · rename_i pc hpc
      refine ⟨pc, hpc, ?_⟩
      split at hs
      · cases hs
      · rename_i f hfault
        cases hs
        exact .inl ⟨f, hfault, rfl⟩
      · rename_i hnext
        cases hs
        exact .inr ⟨_, _, exec_executed hnext, rfl⟩

abbrev Reachable (cfg : Config) (s : State) : Prop := Transition.Reachable (step cfg) .initial s

theorem Reachable.of_run (cfg : Config) (as : List Action) (p : State → Bool)
    (h : (Transition.run (step cfg) (fun _ _ => True) .initial as).any p = true) :
    ∃ s, Reachable cfg s ∧ p s = true :=
  Transition.exists_reaches_of_run _ _ _ as p h

/-! A configuration and an environment for concrete runs. -/

def Config.plain (maxpc : Int) : Config := ⟨maxpc, .null, fun _ => 0, fun _ => true, false⟩

/-- Everything succeeds, and each source request opens source `source`. -/
def Env.fine (source : Source) : Env :=
  { random := "r", message := true, parsed := true, connected := true, time := 0
    videoSource := some source, audioSource := none, videoTrack := true, audioTrack := true
    videoAdded := true, audioAdded := true, gathered := true, description := some "sdp"
    freed := "" }

def Request.plain (api : Api) (peerid : PeerId) (videourl : String) : Request :=
  { api, peerid, videourl, audiourl := "", options := "", useNullCodec := false }

def runs (t : Tid) (n : Nat) (e : Env) : List Action := List.replicate n (.run t e)

end WebrtcStreamer
