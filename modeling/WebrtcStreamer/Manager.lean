import WebrtcStreamer.StreamLabel

/-! The state shared by all requests of `PeerConnectionManager` and the sections
of code that look at it or change it in one step: what runs under
`m_peerMapMutex`, what runs under `m_streamMapMutex`, the construction and the
destruction of an observer, and `AddTrack`. -/

set_option autoImplicit false

namespace WebrtcStreamer

abbrev PeerId := String
abbrev Label := String

/-- A `PeerConnectionObserver*`: the number of observers constructed before. -/
abbrev ObsId := Nat

abbrev Source := Nat

/-- `AudioVideoPair`, with `none` for a null source. -/
abbrev AudioVideoPair := Option Source × Option Source

inductive Kind where
  | video | audio
  deriving DecidableEq, Repr

structure Sender where
  streamIds : List Label
  kind : Kind
  source : Source
  deriving DecidableEq, Repr

/-- An observer and the peer connection it has created. The peer connection is
reference counted: it stays usable for those who hold it after the observer
has been deleted (`alive` is false from then on). -/
structure PeerConnectionObserver where
  peerid : PeerId
  creationTime : UInt64
  /-- `m_pc`: null, or a peer connection with these senders. -/
  pc : Option (List Sender)
  alive : Bool
  deriving DecidableEq, Repr

structure Config where
  maxpc : Int
  aliases : AliasConfig
  /-- `std::hash<std::string>`. -/
  hash : String → UInt64
  /-- Whether the factory for this value of `useNullCodec` exists. -/
  factory : Bool → Bool
  /-- Whether `RTC_LOG(LS_INFO)` evaluates its arguments. -/
  logInfo : Bool

structure Shared where
  /-- `m_peer_connectionobs_map` -/
  peerConnectionObsMap : Std.TreeMap PeerId ObsId
  /-- `m_stream_map` -/
  streamMap : Std.TreeMap Label AudioVideoPair
  /-- Some `AddStreams` is inside its last section, which holds
  `m_streamMapMutex` while it adds the tracks one by one. -/
  streamMapLocked : Bool
  /-- All observers constructed so far, by `ObsId`. -/
  observers : List PeerConnectionObserver
  /-- Ghost: the observers of which a member was read after their deletion. -/
  staleReads : List ObsId

def Shared.initial : Shared := ⟨∅, ∅, false, [], []⟩

inductive Fault where
  /-- a method called through a null peer connection -/
  | nullPeerConnection
  /-- an exception that nothing catches -/
  | uncaughtException
  deriving DecidableEq, Repr

namespace Shared

variable (sh : Shared)

def obs (o : ObsId) : PeerConnectionObserver := sh.observers.getD o ⟨"", 0, none, false⟩

def senders (o : ObsId) : List Sender := (sh.obs o).pc.getD []

def labels (o : ObsId) : List Label := (sh.senders o).flatMap Sender.streamIds

def modifyObs (o : ObsId) (f : PeerConnectionObserver → PeerConnectionObserver) : Shared :=
  { sh with observers := sh.observers.modify o f }

def touch (o : ObsId) : Shared :=
  if (sh.obs o).alive then sh else { sh with staleReads := o :: sh.staleReads }

def registered : List ObsId := sh.peerConnectionObsMap.toList.map Prod.snd

def touchRegistered : Shared := sh.registered.foldl touch sh

def peersFull (cfg : Config) : Bool :=
  0 < cfg.maxpc && cfg.maxpc.toNat ≤ sh.peerConnectionObsMap.size

/-- `getOldestPeerCannection`: the peerid of an oldest peer, empty when there is
room. `m_peerid` and `m_creationTime` come from the observer, not from the key. -/
def getOldestPeerCannection (cfg : Config) : PeerId :=
  if sh.peersFull cfg then
    (sh.registered.foldl (fun oldest o =>
      if (sh.obs o).creationTime < oldest.1 then ((sh.obs o).creationTime, (sh.obs o).peerid)
      else oldest) ((18446744073709551615 : UInt64), "")).2
  else ""

/-- `new PeerConnectionObserver(...)`, with the outcome of `CreatePeerConnectionOrError`. -/
def construct (peerid : PeerId) (connected : Bool) (time : UInt64) : Shared :=
  { sh with observers := sh.observers ++
      [⟨peerid, time, if connected then some [] else none, true⟩] }

/-- `m_peer_connectionobs_map.insert(...)`, which keeps an entry that is there. -/
def registerPeer (peerid : PeerId) (o : ObsId) : Shared :=
  { sh with peerConnectionObsMap := sh.peerConnectionObsMap.insertIfNew peerid o }

def erasePeer (peerid : PeerId) : Shared :=
  { sh with peerConnectionObsMap := sh.peerConnectionObsMap.erase peerid }

/-- `getPeerConnection`: the connection later requests for this peerid act on. -/
def getPeerConnection (peerid : PeerId) : Option ObsId :=
  sh.peerConnectionObsMap[peerid]?.filter fun o => (sh.obs o).pc.isSome

/-- `delete`: the destructor sets `m_deleting` and closes the connection, so no
detached hangup is started for it. -/
def deleteObserver (o : ObsId) : Shared :=
  (sh.touch o).modifyObs o fun obs => { obs with alive := false }

/-- `streamStillUsed`: the senders of every registered peer are searched for
one whose first stream id is the label. -/
def streamStillUsed (streamLabel : Label) : Except Fault Bool :=
  sh.registered.foldlM (fun stillUsed o =>
    match (sh.obs o).pc with
    | none => .error .nullPeerConnection
    | some localstreams =>
      .ok (stillUsed || localstreams.any fun s => s.streamIds.head? = some streamLabel)) false

def sends (streamLabel : Label) (o : ObsId) : Bool :=
  (sh.senders o).any fun s => s.streamIds.head? = some streamLabel

def eraseStream (streamLabel : Label) : Shared :=
  { sh with streamMap := sh.streamMap.erase streamLabel }

/-- The double-checked insertion of `AddStreams`. -/
def storeStream (streamLabel : Label) (pair : AudioVideoPair) : Shared :=
  { sh with streamMap := sh.streamMap.insertIfNew streamLabel pair }

def addSender (o : ObsId) (s : Sender) : Shared :=
  sh.modifyObs o fun obs => { obs with pc := obs.pc.map (· ++ [s]) }

/-- The part of `AddStreams` for one of the two sources. A null source attaches
nothing. When no track could be created nothing is added either, but the code
goes the way of success. -/
def attachTrack (o : ObsId) (streamLabel : Label) (kind : Kind) (source : Option Source)
    (track added : Bool) : Except Fault (Shared × Bool) :=
  match source with
  | none => .ok (sh, false)
  | some source =>
    if !track then .ok (sh, true)
    else if (sh.obs o).pc.isNone then .error .nullPeerConnection
    else if added then .ok (sh.addSender o ⟨[streamLabel], kind, source⟩, true)
    else .ok (sh, false)

def lockStreamMap (locked : Bool) : Shared := { sh with streamMapLocked := locked }

/-! Field lemmas: later proofs use these and do not unfold the sections. -/

theorem obs_lt_of_alive {sh : Shared} {o : Nat} (h : (sh.obs o).alive = true) :
    o < sh.observers.length := by
  by_contra hlt
  have hnone : sh.observers[o]? = none := List.getElem?_eq_none (by omega)
  simp [obs, List.getD_eq_getElem?_getD, hnone] at h

theorem obs_lt_of_connected {sh : Shared} {o : Nat} (h : (sh.obs o).pc.isSome = true) :
    o < sh.observers.length := by
  by_contra hlt
  have hnone : sh.observers[o]? = none := List.getElem?_eq_none (by omega)
  simp [obs, List.getD_eq_getElem?_getD, hnone] at h

@[simp] theorem touch_peerConnectionObsMap (o : ObsId) :
    (sh.touch o).peerConnectionObsMap = sh.peerConnectionObsMap := by
  unfold touch; split <;> rfl

@[simp] theorem touch_streamMap (o : ObsId) : (sh.touch o).streamMap = sh.streamMap := by
  unfold touch; split <;> rfl

@[simp] theorem touch_streamMapLocked (o : ObsId) :
    (sh.touch o).streamMapLocked = sh.streamMapLocked := by
  unfold touch; split <;> rfl

@[simp] theorem touch_observers (o : ObsId) : (sh.touch o).observers = sh.observers := by
  unfold touch; split <;> rfl

@[simp] theorem touch_obs (o o' : ObsId) : (sh.touch o).obs o' = sh.obs o' := by
  simp [obs]

theorem touch_of_alive {o : ObsId} (h : (sh.obs o).alive = true) : sh.touch o = sh := by
  simp [touch, h]

theorem foldl_touch (os : List ObsId) (sh : Shared) :
    (os.foldl touch sh).peerConnectionObsMap = sh.peerConnectionObsMap ∧
      (os.foldl touch sh).streamMap = sh.streamMap ∧
      (os.foldl touch sh).streamMapLocked = sh.streamMapLocked ∧
      (os.foldl touch sh).observers = sh.observers := by
  induction os generalizing sh with
  | nil => simp
  | cons o os ih => simpa using ih (sh.touch o)

@[simp] theorem touchRegistered_peerConnectionObsMap :
    sh.touchRegistered.peerConnectionObsMap = sh.peerConnectionObsMap := (foldl_touch _ _).1

@[simp] theorem touchRegistered_streamMap : sh.touchRegistered.streamMap = sh.streamMap :=
  (foldl_touch _ _).2.1

@[simp] theorem touchRegistered_streamMapLocked :
    sh.touchRegistered.streamMapLocked = sh.streamMapLocked := (foldl_touch _ _).2.2.1

@[simp] theorem touchRegistered_observers : sh.touchRegistered.observers = sh.observers :=
  (foldl_touch _ _).2.2.2

@[simp] theorem touchRegistered_obs (o : ObsId) : sh.touchRegistered.obs o = sh.obs o := by
  simp [obs]

theorem foldl_touch_of_alive (os : List ObsId) (h : ∀ o ∈ os, (sh.obs o).alive = true) :
    os.foldl touch sh = sh := by
  induction os with
  | nil => rfl
  | cons o os ih =>
    rw [List.foldl_cons, sh.touch_of_alive (h o List.mem_cons_self)]
    exact ih fun o' ho' => h o' (List.mem_cons_of_mem _ ho')

theorem mem_registered {o : ObsId} :
    o ∈ sh.registered ↔ ∃ p : PeerId, sh.peerConnectionObsMap[p]? = some o := by
  unfold registered
  rw [List.mem_map]
  constructor
  · rintro ⟨⟨p, o'⟩, hmem, rfl⟩
    exact ⟨p, Std.TreeMap.mem_toList_iff_getElem?_eq_some.mp hmem⟩
  · rintro ⟨p, hp⟩
    exact ⟨(p, o), Std.TreeMap.mem_toList_iff_getElem?_eq_some.mpr hp, rfl⟩

theorem touchRegistered_of_alive
    (h : ∀ (p : PeerId) (o : ObsId), sh.peerConnectionObsMap[p]? = some o →
      (sh.obs o).alive = true) :
    sh.touchRegistered = sh := by
  apply sh.foldl_touch_of_alive
  intro o ho
  obtain ⟨p, hp⟩ := sh.mem_registered.mp ho
  exact h p o hp

/-! How the sections change what a lookup in the peer map finds. -/

theorem registerPeer_new {sh : Shared} {p : PeerId} (o : ObsId)
    (h : sh.peerConnectionObsMap[p]? = none) :
    (fun q : PeerId => (sh.registerPeer p o).peerConnectionObsMap[q]?) =
      Function.update (fun q : PeerId => sh.peerConnectionObsMap[q]?) p (some o) := by
  funext q
  have hout : p ∉ sh.peerConnectionObsMap := by
    rw [Std.TreeMap.mem_iff_isSome_getElem?, h]
    simp
  simp only [registerPeer, Std.TreeMap.getElem?_insertIfNew]
  by_cases hq : q = p
  · subst hq
    simp [hout]
  · have hne : compare p q ≠ .eq := fun heq => hq (Std.LawfulEqCmp.compare_eq_iff_eq.mp heq).symm
    simp [hne, hq]

theorem registerPeer_old {sh : Shared} {p : PeerId} (o : ObsId) (h : p ∈ sh.peerConnectionObsMap) :
    (fun q : PeerId => (sh.registerPeer p o).peerConnectionObsMap[q]?) =
      fun q : PeerId => sh.peerConnectionObsMap[q]? := by
  funext q
  simp only [registerPeer, Std.TreeMap.getElem?_insertIfNew]
  rw [if_neg (fun hc => hc.2 h)]

theorem registerPeer_keeps {sh : Shared} {p q : PeerId} {o o' : ObsId}
    (h : sh.peerConnectionObsMap[q]? = some o') :
    (sh.registerPeer p o).peerConnectionObsMap[q]? = some o' := by
  by_cases hmem : p ∈ sh.peerConnectionObsMap
  · exact (congrFun (registerPeer_old o hmem) q).trans h
  · have hne : q ≠ p := by
      rintro rfl
      rw [Std.TreeMap.mem_iff_isSome_getElem?, h] at hmem
      exact hmem rfl
    have hnew := congrFun (registerPeer_new o (by simpa using hmem)) q
    rw [Function.update_of_ne hne] at hnew
    exact hnew.trans h

theorem erasePeer_update (sh : Shared) (p : PeerId) :
    (fun q : PeerId => (sh.erasePeer p).peerConnectionObsMap[q]?) =
      Function.update (fun q : PeerId => sh.peerConnectionObsMap[q]?) p none := by
  funext q
  simp only [erasePeer, Std.TreeMap.getElem?_erase]
  by_cases hq : q = p
  · subst hq
    simp
  · have hne : compare p q ≠ .eq := fun heq => hq (Std.LawfulEqCmp.compare_eq_iff_eq.mp heq).symm
    simp [hne, hq]

theorem registerPeer_lookup {sh : Shared} {p q : PeerId} {o o' : ObsId}
    (h : (sh.registerPeer p o).peerConnectionObsMap[q]? = some o') :
    sh.peerConnectionObsMap[q]? = some o' ∨ (p ∉ sh.peerConnectionObsMap ∧ q = p ∧ o' = o) := by
  by_cases hmem : p ∈ sh.peerConnectionObsMap
  · exact .inl (congrFun (registerPeer_old o hmem) q ▸ h)
  · have hnew := congrFun (registerPeer_new o (by simpa using hmem)) q
    simp only [h] at hnew
    by_cases hq : q = p
    · subst hq
      rw [Function.update_self] at hnew
      exact .inr ⟨hmem, rfl, by simpa using hnew⟩
    · rw [Function.update_of_ne hq] at hnew
      exact .inl hnew.symm

theorem erasePeer_lookup {sh : Shared} {p q : PeerId} {o : ObsId}
    (h : (sh.erasePeer p).peerConnectionObsMap[q]? = some o) :
    q ≠ p ∧ sh.peerConnectionObsMap[q]? = some o := by
  have hupdate := congrFun (sh.erasePeer_update p) q
  simp only [h] at hupdate
  by_cases hq : q = p
  · subst hq
    rw [Function.update_self] at hupdate
    cases hupdate
  · rw [Function.update_of_ne hq] at hupdate
    exact ⟨hq, hupdate.symm⟩

/-! The same for the stream map. -/

theorem storeStream_new {sh : Shared} {l : Label} (pair : AudioVideoPair)
    (h : sh.streamMap[l]? = none) :
    (fun k : Label => (sh.storeStream l pair).streamMap[k]?) =
      Function.update (fun k : Label => sh.streamMap[k]?) l (some pair) := by
  funext k
  have hout : l ∉ sh.streamMap := by
    rw [Std.TreeMap.mem_iff_isSome_getElem?, h]
    simp
  simp only [storeStream, Std.TreeMap.getElem?_insertIfNew]
  by_cases hk : k = l
  · subst hk
    simp [hout]
  · have hne : compare l k ≠ .eq := fun heq => hk (Std.LawfulEqCmp.compare_eq_iff_eq.mp heq).symm
    simp [hne, hk]

theorem storeStream_old {sh : Shared} {l : Label} (pair : AudioVideoPair) (h : l ∈ sh.streamMap) :
    (fun k : Label => (sh.storeStream l pair).streamMap[k]?) =
      fun k : Label => sh.streamMap[k]? := by
  funext k
  simp only [storeStream, Std.TreeMap.getElem?_insertIfNew]
  rw [if_neg (fun hc => hc.2 h)]

theorem storeStream_keeps {sh : Shared} {l k : Label} {pair pair' : AudioVideoPair}
    (h : sh.streamMap[k]? = some pair') : (sh.storeStream l pair).streamMap[k]? = some pair' := by
  by_cases hmem : l ∈ sh.streamMap
  · exact (congrFun (storeStream_old pair hmem) k).trans h
  · have hnew := congrFun (storeStream_new pair (by simpa using hmem)) k
    have hk : k ≠ l := by
      rintro rfl
      rw [Std.TreeMap.mem_iff_isSome_getElem?, h] at hmem
      exact hmem rfl
    exact hnew.trans (by rw [Function.update_of_ne hk, h])

theorem storeStream_self (sh : Shared) (l : Label) (pair : AudioVideoPair) :
    (sh.storeStream l pair).streamMap[l]? = some ((sh.streamMap[l]?).getD pair) := by
  cases hfound : sh.streamMap[l]? with
  | some pair' => exact storeStream_keeps hfound
  | none =>
    have hnew := congrFun (storeStream_new pair hfound) l
    rw [Function.update_self] at hnew
    exact hnew

theorem eraseStream_update (sh : Shared) (l : Label) :
    (fun k : Label => (sh.eraseStream l).streamMap[k]?) =
      Function.update (fun k : Label => sh.streamMap[k]?) l none := by
  funext k
  simp only [eraseStream, Std.TreeMap.getElem?_erase]
  by_cases hk : k = l
  · subst hk
    simp
  · have hne : compare l k ≠ .eq := fun heq => hk (Std.LawfulEqCmp.compare_eq_iff_eq.mp heq).symm
    simp [hne, hk]

@[simp] theorem registerPeer_obs (p : PeerId) (o o' : ObsId) :
    (sh.registerPeer p o).obs o' = sh.obs o' := rfl

@[simp] theorem registerPeer_observers (p : PeerId) (o : ObsId) :
    (sh.registerPeer p o).observers = sh.observers := rfl

@[simp] theorem erasePeer_obs (p : PeerId) (o : ObsId) : (sh.erasePeer p).obs o = sh.obs o := rfl

@[simp] theorem eraseStream_obs (l : Label) (o : ObsId) : (sh.eraseStream l).obs o = sh.obs o := rfl

@[simp] theorem storeStream_obs (l : Label) (pair : AudioVideoPair) (o : ObsId) :
    (sh.storeStream l pair).obs o = sh.obs o := rfl

@[simp] theorem lockStreamMap_obs (locked : Bool) (o : ObsId) :
    (sh.lockStreamMap locked).obs o = sh.obs o := rfl

@[simp] theorem construct_length (p : PeerId) (connected : Bool) (time : UInt64) :
    (sh.construct p connected time).observers.length = sh.observers.length + 1 := by
  simp [construct]

@[simp] theorem deleteObserver_length (o : ObsId) :
    (sh.deleteObserver o).observers.length = sh.observers.length := by
  simp [deleteObserver, modifyObs]

@[simp] theorem deleteObserver_peerConnectionObsMap (o : ObsId) :
    (sh.deleteObserver o).peerConnectionObsMap = sh.peerConnectionObsMap := by
  simp [deleteObserver, modifyObs]

@[simp] theorem addSender_length (o : ObsId) (s : Sender) :
    (sh.addSender o s).observers.length = sh.observers.length := by
  simp [addSender, modifyObs]

theorem attachTrack_connected {sh : Shared} {o : ObsId} (h : (sh.obs o).pc.isSome = true)
    (l : Label) (kind : Kind) (source : Option Source) (track added : Bool) :
    ∃ x, sh.attachTrack o l kind source track added = .ok x := by
  have hnone := Option.isNone_eq_false_iff.mpr h
  cases source <;> cases track <;> cases added <;> simp [attachTrack, hnone]

theorem streamStillUsed_ok {l : Label} {stillUsed : Bool}
    (h : sh.streamStillUsed l = .ok stillUsed) : stillUsed = sh.registered.any (sh.sends l) := by
  have hloop : ∀ (os : List ObsId) (before : Bool),
      (os.foldlM (fun stillUsed o =>
        match (sh.obs o).pc with
        | none => Except.error Fault.nullPeerConnection
        | some localstreams => Except.ok
          (stillUsed || localstreams.any fun s => s.streamIds.head? = some l)) before) =
            .ok stillUsed →
      stillUsed = (before || os.any (sh.sends l)) := by
    intro os
    induction os with
    | nil =>
      intro before hf
      cases hf
      simp
    | cons o os ih =>
      intro before hf
      rw [List.foldlM_cons] at hf
      cases hpc : (sh.obs o).pc with
      | none =>
        rw [hpc] at hf
        cases hf
      | some localstreams =>
        rw [hpc] at hf
        have hsends : sh.sends l o = localstreams.any fun s => s.streamIds.head? = some l := by
          simp [sends, senders, hpc]
        rw [ih _ hf, List.any_cons, hsends, Bool.or_assoc]
  simpa using hloop sh.registered false h

theorem modifyObs_obs (o o' : ObsId) (f : PeerConnectionObserver → PeerConnectionObserver)
    (hf : f ⟨"", 0, none, false⟩ = ⟨"", 0, none, false⟩) :
    (sh.modifyObs o f).obs o' = if o = o' then f (sh.obs o') else sh.obs o' := by
  simp only [modifyObs, obs, List.getD_eq_getElem?_getD, List.getElem?_modify]
  cases sh.observers[o']? <;> by_cases h : o = o' <;> simp [h, hf]

@[simp] theorem construct_obs (p : PeerId) (connected : Bool) (time : UInt64) (o : Nat) :
    (sh.construct p connected time).obs o =
      if o = sh.observers.length then ⟨p, time, if connected then some [] else none, true⟩
      else sh.obs o := by
  simp only [construct, obs, List.getD_eq_getElem?_getD, List.getElem?_append]
  split
  · rw [if_neg (by omega)]
  · rename_i h
    by_cases ho : o = sh.observers.length
    · simp [ho]
    · have hpos : 1 ≤ o - sh.observers.length := by omega
      have hlen : sh.observers.length ≤ o := by omega
      rw [List.getElem?_eq_none (by simpa using hpos), if_neg ho, List.getElem?_eq_none hlen]

@[simp] theorem deleteObserver_obs (o o' : ObsId) :
    (sh.deleteObserver o).obs o' =
      if o = o' then { sh.obs o' with alive := false } else sh.obs o' := by
  rw [deleteObserver, modifyObs_obs _ _ _ _ rfl]
  simp

@[simp] theorem addSender_obs (o o' : ObsId) (s : Sender) :
    (sh.addSender o s).obs o' =
      if o = o' then { sh.obs o' with pc := (sh.obs o').pc.map (· ++ [s]) } else sh.obs o' := by
  rw [addSender, modifyObs_obs _ _ _ _ rfl]

end Shared

end WebrtcStreamer
