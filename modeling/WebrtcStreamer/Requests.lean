import WebrtcStreamer.Manager

/-! The requests as the code performs them when nothing else runs in between. -/

set_option autoImplicit false

namespace WebrtcStreamer

theorem bind_ok {ε α β : Type} {x : Except ε α} {f : α → Except ε β} {b : β}
    (h : (x >>= f) = .ok b) : ∃ a, x = .ok a ∧ f a = .ok b := by
  cases x with
  | error e => cases h
  | ok a => exact ⟨a, rfl, h⟩

/-- The API entries that create a peer connection; `whep` stands for its POST. -/
inductive Api where
  | call | whep | createOffer
  deriving DecidableEq, Repr

structure Request extends StreamRequest where
  api : Api
  peerid : PeerId
  deriving DecidableEq, Repr

structure Env where
  /-- `random_string(32)` -/
  random : String
  /-- the JSON message of `call` has a string `sdp` -/
  message : Bool
  /-- `CreateSessionDescription(kOffer, sdp)` is not null -/
  parsed : Bool
  /-- `CreatePeerConnectionOrError(...).ok()` -/
  connected : Bool
  /-- `webrtc::TimeMicros()` -/
  time : UInt64
  videoSource : Option Source
  audioSource : Option Source
  /-- `CreateVideoTrack` and `CreateAudioTrack` are not null -/
  videoTrack : Bool
  audioTrack : Bool
  /-- `AddTrack(...).ok()` -/
  videoAdded : Bool
  audioAdded : Bool
  /-- the gathering state is complete -/
  gathered : Bool
  /-- the local description that arrives in time; `none` for a failure or a timeout -/
  description : Option String
  /-- what is read as `m_peerid` of an observer that has been deleted -/
  freed : PeerId
  deriving DecidableEq, Repr

/-- A session description with the observer whose connection it describes. -/
structure Description where
  origin : ObsId
  sdp : String
  deriving DecidableEq, Repr

inductive Caller where
  /-- `/api/hangup`, or `whep` with the method DELETE -/
  | client
  /-- `CreatePeerConnection` on behalf of this request -/
  | evict (r : Request)
  /-- the thread that `OnIceConnectionChange` of this observer has detached -/
  | detached (o : ObsId)
  deriving DecidableEq, Repr

/-- A detached thread works on members of the observer: the string that `hangUp`
has got by reference is `m_peerid`. Other callers own the string. -/
def Caller.readMember : Caller → Shared → Shared
  | .detached o, sh => sh.touch o
  | _, sh => sh

def Caller.target (e : Env) (sh : Shared) (peerid : PeerId) : Caller → PeerId
  | .detached o => if (sh.obs o).alive then (sh.obs o).peerid else e.freed
  | _ => peerid

def Caller.logPeerId (caller : Caller) (cfg : Config) (sh : Shared) : Shared :=
  if cfg.logInfo then caller.readMember sh else sh

/-- The loop of `hangUp` over the senders. `RemoveTrackOrError` is left out: it
acts on a connection that is no longer registered, whose senders nobody reads. -/
def closeStreams : List (List Label) → Shared → Except Fault Shared
  | [], sh => .ok sh
  | [] :: rest, sh => closeStreams rest sh
  | (streamLabel :: _) :: rest, sh => do
    let stillUsed ← sh.streamStillUsed streamLabel
    let sh := sh.touchRegistered
    closeStreams rest (if stillUsed then sh else sh.eraseStream streamLabel)

/-- `hangUp` for a caller that owns the string. The first read is the one of
`m_peerConnectionManager` that a detached thread makes to call it. -/
def hangUp (cfg : Config) (caller : Caller) (peerid : PeerId) (sh : Shared) :
    Except Fault (Shared × Bool) := do
  let sh := caller.logPeerId cfg (caller.readMember sh)
  let sh := caller.readMember sh
  match sh.peerConnectionObsMap[peerid]? with
  | none => .ok (caller.logPeerId cfg sh, false)
  | some o =>
    let sh := (sh.erasePeer peerid).touch o
    match (sh.obs o).pc with
    | none => .error .nullPeerConnection
    | some localstreams =>
      let sh ← closeStreams (localstreams.map Sender.streamIds) sh
      .ok (caller.logPeerId cfg (sh.deleteObserver o), true)

def evictOldest (cfg : Config) (r : Request) (sh : Shared) : Except Fault Shared := do
  let oldestpeerid := sh.getOldestPeerCannection cfg
  let sh := if sh.peersFull cfg then sh.touchRegistered else sh
  if oldestpeerid = "" then .ok sh
  else
    let (sh, _) ← hangUp cfg (.evict r) oldestpeerid sh
    .ok sh

def createPeerConnection (cfg : Config) (e : Env) (r : Request) (sh : Shared) :
    Except Fault (Shared × Option ObsId) := do
  let sh ← evictOldest cfg r sh
  if cfg.factory r.useNullCodec then
    .ok (sh.construct r.peerid e.connected e.time, some sh.observers.length)
  else .ok (sh, none)

def Request.label (cfg : Config) (r : Request) : Label :=
  streamLabel cfg.hash cfg.aliases r.toStreamRequest

def setBitrate (cfg : Config) (r : Request) (o : ObsId) (sh : Shared) : Except Fault Unit :=
  match (streamOptions cfg.aliases r.toStreamRequest)["bitrate"]? with
  | none => .ok ()
  | some text =>
    match stoi text with
    | none => .error .uncaughtException
    | some _ => if (sh.obs o).pc.isNone then .error .nullPeerConnection else .ok ()

def setUpStreams (cfg : Config) (r : Request) (o : ObsId) (sh : Shared) : Except Fault Unit :=
  match readConfig cfg.aliases r.toStreamRequest with
  | .error _ => .error .uncaughtException
  | .ok _ => setBitrate cfg r o sh

def addStreams (cfg : Config) (e : Env) (r : Request) (o : ObsId) (sh : Shared) :
    Except Fault (Shared × Bool) := do
  setUpStreams cfg r o sh
  let label := r.label cfg
  let sh := if label ∈ sh.streamMap then sh
    else sh.storeStream label (e.videoSource, e.audioSource)
  match sh.streamMap[label]? with
  | none => .ok (sh, false)
  | some pair =>
    let (sh, video) ← sh.attachTrack o label .video pair.1 e.videoTrack e.videoAdded
    let (sh, audio) ← sh.attachTrack o label .audio pair.2 e.audioTrack e.audioAdded
    .ok (sh, video || audio)

def pollGathering (gathered : Bool) (o : ObsId) : Nat → Shared → Shared
  | 0, sh => sh.touch o
  | retry + 1, sh => if gathered then sh.touch o else pollGathering gathered o retry (sh.touch o)

def getAnswer (cfg : Config) (e : Env) (r : Request) (sh : Shared) :
    Except Fault (Shared × Option Description) := do
  if !e.parsed then .ok (sh, none)
  else
    let (sh, obs) ← createPeerConnection cfg e r sh
    match obs with
    | none => .ok (sh, none)
    | some o =>
      let sh := sh.touch o
      if (sh.obs o).pc.isNone then .ok (sh.deleteObserver o, none)
      else
        let (sh, ok) ← addStreams cfg e r o (sh.registerPeer r.peerid o)
        if !ok then .ok (sh, none)
        else
          let sh := if r.api = .whep then pollGathering e.gathered o 5 sh else sh
          .ok (sh, e.description.map (⟨o, ·⟩))

def createOffer (cfg : Config) (e : Env) (r : Request) (sh : Shared) :
    Except Fault (Shared × Option Description) := do
  let (sh, obs) ← createPeerConnection cfg e r sh
  match obs with
  | none => .ok (sh, none)
  | some o =>
    let (sh, ok) ← addStreams cfg e r o (sh.touch o)
    if !ok then .ok (sh, none)
    else
      let sh := sh.registerPeer r.peerid o
      if (sh.obs o).pc.isNone then .error .nullPeerConnection
      else .ok (sh, e.description.map (⟨o, ·⟩))

def call (cfg : Config) (e : Env) (r : Request) (sh : Shared) :
    Except Fault (Shared × Option Description) :=
  if e.message then getAnswer cfg e r sh else .ok (sh, none)

/-- `whep` picks a random peerid where the request has none. -/
def Request.identified (e : Env) (r : Request) : Request :=
  if r.api = .whep && r.peerid = "" then { r with peerid := e.random } else r

def whep (cfg : Config) (e : Env) (r : Request) (sh : Shared) :
    Except Fault (Shared × Option Description) :=
  getAnswer cfg e (r.identified e) sh

def serve (cfg : Config) (e : Env) (r : Request) : Shared →
    Except Fault (Shared × Option Description) :=
  match r.api with
  | .call => call cfg e r
  | .whep => whep cfg e r
  | .createOffer => createOffer cfg e r

end WebrtcStreamer
