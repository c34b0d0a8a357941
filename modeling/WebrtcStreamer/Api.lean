import WebrtcStreamer.Json
import WebrtcStreamer.Requests

/-! The HTTP and WebSocket handlers and the API functions that they invoke, from
the bytes of a message to the reply. -/

set_option autoImplicit false

namespace WebrtcStreamer

open Json (Value LogicError)

/-- The functions of third-party libraries, none of which looks at the server's state. -/
structure Library where
  /-- `CharReader::parse`, with the value it leaves; `none` for its exception on
  a text that is nested too deeply -/
  parse : String → Option (Bool × Value)
  /-- `CivetServer::getParam`: the value of a parameter of a query string, empty without it -/
  getParam : String → String → String
  /-- `webrtc::GetStringFromJsonObject` and `webrtc::GetIntFromJsonObject` -/
  getStringFromJsonObject : Value → String → Option String
  getIntFromJsonObject : Value → String → Option Int
  /-- `Json::writeString` -/
  writeString : Value → String
  /-- `mg_get_response_code_text` -/
  responseCodeText : Int → String

structure IceCandidate where
  mid : String
  mlineIndex : Int
  sdp : String
  deriving DecidableEq, Repr

/-- What WebRTC answers while a message is served. -/
structure ApiEnv extends Env where
  /-- `CreateSessionDescription(kOffer, sdp)` is not null, and with `kAnswer` -/
  parseOffer : String → Bool
  parseAnswer : String → Bool
  /-- `CreateIceCandidate(...)` is not null -/
  createIceCandidate : IceCandidate → Bool
  /-- `AddIceCandidate`, on a connection that was given these before -/
  acceptIceCandidate : List IceCandidate → IceCandidate → Bool
  /-- type and text of the description that `setAnswer` gets in time -/
  remote : Option (String × String)
  /-- `getIceCandidateList` of an observer, and what `getPeerConnectionList` says of it -/
  iceCandidateList : ObsId → Value
  content : ObsId → Value
  /-- `GetLogToDebug()`, after a request with this level -/
  logToDebug : String → Int

/-- The keys of `m_func`, without what they have in common. -/
inductive ApiPath where
  | getMediaList | getVideoDeviceList | getAudioDeviceList | getAudioPlayoutList | getIceServers
  | call | whep | hangup | createOffer | setAnswer | getIceCandidate | addIceCandidate
  | getPeerConnectionList | getStreamList | version | log | help
  deriving DecidableEq, Repr

def ApiPath.name : ApiPath → String
  | .getMediaList => "getMediaList"
  | .getVideoDeviceList => "getVideoDeviceList"
  | .getAudioDeviceList => "getAudioDeviceList"
  | .getAudioPlayoutList => "getAudioPlayoutList"
  | .getIceServers => "getIceServers"
  | .call => "call"
  | .whep => "whep"
  | .hangup => "hangup"
  | .createOffer => "createOffer"
  | .setAnswer => "setAnswer"
  | .getIceCandidate => "getIceCandidate"
  | .addIceCandidate => "addIceCandidate"
  | .getPeerConnectionList => "getPeerConnectionList"
  | .getStreamList => "getStreamList"
  | .version => "version"
  | .log => "log"
  | .help => "help"

def ApiPath.all : List ApiPath :=
  [.addIceCandidate, .call, .createOffer, .getAudioDeviceList, .getAudioPlayoutList,
    .getIceCandidate, .getIceServers, .getMediaList, .getPeerConnectionList, .getStreamList,
    .getVideoDeviceList, .hangup, .help, .log, .setAnswer, .version, .whep]

structure Server where
  cfg : Config
  useNullCodec : Bool
  basePath : String
  version : String
  /-- what `GetVideoCaptureDeviceList` and `GetVideoSourceList` find, and `m_videoaudiomap` -/
  videoCaptureDevice : List String
  videoList : List String
  videoaudiomap : Std.TreeMap String String
  /-- the other lists, of devices and ICE servers, which no request changes -/
  listing : ApiPath → Value

def Server.key (srv : Server) (path : ApiPath) : String := srv.basePath ++ "/api/" ++ path.name

def Server.find (srv : Server) (request : String) : Option ApiPath :=
  ApiPath.all.find? fun path => srv.key path = request

inductive Abort where
  /-- JsonCpp throws on a value of the wrong kind -/
  | json (error : Json.LogicError)
  /-- `CharReader::parse` throws -/
  | reader
  /-- `append` of an absent query string -/
  | nullQueryString
  | manager (fault : Fault)
  deriving DecidableEq, Repr

def Abort.access {α : Type} (x : Except Json.LogicError α) : Except Abort α :=
  x.mapError .json

def Abort.managed {α : Type} (x : Except Fault α) : Except Abort α := x.mapError .manager

/-- `HttpServerRequestHandler::httpFunctionReturn` -/
structure Response where
  code : Int
  headers : List (String × String)
  body : Value

/-! ### The functions of `PeerConnectionManager` -/

/-- The loop of `getOptionValue`. Every round consumes a character. -/
def findOption (optionName : String) : Nat → InputStream → String
  | 0, _ => ""
  | fuel + 1, is =>
    let (is, key) := getline is '='
    let (is, value) := getline is '&'
    if is.fail then ""
    else if String.ofList key = optionName then String.ofList value
    else findOption optionName fuel is

def getOptionValue (options optionName : String) : String :=
  findOption optionName (options.length + 1) (.ofString options)

def lines : List Char → List (List Char)
  | [] => []
  | c :: text =>
    if c = '\n' then [] :: lines text
    else
      match lines text with
      | [] => [[c]]
      | line :: rest => (c :: line) :: rest

theorem lines_getline (text : List Char) : lines text =
    if (getline ⟨text, false, false⟩ '\n').1.fail then []
    else (getline ⟨text, false, false⟩ '\n').2 ::
      lines (getline ⟨text, false, false⟩ '\n').1.rest := by
  induction text with
  | nil => rfl
  | cons c text ih =>
    by_cases hc : c = '\n'
    · simp [lines, getline, hc]
    · have htake : (c :: text).takeWhile (· ≠ '\n') = c :: text.takeWhile (· ≠ '\n') :=
        List.takeWhile_cons_of_pos (by simpa using hc)
      have hdrop : (c :: text).dropWhile (· ≠ '\n') = text.dropWhile (· ≠ '\n') :=
        List.dropWhile_cons_of_pos (by simpa using hc)
      simp only [getline, Bool.or_self, Bool.false_eq_true, if_false] at ih ⊢
      rw [htake, hdrop, lines, if_neg hc, ih]
      generalize text.takeWhile (· ≠ '\n') = line
      cases text.dropWhile (· ≠ '\n') with
      | nil => cases line <;> rfl
      | cons d rest => rfl

/-- `strstr(str.c_str(), part)`, as a condition. -/
def lineHas (str : List Char) (part : String) : Bool := (strstr (cString str) part.toList).isSome

def eraseCr (line : List Char) : List Char := line.filter (· ≠ '\r')

structure Trickle where
  mid : String
  httpcode : Int
  /-- Ghost: the candidates given to `AddIceCandidate` so far. -/
  submitted : List IceCandidate
  deriving DecidableEq, Repr

namespace PeerConnectionManager

variable (srv : Server) (lib : Library) (e : ApiEnv)

def replaceMember (name key : String) (media : Value) : Except LogicError Value := do
  if ← media.isMember key then media.set key (.string name) else .ok media

def shown (entry : String × Value) : Except LogicError Value := do
  let media ← replaceMember entry.1 "video" entry.2
  replaceMember entry.1 "audio" media

def deviceMedia (videoaudiomap : Std.TreeMap String String) (video : String) : Value :=
  .object (match videoaudiomap[video]? with
    | none => [("video", .string video)]
    | some audio => [("audio", .string audio), ("video", .string video)])

def getMediaList (videoCaptureDevice videoList : List String)
    (videoaudiomap : Std.TreeMap String String) (config : AliasConfig) :
    Except LogicError (List Value) := do
  let named ← config.entries.mapM shown
  .ok (videoCaptureDevice.map (deviceMedia videoaudiomap) ++ videoList.map (deviceMedia ∅) ++ named)

def trickleLine (peerConnection : Option ObsId) (x : Trickle) (line : List Char) : Trickle :=
  let str := eraseCr line
  if lineHas str "a=mid:" then { x with mid := String.ofList (str.drop 6) }
  else if lineHas str "a=candidate" then
    let candidate : IceCandidate := ⟨x.mid, 0, String.ofList (str.drop 2)⟩
    if e.createIceCandidate candidate && peerConnection.isSome then
      { x with
        httpcode := if e.acceptIceCandidate x.submitted candidate then 200 else x.httpcode
        submitted := x.submitted ++ [candidate] }
    else x
  else if lineHas str "a=end-of-candidates" then { x with httpcode := 200 }
  else x

def trickle (peerConnection : Option ObsId) (text : String) : Trickle :=
  (lines text.toList).foldl (trickleLine e peerConnection) ⟨"", 501, []⟩

/-- The answers of WebRTC to a request with this offer. -/
def reading (sdp : Option String) : Env :=
  { e.toEnv with message := sdp.isSome, parsed := sdp.any e.parseOffer }

def described (type : String) : Option Description → Value
  | none => .null
  | some desc => .object [("sdp", .string desc.sdp), ("type", .string type)]

def call (r : StreamRequest) (peerid : PeerId) (jmessage : Value) (sh : Shared) :
    Except Abort (Shared × Value) := do
  let sdp := lib.getStringFromJsonObject jmessage "sdp"
  let (sh, desc) ← Abort.managed (WebrtcStreamer.call srv.cfg (reading e sdp) ⟨r, .call, peerid⟩ sh)
  .ok (sh, described "answer" desc)

def createOffer (r : StreamRequest) (peerid : PeerId) (sh : Shared) :
    Except Abort (Shared × Value) := do
  let (sh, desc) ← Abort.managed
    (WebrtcStreamer.createOffer srv.cfg e.toEnv ⟨r, .createOffer, peerid⟩ sh)
  .ok (sh, described "offer" desc)

def hangUp (peerid : PeerId) (sh : Shared) : Except Abort (Shared × Value) := do
  let (sh, result) ← Abort.managed (WebrtcStreamer.hangUp srv.cfg .client peerid sh)
  .ok (sh, if result then .bool true else .null)

def setAnswer (peerid : PeerId) (jmessage : Value) (sh : Shared) : Value :=
  match lib.getStringFromJsonObject jmessage "sdp" with
  | none => .object [("error", .string "Can't parse received message.")]
  | some sdp =>
    if !e.parseAnswer sdp then
      .object [("error", .string "Can't parse received session description message.")]
    else if (sh.getPeerConnection peerid).isNone then .null
    else
      match e.remote with
      | some (type, sdp) => .object [("sdp", .string sdp), ("type", .string type)]
      | none => .object [("error", .string "Can't get remote description.")]

def addIceCandidate (peerid : PeerId) (jmessage : Value) (sh : Shared) : Value :=
  match lib.getStringFromJsonObject jmessage "sdpMid",
      lib.getIntFromJsonObject jmessage "sdpMLineIndex",
      lib.getStringFromJsonObject jmessage "candidate" with
  | some mid, some mlineIndex, some sdp =>
    if e.createIceCandidate ⟨mid, mlineIndex, sdp⟩ && (sh.getPeerConnection peerid).isSome &&
      e.acceptIceCandidate [] ⟨mid, mlineIndex, sdp⟩ then .bool true else .null
  | _, _, _ => .null

def getIceCandidateList (peerid : PeerId) (sh : Shared) : Value :=
  (sh.peerConnectionObsMap[peerid]?.map e.iceCandidateList).getD .null

def getPeerConnectionList (sh : Shared) : Value :=
  .array (sh.peerConnectionObsMap.toList.map fun entry => .object [(entry.1, e.content entry.2)])

def getStreamList (sh : Shared) : Value :=
  .array (sh.streamMap.toList.map fun entry => .string entry.1)

def locationUrl (url requestPeerId : String) : String :=
  if requestPeerId = "" then url ++ "&" ++ "peerid=" ++ e.random else url

def sessionPeerId (requestPeerId : PeerId) : PeerId :=
  if requestPeerId = "" then e.random else requestPeerId

def whep (method url : String) (requestPeerId : PeerId) (r : StreamRequest) (input : Value)
    (sh : Shared) : Except Abort (Shared × Response) :=
  let httpcode := 501
  if method = "DELETE" then do
    let (sh, _) ← Abort.managed
      (WebrtcStreamer.hangUp srv.cfg .client (sessionPeerId e requestPeerId) sh)
    .ok (sh, ⟨httpcode, [], .string ""⟩)
  else if method = "PATCH" then do
    let text ← Abort.access input.asString
    let x := trickle e (sh.getPeerConnection (sessionPeerId e requestPeerId)) text
    .ok (sh, ⟨x.httpcode, [], .string ""⟩)
  else do
    let offersdp ← Abort.access input.asString
    let (sh, desc) ← Abort.managed
      (WebrtcStreamer.whep srv.cfg (reading e (some offersdp)) ⟨r, .whep, requestPeerId⟩ sh)
    match desc with
    | none => .ok (sh, ⟨httpcode, [], .string ""⟩)
    | some desc =>
      .ok (sh, ⟨201, [("Access-Control-Expose-Headers", "Location"),
        ("Content-Type", "application/sdp"), ("Location", locationUrl e url requestPeerId)],
        .string desc.sdp⟩)

end PeerConnectionManager

/-! ### The handlers -/

structure RequestInfo where
  requestMethod : String
  requestUri : String
  queryString : Option String
  deriving DecidableEq, Repr

namespace RequestInfo

variable (lib : Library) (info : RequestInfo)

/-- `getParam`, which copes with an absent query string. -/
def param (paramName : String) : String :=
  match info.queryString with
  | none => ""
  | some queryString => lib.getParam queryString paramName

def streamRequest (useNullCodec : Bool) : StreamRequest where
  videourl := info.param lib "url"
  audiourl := info.param lib "audiourl"
  options := info.param lib "options"
  useNullCodec := useNullCodec

def nullCodec (srv : Server) : Bool :=
  srv.useNullCodec || getOptionValue (info.param lib "options") "nullcodec" = "1"

def fullUrl : Except Abort String :=
  match info.queryString with
  | none => .error .nullQueryString
  | some queryString => .ok (info.requestUri ++ "?" ++ queryString)

end RequestInfo

structure HttpRequest extends RequestInfo where
  contentLength : Int
  /-- what `getPostData` reads -/
  body : String
  deriving DecidableEq, Repr

structure HttpReply where
  code : Int
  headers : List (String × String)
  answer : String
  deriving DecidableEq, Repr

section Handlers

variable (srv : Server) (lib : Library) (e : ApiEnv)

def api (path : ApiPath) (info : RequestInfo) (input : Value) (sh : Shared) :
    Except Abort (Shared × Response) :=
  let peerid := info.param lib "peerid"
  let ok (out : Shared × Value) : Shared × Response := (out.1, ⟨200, [], out.2⟩)
  match path with
  | .call => ok <$> PeerConnectionManager.call srv lib e
      (info.streamRequest lib (info.nullCodec lib srv)) peerid input sh
  | .whep => do
    let url ← info.fullUrl
    PeerConnectionManager.whep srv e info.requestMethod url peerid
      (info.streamRequest lib (info.nullCodec lib srv)) input sh
  | .hangup => ok <$> PeerConnectionManager.hangUp srv peerid sh
  | .createOffer => ok <$> PeerConnectionManager.createOffer srv e
      (info.streamRequest lib srv.useNullCodec) peerid sh
  | .getMediaList => ok <$> do
    let media ← Abort.access (PeerConnectionManager.getMediaList srv.videoCaptureDevice
      srv.videoList srv.videoaudiomap srv.cfg.aliases)
    .ok (sh, .array media)
  | .setAnswer => .ok (ok (sh, PeerConnectionManager.setAnswer lib e peerid input sh))
  | .getIceCandidate => .ok (ok (sh, PeerConnectionManager.getIceCandidateList e peerid sh))
  | .addIceCandidate => .ok (ok (sh, PeerConnectionManager.addIceCandidate lib e peerid input sh))
  | .getPeerConnectionList => .ok (ok (sh, PeerConnectionManager.getPeerConnectionList e sh))
  | .getStreamList => .ok (ok (sh, PeerConnectionManager.getStreamList sh))
  | .version => .ok (ok (sh, .string srv.version))
  | .log => .ok (ok (sh, .number (toString (e.logToDebug (info.param lib "level")))))
  | .help => .ok (ok (sh, .array (ApiPath.all.map fun path => .string (srv.key path))))
  | path => .ok (ok (sh, srv.listing path))

/-- `getInputMessage`: a body that is no JSON becomes a JSON string. -/
def getInputMessage (q : HttpRequest) : Except Abort Value :=
  if 0 < q.contentLength then
    match lib.parse q.body with
    | none => .error .reader
    | some (true, jmessage) => .ok jmessage
    | some (false, _) => .ok (.string q.body)
  else .ok .null

def fillOut (out : Response) : HttpReply :=
  let (code, answer) := match out.body with
    | .null => (500, lib.responseCodeText 500)
    | .string s => (out.code, s)
    | body => (out.code, lib.writeString body)
  ⟨code, [("Access-Control-Allow-Origin", "*"), ("Content-Type", "text/plain"),
    ("Content-Length", toString answer.utf8ByteSize)] ++ out.headers, answer⟩

def handle (path : ApiPath) (q : HttpRequest) (sh : Shared) :
    Except Abort (Shared × HttpReply) := do
  let input ← getInputMessage lib q
  let (sh, out) ← api srv lib e path q.toRequestInfo input sh
  .ok (sh, fillOut lib out)

/-- `WebsocketHandler::handleData` on a text frame. When the parser fails it goes
on with what the parser has left. -/
def handleData (info : RequestInfo) (data : String) (sh : Shared) :
    Except Abort (Shared × String) :=
  match lib.parse data with
  | none => .error .reader
  | some (_, input) => do
    let request ← Abort.access (input.get "request" (.string ""))
    let request ← Abort.access request.asString
    match srv.find request with
    | none => .ok (sh, lib.responseCodeText 500)
    | some path =>
      let body ← Abort.access (input.get "body" (.string ""))
      let (sh, out) ← api srv lib e path info body sh
      .ok (sh, lib.writeString out.body)

inductive ClientMessage where
  | http (path : ApiPath) (q : HttpRequest)
  | websocket (info : RequestInfo) (data : String)
  deriving DecidableEq, Repr

inductive Written where
  | http (reply : HttpReply)
  | websocket (text : String)
  deriving DecidableEq, Repr

def handleMessage (m : ClientMessage) (sh : Shared) : Except Abort (Shared × Written) :=
  match m with
  | .http path q => (fun out => (out.1, .http out.2)) <$> handle srv lib e path q sh
  | .websocket info data =>
    (fun out => (out.1, .websocket out.2)) <$> handleData srv lib e info data sh

end Handlers

end WebrtcStreamer
