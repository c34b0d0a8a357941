import WebrtcStreamer.Json
import WebrtcStreamer.StdText
import WebrtcStreamer.TextParts

/-! The ICE servers: how their texts are read for clients and for peer connections, and
where `main` lets the embedded TURN server listen. -/

set_option autoImplicit false

namespace WebrtcStreamer

open TextParts

/-- An IPv4 address that `getifaddrs` lists, with what `getnameinfo` gives for it. -/
structure Interface where
  address : UInt32
  mask : UInt32
  host : Option String
  deriving DecidableEq, Repr

structure Network where
  inetAddr : String → UInt32
  ifaddr : List Interface

structure IceServer where
  uri : String
  username : String
  password : String
  deriving DecidableEq, Repr

namespace Network

variable (net : Network)

def getServerIpFromClientIp (clientip : UInt32) : String :=
  ((net.ifaddr.filter fun i => i.address &&& i.mask = clientip &&& i.mask).findSome?
    Interface.host).getD "127.0.0.1"

def getIceServerFromUrl (url clientIp : String) : IceServer :=
  match splitFirst ':' url.toList with
  | none => ⟨url, "", ""⟩
  | some (protocol, uri) =>
    let (credentials, uri) := (splitLast '@' uri).getD ([], uri)
    let uri := if "0.0.0.0:".toList.isPrefixOf uri ∧ clientIp ≠ "" then
        (net.getServerIpFromClientIp (net.inetAddr clientIp)).toList ++ uri.dropWhile (· ≠ ':')
      else uri
    let (username, password) :=
      if credentials = [] then ([], []) else (splitFirst ':' credentials).getD (credentials, [])
    ⟨String.ofList protocol ++ ":" ++ String.ofList uri, String.ofList username,
      String.ofList password⟩

def serverValue (srv : IceServer) : Json.Value :=
  let urlList := if startsWith "turn:" srv.uri then
      [srv.uri ++ "?transport=udp", srv.uri ++ "?transport=tcp"]
    else [srv.uri]
  .object ((if srv.password ≠ "" then [("credential", .string srv.password)] else []) ++
    [("urls", .array (urlList.map .string))] ++
    if srv.username ≠ "" then [("username", .string srv.username)] else [])

def getIceServers (iceServerList : List String) (relay : Bool) (clientIp : String) : Json.Value :=
  .object [("iceServers", .array (iceServerList.map fun iceServer =>
      serverValue (net.getIceServerFromUrl iceServer clientIp))),
    ("iceTransportPolicy", .string (if relay then "relay" else "all"))]

/-- `config.servers` of `CreatePeerConnection` -/
def configServers (iceServerList : List String) : List IceServer :=
  iceServerList.map fun iceServer => net.getIceServerFromUrl iceServer ""

end Network

structure ServerOptions where
  turnServer : Option String
  turn : Option String
  stunServer : Option String
  stun : Option String
  deriving DecidableEq, Repr

namespace ServerOptions

variable (o : ServerOptions)

def localturnurl : String := o.turnServer.getD ""

def turnurl : String := (o.turn.or o.turnServer).getD ""

def stunurl : String := (o.stun.or o.stunServer).getD "stun.l.google.com:19302"

def iceServerList : List String :=
  (if o.stunurl ≠ "" ∧ o.stunurl ≠ "-" then ["stun:" ++ o.stunurl] else []) ++
    if o.turnurl ≠ "" then ["turn:" ++ o.turnurl] else []

end ServerOptions

/-! ### The texts of the servers -/

inductive Scheme where
  | stun | turn
  deriving DecidableEq, Repr

def Scheme.name : Scheme → String
  | .stun => "stun"
  | .turn => "turn"

structure ServerText where
  scheme : Scheme
  credentials : Option (String × Option String)
  host : String
  deriving DecidableEq, Repr

namespace ServerText

variable (s : ServerText) (net : Network) (clientIp : String)

def credentialsText : List Char :=
  match s.credentials with
  | none => []
  | some (user, none) => user.toList ++ ['@']
  | some (user, some password) => user.toList ++ ':' :: password.toList ++ ['@']

def text : String :=
  s.scheme.name ++ ":" ++ String.ofList (s.credentialsText ++ s.host.toList)

def user : String := (s.credentials.map Prod.fst).getD ""

def password : String := (s.credentials.bind Prod.snd).getD ""

structure WellFormed : Prop where
  user : ∀ user password, s.credentials = some (user, password) → user ≠ "" ∧ ':' ∉ user.toList
  host : '@' ∉ s.host.toList

/-- The host for a client: the unspecified address is replaced by one that it can reach. -/
def hostFor : String :=
  if startsWith "0.0.0.0:" s.host then
    net.getServerIpFromClientIp (net.inetAddr clientIp) ++ String.ofList (s.host.toList.drop 7)
  else s.host

def urls : List String :=
  let url := s.scheme.name ++ ":" ++ s.hostFor net clientIp
  match s.scheme with
  | .stun => [url]
  | .turn => [url ++ "?transport=udp", url ++ "?transport=tcp"]

def entry : Json.Value :=
  .object ((if s.password ≠ "" then [("credential", .string s.password)] else []) ++
    [("urls", .array ((s.urls net clientIp).map .string))] ++
    if s.user ≠ "" then [("username", .string s.user)] else [])

end ServerText

namespace ServerText

variable {s : ServerText} {net : Network} {clientIp : String}

theorem splitFirst_text (s : ServerText) : splitFirst ':' s.text.toList =
    some (s.scheme.name.toList, s.credentialsText ++ s.host.toList) := by
  have htext : s.text.toList =
      s.scheme.name.toList ++ ':' :: (s.credentialsText ++ s.host.toList) := by
    simp [text]
  rw [htext, splitFirst_append (by cases s.scheme <;> decide)]

theorem splitLast_credentials (h : '@' ∉ s.host.toList) :
    (splitLast '@' (s.credentialsText ++ s.host.toList)).getD
        ([], s.credentialsText ++ s.host.toList) =
      (s.credentialsText.dropLast, s.host.toList) := by
  obtain ⟨scheme, credentials, host⟩ := s
  match credentials with
  | none =>
    have hnone := splitLast_eq_none h
    simp [credentialsText, hnone]
  | some (user, none) =>
    have hlast := splitLast_append (x := user.toList) h
    simp [credentialsText, hlast]
  | some (user, some password) =>
    have hlast := splitLast_append (x := user.toList ++ ':' :: password.toList) h
    have hdrop : (user.toList ++ ':' :: (password.toList ++ ['@'])).dropLast =
        user.toList ++ ':' :: password.toList := by
      rw [← List.cons_append, ← List.append_assoc, List.dropLast_concat]
    simp only [List.append_assoc, List.cons_append] at hlast
    simp [credentialsText, hlast, hdrop]

theorem splitFirst_credentials
    (h : ∀ user password, s.credentials = some (user, password) → user ≠ "" ∧ ':' ∉ user.toList) :
    (if s.credentialsText.dropLast = [] then ([], [])
      else (splitFirst ':' s.credentialsText.dropLast).getD (s.credentialsText.dropLast, [])) =
      (s.user.toList, s.password.toList) := by
  obtain ⟨scheme, credentials, host⟩ := s
  match credentials with
  | none => rfl
  | some (user, none) =>
    obtain ⟨hne, hcolon⟩ := h user none rfl
    have hne' : user.toList ≠ [] := by simpa using hne
    simp [credentialsText, ServerText.user, ServerText.password, hne, splitFirst_eq_none hcolon]
  | some (user, some password) =>
    obtain ⟨_, hcolon⟩ := h user (some password) rfl
    have hdrop : (user.toList ++ ':' :: (password.toList ++ ['@'])).dropLast =
        user.toList ++ ':' :: password.toList := by
      rw [← List.cons_append, ← List.append_assoc, List.dropLast_concat]
    simp [credentialsText, ServerText.user, ServerText.password, hdrop, splitFirst_append hcolon]

theorem hostFor_toList (net : Network) (hclient : clientIp ≠ "") :
    (if "0.0.0.0:".toList.isPrefixOf s.host.toList ∧ clientIp ≠ "" then
      (net.getServerIpFromClientIp (net.inetAddr clientIp)).toList ++
        s.host.toList.dropWhile (· ≠ ':')
    else s.host.toList) = (s.hostFor net clientIp).toList := by
  by_cases hbegins : "0.0.0.0:".toList.isPrefixOf s.host.toList = true
  · obtain ⟨port, hport⟩ := List.isPrefixOf_iff_prefix.mp hbegins
    have hdrop : s.host.toList.dropWhile (· ≠ ':') = s.host.toList.drop 7 := by
      rw [← hport]
      rfl
    rw [if_pos ⟨hbegins, hclient⟩, hostFor, startsWith, if_pos hbegins, hdrop]
    simp
  · rw [if_neg (fun h => hbegins h.1), hostFor, startsWith, if_neg hbegins]

theorem getIceServerFromUrl_text (h : s.WellFormed) (hclient : clientIp ≠ "") :
    net.getIceServerFromUrl s.text clientIp =
      ⟨s.scheme.name ++ ":" ++ s.hostFor net clientIp, s.user, s.password⟩ := by
  have hlast := splitLast_credentials h.host
  have hfirst := splitFirst_credentials h.user
  have hhost := hostFor_toList (s := s) net hclient
  simp only [Network.getIceServerFromUrl, splitFirst_text, hlast, hfirst, hhost,
    String.ofList_toList]

theorem getIceServerFromUrl_text_empty (h : s.WellFormed) :
    net.getIceServerFromUrl s.text "" =
      ⟨s.scheme.name ++ ":" ++ s.host, s.user, s.password⟩ := by
  have hlast := splitLast_credentials h.host
  have hfirst := splitFirst_credentials h.user
  simp only [Network.getIceServerFromUrl, splitFirst_text, hlast, hfirst, ne_eq, not_true_eq_false,
    and_false, if_false, String.ofList_toList]

theorem serverValue_text (h : s.WellFormed) (hclient : clientIp ≠ "") :
    Network.serverValue (net.getIceServerFromUrl s.text clientIp) = s.entry net clientIp := by
  have hturn : startsWith "turn:" (s.scheme.name ++ ":" ++ s.hostFor net clientIp) =
      decide (s.scheme = .turn) := by
    unfold startsWith
    cases s.scheme with
    | stun => simp [Scheme.name, List.isPrefixOf]
    | turn => simp [Scheme.name, List.isPrefixOf]
  rw [getIceServerFromUrl_text h hclient]
  simp only [Network.serverValue, entry, urls, hturn]
  cases s.scheme <;> rfl

/-- Clients are told the servers in their order, each with its scheme, a host for
them and the credentials it has, and the peer connections use the same ones. -/
theorem ice_servers_advertised (net : Network) (relay : Bool) (servers : List ServerText)
    (h : ∀ s ∈ servers, s.WellFormed) (hclient : clientIp ≠ "") :
    net.getIceServers (servers.map text) relay clientIp =
      .object [("iceServers", .array (servers.map fun s => s.entry net clientIp)),
        ("iceTransportPolicy", .string (if relay then "relay" else "all"))] ∧
    net.configServers (servers.map text) =
      servers.map fun s => ⟨s.scheme.name ++ ":" ++ s.host, s.user, s.password⟩ := by
  constructor
  · rw [Network.getIceServers, List.map_map]
    have hentries : servers.map ((fun iceServer => Network.serverValue
        (net.getIceServerFromUrl iceServer clientIp)) ∘ text) =
        servers.map fun s => s.entry net clientIp :=
      List.map_congr_left fun s hs => serverValue_text (h s hs) hclient
    rw [hentries]
  · rw [Network.configServers, List.map_map]
    exact List.map_congr_left fun s hs => getIceServerFromUrl_text_empty (h s hs)

end ServerText

def Network.home : Network := ⟨fun _ => 0xC0A80105, [⟨0xC0A80102, 0xFFFFFF00, some "192.168.1.2"⟩]⟩

/-- The embedded servers, for a client in the same network; with an `@` in the password. -/
theorem ice_servers_advertised_home : Network.home.getIceServers
      [ServerText.text ⟨.stun, none, "0.0.0.0:3478"⟩,
        ServerText.text ⟨.turn, some ("turn", some "p@s:s"), "0.0.0.0:3478"⟩] false "192.168.1.5" =
      .object [("iceServers", .array
        [ServerText.entry ⟨.stun, none, "0.0.0.0:3478"⟩ .home "192.168.1.5",
          ServerText.entry ⟨.turn, some ("turn", some "p@s:s"), "0.0.0.0:3478"⟩ .home
            "192.168.1.5"]),
        ("iceTransportPolicy", .string "all")] ∧
    ServerText.urls ⟨.turn, some ("turn", some "p@s:s"), "0.0.0.0:3478"⟩ .home "192.168.1.5" =
      ["turn:192.168.1.2:3478?transport=udp", "turn:192.168.1.2:3478?transport=tcp"] := by
  refine ⟨(ServerText.ice_servers_advertised .home false
    [⟨.stun, none, "0.0.0.0:3478"⟩, ⟨.turn, some ("turn", some "p@s:s"), "0.0.0.0:3478"⟩]
    (fun s hs => ?_) (by decide)).1, by decide⟩
  rcases List.mem_pair.mp hs with rfl | rfl
  · exact ⟨fun _ _ h => (by cases h), by decide⟩
  · exact ⟨fun _ _ h => (by cases h; decide), by decide⟩

/-! ### The embedded TURN server -/

/-- `std::getline(is, str, delim)`, which leaves `str` alone where the stream is not good. -/
def getlineInto (is : InputStream) (delim : Char) (str : List Char) : InputStream × List Char :=
  if is.eof || is.fail then ((getline is delim).1, str) else getline is delim

def readAddress (text : String) (addr : List Char) : List Char :=
  let (is, addr) := getlineInto (.ofString text) '@' addr
  (getlineInto is '@' addr).2

namespace ServerOptions

variable (o : ServerOptions) (net : Network)

/-- The addresses of the embedded TURN server: for its sockets and for the external
socket factory. -/
def turnAddresses : Option (String × String) :=
  if o.localturnurl = "" then none
  else
    let addr := readAddress o.localturnurl []
    let external := readAddress o.turnurl addr
    some (String.ofList addr, String.ofList external)

/-- Both are what clients are told, apart from an unspecified address. -/
def ListensWhereAdvertised : Prop :=
  ∀ addr external, o.turnAddresses = some (addr, external) →
    (net.getIceServerFromUrl ("turn:" ++ o.turnurl) "").uri = "turn:" ++ addr ∧
      (net.getIceServerFromUrl ("turn:" ++ o.turnurl) "").uri = "turn:" ++ external

end ServerOptions

theorem readAddress_eq (text : String) (addr : List Char) :
    readAddress text addr = ((text.toList.splitOn '@')[1]?).getD text.toList := by
  rw [readAddress, InputStream.ofString]
  by_cases hat : '@' ∈ text.toList
  · obtain ⟨x, rest, htext, hx⟩ := List.eq_append_cons_of_mem hat
    rw [htext, List.splitOn_append_cons_self_of_not_mem hx]
    simp only [getlineInto, getline_delim hx, Bool.or_self, Bool.false_eq_true, if_false]
    by_cases hat' : '@' ∈ rest
    · obtain ⟨y, rest', rfl, hy⟩ := List.eq_append_cons_of_mem hat'
      rw [getline_delim hy, List.splitOn_append_cons_self_of_not_mem hy]
      rfl
    · rw [getline_end hat', List.splitOn_eq_singleton hat']
      rfl
  · simp only [getlineInto, getline_end hat, List.splitOn_eq_singleton hat, Bool.or_self,
      Bool.false_eq_true, if_false, Bool.true_or, if_true]
    rfl

theorem getIceServerFromUrl_turn (net : Network) (text : String) :
    some ((net.getIceServerFromUrl ("turn:" ++ text) "").uri) =
      (text.toList.splitOn '@').getLast?.map fun host => "turn:" ++ String.ofList host := by
  have hsplit : splitFirst ':' ("turn:" ++ text).toList = some ("turn".toList, text.toList) := by
    have htext : ("turn:" ++ text).toList = "turn".toList ++ ':' :: text.toList := by simp
    rw [htext, splitFirst_append (by decide)]
  have hprotocol : String.ofList "turn".toList ++ ":" = "turn:" := by decide
  rw [getLast?_splitOn, Option.map_some]
  simp only [Network.getIceServerFromUrl, hsplit, ne_eq, not_true_eq_false, and_false, if_false,
    hprotocol]
  cases splitLast '@' text.toList <;> rfl

/-- A text of `-T` is read in the same way by both exactly when it has no second `@`,
or the same stands behind the first as behind the last one. -/
theorem turn_address_iff (net : Network) (o : ServerOptions) {text : String}
    (hserver : o.turnServer = some text) (hturn : o.turn = none) :
    o.ListensWhereAdvertised net ↔ (text.toList.splitOn '@').length ≤ 2 ∨
      (text.toList.splitOn '@')[1]? = (text.toList.splitOn '@').getLast? := by
  have hlocal : o.localturnurl = text := by simp [ServerOptions.localturnurl, hserver]
  have hurl : o.turnurl = text := by simp [ServerOptions.turnurl, hserver, hturn]
  have hhost := getIceServerFromUrl_turn net text
  rw [ServerOptions.ListensWhereAdvertised, ServerOptions.turnAddresses, hlocal, hurl]
  simp only [readAddress_eq]
  by_cases hempty : text = ""
  · subst hempty
    simp
  · simp only [hempty, if_false, Option.some.injEq, Prod.mk.injEq]
    by_cases hat : '@' ∈ text.toList
    · obtain ⟨x, rest, htext, hx⟩ := List.eq_append_cons_of_mem hat
      rw [htext, List.splitOn_append_cons_self_of_not_mem hx] at hhost ⊢
      obtain ⟨y, ys, hparts⟩ := List.exists_cons_of_ne_nil (List.splitOn_ne_nil '@' rest)
      rw [hparts] at hhost ⊢
      cases ys with
      | nil =>
        have huri : (net.getIceServerFromUrl ("turn:" ++ text) "").uri =
            "turn:" ++ String.ofList y := by simpa using hhost
        simp [huri]
      | cons z zs =>
        have hlast : some (net.getIceServerFromUrl ("turn:" ++ text) "").uri =
            some ("turn:" ++ String.ofList ((z :: zs).getLast (List.cons_ne_nil z zs))) := by
          simpa [List.getLast?_cons_cons, List.getLast?_eq_some_getLast] using hhost
        rw [Option.some.inj hlast]
        simpa [String.append_right_inj, String.ofList_inj, List.getLast?_eq_some_getLast]
          using eq_comm
    · rw [List.splitOn_eq_singleton hat] at hhost ⊢
      have huri : (net.getIceServerFromUrl ("turn:" ++ text) "").uri = "turn:" ++ text := by
        simpa using hhost
      simp [huri]

theorem turn_address_default :
    ServerOptions.ListensWhereAdvertised ⟨some "turn:turn@0.0.0.0:3478", none, none, none⟩ .home :=
  (turn_address_iff .home ⟨some "turn:turn@0.0.0.0:3478", none, none, none⟩ rfl rfl).mpr
    (.inl (by decide))

/-- Of a password with an `@` the server takes the end for its address. -/
theorem turn_address_password :
    let o : ServerOptions := ⟨some "turn:p@ss@0.0.0.0:3478", none, none, none⟩
    o.turnAddresses = some ("ss", "ss") ∧
      (Network.home.getIceServerFromUrl ("turn:" ++ o.turnurl) "").uri = "turn:0.0.0.0:3478" ∧
      ¬ o.ListensWhereAdvertised .home := by
  refine ⟨by decide, by decide, fun h => ?_⟩
  exact absurd (h "ss" "ss" (by decide)).1 (by decide)

end WebrtcStreamer
