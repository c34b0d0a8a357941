import WebrtcStreamer.IceServers

/-! The embedded TURN server and the clients that `getIceServers` sends to it: where
they look for it, and which key either side computes. -/

set_option autoImplicit false

namespace WebrtcStreamer

open Json (Value)

def memberText (entry : Value) (key : String) : String := ((entry.find key).getD .null).text

def toldServers (answer : Value) : List Value :=
  match answer.find "iceServers" with
  | some (.array entries) => entries
  | _ => []

section Keys

variable {Key : Type} (hash : String → String → String → Key)

/-- `hash` stands for `ComputeStunCredentialHash(username, realm, password)`. -/
def TurnAuth.getKey (username realm : String) : Key := hash username realm username

def clientKey (entry : Value) (realm : String) : Key :=
  hash (memberText entry "username") realm (memberText entry "credential")

/-- A client is told an address where the embedded server listens, and computes the
key that the server expects. -/
def ServerOptions.LetsIn (o : ServerOptions) (net : Network) (relay : Bool)
    (clientIp realm : String) : Prop :=
  ∃ addr external, o.turnAddresses = some (addr, external) ∧
    ∃ entry ∈ toldServers (net.getIceServers o.iceServerList relay clientIp),
      entry.find "urls" =
        some (.array ((ServerText.urls ⟨.turn, none, addr⟩ net clientIp).map .string)) ∧
      clientKey hash entry realm = TurnAuth.getKey hash (memberText entry "username") realm

end Keys

section Entries

variable {s : ServerText} {net : Network} {clientIp : String}

theorem entry_urls : (s.entry net clientIp).find "urls" =
    some (.array ((s.urls net clientIp).map .string)) := by
  by_cases hpassword : s.password = "" <;>
    simp [ServerText.entry, Value.find, hpassword, List.lookup]

theorem entry_username : memberText (s.entry net clientIp) "username" = s.user := by
  by_cases hpassword : s.password = "" <;> by_cases huser : s.user = "" <;>
    simp [memberText, ServerText.entry, Value.find, hpassword, huser, List.lookup, Value.text,
      Value.asString, Except.toOption]

theorem entry_credential : memberText (s.entry net clientIp) "credential" = s.password := by
  by_cases hpassword : s.password = "" <;> by_cases huser : s.user = "" <;>
    simp [memberText, ServerText.entry, Value.find, hpassword, huser, List.lookup, Value.text,
      Value.asString, Except.toOption]

theorem stun_urls (net : Network) (clientIp text : String) : ∃ url : String,
    (Network.serverValue (net.getIceServerFromUrl ("stun:" ++ text) clientIp)).find "urls" =
      some (.array [.string url]) := by
  have hsplit : TextParts.splitFirst ':' ("stun:" ++ text).toList =
      some ("stun".toList, text.toList) := by
    have htext : ("stun:" ++ text).toList = "stun".toList ++ ':' :: text.toList := by simp
    rw [htext, TextParts.splitFirst_append (by decide)]
  obtain ⟨rest, huri⟩ : ∃ rest, (net.getIceServerFromUrl ("stun:" ++ text) clientIp).uri =
      "stun" ++ ":" ++ rest := by
    simp only [Network.getIceServerFromUrl, hsplit]
    exact ⟨_, rfl⟩
  have hstun : startsWith "turn:" ("stun" ++ ":" ++ rest) = false := by
    simp [startsWith, List.isPrefixOf]
  refine ⟨"stun" ++ ":" ++ rest, ?_⟩
  rw [Network.serverValue, huri, hstun]
  split <;> simp [Value.find, List.lookup]

theorem toldServers_getIceServers (iceServerList : List String) (relay : Bool) :
    toldServers (net.getIceServers iceServerList relay clientIp) =
      iceServerList.map fun iceServer =>
        Network.serverValue (net.getIceServerFromUrl iceServer clientIp) := rfl

theorem credentialsText_ends (s : ServerText) :
    s.credentialsText = [] ∨ s.credentialsText = s.credentialsText.dropLast ++ ['@'] := by
  obtain ⟨scheme, credentials, host⟩ := s
  match credentials with
  | none => exact .inl rfl
  | some (user, none) => exact .inr (by simp [ServerText.credentialsText])
  | some (user, some password) =>
    refine .inr ?_
    simp only [ServerText.credentialsText]
    rw [List.dropLast_concat]

theorem readAddress_host (addr : List Char) (hhost : '@' ∉ s.host.toList)
    (hat : '@' ∉ s.credentialsText.dropLast) :
    readAddress (String.ofList (s.credentialsText ++ s.host.toList)) addr = s.host.toList := by
  rw [readAddress_eq, String.toList_ofList]
  rcases credentialsText_ends s with hnone | hends
  · simp [hnone, List.splitOn_eq_singleton hhost]
  · rw [hends, List.append_assoc, List.singleton_append,
      List.splitOn_append_cons_self_of_not_mem hat, List.splitOn_eq_singleton hhost]
    rfl

end Entries

section Clients

variable {Key : Type} {hash : String → String → String → Key} {s : ServerText} {o : ServerOptions}
  {net : Network} {relay : Bool} {clientIp realm : String}

theorem mem_toldServers (net : Network) (relay : Bool) (hs : s.WellFormed)
    (hturnurl : "turn:" ++ o.turnurl = s.text) (hne : o.turnurl ≠ "") (hclient : clientIp ≠ "")
    (entry : Value) :
    entry ∈ toldServers (net.getIceServers o.iceServerList relay clientIp) ↔
      entry = s.entry net clientIp ∨ o.stunurl ≠ "" ∧ o.stunurl ≠ "-" ∧
        entry = Network.serverValue (net.getIceServerFromUrl ("stun:" ++ o.stunurl) clientIp) := by
  rw [toldServers_getIceServers, ServerOptions.iceServerList, if_pos hne, hturnurl,
    List.map_append, List.mem_append, List.map_singleton, List.mem_singleton,
    ServerText.serverValue_text hs hclient]
  split
  · rename_i hstun
    simp [hstun, or_comm]
  · rename_i hstun
    simp only [List.map_nil, List.not_mem_nil, false_or]
    tauto

/-- What `-T` starts lets in the clients that are told about it exactly when the
password of its text is the user: `TurnAuth` computes its key with the user for the
password. The keys of these two must not be the same by accident. -/
theorem turn_lets_in_iff {user : String} {password : Option String}
    (hcollision : hash user realm (password.getD "") = hash user realm user →
      password.getD "" = user)
    (hs : s.WellFormed) (hscheme : s.scheme = .turn) (hhost : s.host ≠ "")
    (hcredentials : s.credentials = some (user, password))
    (hat : '@' ∉ s.credentialsText.dropLast)
    (hserver : o.turnServer = some (String.ofList (s.credentialsText ++ s.host.toList)))
    (hturn : o.turn = none) (hclient : clientIp ≠ "") :
    o.LetsIn hash net relay clientIp realm ↔ password = some user := by
  have huser : user ≠ "" := (hs.user user password hcredentials).1
  have hpassword : s.password = s.user ↔ password = some user := by
    cases password <;> simp [ServerText.password, ServerText.user, hcredentials, huser.symm]
  have hlocal : o.localturnurl = String.ofList (s.credentialsText ++ s.host.toList) := by
    simp [ServerOptions.localturnurl, hserver]
  have hurl : o.turnurl = String.ofList (s.credentialsText ++ s.host.toList) := by
    simp [ServerOptions.turnurl, hserver, hturn]
  have hne : String.ofList (s.credentialsText ++ s.host.toList) ≠ "" := by
    intro hempty
    have hnil := congrArg String.toList hempty
    simp [hhost] at hnil
  have haddresses : o.turnAddresses = some (s.host, s.host) := by
    simp only [ServerOptions.turnAddresses, hlocal, hurl, if_neg hne,
      readAddress_host _ hs.host hat, String.ofList_toList]
  have hturnurl : "turn:" ++ o.turnurl = s.text := by
    rw [hurl, ServerText.text, hscheme]
    rfl
  have hentry := mem_toldServers net relay hs hturnurl (hurl ▸ hne) hclient
  have hkeys : clientKey hash (s.entry net clientIp) realm =
      TurnAuth.getKey hash (memberText (s.entry net clientIp) "username") realm ↔
        s.password = s.user := by
    rw [clientKey, TurnAuth.getKey, entry_username, entry_credential]
    refine ⟨fun hkey => ?_, fun h => by rw [h]⟩
    simp only [ServerText.user, ServerText.password, hcredentials, Option.map_some,
      Option.bind_some, Option.getD_some] at hkey ⊢
    exact hcollision hkey
  have hurls : ServerText.urls ⟨.turn, none, s.host⟩ net clientIp = s.urls net clientIp := by
    simp only [ServerText.urls, ServerText.hostFor, hscheme]
  rw [← hpassword]
  constructor
  · rintro ⟨addr, external, haddr, entry, hmem, hfind, hkey⟩
    rcases (hentry entry).mp hmem with rfl | ⟨-, -, rfl⟩
    · exact hkeys.mp hkey
    · obtain ⟨url, hstun⟩ := stun_urls net clientIp o.stunurl
      rw [hstun] at hfind
      simp [ServerText.urls] at hfind
  · intro hsame
    refine ⟨s.host, s.host, haddresses, s.entry net clientIp, (hentry _).mpr (.inl rfl), ?_,
      hkeys.mpr hsame⟩
    rw [entry_urls, hurls]

end Clients

/-- The server that `-T` starts without a text lets its clients in, one with a
password of its own does not. -/
theorem turn_lets_in_default :
    let letsIn := ServerOptions.LetsIn fun user realm password => (user, realm, password)
    letsIn ⟨some "turn:turn@0.0.0.0:3478", none, none, none⟩ .home false "192.168.1.5" "realm" ∧
    ¬ letsIn ⟨some "me:secret@0.0.0.0:3478", none, none, none⟩ .home false "192.168.1.5"
      "realm" := by
  constructor
  · exact (turn_lets_in_iff (s := ⟨.turn, some ("turn", some "turn"), "0.0.0.0:3478"⟩) (by simp)
      ⟨fun _ _ h => (by cases h; decide), by decide⟩ rfl (by decide) rfl (by decide) rfl rfl
      (by decide)).mpr rfl
  · exact fun h => absurd ((turn_lets_in_iff
      (s := ⟨.turn, some ("me", some "secret"), "0.0.0.0:3478"⟩) (by simp)
      ⟨fun _ _ h => (by cases h; decide), by decide⟩ rfl (by decide) rfl (by decide) rfl rfl
      (by decide)).mp h) (by decide)

end WebrtcStreamer
