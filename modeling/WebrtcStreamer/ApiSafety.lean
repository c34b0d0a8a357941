import WebrtcStreamer.Api
import WebrtcStreamer.Replies

/-! Which messages the handlers answer: the accesses to JSON values and to the
query string, then the functions of `PeerConnectionManager` behind them. -/

set_option autoImplicit false

namespace WebrtcStreamer

open Json (Value LogicError)

open PeerConnectionManager (replaceMember shown getMediaList)

theorem bind_total {ε α β : Type} {x : Except ε α} {f : α → Except ε β} (hx : ∃ a, x = .ok a)
    (hf : ∀ a, x = .ok a → ∃ b, f a = .ok b) : ∃ b, (x >>= f) = .ok b := by
  obtain ⟨a, rfl⟩ := hx
  exact hf a rfl

theorem exists_bind_ok_iff {ε α β : Type} {x : Except ε α} {f : α → Except ε β}
    (hf : ∀ a, ∃ b, f a = .ok b) : (∃ b, (x >>= f) = .ok b) ↔ ∃ a, x = .ok a := by
  refine ⟨fun ⟨_, h⟩ => ?_, fun h => bind_total h fun a _ => hf a⟩
  obtain ⟨a, hx, -⟩ := bind_ok h
  exact ⟨a, hx⟩

theorem exists_map_ok_iff {ε α β : Type} {x : Except ε α} {f : α → β} :
    (∃ b, f <$> x = .ok b) ↔ ∃ a, x = .ok a := by
  cases x with
  | error e => exact iff_of_false nofun nofun
  | ok a => exact iff_of_true ⟨_, rfl⟩ ⟨_, rfl⟩

theorem exists_mapM_ok_iff {ε α β : Type} {f : α → Except ε β} {l : List α} :
    (∃ l', l.mapM f = .ok l') ↔ ∀ a ∈ l, ∃ b, f a = .ok b := by
  induction l with
  | nil => exact iff_of_true ⟨[], rfl⟩ nofun
  | cons a rest ih =>
    rw [List.mapM_cons, List.forall_mem_cons, ← ih]
    constructor
    · rintro ⟨_, h⟩
      obtain ⟨b, hb, h⟩ := bind_ok h
      obtain ⟨l', hl', -⟩ := bind_ok h
      exact ⟨⟨b, hb⟩, l', hl'⟩
    · rintro ⟨hb, hl'⟩
      exact bind_total hb fun b _ => bind_total hl' fun l' _ => ⟨b :: l', rfl⟩

/-! ### Functions that never fault -/

def ConnectedPeers (sh : Shared) : Prop :=
  ∀ (p : PeerId) (o : ObsId), sh.peerConnectionObsMap[p]? = some o → (sh.obs o).pc.isSome = true

def bitrateReadable (cfg : Config) (r : StreamRequest) : Bool :=
  match (streamOptions cfg.aliases r)["bitrate"]? with
  | none => true
  | some text => (stoi text).isSome

abbrev ReadableFor (cfg : Config) (r : StreamRequest) : Prop :=
  ConfigReadable cfg.aliases r.videourl r.audiourl

section Total

variable {cfg : Config} {e : Env} {r : Request} {sh sh' : Shared} {caller : Caller}

theorem ConnectedPeers.congr (h : ConnectedPeers sh) (hsame : SamePeers sh sh') :
    ConnectedPeers sh' := by
  intro p o hp
  rw [hsame.map] at hp
  rw [hsame.pc]
  exact h p o hp

theorem ConnectedPeers.erasePeer (h : ConnectedPeers sh) (p : PeerId) :
    ConnectedPeers (sh.erasePeer p) := by
  intro q o hq
  exact h q o (Shared.erasePeer_lookup hq).2

theorem ConnectedPeers.streamStillUsed (h : ConnectedPeers sh) (l : Label) :
    ∃ stillUsed, sh.streamStillUsed l = .ok stillUsed := by
  have hall : ∀ o ∈ sh.registered, (sh.obs o).pc.isSome = true := by
    intro o ho
    obtain ⟨p, hp⟩ := sh.mem_registered.mp ho
    exact h p o hp
  unfold Shared.streamStillUsed
  generalize false = used
  generalize sh.registered = os at hall
  induction os generalizing used with
  | nil => exact ⟨used, rfl⟩
  | cons o os ih =>
    obtain ⟨localstreams, hpc⟩ := Option.isSome_iff_exists.mp (hall o List.mem_cons_self)
    rw [List.foldlM_cons, hpc]
    exact ih _ fun o' ho' => hall o' (List.mem_cons_of_mem _ ho')

theorem ConnectedPeers.closeStreams (h : ConnectedPeers sh) (streams : List (List Label)) :
    ∃ sh', closeStreams streams sh = .ok sh' := by
  induction streams generalizing sh with
  | nil => exact ⟨sh, rfl⟩
  | cons ls rest ih =>
    cases ls with
    | nil => exact ih h
    | cons l ls =>
      refine bind_total (h.streamStillUsed l) fun stillUsed _ => ?_
      have hread := h.congr (.touchRegistered sh)
      cases stillUsed with
      | true => exact ih hread
      | false => exact ih (hread.congr ⟨rfl, rfl, fun _ => rfl⟩)

theorem ConnectedPeers.hangUp (h : ConnectedPeers sh) (caller : Caller) (peerid : PeerId) :
    ∃ x, hangUp cfg caller peerid sh = .ok x := by
  simp only [WebrtcStreamer.hangUp]
  have hread := h.congr (((SamePeers.readMember caller sh).trans (.logPeerId caller cfg _)).trans
    (.readMember caller _))
  generalize caller.readMember (caller.logPeerId cfg (caller.readMember sh)) = sh₁ at hread ⊢
  cases hfound : sh₁.peerConnectionObsMap[peerid]? with
  | none => exact ⟨_, rfl⟩
  | some o =>
    have hpc : (((sh₁.erasePeer peerid).touch o).obs o).pc.isSome = true := by
      rw [(SamePeers.touch _ o).pc]
      exact hread peerid o hfound
    obtain ⟨localstreams, hpc⟩ := Option.isSome_iff_exists.mp hpc
    have hclose := ((hread.erasePeer peerid).congr (.touch _ o)).closeStreams
      (localstreams.map Sender.streamIds)
    simp only [hpc]
    exact bind_total hclose fun _ _ => ⟨_, rfl⟩

theorem ConnectedPeers.evictOldest (h : ConnectedPeers sh) (cfg : Config) (r : Request) :
    ∃ sh', evictOldest cfg r sh = .ok sh' := by
  simp only [WebrtcStreamer.evictOldest]
  have hread : ConnectedPeers (if sh.peersFull cfg then sh.touchRegistered else sh) := by
    split
    · exact h.congr (.touchRegistered sh)
    · exact h
  split
  · exact ⟨_, rfl⟩
  · exact bind_total (hread.hangUp _ _) fun _ _ => ⟨_, rfl⟩

theorem ConnectedPeers.createPeerConnection (h : ConnectedPeers sh) (cfg : Config) (e : Env)
    (r : Request) : ∃ x, createPeerConnection cfg e r sh = .ok x := by
  refine bind_total (h.evictOldest cfg r) fun sh₁ _ => ?_
  split <;> exact ⟨_, rfl⟩

theorem setBitrate_total {o : ObsId} (h : bitrateReadable cfg r.toStreamRequest = true)
    (hpc : (sh.obs o).pc.isSome = true) : setBitrate cfg r o sh = .ok () := by
  simp only [bitrateReadable] at h
  simp only [setBitrate]
  generalize (streamOptions cfg.aliases r.toStreamRequest)["bitrate"]? = bitrate at h ⊢
  cases bitrate with
  | none => rfl
  | some text =>
    obtain ⟨bitrate, hbitrate⟩ := Option.isSome_iff_exists.mp h
    simp [hbitrate, Option.isNone_eq_false_iff.mpr hpc]

theorem setUpStreams_ok_iff {o : ObsId} (hbitrate : bitrateReadable cfg r.toStreamRequest = true)
    (hpc : (sh.obs o).pc.isSome = true) :
    (∃ x, setUpStreams cfg r o sh = .ok x) ↔ ReadableFor cfg r.toStreamRequest := by
  rw [ReadableFor, ← readConfig_ok_iff, setUpStreams]
  cases readConfig cfg.aliases r.toStreamRequest with
  | error a => exact iff_of_false nofun nofun
  | ok texts => exact iff_of_true ⟨(), setBitrate_total hbitrate hpc⟩ ⟨texts, rfl⟩

theorem addStreams_ok_iff {o : ObsId} (hbitrate : bitrateReadable cfg r.toStreamRequest = true)
    (hpc : (sh.obs o).pc.isSome = true) :
    (∃ x, addStreams cfg e r o sh = .ok x) ↔ ReadableFor cfg r.toStreamRequest := by
  rw [← setUpStreams_ok_iff hbitrate hpc]
  refine exists_bind_ok_iff fun _ => ?_
  dsimp only
  have hstored :
      ((if r.label cfg ∈ sh.streamMap then sh
        else sh.storeStream (r.label cfg) (e.videoSource, e.audioSource)).obs o).pc.isSome =
        true := by
    split <;> exact hpc
  generalize (if r.label cfg ∈ sh.streamMap then sh
    else sh.storeStream (r.label cfg) (e.videoSource, e.audioSource)) = sh₁ at hstored
  generalize sh₁.streamMap[r.label cfg]? = found
  cases found with
  | none => exact ⟨_, rfl⟩
  | some pair =>
    refine bind_total (Shared.attachTrack_connected hstored _ _ _ _ _) fun ⟨sh₂, video⟩ hvideo => ?_
    have hkept := ((SameOwners.attachTrack hvideo).obs o).2.2.trans hstored
    exact bind_total (Shared.attachTrack_connected hkept _ _ _ _ _) fun _ _ => ⟨_, rfl⟩

theorem getAnswer_ok_iff (h : ConnectedPeers sh) (hconnected : e.connected = true)
    (hbitrate : bitrateReadable cfg r.toStreamRequest = true) :
    (∃ x, getAnswer cfg e r sh = .ok x) ↔
      ((e.parsed && cfg.factory r.useNullCodec) = true → ReadableFor cfg r.toStreamRequest) := by
  rw [getAnswer]
  cases hparsed : e.parsed with
  | false => exact iff_of_true ⟨_, rfl⟩ fun hadds => by cases hadds
  | true =>
    obtain ⟨⟨sh₁, obs⟩, hcreate⟩ := h.createPeerConnection cfg e r
    change (∃ x, (createPeerConnection cfg e r sh >>= _) = .ok x) ↔ _
    rw [hcreate]
    cases hfactory : cfg.factory r.useNullCodec with
    | false =>
      obtain rfl := (createPeerConnection_unavailable hcreate hfactory).1
      exact iff_of_true ⟨_, rfl⟩ fun hadds => by cases hadds
    | true =>
      obtain ⟨rfl, hprepared⟩ := createPeerConnection_available hcreate hfactory
      have hpc : ((sh₁.touch sh.observers.length).obs sh.observers.length).pc.isSome = true := by
        rw [(SamePeers.touch _ _).pc, hprepared.connected, hconnected]
      have hregistered : (((sh₁.touch sh.observers.length).registerPeer r.peerid
          sh.observers.length).obs sh.observers.length).pc.isSome = true := by
        rw [Shared.registerPeer_obs, hpc]
      rw [Bool.and_self, forall_prop_of_true rfl, ← addStreams_ok_iff hbitrate hregistered]
      change (∃ x, (if ((sh₁.touch sh.observers.length).obs sh.observers.length).pc.isNone
        then _ else addStreams cfg e r sh.observers.length _ >>= _) = .ok x) ↔ _
      rw [if_neg (Bool.eq_false_iff.mp (Option.isNone_eq_false_iff.mpr hpc))]
      refine exists_bind_ok_iff fun streamed => ?_
      obtain ⟨sh₂, ok⟩ := streamed
      cases ok <;> exact ⟨_, rfl⟩

theorem createOffer_ok_iff (h : ConnectedPeers sh) (hconnected : e.connected = true)
    (hbitrate : bitrateReadable cfg r.toStreamRequest = true) :
    (∃ x, createOffer cfg e r sh = .ok x) ↔
      (cfg.factory r.useNullCodec = true → ReadableFor cfg r.toStreamRequest) := by
  obtain ⟨⟨sh₁, obs⟩, hcreate⟩ := h.createPeerConnection cfg e r
  rw [createOffer, hcreate]
  cases hfactory : cfg.factory r.useNullCodec with
  | false =>
    obtain rfl := (createPeerConnection_unavailable hcreate hfactory).1
    exact iff_of_true ⟨_, rfl⟩ fun hadds => by cases hadds
  | true =>
    obtain ⟨rfl, hprepared⟩ := createPeerConnection_available hcreate hfactory
    have hpc : ((sh₁.touch sh.observers.length).obs sh.observers.length).pc.isSome = true := by
      rw [(SamePeers.touch _ _).pc, hprepared.connected, hconnected]
    rw [forall_prop_of_true rfl, ← addStreams_ok_iff hbitrate hpc]
    change (∃ x, (addStreams cfg e r sh.observers.length _ >>= _) = .ok x) ↔ _
    constructor
    · rintro ⟨x, hx⟩
      obtain ⟨streamed, hstreams, -⟩ := bind_ok hx
      exact ⟨streamed, hstreams⟩
    · intro hadded
      refine bind_total hadded fun streamed hstreams => ?_
      obtain ⟨sh₂, ok⟩ := streamed
      have hkept := (((addStreams_spec hstreams).1.obs sh.observers.length).2.2).trans hpc
      cases ok with
      | false => exact ⟨_, rfl⟩
      | true =>
        have hnone : ((sh₂.registerPeer r.peerid sh.observers.length).obs
            sh.observers.length).pc.isNone = false := by
          rw [Option.isNone_eq_false_iff, Shared.registerPeer_obs, hkept]
        dsimp only
        rw [hnone]
        exact ⟨_, rfl⟩

theorem ConnectedPeers.perform {op : Operation} (h : ConnectedPeers sh)
    (hperform : perform cfg sh op = some sh') : ConnectedPeers sh' := by
  intro p o hp
  cases op with
  | request e r =>
    obtain ⟨reply, hserve⟩ := perform_request hperform
    have hserved := serve_outcomes hserve
    cases hregisters : registers cfg e r sh with
    | false =>
      rcases (hserved.unregistered hregisters).2 p with hsame | ⟨_, hnone⟩
      · rw [hsame] at hp
        exact hserved.kept o (h p o hp)
      · rw [hnone] at hp
        cases hp
    | true =>
      have hregistered := (hserved.registered hregisters).1
      rw [hregistered.lookup p] at hp
      split_ifs at hp
      · cases hp
        exact hregistered.connected
      · exact hserved.kept o (h p o hp)
  | hangUp peerid =>
    obtain ⟨result, hhang⟩ := perform_hangUp hperform
    obtain ⟨hmap, _, hpc, _⟩ := hangUp_spec hhang
    rw [hmap p] at hp
    split at hp
    · cases hp
    · rw [hpc]
      exact h p o hp

theorem connectedPeers_run (h : Transition.Reachable (perform cfg) .initial sh) :
    ConnectedPeers sh := by
  refine h.invariant ConnectedPeers ?_ fun _ _ _ hs _ hstep => hs.perform hstep
  intro p o hp
  simp [Shared.initial] at hp

end Total

/-! ### Accesses of the handlers -/

def Abort.isAccess : Abort → Bool
  | .manager _ => false
  | _ => true

def Harmless {α : Type} (x : Except Abort α) : Prop := ∀ a, x = .error a → a.isAccess = false

namespace Harmless

variable {α β : Type} {x : Except Abort α} {f : α → Except Abort β}

theorem ok (a : α) : Harmless (.ok a : Except Abort α) := fun _ h => by cases h

theorem managed (x : Except Fault α) : Harmless (Abort.managed x) := by
  cases x with
  | ok a => exact .ok a
  | error fault =>
    intro a h
    cases h
    rfl

theorem bind (hx : Harmless x) (hf : ∀ a, Harmless (f a)) : Harmless (x >>= f) := by
  cases x with
  | ok a => exact hf a
  | error a =>
    intro b h
    cases h
    exact hx a rfl

theorem map (hx : Harmless x) (f : α → β) : Harmless (f <$> x) := by
  cases x with
  | ok a => exact .ok (f a)
  | error a =>
    intro b h
    cases h
    exact hx a rfl

theorem access_iff {x : Except LogicError α} : Harmless (Abort.access x) ↔ ∃ a, x = .ok a := by
  cases x with
  | ok a => exact iff_of_true (.ok a) ⟨a, rfl⟩
  | error a => exact iff_of_false (fun h => nomatch h _ rfl) nofun

theorem access_ok_bind {a : α} : Harmless (Abort.access (.ok a) >>= f) ↔ Harmless (f a) :=
  Iff.rfl

theorem bind_ok_iff {f : α → β} : Harmless (x >>= fun a => .ok (f a)) ↔ Harmless x := by
  refine ⟨fun h a ha => ?_, fun h => h.bind fun _ => .ok _⟩
  rw [ha] at h
  exact h a rfl

theorem map_iff {f : α → β} : Harmless (f <$> x) ↔ Harmless x := by
  refine ⟨fun h a ha => ?_, fun h => h.map f⟩
  rw [ha] at h
  exact h a rfl

theorem not_error {a : Abort} (h : a.isAccess = true) : ¬ Harmless (.error a : Except Abort α) := by
  intro hx
  rw [hx a rfl] at h
  cases h

end Harmless

/-- Every access of the function finds what it needs, in the request and in the list of the
streams that are registered. -/
def RequestInfo.reads (srv : Server) (info : RequestInfo) (input : Value) : ApiPath → Bool
  | .whep => info.queryString.isSome && (info.requestMethod = "DELETE" || !input.isContainer)
  | .getMediaList => srv.cfg.aliases.entries.all fun entry => entry.2.isObjectOrNull
  | _ => true

def HttpRequest.message (lib : Library) (q : HttpRequest) : Value :=
  if 0 < q.contentLength then
    match lib.parse q.body with
    | some (true, jmessage) => jmessage
    | _ => .string q.body
  else .null

namespace ClientMessage

def info : ClientMessage → RequestInfo
  | .http _ q => q.toRequestInfo
  | .websocket info _ => info

def answerable (srv : Server) (lib : Library) : ClientMessage → Bool
  | .http path q =>
    (q.contentLength ≤ 0 || (lib.parse q.body).isSome) &&
      q.toRequestInfo.reads srv (q.message lib) path
  | .websocket info data =>
    match lib.parse data with
    | none => false
    | some (_, input) =>
      input.isObjectOrNull && !(input.member "request" (.string "")).isContainer &&
        (srv.find (input.member "request" (.string "")).text).all
          (info.reads srv (input.member "body" (.string "")))

end ClientMessage

section Access

variable {srv : Server} {lib : Library} {e : ApiEnv} {path : ApiPath} {info : RequestInfo}
  {input : Value} {sh : Shared}

theorem whep_harmless {method url : String} {peerid : PeerId} {r : StreamRequest}
    (h : method = "DELETE" ∨ input.isContainer = false) :
    Harmless (PeerConnectionManager.whep srv e method url peerid r input sh) := by
  unfold PeerConnectionManager.whep
  split
  · exact (Harmless.managed _).bind fun _ => .ok _
  · rename_i hdelete
    rw [Value.asString_of_text (h.resolve_left hdelete)]
    split
    · exact .ok _
    · refine (Harmless.managed _).bind fun ⟨_, desc⟩ => ?_
      cases desc <;> exact .ok _

theorem whep_stops {method url : String} {peerid : PeerId} {r : StreamRequest}
    (hdelete : method ≠ "DELETE") (h : input.isContainer = true) :
    PeerConnectionManager.whep srv e method url peerid r input sh =
      .error (.json .notConvertible) := by
  unfold PeerConnectionManager.whep
  rw [if_neg hdelete, Value.asString_of_container h]
  split <;> rfl

theorem replaceMember_ok_iff {name key : String} {media : Value} :
    (∃ media', replaceMember name key media = .ok media') ↔ media.isObjectOrNull = true := by
  cases media with
  | null => exact iff_of_true ⟨_, rfl⟩ rfl
  | object members =>
    refine iff_of_true (bind_total ⟨_, rfl⟩ fun present _ => ?_) rfl
    cases present <;> exact ⟨_, rfl⟩
  | _ => exact iff_of_false nofun nofun

theorem replaceMember_isObjectOrNull {name key : String} {media media' : Value}
    (h : replaceMember name key media = .ok media') : media'.isObjectOrNull = true := by
  obtain ⟨present, hmember, h⟩ := bind_ok h
  have hobject := (Value.isObjectOrNull_of_isMember hmember).1
  cases present with
  | false =>
    cases h
    exact hobject
  | true =>
    cases media with
    | null =>
      cases h
      rfl
    | object members =>
      cases h
      rfl
    | _ => cases hobject

theorem shown_ok_iff {entry : String × Value} :
    (∃ media, shown entry = .ok media) ↔ entry.2.isObjectOrNull = true := by
  rw [← @replaceMember_ok_iff entry.1 "video"]
  constructor
  · rintro ⟨media, h⟩
    obtain ⟨media', hvideo, -⟩ := bind_ok h
    exact ⟨media', hvideo⟩
  · intro hvideo
    exact bind_total hvideo fun media hmedia =>
      replaceMember_ok_iff.mpr (replaceMember_isObjectOrNull hmedia)

theorem getMediaList_ok_iff {videoCaptureDevice videoList : List String}
    {videoaudiomap : Std.TreeMap String String} {config : AliasConfig} :
    (∃ list, getMediaList videoCaptureDevice videoList videoaudiomap config = .ok list) ↔
      (config.entries.all fun entry => entry.2.isObjectOrNull) = true := by
  rw [getMediaList, exists_bind_ok_iff fun _ => ⟨_, rfl⟩, exists_mapM_ok_iff, List.all_eq_true]
  exact forall₂_congr fun _ _ => shown_ok_iff

theorem api_harmless_iff : Harmless (api srv lib e path info input sh) ↔
    info.reads srv input path = true := by
  cases path with
  | whep =>
    simp only [api, RequestInfo.fullUrl, RequestInfo.reads]
    cases hquery : info.queryString with
    | none => exact iff_of_false (Harmless.not_error rfl) (by simp)
    | some queryString =>
      by_cases hreads : info.requestMethod = "DELETE" ∨ input.isContainer = false
      · exact iff_of_true (whep_harmless hreads) (by simpa using hreads)
      · simp only [not_or, Bool.not_eq_false] at hreads
        refine iff_of_false ?_ (by simpa using hreads)
        change ¬ Harmless (PeerConnectionManager.whep srv e info.requestMethod _ _ _ input sh)
        rw [whep_stops hreads.1 hreads.2]
        exact Harmless.not_error rfl
  | getMediaList =>
    exact Harmless.map_iff.trans
      (Harmless.bind_ok_iff.trans (Harmless.access_iff.trans getMediaList_ok_iff))
  | call => exact iff_of_true (((Harmless.managed _).bind fun _ => .ok _).map _) rfl
  | hangup => exact iff_of_true (((Harmless.managed _).bind fun _ => .ok _).map _) rfl
  | createOffer => exact iff_of_true (((Harmless.managed _).bind fun _ => .ok _).map _) rfl
  | _ => exact iff_of_true (.ok _) rfl

theorem getInputMessage_eq {q : HttpRequest} : getInputMessage lib q =
    if q.contentLength ≤ 0 ∨ (lib.parse q.body).isSome = true then .ok (q.message lib)
    else .error .reader := by
  unfold getInputMessage HttpRequest.message
  by_cases hlength : 0 < q.contentLength
  · rw [if_pos hlength, if_pos hlength]
    have hlong : ¬ q.contentLength ≤ 0 := by omega
    cases hparse : lib.parse q.body with
    | none => simp [hlong]
    | some result =>
      obtain ⟨parsed, jmessage⟩ := result
      cases parsed <;> simp
  · have hshort : q.contentLength ≤ 0 := by omega
    rw [if_neg hlength, if_neg hlength, if_pos (.inl hshort)]

theorem handle_harmless_iff {q : HttpRequest} : Harmless (handle srv lib e path q sh) ↔
    (ClientMessage.http path q).answerable srv lib = true := by
  unfold handle
  rw [getInputMessage_eq]
  simp only [ClientMessage.answerable, Bool.and_eq_true]
  by_cases hread : q.contentLength ≤ 0 ∨ (lib.parse q.body).isSome = true
  · have hapi : Harmless (api srv lib e path q.toRequestInfo (q.message lib) sh) ↔ _ :=
      api_harmless_iff
    rw [if_pos hread, ← hapi]
    have hread : (decide (q.contentLength ≤ 0) || (lib.parse q.body).isSome) = true := by
      simpa using hread
    simp only [hread, true_and]
    exact Harmless.bind_ok_iff
  · rw [if_neg hread]
    exact iff_of_false (Harmless.not_error rfl) (by simpa using fun h => absurd h hread)

theorem handleData_harmless_iff {data : String} : Harmless (handleData srv lib e info data sh) ↔
    (ClientMessage.websocket info data).answerable srv lib = true := by
  simp only [handleData, ClientMessage.answerable]
  cases lib.parse data with
  | none => exact iff_of_false (Harmless.not_error rfl) (by simp)
  | some result =>
    obtain ⟨_, input⟩ := result
    dsimp only
    cases hobject : input.isObjectOrNull with
    | false =>
      rw [Value.get_of_other hobject]
      exact iff_of_false (Harmless.not_error rfl) (by simp)
    | true =>
      rw [Value.get_of_object hobject, Value.get_of_object hobject, Bool.true_and]
      generalize input.member "request" (.string "") = request
      cases hcontainer : request.isContainer with
      | true =>
        refine iff_of_false ?_ (by simp)
        change ¬ Harmless (Abort.access request.asString >>= _)
        rw [Value.asString_of_container hcontainer]
        exact Harmless.not_error rfl
      | false =>
        change Harmless (Abort.access request.asString >>= _) ↔ _
        rw [Value.asString_of_text hcontainer, Harmless.access_ok_bind]
        cases hfind : srv.find request.text with
        | none => exact iff_of_true (.ok _) (by simp)
        | some path =>
          dsimp only
          rw [Harmless.access_ok_bind]
          refine Harmless.bind_ok_iff.trans (api_harmless_iff.trans ?_)
          simp

theorem handleMessage_harmless_iff {m : ClientMessage} :
    Harmless (handleMessage srv lib e m sh) ↔ m.answerable srv lib = true := by
  cases m with
  | http path q => exact Harmless.map_iff.trans handle_harmless_iff
  | websocket info data => exact Harmless.map_iff.trans handleData_harmless_iff

/-! ### Replies -/

theorem managed_ok_iff {α : Type} {x : Except Fault α} :
    (∃ a, Abort.managed x = .ok a) ↔ ∃ a, x = .ok a := by
  cases x with
  | ok a => exact iff_of_true ⟨a, rfl⟩ ⟨a, rfl⟩
  | error fault => exact iff_of_false nofun nofun

theorem access_ok_bind {α β : Type} {a : α} {f : α → Except Abort β} :
    (Abort.access (.ok a) >>= f) = f a := rfl

/-- The message makes `AddStreams` read the configuration. -/
def RequestInfo.addsStreams (srv : Server) (lib : Library) (e : ApiEnv) (info : RequestInfo)
    (input : Value) : ApiPath → Bool
  | .call => (lib.getStringFromJsonObject input "sdp").any e.parseOffer &&
      srv.cfg.factory (info.nullCodec lib srv)
  | .whep => info.requestMethod ≠ "DELETE" && info.requestMethod ≠ "PATCH" &&
      (e.parseOffer input.text && srv.cfg.factory (info.nullCodec lib srv))
  | .createOffer => srv.cfg.factory srv.useNullCodec
  | _ => false

def ClientMessage.addsStreams (srv : Server) (lib : Library) (e : ApiEnv) : ClientMessage → Bool
  | .http path q => q.toRequestInfo.addsStreams srv lib e (q.message lib) path
  | .websocket info data =>
    match lib.parse data with
    | none => false
    | some (_, input) => (srv.find (input.member "request" (.string "")).text).any
        (info.addsStreams srv lib e (input.member "body" (.string "")))

theorem whep_ok_iff {method url : String} {peerid : PeerId} {r : StreamRequest}
    (h : ConnectedPeers sh) (hconnected : e.connected = true)
    (hbitrate : bitrateReadable srv.cfg r = true)
    (hreads : method = "DELETE" ∨ input.isContainer = false) :
    (∃ out, PeerConnectionManager.whep srv e method url peerid r input sh = .ok out) ↔
      ((method ≠ "DELETE" && method ≠ "PATCH" &&
        (e.parseOffer input.text && srv.cfg.factory r.useNullCodec)) = true →
        ReadableFor srv.cfg r) := by
  unfold PeerConnectionManager.whep
  by_cases hdelete : method = "DELETE"
  · rw [if_pos hdelete]
    refine iff_of_true (bind_total (managed_ok_iff.mpr (h.hangUp .client _)) fun _ _ => ⟨_, rfl⟩) ?_
    simp [hdelete]
  · rw [if_neg hdelete, Value.asString_of_text (hreads.resolve_left hdelete)]
    by_cases hpatch : method = "PATCH"
    · rw [if_pos hpatch]
      exact iff_of_true ⟨_, rfl⟩ (by simp [hpatch])
    · rw [if_neg hpatch]
      have hanswer := getAnswer_ok_iff
        (e := PeerConnectionManager.reading e (some input.text))
        (r := (⟨r, .whep, peerid⟩ : Request).identified
          (PeerConnectionManager.reading e (some input.text))) h hconnected (by
            rw [(identified_toStreamRequest _ _).1]
            exact hbitrate)
      rw [(identified_toStreamRequest _ _).1] at hanswer
      have hadds (b : Bool) : (method ≠ "DELETE" && method ≠ "PATCH" && b) = b := by
        simp [hdelete, hpatch]
      rw [hadds]
      refine Iff.trans ?_ (managed_ok_iff.trans hanswer)
      change (∃ out, (Abort.managed (WebrtcStreamer.whep srv.cfg _ _ sh) >>= _) = .ok out) ↔ _
      refine exists_bind_ok_iff fun ⟨_, desc⟩ => ?_
      cases desc <;> exact ⟨_, rfl⟩

theorem call_ok_iff {r : StreamRequest} {peerid : PeerId} (h : ConnectedPeers sh)
    (hconnected : e.connected = true) (hbitrate : bitrateReadable srv.cfg r = true) :
    (∃ out, PeerConnectionManager.call srv lib e r peerid input sh = .ok out) ↔
      (((lib.getStringFromJsonObject input "sdp").any e.parseOffer &&
        srv.cfg.factory r.useNullCodec) = true → ReadableFor srv.cfg r) := by
  refine (exists_bind_ok_iff fun _ => ⟨_, rfl⟩).trans (managed_ok_iff.trans ?_)
  cases lib.getStringFromJsonObject input "sdp" with
  | none => exact iff_of_true ⟨_, rfl⟩ nofun
  | some sdp =>
    exact getAnswer_ok_iff (e := PeerConnectionManager.reading e (some sdp))
      (r := ⟨r, .call, peerid⟩) h hconnected hbitrate

theorem api_ok_iff (h : ConnectedPeers sh) (hconnected : e.connected = true)
    (hbitrate : bitrateReadable srv.cfg (info.streamRequest lib false) = true)
    (hreads : info.reads srv input path = true) :
    (∃ out, api srv lib e path info input sh = .ok out) ↔
      (info.addsStreams srv lib e input path = true →
        ReadableFor srv.cfg (info.streamRequest lib false)) := by
  cases path with
  | call => exact exists_map_ok_iff.trans (call_ok_iff h hconnected hbitrate)
  | whep =>
    simp only [RequestInfo.reads, Bool.and_eq_true, Bool.or_eq_true, decide_eq_true_eq,
      Bool.not_eq_true'] at hreads
    obtain ⟨queryString, hquery⟩ := Option.isSome_iff_exists.mp hreads.1
    simp only [api, RequestInfo.fullUrl, hquery]
    exact whep_ok_iff h hconnected hbitrate hreads.2
  | hangup =>
    exact iff_of_true (exists_map_ok_iff.mpr
      (bind_total (managed_ok_iff.mpr (h.hangUp .client _)) fun _ _ => ⟨_, rfl⟩)) nofun
  | createOffer =>
    refine exists_map_ok_iff.trans ((exists_bind_ok_iff fun _ => ⟨_, rfl⟩).trans ?_)
    exact managed_ok_iff.trans (createOffer_ok_iff h hconnected hbitrate)
  | getMediaList =>
    obtain ⟨list, hlist⟩ := getMediaList_ok_iff.mpr hreads
    refine iff_of_true (exists_map_ok_iff.mpr ?_) nofun
    rw [hlist]
    exact ⟨_, rfl⟩
  | _ => exact iff_of_true ⟨_, rfl⟩ nofun

theorem handleMessage_ok_iff {m : ClientMessage} (h : ConnectedPeers sh)
    (hconnected : e.connected = true)
    (hbitrate : bitrateReadable srv.cfg (m.info.streamRequest lib false) = true)
    (hm : m.answerable srv lib = true) :
    (∃ out, handleMessage srv lib e m sh = .ok out) ↔
      (m.addsStreams srv lib e = true →
        ReadableFor srv.cfg (m.info.streamRequest lib false)) := by
  cases m with
  | http path q =>
    simp only [ClientMessage.answerable, Bool.and_eq_true, Bool.or_eq_true,
      decide_eq_true_eq] at hm
    refine exists_map_ok_iff.trans ?_
    rw [handle, getInputMessage_eq, if_pos hm.1]
    change (∃ out, (api srv lib e path q.toRequestInfo (q.message lib) sh >>= _) = .ok out) ↔ _
    exact (exists_bind_ok_iff fun _ => ⟨_, rfl⟩).trans (api_ok_iff h hconnected hbitrate hm.2)
  | websocket info data =>
    refine exists_map_ok_iff.trans ?_
    simp only [ClientMessage.answerable] at hm
    simp only [handleData, ClientMessage.addsStreams]
    cases hparse : lib.parse data with
    | none => simp [hparse] at hm
    | some result =>
      obtain ⟨_, input⟩ := result
      simp only [hparse, Bool.and_eq_true, Bool.not_eq_true'] at hm
      obtain ⟨⟨hobject, hrequest⟩, hreads⟩ := hm
      dsimp only
      rw [Value.get_of_object hobject, Value.get_of_object hobject]
      generalize input.member "request" (.string "") = request at hrequest hreads ⊢
      change (∃ out, (Abort.access request.asString >>= _) = .ok out) ↔ _
      rw [Value.asString_of_text hrequest, access_ok_bind]
      cases hfind : srv.find request.text with
      | none => exact iff_of_true ⟨_, rfl⟩ fun hadds => by cases hadds
      | some path =>
        rw [hfind, Option.all_some] at hreads
        exact (exists_bind_ok_iff fun _ => ⟨_, rfl⟩).trans (api_ok_iff h hconnected hbitrate hreads)

end Access

/-- A handler makes no access that throws or is undefined exactly when the
message has what the code takes for granted. In every state between two requests
it then ends with its one reply, unless it has to read a configuration that has no
texts where they are needed: where a connection can be created and a bitrate is a
number, these are the messages that are answered. -/
theorem message_answered_iff (srv : Server) (lib : Library) (e : ApiEnv) (m : ClientMessage)
    (sh : Shared) :
    (Harmless (handleMessage srv lib e m sh) ↔ m.answerable srv lib = true) ∧
    (Transition.Reachable (perform srv.cfg) .initial sh → e.connected = true →
      bitrateReadable srv.cfg (m.info.streamRequest lib false) = true →
      ((∃ sh' written, handleMessage srv lib e m sh = .ok (sh', written)) ↔
        m.answerable srv lib = true ∧ (m.addsStreams srv lib e = true →
          ReadableFor srv.cfg (m.info.streamRequest lib false)))) := by
  refine ⟨handleMessage_harmless_iff, fun hreach hconnected hbitrate => ?_⟩
  rw [← Prod.exists']
  have hanswered (hm : m.answerable srv lib = true) :=
    handleMessage_ok_iff (e := e) (connectedPeers_run hreach) hconnected hbitrate hm
  refine ⟨fun hok => ?_, fun ⟨hm, hconfig⟩ => (hanswered hm).mpr hconfig⟩
  have hharmless : Harmless (handleMessage srv lib e m sh) := by
    obtain ⟨out, hok⟩ := hok
    rw [hok]
    exact .ok _
  have hm := handleMessage_harmless_iff.mp hharmless
  exact ⟨hm, (hanswered hm).mp hok⟩

def Server.plain : Server := ⟨.plain 0, false, "", "1", [], [], ∅, fun _ => .array []⟩

def Library.plain : Library where
  parse text := if text = "[]" then some (true, .array []) else some (false, .null)
  getParam _ _ := ""
  getStringFromJsonObject _ _ := none
  getIntFromJsonObject _ _ := none
  writeString _ := "[]"
  responseCodeText _ := "Internal Server Error"

def ApiEnv.fine : ApiEnv where
  toEnv := .fine 7
  parseOffer _ := true
  parseAnswer _ := true
  createIceCandidate _ := true
  acceptIceCandidate _ _ := true
  remote := none
  iceCandidateList _ := .array []
  content _ := .null
  logToDebug _ := 0

/-- A WHEP offer with its query string, while another peer is registered. -/
theorem message_answered_offer : ∃ sh : Shared, "a" ∈ sh.peerConnectionObsMap ∧
    ∃ sh' written, handleMessage .plain .plain .fine
      (.http .whep ⟨⟨"POST", "/api/whep", some "url=rtsp://cam"⟩, 3, "v=0"⟩) sh =
        .ok (sh', written) := by
  obtain ⟨sh, hs, hp⟩ := Transition.exists_reaches_of_run (perform (.plain 0)) (fun _ _ => True)
    .initial [.request (.fine 7) (.plain .call "a" "rtsp://cam")]
    (fun sh => decide ("a" ∈ sh.peerConnectionObsMap)) (by decide +kernel)
  refine ⟨sh, of_decide_eq_true hp, ?_⟩
  have hanswered := (message_answered_iff .plain .plain .fine
    (.http .whep ⟨⟨"POST", "/api/whep", some "url=rtsp://cam"⟩, 3, "v=0"⟩) sh).2 hs rfl (by decide)
  exact hanswered.mpr ⟨by decide, fun _ => configReadable_null _ _⟩

/-- A WHEP request without a query string stops the server. -/
theorem message_aborts : ¬ ∀ (srv : Server) (lib : Library) (e : ApiEnv) (m : ClientMessage),
    Harmless (handleMessage srv lib e m .initial) := by
  intro halways
  exact Harmless.not_error rfl (halways .plain .plain .fine
    (.http .whep ⟨⟨"POST", "/api/whep", none⟩, 0, ""⟩))

end WebrtcStreamer
