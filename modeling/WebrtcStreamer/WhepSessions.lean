import WebrtcStreamer.Eviction
import WebrtcStreamer.HangUps
import WebrtcStreamer.HttpReplies

/-! A WHEP session from its offer to its end: what the client reads on the connection
leads it to the session until it deletes that. -/

set_option autoImplicit false

namespace WebrtcStreamer

open HttpStream (Bytes sameName utf8)
open Json (Value)

/-- The query string of the session, as a client takes it out of the first response. -/
def sessionQuery (bytes : Bytes) : Option String :=
  (HttpStream.receive bytes).bind fun x =>
    (x.1.fields.find? fun field => sameName field.1 (utf8 "Location")).bind fun field =>
      (HttpStream.readText field.2).bind queryPart

structure HttpRequest.IsPatch (lib : Library) (q : HttpRequest) (query text : String) : Prop where
  method : q.requestMethod = "PATCH"
  queryString : q.queryString = some query
  contentLength : 0 < q.contentLength
  body : q.body = text
  -- a part of an SDP is no JSON
  parse : ∃ left, lib.parse text = some (false, left)

structure HttpRequest.IsDelete (q : HttpRequest) (query : String) : Prop where
  method : q.requestMethod = "DELETE"
  queryString : q.queryString = some query
  contentLength : q.contentLength = 0

section Session

variable {srv : Server} {lib : Library} {e : ApiEnv} {info : RequestInfo} {q : HttpRequest}
  {reader : ParamReader} {rand : Nat → Nat} {queryString query : String} {sh sh' : Shared}
  {out : Response} {p : PeerId} {o : ObsId}

/-! ### What the client reads -/

theorem find_location {headers : List (String × String)}
    (h : ∀ header ∈ headers, header.1 ∈ headerNames) :
    ((headers.map fun header => (utf8 header.1, utf8 header.2)).find? fun field =>
        sameName field.1 (utf8 "Location")) =
      (headers.lookup "Location").map fun value => (utf8 "Location", utf8 value) := by
  have hnames : ∀ name ∈ headerNames,
      sameName (utf8 name) (utf8 "Location") = ("Location" == name) := by decide
  induction headers with
  | nil => rfl
  | cons header headers ih =>
    obtain ⟨name, value⟩ := header
    obtain ⟨hheader, hheaders⟩ := List.forall_mem_cons.mp h
    have hname : sameName (utf8 name) (utf8 "Location") = ("Location" == name) :=
      hnames name hheader
    rw [List.map_cons, List.find?_cons, List.lookup_cons, hname, ih hheaders]
    cases heq : "Location" == name with
    | true =>
      obtain rfl := beq_iff_eq.mp heq
      rfl
    | false => rfl

theorem sessionQuery_wire {location : String} (hclean : out.Clean)
    (hlocation : out.headers.lookup "Location" = some location) (more : Bytes) :
    sessionQuery ((fillOut lib out).wire ++ more) = queryPart location := by
  have hcode : 0 ≤ (fillOut lib out).code := by
    have hcode : (fillOut lib out).code ∈ ([200, 201, 500, 501] : List Int) := fillOut_code hclean
    simp only [List.mem_cons, List.not_mem_nil, or_false] at hcode
    omega
  have hlookup : (fillOut lib out).headers.lookup "Location" = some location := by
    rw [fillOut_headers, List.lookup_append, hlocation]
    rfl
  rw [sessionQuery, HttpReply.wire_eq_render hcode, HttpStream.receive_render hclean.framed,
    Option.bind_some, HttpReply.message]
  dsimp only
  rw [find_location fun header hmem => (hclean.header header hmem).1, hlookup, Option.map_some,
    Option.bind_some, HttpStream.readText_utf8, Option.bind_some]

/-! ### The requests of the session -/

def Names (lib : Library) (query : String) (p : PeerId) : Prop :=
  p ≠ "" ∧ lib.getParam query "peerid" = p

theorem Names.sessionPeerId (h : Names lib query p) (hquery : info.queryString = some query) :
    PeerConnectionManager.sessionPeerId e (info.param lib "peerid") = p := by
  have hparam : info.param lib "peerid" = p := by
    rw [RequestInfo.param, hquery]
    exact h.2
  rw [hparam, PeerConnectionManager.sessionPeerId, if_neg h.1]

theorem fullUrl_eq (hquery : info.queryString = some query) :
    info.fullUrl = .ok (info.requestUri ++ "?" ++ query) := by
  rw [RequestInfo.fullUrl, hquery]

theorem handle_patch {text : String} (hq : q.IsPatch lib query text) (hnames : Names lib query p)
    (ho : sh.getPeerConnection p = some o) :
    handle srv lib e .whep q sh =
      .ok (sh, fillOut lib
        ⟨(PeerConnectionManager.trickle e (some o) text).httpcode, [], .string ""⟩) := by
  obtain ⟨left, hparse⟩ := hq.parse
  have hinput : getInputMessage lib q = .ok (.string text) := by
    rw [getInputMessage, if_pos hq.contentLength, hq.body, hparse]
  have hsession := hnames.sessionPeerId (e := e) hq.queryString
  rw [handle, hinput]
  simp only [api, fullUrl_eq hq.queryString, PeerConnectionManager.whep, hq.method]
  rw [hsession, ho]
  rfl

theorem handle_delete (hq : q.IsDelete query) (hnames : Names lib query p) {x : Shared × Bool}
    (hhang : hangUp srv.cfg .client p sh = .ok x) :
    handle srv lib e .whep q sh = .ok (x.1, fillOut lib ⟨501, [], .string ""⟩) := by
  have hinput : getInputMessage lib q = .ok .null := by
    rw [getInputMessage, hq.contentLength]
    rfl
  have hsession := hnames.sessionPeerId (e := e) hq.queryString
  rw [handle, hinput]
  simp only [api, fullUrl_eq hq.queryString, PeerConnectionManager.whep, hq.method]
  rw [hsession, hhang]
  rfl

theorem hangUp_deleted {cfg : Config} {result : Bool}
    (h : hangUp cfg .client p sh = .ok (sh', result))
    (hp : sh.peerConnectionObsMap[p]? = some o) : (sh'.obs o).alive = false := by
  have hmember (sh : Shared) : Caller.readMember .client sh = sh := rfl
  have hlog (sh : Shared) : Caller.logPeerId .client cfg sh = sh := ite_self _
  simp only [hangUp, hmember, hlog, hp] at h
  cases hpc : (((sh.erasePeer p).touch o).obs o).pc with
  | none =>
    rw [hpc] at h
    cases h
  | some localstreams =>
    rw [hpc] at h
    obtain ⟨sh₁, _, hlast⟩ := bind_ok h
    cases hlast
    rw [Shared.deleteObserver_obs, if_pos rfl]

theorem handle_offer {s : State} {reply : HttpReply} (hs : Reachable srv.cfg s)
    (hparam : ∀ queryString paramName, lib.getParam queryString paramName =
      reader.getParam queryString paramName)
    (hrandom : e.random = randomString rand 32) (hline : q.OneLine)
    (huri : '?' ∉ q.requestUri.toList) (hmethod : q.requestMethod = "POST")
    (hquery : q.queryString = some queryString)
    (hpost : handle srv lib e .whep q s.shared = .ok (sh', reply)) (hcode : reply.code = 201)
    (hnamed : reader.find queryString "peerid" ≠ some "")
    (hp : PeerConnectionManager.sessionPeerId e (q.param lib "peerid") = p)
    (hfree : p ∉ s.shared.peerConnectionObsMap ∨ s.shared.evicts srv.cfg p = true) :
    (∃ query, (∀ more, sessionQuery (reply.wire ++ more) = some query) ∧ Names lib query p) ∧
      sh'.peerConnectionObsMap[p]? = some s.shared.observers.length ∧
      ∃ op, perform srv.cfg s.shared op = some sh' := by
  have hdelete : q.requestMethod ≠ "DELETE" := by rw [hmethod]; decide
  have hpatch : q.requestMethod ≠ "PATCH" := by rw [hmethod]; decide
  obtain ⟨input, -, h⟩ := bind_ok hpost
  obtain ⟨⟨sh₁, out⟩, hout, hlast⟩ := bind_ok h
  cases hlast
  have hclean := api_clean hline hrandom hout
  have hstatus : out.code = 201 := by
    unfold fillOut at hcode
    cases hbody : out.body with
    | null =>
      rw [hbody] at hcode
      exact absurd hcode (by decide : ¬ (500 : Int) = 201)
    | _ =>
      rw [hbody] at hcode
      exact hcode
  simp only [api, fullUrl_eq hquery] at hout
  obtain ⟨⟨d, hanswer⟩, hlocation⟩ := whep_location hdelete hpatch hout hstatus
  have hpeerid : q.param lib "peerid" = reader.getParam queryString "peerid" := by
    rw [RequestInfo.param, hquery]
    exact hparam _ _
  have hne : e.random ≠ "" := hrandom ▸ randomString_ne rand (by decide)
  refine ⟨⟨_, fun more => (sessionQuery_wire hclean hlocation more).trans
    (queryPart_locationUrl huri _), hp ▸ sessionPeerId_ne _ hne, ?_⟩, ?_, ?_⟩
  · rw [hparam, hpeerid, getParam_locationUrl reader queryString hrandom, ← hp, hpeerid]
    exact (named_iff reader queryString hne).mpr hnamed
  · rw [← hp] at hfree ⊢
    exact (answered_registered_iff hs hanswer).mpr hfree
  · have hserve : serve srv.cfg (PeerConnectionManager.reading e (some input.text))
        (postRequest (q.param lib "peerid") (q.streamRequest lib (q.nullCodec lib srv)))
        s.shared = .ok (sh', some d) := hanswer
    refine ⟨.request (PeerConnectionManager.reading e (some input.text))
      (postRequest (q.param lib "peerid") (q.streamRequest lib (q.nullCodec lib srv))), ?_⟩
    rw [perform, hserve]
    rfl

end Session

/-- A session of WHEP: what a client reads behind its offer names the session, whatever
follows on the connection and whatever the server does for others. Until the session is
deleted every PATCH reaches the connection that the offer has made; the DELETE is carried
out, takes the peer and its observer away and lets go of the streams that only it has used. -/
theorem whep_session (srv : Server) (lib : Library) (e : ApiEnv) (reader : ParamReader)
    (rand : Nat → Nat) (q : HttpRequest) (queryString : String) (sh sh₁ : Shared)
    (reply : HttpReply) (p : PeerId)
    (hparam : ∀ queryString paramName, lib.getParam queryString paramName =
      reader.getParam queryString paramName)
    (hrandom : e.random = randomString rand 32) (hline : q.OneLine)
    (huri : '?' ∉ q.requestUri.toList) (hmethod : q.requestMethod = "POST")
    (hquery : q.queryString = some queryString)
    (hnamed : reader.find queryString "peerid" ≠ some "")
    (hp : PeerConnectionManager.sessionPeerId e (q.param lib "peerid") = p)
    (hrun : Transition.Reachable (perform srv.cfg) .initial sh)
    (hfree : p ∉ sh.peerConnectionObsMap ∨ sh.evicts srv.cfg p = true)
    (hpost : handle srv lib e .whep q sh = .ok (sh₁, reply)) (hcode : reply.code = 201) :
    ∃ query, (∀ more, sessionQuery (reply.wire ++ more) = some query) ∧
      ∀ sh₂, Transition.Reaches (perform srv.cfg)
          (fun sh op => spares srv.cfg p sh op = true) sh₁ sh₂ →
        (∀ (e' : ApiEnv) (q' : HttpRequest) (text : String), q'.IsPatch lib query text →
          handle srv lib e' .whep q' sh₂ = .ok (sh₂, fillOut lib
            ⟨(PeerConnectionManager.trickle e' (some sh.observers.length) text).httpcode, [],
              .string ""⟩)) ∧
        ∀ (e' : ApiEnv) (q' : HttpRequest), q'.IsDelete query → ∃ sh₃ reply',
          handle srv lib e' .whep q' sh₂ = .ok (sh₃, reply') ∧
          (sh₃.obs sh.observers.length).alive = false ∧
          (∀ p', sh₃.peerConnectionObsMap[p']? =
            if p' = p then none else sh₂.peerConnectionObsMap[p']?) ∧
          sh₃.view = sh₂.view.release {p} := by
  obtain ⟨s, hs, -, rfl⟩ := perform_reachable .refl ⟨rfl, rfl⟩ hrun e.toEnv
  obtain ⟨⟨query, hread, hnames⟩, hregistered, op, hop⟩ :=
    handle_offer hs hparam hrandom hline huri hmethod hquery hpost hcode hnamed hp hfree
  refine ⟨query, hread, fun sh₂ hlater => ?_⟩
  have hrun₁ : Transition.Reachable (perform srv.cfg) .initial sh₁ := hrun.tail trivial hop
  obtain ⟨ho, hpc⟩ := hlater.invariant (fun sh =>
    sh.peerConnectionObsMap[p]? = some s.shared.observers.length ∧
      (sh.obs s.shared.observers.length).pc.isSome = true)
    ⟨hregistered, connectedPeers_run hrun₁ p _ hregistered⟩
    fun _ _ _ hi hspares hperform => perform_keeps hspares hperform hi.1 hi.2
  have hrun₂ : Transition.Reachable (perform srv.cfg) .initial sh₂ :=
    hrun₁.trans hlater.reachable
  refine ⟨fun e' q' text hq' => handle_patch hq' hnames ?_, fun e' q' hq' => ?_⟩
  · simp [Shared.getPeerConnection, ho, hpc]
  · obtain ⟨⟨sh₃, result⟩, hhang⟩ := (connectedPeers_run hrun₂).hangUp .client p
    exact ⟨sh₃, _, handle_delete hq' hnames hhang, hangUp_deleted hhang ho,
      (hangUp_spec hhang).1, hangUp_view hhang⟩

/-- A session without a peerid, while another one begins: the client writes the DELETE to
the URL that it has read. -/
theorem whep_session_camera : ∃ (sh₁ : Shared) (reply : HttpReply) (query : String),
    handle .plain .reading .drawn .whep ⟨offerInfo "url=rtsp://cam", 0, ""⟩ .initial =
      .ok (sh₁, reply) ∧
    sessionQuery reply.wire = some query ∧
    ∃ sh₂, perform (.plain 0) sh₁ (.request (.fine 8) (.plain .call "b" "rtsp://cam")) = some sh₂ ∧
      ∃ sh₃ reply', handle .plain .reading .drawn .whep
          ⟨⟨"DELETE", "/api/whep", some query⟩, 0, ""⟩ sh₂ = .ok (sh₃, reply') ∧
        sh₃.peerConnectionObsMap[ApiEnv.drawn.random]? = none := by
  have hoffer : (handle .plain .reading .drawn .whep ⟨offerInfo "url=rtsp://cam", 0, ""⟩
      .initial).toOption.any (fun x => x.2.code = 201 &&
        spares (.plain 0) ApiEnv.drawn.random x.1
          (.request (.fine 8) (.plain .call "b" "rtsp://cam")) &&
        (perform (.plain 0) x.1 (.request (.fine 8) (.plain .call "b" "rtsp://cam"))).isSome) =
      true := by decide
  cases hpost : handle .plain .reading .drawn .whep ⟨offerInfo "url=rtsp://cam", 0, ""⟩
      .initial with
  | error a => simp [hpost, Except.toOption] at hoffer
  | ok x =>
    obtain ⟨sh₁, reply⟩ := x
    simp only [hpost, Except.toOption, Option.any_some, Bool.and_eq_true, decide_eq_true_eq]
      at hoffer
    obtain ⟨⟨hcode, hspares⟩, hnext⟩ := hoffer
    obtain ⟨sh₂, hother⟩ := Option.isSome_iff_exists.mp hnext
    obtain ⟨query, hread, hsession⟩ := whep_session .plain .reading .drawn .plain
      (fun i => 7 * i) ⟨offerInfo "url=rtsp://cam", 0, ""⟩ "url=rtsp://cam" .initial sh₁ reply
      ApiEnv.drawn.random (fun _ _ => rfl) rfl
      ⟨by decide, fun queryString hquery => by cases hquery; decide⟩ (by decide) rfl rfl
      (by decide) (by decide) .refl (.inl (by decide)) hpost hcode
    obtain ⟨sh₃, reply', hdelete, -, hgone, -⟩ := (hsession sh₂ (.single hspares hother)).2 .drawn
      ⟨⟨"DELETE", "/api/whep", some query⟩, 0, ""⟩ ⟨rfl, rfl, rfl⟩
    have hnone : sh₃.peerConnectionObsMap[ApiEnv.drawn.random]? = none := by
      rw [hgone, if_pos rfl]
    exact ⟨sh₁, reply, query, rfl, by simpa using hread [], sh₂, hother, sh₃, reply', hdelete,
      hnone⟩

end WebrtcStreamer
