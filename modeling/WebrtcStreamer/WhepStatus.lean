import WebrtcStreamer.ApiSafety

/-! The status of a WHEP request and what the request has done. -/

set_option autoImplicit false

namespace WebrtcStreamer

open Json (Value)

/-! ### The lines of a PATCH -/

def isCandidateLine (line : List Char) : Bool :=
  let str := eraseCr line
  !lineHas str "a=mid:" && lineHas str "a=candidate"

def isEndLine (line : List Char) : Bool :=
  let str := eraseCr line
  !lineHas str "a=mid:" && !lineHas str "a=candidate" && lineHas str "a=end-of-candidates"

/-- The line, where the loop has come to, is a candidate that the peer
connection accepts. -/
def acceptsLine (e : ApiEnv) (pc : Option ObsId) (x : Trickle) (line : List Char) : Bool :=
  let candidate : IceCandidate := ⟨x.mid, 0, String.ofList ((eraseCr line).drop 2)⟩
  isCandidateLine line && (e.createIceCandidate candidate && pc.isSome) &&
    e.acceptIceCandidate x.submitted candidate

def candidateAccepted (e : ApiEnv) (pc : Option ObsId) : Trickle → List (List Char) → Bool
  | _, [] => false
  | x, line :: rest =>
    acceptsLine e pc x line ||
      candidateAccepted e pc (PeerConnectionManager.trickleLine e pc x line) rest

section Lines

variable {e : ApiEnv} {pc : Option ObsId}

theorem trickleLine_httpcode (x : Trickle) (line : List Char) :
    (PeerConnectionManager.trickleLine e pc x line).httpcode =
      if isEndLine line || acceptsLine e pc x line then 200 else x.httpcode := by
  unfold PeerConnectionManager.trickleLine isEndLine acceptsLine isCandidateLine
  generalize eraseCr line = str
  cases hmid : lineHas str "a=mid:" with
  | true => simp [hmid]
  | false =>
    cases hcandidate : lineHas str "a=candidate" with
    | true =>
      cases hgiven : e.createIceCandidate ⟨x.mid, 0, String.ofList (str.drop 2)⟩ && pc.isSome <;>
        simp [hmid, hcandidate, hgiven]
    | false => cases hend : lineHas str "a=end-of-candidates" <;> simp [hmid, hcandidate, hend]

theorem foldl_trickleLine_httpcode (x : Trickle) (text : List (List Char)) :
    (text.foldl (PeerConnectionManager.trickleLine e pc) x).httpcode =
      if text.any isEndLine || candidateAccepted e pc x text then 200 else x.httpcode := by
  induction text generalizing x with
  | nil => rfl
  | cons line rest ih =>
    rw [List.foldl_cons, ih, trickleLine_httpcode, List.any_cons, candidateAccepted]
    cases isEndLine line <;> cases acceptsLine e pc x line <;> simp

theorem candidateAccepted_connected {x : Trickle} {text : List (List Char)}
    (h : candidateAccepted e pc x text = true) : pc.isSome = true := by
  induction text generalizing x with
  | nil => cases h
  | cons line rest ih =>
    simp only [candidateAccepted, Bool.or_eq_true] at h
    rcases h with hline | hrest
    · simp only [acceptsLine, Bool.and_eq_true] at hline
      exact hline.1.2.2
    · exact ih hrest

end Lines

/-! ### The answer to a POST -/

def answers (cfg : Config) (e : Env) (r : Request) (sh : Shared) : Bool :=
  registers cfg e r sh && offersStream e (streamPair cfg e r sh) && e.description.isSome

section Answer

variable {cfg : Config} {e : Env} {r : Request} {sh sh' : Shared} {reply : Option Description}

theorem getAnswer_reply (h : getAnswer cfg e r sh = .ok (sh', reply)) :
    reply.isSome = (cfg.factory r.useNullCodec && (e.parsed && e.connected) &&
      offersStream e (streamPair cfg e r sh) && e.description.isSome) := by
  cases getAnswer_run h with
  | unparsed hparsed => simp [hparsed]
  | unavailable hparsed hfactory hcreate => simp [hfactory]
  | unconnected hparsed hfactory hcreate hconnected => simp [hconnected]
  | @streamed sh₁ sh₂ ok hparsed hfactory hcreate hconnected hstreams =>
    obtain ⟨_, hprepared⟩ := createPeerConnection_available hcreate hfactory
    have hsame : ((sh₁.touch sh.observers.length).registerPeer r.peerid
        sh.observers.length).streamMap = sh₁.streamMap := sh₁.touch_streamMap _
    have hok : ok = offersStream e (streamPair cfg e r sh) := by
      rw [(addStreams_spec hstreams).2, hsame, hprepared.streams]
    rw [hfactory, hparsed, hconnected, ← hok]
    cases ok <;> simp

theorem whep_reply (hapi : r.api = .whep) (h : whep cfg e r sh = .ok (sh', reply)) :
    reply.isSome = answers cfg e r sh := by
  have hpair : streamPair cfg e (r.identified e) sh = streamPair cfg e r sh := by
    unfold streamPair Request.label
    rw [(identified_toStreamRequest e r).1]
  rw [getAnswer_reply h, (identified_toStreamRequest e r).1, hpair, answers, registers, hapi]

end Answer

/-! ### What a request has done -/

def PeersKept (cfg : Config) (sh sh' : Shared) : Prop :=
  ∀ q : PeerId, sh'.peerConnectionObsMap[q]? = sh.peerConnectionObsMap[q]? ∨
    (sh.evicts cfg q = true ∧ sh'.peerConnectionObsMap[q]? = none)

def Response.success (out : Response) : Prop := 200 ≤ out.code ∧ out.code < 300

section Whep

variable (srv : Server) (e : ApiEnv) (method url : String) (peerid : PeerId) (r : StreamRequest)
  (input : Value)

def postRequest : Request := ⟨r, .whep, peerid⟩

/-- The request has had its effect: a registered peer was removed, a registered
peer got a candidate or the end of the candidates, or there is an answer. -/
def TookEffect (sh sh' : Shared) : Prop :=
  let p := PeerConnectionManager.sessionPeerId e peerid
  if method = "DELETE" then p ∈ sh.peerConnectionObsMap ∧ p ∉ sh'.peerConnectionObsMap
  else if method = "PATCH" then
    p ∈ sh.peerConnectionObsMap ∧
      (candidateAccepted e (sh.getPeerConnection p) ⟨"", 501, []⟩ (lines input.text.toList) = true ∨
        ∃ line ∈ lines input.text.toList, isEndLine line = true)
  else ∃ d, WebrtcStreamer.whep srv.cfg (PeerConnectionManager.reading e (some input.text))
    (postRequest peerid r) sh = .ok (sh', some d)

def Truthful (sh sh' : Shared) (out : Response) : Prop :=
  (out.success ↔ TookEffect srv e method peerid r input sh sh') ∧
    (out.code = 501 → PeersKept srv.cfg sh sh')

/-- The requests that get a true status: a DELETE of an unknown peer, a PATCH of
a registered peer or without the end of the candidates, and a POST that gets its
answer or registers nothing. -/
def statusHolds (sh : Shared) : Prop :=
  let p := PeerConnectionManager.sessionPeerId e peerid
  let answer := PeerConnectionManager.reading e (some input.text)
  if method = "DELETE" then p ∉ sh.peerConnectionObsMap
  else if method = "PATCH" then
    p ∈ sh.peerConnectionObsMap ∨ ∀ line ∈ lines input.text.toList, isEndLine line = false
  else answers srv.cfg answer (postRequest peerid r) sh = true ∨
    registers srv.cfg answer (postRequest peerid r) sh = false ∨
    taken srv.cfg answer (postRequest peerid r) sh = true

variable {srv e method url peerid r input}
variable {sh sh' : Shared} {out : Response}

theorem managed_ok {α : Type} {x : Except Fault α} {a : α} (h : Abort.managed x = .ok a) :
    x = .ok a := by
  cases x with
  | ok b =>
    cases h
    rfl
  | error fault => cases h

theorem asString_ok {text : String} (h : Abort.access input.asString = .ok text) :
    text = input.text := by
  cases hcontainer : input.isContainer with
  | true =>
    rw [Value.asString_of_container hcontainer] at h
    cases h
  | false =>
    rw [Value.asString_of_text hcontainer] at h
    cases h
    rfl

theorem whep_delete
    (h : PeerConnectionManager.whep srv e "DELETE" url peerid r input sh = .ok (sh', out)) :
    out.code = 501 ∧ ∀ q : PeerId, sh'.peerConnectionObsMap[q]? =
      if q = PeerConnectionManager.sessionPeerId e peerid then none
      else sh.peerConnectionObsMap[q]? := by
  unfold PeerConnectionManager.whep at h
  rw [if_pos rfl] at h
  obtain ⟨⟨sh₁, result⟩, hhang, hlast⟩ := bind_ok h
  cases hlast
  exact ⟨rfl, (hangUp_spec (managed_ok hhang)).1⟩

theorem whep_patch
    (h : PeerConnectionManager.whep srv e "PATCH" url peerid r input sh = .ok (sh', out)) :
    sh' = sh ∧ out.code = if (lines input.text.toList).any isEndLine || candidateAccepted e
      (sh.getPeerConnection (PeerConnectionManager.sessionPeerId e peerid)) ⟨"", 501, []⟩
      (lines input.text.toList) then 200 else 501 := by
  unfold PeerConnectionManager.whep at h
  rw [if_neg (by decide), if_pos rfl] at h
  obtain ⟨text, htext, hlast⟩ := bind_ok h
  cases asString_ok htext
  cases hlast
  exact ⟨rfl, foldl_trickleLine_httpcode _ _⟩

theorem whep_post (hdelete : method ≠ "DELETE") (hpatch : method ≠ "PATCH")
    (h : PeerConnectionManager.whep srv e method url peerid r input sh = .ok (sh', out)) :
    ∃ reply, WebrtcStreamer.whep srv.cfg (PeerConnectionManager.reading e (some input.text))
        (postRequest peerid r) sh = .ok (sh', reply) ∧
      out.code = (if reply.isSome then 201 else 501) ∧ (reply.isSome = true →
        out.headers.lookup "Location" = some (PeerConnectionManager.locationUrl e url peerid)) := by
  unfold PeerConnectionManager.whep at h
  rw [if_neg hdelete, if_neg hpatch] at h
  obtain ⟨text, htext, h⟩ := bind_ok h
  cases asString_ok htext
  obtain ⟨⟨sh₁, reply⟩, hanswer, hlast⟩ := bind_ok h
  cases reply with
  | none =>
    cases hlast
    exact ⟨none, managed_ok hanswer, rfl, fun hsome => by cases hsome⟩
  | some d =>
    cases hlast
    exact ⟨some d, managed_ok hanswer, rfl, fun _ => rfl⟩

theorem not_success {code : Int} {headers : List (String × String)} {body : Value}
    (h : code = 501) : ¬ (Response.mk code headers body).success := by
  simp [Response.success, h]

theorem delete_truthful_iff
    (h : PeerConnectionManager.whep srv e "DELETE" url peerid r input sh = .ok (sh', out)) :
    Truthful srv e "DELETE" peerid r input sh sh' out ↔
      statusHolds srv e "DELETE" peerid r input sh := by
  obtain ⟨hcode, hmap⟩ := whep_delete h
  have hfailure : ¬ out.success := not_success hcode
  simp only [Truthful, TookEffect, statusHolds, if_true, hfailure, false_iff, not_and, not_not]
  generalize PeerConnectionManager.sessionPeerId e peerid = p at hmap
  have hgone : p ∉ sh'.peerConnectionObsMap := by
    rw [Std.TreeMap.mem_iff_isSome_getElem?, hmap p, if_pos rfl]
    simp
  refine ⟨fun hkept hmem => hgone (hkept.1 hmem), fun hmem => ⟨fun hp => absurd hp hmem, ?_⟩⟩
  intro _ q
  rw [hmap q]
  split
  · rename_i hq
    rw [hq, Std.TreeMap.getElem?_eq_none hmem]
    exact .inl rfl
  · exact .inl rfl

theorem patch_truthful_iff
    (h : PeerConnectionManager.whep srv e "PATCH" url peerid r input sh = .ok (sh', out)) :
    Truthful srv e "PATCH" peerid r input sh sh' out ↔
      statusHolds srv e "PATCH" peerid r input sh := by
  obtain ⟨rfl, hcode⟩ := whep_patch h
  have hdelete : "PATCH" ≠ "DELETE" := by decide
  simp only [Truthful, TookEffect, statusHolds, if_true, if_neg hdelete]
  generalize PeerConnectionManager.sessionPeerId e peerid = p at hcode
  generalize lines input.text.toList = text at hcode
  have hkept : out.code = 501 → PeersKept srv.cfg sh' sh' := fun _ _ => .inl rfl
  have hsuccess : out.success ↔ text.any isEndLine = true ∨
      candidateAccepted e (sh'.getPeerConnection p) ⟨"", 501, []⟩ text = true := by
    rw [← Bool.or_eq_true]
    unfold Response.success
    rw [hcode]
    split <;> simp_all
  have hend : text.any isEndLine = true ↔ ∃ line ∈ text, isEndLine line = true := List.any_eq_true
  rw [and_iff_left hkept, hsuccess, hend]
  by_cases hmem : p ∈ sh'.peerConnectionObsMap
  · exact iff_of_true (by simp [hmem, or_comm]) (.inl hmem)
  · have hnone : sh'.getPeerConnection p = none := by
      simp [Shared.getPeerConnection, Std.TreeMap.getElem?_eq_none hmem]
    have hrefused : candidateAccepted e (sh'.getPeerConnection p) ⟨"", 501, []⟩ text = false := by
      rw [hnone, ← Bool.not_eq_true]
      intro haccepted
      cases candidateAccepted_connected haccepted
    simp [hmem, hrefused]

theorem post_truthful_iff {s : State} (hs : Reachable srv.cfg s) (hdelete : method ≠ "DELETE")
    (hpatch : method ≠ "PATCH")
    (h : PeerConnectionManager.whep srv e method url peerid r input s.shared = .ok (sh', out)) :
    Truthful srv e method peerid r input s.shared sh' out ↔
      statusHolds srv e method peerid r input s.shared := by
  obtain ⟨reply, hanswer, hcode, -⟩ := whep_post hdelete hpatch h
  simp only [Truthful, TookEffect, statusHolds, if_neg hdelete, if_neg hpatch]
  have hreply := whep_reply (r := postRequest peerid r) rfl hanswer
  have hserved := serve_outcomes (r := postRequest peerid r) hanswer
  rw [hanswer]
  generalize PeerConnectionManager.reading e (some input.text) = answer at *
  rw [← hreply]
  cases reply with
  | some d =>
    have hsuccess : out.success := by simp [Response.success, hcode]
    refine iff_of_true ⟨iff_of_true hsuccess ⟨d, rfl⟩, fun hfailure => ?_⟩ (.inl rfl)
    rw [hcode] at hfailure
    cases hfailure
  | none =>
    have hfailure : ¬ out.success := not_success hcode
    have himp : (out.code = 501 → PeersKept srv.cfg s.shared sh') ↔
        PeersKept srv.cfg s.shared sh' := ⟨fun hkept => hkept hcode, fun hkept _ => hkept⟩
    simp only [hfailure, himp, Except.ok.injEq, Prod.mk.injEq, reduceCtorEq, and_false,
      exists_false, true_and, Option.isSome_none, Bool.false_eq_true, false_or]
    cases hregisters : registers srv.cfg answer (postRequest peerid r) s.shared with
    | false => exact iff_of_true (hserved.unregistered hregisters).2 (.inl rfl)
    | true =>
      have hregistered := (hserved.registered hregisters).1
      cases htaken : taken srv.cfg answer (postRequest peerid r) s.shared with
      | false =>
        refine iff_of_false (fun hkept => ?_) (by simp)
        have hself := hregistered.lookup_self htaken
        rcases hkept _ with hsame | ⟨_, hnone⟩
        · rw [hself] at hsame
          exact hs.next_unregistered _ hsame.symm
        · rw [hself] at hnone
          cases hnone
      | true =>
        refine iff_of_true (fun q => ?_) (.inr rfl)
        rw [hregistered.lookup_taken htaken q]
        split
        · rename_i hevict
          exact .inr ⟨hevict, rfl⟩
        · exact .inl rfl

/-- Whatever the method, the status is true exactly for these requests. -/
theorem whep_status_iff {s : State} (hs : Reachable srv.cfg s)
    (h : PeerConnectionManager.whep srv e method url peerid r input s.shared = .ok (sh', out)) :
    Truthful srv e method peerid r input s.shared sh' out ↔
      statusHolds srv e method peerid r input s.shared := by
  by_cases hdelete : method = "DELETE"
  · subst hdelete
    exact delete_truthful_iff h
  · by_cases hpatch : method = "PATCH"
    · subst hpatch
      exact patch_truthful_iff h
    · exact post_truthful_iff hs hdelete hpatch h

end Whep

theorem exists_whep (method : String) (peerid : PeerId) (input : Value) (sh : Shared)
    (h : (PeerConnectionManager.whep .plain .fine method "/api/whep?" peerid
      ⟨"rtsp://cam", "", "", false⟩ input sh).toOption.isSome = true) :
    ∃ sh' out, PeerConnectionManager.whep .plain .fine method "/api/whep?" peerid
      ⟨"rtsp://cam", "", "", false⟩ input sh = .ok (sh', out) := by
  cases hwhep : PeerConnectionManager.whep .plain .fine method "/api/whep?" peerid
      ⟨"rtsp://cam", "", "", false⟩ input sh with
  | error a => simp [hwhep, Except.toOption] at h
  | ok x => exact ⟨x.1, x.2, rfl⟩

theorem whep_status_answer : ∃ sh' out, Truthful .plain .fine "POST" "a"
    ⟨"rtsp://cam", "", "", false⟩ (.string "offer") State.initial.shared sh' out := by
  obtain ⟨sh', out, hwhep⟩ := exists_whep "POST" "a" (.string "offer") State.initial.shared
    (by decide)
  exact ⟨sh', out, (whep_status_iff .refl hwhep).mpr (.inl (by decide))⟩

/-- The DELETE of a registered peer removes it and answers 501. -/
theorem whep_delete_untruthful : ¬ ∀ (srv : Server) (e : ApiEnv) (method url : String)
    (peerid : PeerId) (r : StreamRequest) (input : Value) (s : State) (sh' : Shared)
    (out : Response), Reachable srv.cfg s →
    PeerConnectionManager.whep srv e method url peerid r input s.shared = .ok (sh', out) →
    Truthful srv e method peerid r input s.shared sh' out := by
  intro halways
  obtain ⟨s, hs, hp⟩ := Reachable.of_run (.plain 0)
    ([Action.request (.plain .call "a" "rtsp://cam")] ++ runs 0 14 (.fine 7))
    (fun s => decide ("a" ∈ s.shared.peerConnectionObsMap) &&
      (PeerConnectionManager.whep .plain .fine "DELETE" "/api/whep?" "a"
        ⟨"rtsp://cam", "", "", false⟩ .null s.shared).toOption.isSome) (by decide)
  rw [Bool.and_eq_true, decide_eq_true_eq] at hp
  obtain ⟨sh', out, hwhep⟩ := exists_whep "DELETE" "a" .null s.shared hp.2
  exact (delete_truthful_iff hwhep).mp (halways .plain _ _ _ _ _ _ s sh' out hs hwhep) hp.1

end WebrtcStreamer
