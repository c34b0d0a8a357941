import WebrtcStreamer.TextParts
import WebrtcStreamer.WhepStatus

/-! The `Location` of a WHEP session, and which peer the requests to it are for. -/

set_option autoImplicit false

namespace WebrtcStreamer

open TextParts
open Json (Value)

def charset : List Char :=
  "0123456789ABCDEFGHIJKLMNOPQRSTUVWXYZabcdefghijklmnopqrstuvwxyz".toList

def randomString (rand : Nat → Nat) (length : Nat) : String :=
  String.ofList ((List.range length).map fun i => charset.getD (rand i % charset.length) '0')

/-- How `CivetServer::getParam` reads a query string: names are compared without
case, values are decoded. -/
structure ParamReader where
  sameName : List Char → List Char → Bool
  decode : List Char → List Char
  sameName_refl : ∀ name, sameName name name = true
  /-- only `%` and `+` are special -/
  decode_charset : ∀ text, (∀ c ∈ text, c ∈ charset) → decode text = text

namespace ParamReader

variable (reader : ParamReader)

def item (paramName : String) (text : List Char) : Option String :=
  match splitFirst '=' text with
  | none => none
  | some (name, value) =>
    if reader.sameName name paramName.toList then some (String.ofList (reader.decode value))
    else none

def find (queryString paramName : String) : Option String :=
  (queryString.toList.splitOn '&').findSome? (reader.item paramName)

def getParam (queryString paramName : String) : String :=
  (reader.find queryString paramName).getD ""

end ParamReader

def queryPart (location : String) : Option String :=
  (splitFirst '?' location.toList).map fun x => String.ofList x.2

/-- Requests with this query string are for the observer. -/
def AreFor (lib : Library) (queryString : String) (sh : Shared) (o : ObsId) : Prop :=
  ∀ (e : ApiEnv) (info : RequestInfo), info.queryString = some queryString →
    sh.peerConnectionObsMap[PeerConnectionManager.sessionPeerId e (info.param lib "peerid")]? =
      some o

/-- The `Location` of the response names the peer of the session, and requests
to it are for the observer that this peer has got. -/
def LeadsBack (lib : Library) (out : Response) (peerid : PeerId) (o : ObsId) (sh : Shared) :
    Prop :=
  ∃ location queryString, out.headers.lookup "Location" = some location ∧
    queryPart location = some queryString ∧ lib.getParam queryString "peerid" = peerid ∧
    AreFor lib queryString sh o

theorem randomString_charset (rand : Nat → Nat) (length : Nat) :
    ∀ c ∈ (randomString rand length).toList, c ∈ charset := by
  intro c hc
  rw [randomString, String.toList_ofList] at hc
  obtain ⟨i, _, rfl⟩ := List.mem_map.mp hc
  have hlt : rand i % charset.length < charset.length := Nat.mod_lt _ (by decide)
  rw [List.getD_eq_getElem _ _ hlt]
  exact List.getElem_mem hlt

theorem randomString_ne (rand : Nat → Nat) {length : Nat} (h : length ≠ 0) :
    randomString rand length ≠ "" := by
  intro hempty
  have hlength := congrArg String.length hempty
  rw [randomString, String.length_ofList, List.length_map, List.length_range] at hlength
  exact h hlength

namespace ParamReader

variable {reader : ParamReader} {queryString text : String}

theorem find_append (hamp : '&' ∉ text.toList) (paramName : String) :
    reader.find (queryString ++ "&" ++ text) paramName =
      (reader.find queryString paramName).or (reader.item paramName text.toList) := by
  have htext : (queryString ++ "&" ++ text).toList = queryString.toList ++ '&' :: text.toList := by
    simp
  rw [find, htext, List.splitOn_append_cons_self, List.splitOn_eq_singleton hamp,
    List.findSome?_append]
  simp [find]

theorem item_peerid {value : String} (h : ∀ c ∈ value.toList, c ∈ charset) :
    reader.item "peerid" ("peerid=" ++ value).toList = some value := by
  have htext : ("peerid=" ++ value).toList = "peerid".toList ++ '=' :: value.toList := by simp
  rw [item, htext, splitFirst_append (by decide)]
  simp [reader.sameName_refl, reader.decode_charset _ h]

end ParamReader

section Location

variable {srv : Server} {lib : Library} {e : ApiEnv} {info : RequestInfo} {input : Value}
  {reader : ParamReader} {rand : Nat → Nat} {queryString : String}

theorem queryPart_locationUrl (huri : '?' ∉ info.requestUri.toList) (peerid : PeerId) :
    queryPart (PeerConnectionManager.locationUrl e (info.requestUri ++ "?" ++ queryString)
        peerid) =
      some (if peerid = "" then queryString ++ "&" ++ ("peerid=" ++ e.random)
        else queryString) := by
  rw [PeerConnectionManager.locationUrl, queryPart]
  split
  · have htext : (info.requestUri ++ "?" ++ queryString ++ "&" ++ "peerid=" ++ e.random).toList =
        info.requestUri.toList ++
          '?' :: (queryString ++ "&" ++ ("peerid=" ++ e.random)).toList := by
      simp
    rw [htext, splitFirst_append huri, Option.map_some, String.ofList_toList]
  · have htext : (info.requestUri ++ "?" ++ queryString).toList =
        info.requestUri.toList ++ '?' :: queryString.toList := by
      simp
    rw [htext, splitFirst_append huri, Option.map_some, String.ofList_toList]

/-- What is read from the `Location`: the random name only where the query string
had no name at all. -/
theorem find_locationUrl (reader : ParamReader) (queryString : String)
    (hrandom : e.random = randomString rand 32) :
    let peerid := reader.getParam queryString "peerid"
    reader.find (if peerid = "" then queryString ++ "&" ++ ("peerid=" ++ e.random)
      else queryString) "peerid" =
      some ((reader.find queryString "peerid").getD e.random) := by
  have hcharset := hrandom ▸ randomString_charset rand 32
  have hamp : '&' ∉ ("peerid=" ++ e.random).toList := by
    have hrandom' : '&' ∉ e.random.toList := fun hmem => absurd (hcharset _ hmem) (by decide)
    simpa using hrandom'
  cases hfind : reader.find queryString "peerid" with
  | none =>
    simp only [ParamReader.getParam, hfind, Option.getD_none, if_true]
    rw [ParamReader.find_append hamp, hfind, ParamReader.item_peerid hcharset]
    rfl
  | some value =>
    simp only [ParamReader.getParam, hfind, Option.getD_some]
    split
    · rw [ParamReader.find_append hamp, hfind]
      rfl
    · exact hfind

theorem getParam_locationUrl (reader : ParamReader) (queryString : String)
    (hrandom : e.random = randomString rand 32) :
    reader.getParam (if reader.getParam queryString "peerid" = "" then
      queryString ++ "&" ++ ("peerid=" ++ e.random) else queryString) "peerid" =
      (reader.find queryString "peerid").getD e.random := by
  rw [ParamReader.getParam, find_locationUrl reader queryString hrandom]
  rfl

/-- The name in the `Location` is the one of the session, but for an empty one. -/
theorem named_iff (reader : ParamReader) (queryString : String) (hrandom : e.random ≠ "") :
    (reader.find queryString "peerid").getD e.random =
        PeerConnectionManager.sessionPeerId e (reader.getParam queryString "peerid") ↔
      reader.find queryString "peerid" ≠ some "" := by
  unfold PeerConnectionManager.sessionPeerId ParamReader.getParam
  cases reader.find queryString "peerid" with
  | none => simp
  | some value => by_cases hvalue : value = "" <;> simp [hvalue, hrandom.symm]

theorem sessionPeerId_ne (peerid : PeerId) (hrandom : e.random ≠ "") :
    PeerConnectionManager.sessionPeerId e peerid ≠ "" := by
  unfold PeerConnectionManager.sessionPeerId
  split
  · exact hrandom
  · assumption

theorem sessionPeerId_idem (peerid : PeerId) :
    PeerConnectionManager.sessionPeerId e (PeerConnectionManager.sessionPeerId e peerid) =
      PeerConnectionManager.sessionPeerId e peerid := by
  unfold PeerConnectionManager.sessionPeerId
  by_cases h : peerid = "" <;> simp [h]

theorem whep_location {method url : String} {peerid : PeerId} {r : StreamRequest}
    {sh sh' : Shared} {out : Response} (hdelete : method ≠ "DELETE") (hpatch : method ≠ "PATCH")
    (h : PeerConnectionManager.whep srv e method url peerid r input sh = .ok (sh', out))
    (hcode : out.code = 201) :
    (∃ d, WebrtcStreamer.whep srv.cfg (PeerConnectionManager.reading e (some input.text))
      (postRequest peerid r) sh = .ok (sh', some d)) ∧
    out.headers.lookup "Location" = some (PeerConnectionManager.locationUrl e url peerid) := by
  obtain ⟨reply, hanswer, hstatus, hlocation⟩ := whep_post hdelete hpatch h
  cases reply with
  | none => exact absurd (hcode.symm.trans hstatus) (by decide)
  | some d => exact ⟨⟨d, hanswer⟩, hlocation rfl⟩

theorem answered_registered_iff {s : State} {sh' : Shared} {peerid : PeerId} {r : StreamRequest}
    {d : Description} (hs : Reachable srv.cfg s)
    (h : WebrtcStreamer.whep srv.cfg (PeerConnectionManager.reading e (some input.text))
      (postRequest peerid r) s.shared = .ok (sh', some d)) :
    let p := PeerConnectionManager.sessionPeerId e peerid
    sh'.peerConnectionObsMap[p]? = some s.shared.observers.length ↔
      p ∉ s.shared.peerConnectionObsMap ∨ s.shared.evicts srv.cfg p = true := by
  intro p
  have hserved := serve_outcomes (r := postRequest peerid r) h
  have hidentified : ((postRequest peerid r).identified
      (PeerConnectionManager.reading e (some input.text))).peerid = p := by
    simp only [Request.identified, postRequest, PeerConnectionManager.reading, p,
      PeerConnectionManager.sessionPeerId, decide_true, Bool.true_and]
    by_cases hempty : peerid = "" <;> simp [hempty]
  have hregisters : registers srv.cfg (PeerConnectionManager.reading e (some input.text))
      (postRequest peerid r) s.shared = true := by
    by_contra hfalse
    cases (hserved.unregistered (Bool.eq_false_iff.mpr hfalse)).1
  have hregistered := (hserved.registered hregisters).1
  rw [hidentified] at hregistered
  cases htaken : decide (p ∈ s.shared.peerConnectionObsMap) && !s.shared.evicts srv.cfg p with
  | false =>
    refine iff_of_true (hregistered.lookup_self htaken) ?_
    rwa [Bool.and_eq_false_iff, decide_eq_false_iff_not, Bool.not_eq_false'] at htaken
  | true =>
    refine iff_of_false (fun hself => ?_) ?_
    · rw [hregistered.lookup_taken htaken p] at hself
      split at hself
      · cases hself
      · exact hs.next_unregistered _ hself
    · rw [Bool.and_eq_true, decide_eq_true_eq, Bool.not_eq_true'] at htaken
      simp [htaken]

/-- The `Location` leads back to the session exactly when the query string has
no empty peerid in front and the peerid of the session was free. -/
theorem location_leads_back_iff {s : State} {sh' : Shared} {out : Response}
    (hs : Reachable srv.cfg s)
    (hparam : ∀ queryString paramName, lib.getParam queryString paramName =
      reader.getParam queryString paramName)
    (hrandom : e.random = randomString rand 32) (huri : '?' ∉ info.requestUri.toList)
    (hquery : info.queryString = some queryString)
    (hdelete : info.requestMethod ≠ "DELETE") (hpatch : info.requestMethod ≠ "PATCH")
    (h : api srv lib e .whep info input s.shared = .ok (sh', out)) (hcode : out.code = 201) :
    let p := PeerConnectionManager.sessionPeerId e (info.param lib "peerid")
    LeadsBack lib out p s.shared.observers.length sh' ↔
      reader.find queryString "peerid" ≠ some "" ∧
        (p ∉ s.shared.peerConnectionObsMap ∨ s.shared.evicts srv.cfg p = true) := by
  intro p
  have hpeerid : info.param lib "peerid" = reader.getParam queryString "peerid" := by
    rw [RequestInfo.param, hquery]
    exact hparam _ _
  have hwhep : PeerConnectionManager.whep srv e info.requestMethod
      (info.requestUri ++ "?" ++ queryString) (info.param lib "peerid")
      (info.streamRequest lib (info.nullCodec lib srv)) input s.shared = .ok (sh', out) := by
    simp only [api, RequestInfo.fullUrl, hquery] at h
    exact h
  obtain ⟨⟨d, hanswer⟩, hlocation⟩ := whep_location hdelete hpatch hwhep hcode
  have hregistered : sh'.peerConnectionObsMap[p]? = some s.shared.observers.length ↔
      p ∉ s.shared.peerConnectionObsMap ∨ s.shared.evicts srv.cfg p = true :=
    answered_registered_iff hs hanswer
  have hnamed : lib.getParam (if info.param lib "peerid" = "" then
        queryString ++ "&" ++ ("peerid=" ++ e.random) else queryString) "peerid" =
      (reader.find queryString "peerid").getD e.random := by
    rw [hparam, hpeerid]
    exact getParam_locationUrl reader queryString hrandom
  have hne : e.random ≠ "" := hrandom ▸ randomString_ne rand (by decide)
  have hname : (reader.find queryString "peerid").getD e.random = p ↔
      reader.find queryString "peerid" ≠ some "" := by
    simp only [p, hpeerid]
    exact named_iff reader queryString hne
  rw [← hregistered, ← hname]
  constructor
  · rintro ⟨location, query, hfound, hpart, hsession, hfor⟩
    rw [hlocation, Option.some.injEq] at hfound
    rw [← hfound, queryPart_locationUrl huri, Option.some.injEq] at hpart
    rw [← hpart, hnamed] at hsession
    refine ⟨hsession, ?_⟩
    have hobserver := hfor e { info with queryString := some query } rfl
    have hparam' : RequestInfo.param lib { info with queryString := some query } "peerid" = p := by
      rw [← hsession, ← hnamed, hpart]
      rfl
    rw [hparam', sessionPeerId_idem] at hobserver
    exact hobserver
  · rintro ⟨hsession, hobserver⟩
    refine ⟨_, _, hlocation, queryPart_locationUrl huri _, hnamed.trans hsession, ?_⟩
    intro e' info' hquery'
    have hparam' : info'.param lib "peerid" = p := by
      rw [RequestInfo.param, hquery']
      exact hnamed.trans hsession
    rw [hparam', PeerConnectionManager.sessionPeerId, if_neg (sessionPeerId_ne _ hne)]
    exact hobserver

end Location

def ParamReader.plain : ParamReader where
  sameName name paramName := name.map Char.toLower = paramName.map Char.toLower
  decode text := text.map fun c => if c = '+' then ' ' else c
  sameName_refl _ := by simp
  decode_charset text h := by
    have hplus : ∀ c ∈ text, (if c = '+' then ' ' else c) = c := fun c hc =>
      if_neg fun heq => absurd (heq ▸ h c hc) (by decide)
    rw [List.map_congr_left hplus, List.map_id']

def Library.reading : Library := { Library.plain with getParam := ParamReader.plain.getParam }

def ApiEnv.drawn : ApiEnv := { ApiEnv.fine with random := randomString (fun i => 7 * i) 32 }

def offerInfo (queryString : String) : RequestInfo := ⟨"POST", "/api/whep", some queryString⟩

theorem exists_answer (queryString : String) (p : Response → Bool)
    (h : ((api .plain .reading .drawn .whep (offerInfo queryString) (.string "offer")
      State.initial.shared).toOption.any fun x => p x.2) = true) :
    ∃ sh' out, api .plain .reading .drawn .whep (offerInfo queryString) (.string "offer")
      State.initial.shared = .ok (sh', out) ∧ p out = true := by
  cases hapi : api .plain .reading .drawn .whep (offerInfo queryString) (.string "offer")
      State.initial.shared with
  | error a => simp [hapi, Except.toOption] at h
  | ok x => exact ⟨x.1, x.2, rfl, by simpa [hapi, Except.toOption] using h⟩

theorem location_leads_back_random : ∃ sh' out,
    LeadsBack .reading out ApiEnv.drawn.random 0 sh' := by
  obtain ⟨sh', out, hapi, hcode⟩ := exists_answer "url=rtsp://cam"
    (fun out => out.code = 201) (by decide)
  have hback := (@location_leads_back_iff _ _ _ _ _ .plain _ "url=rtsp://cam" _ _ _
    .refl (fun _ _ => rfl) rfl (by decide) rfl (by decide) (by decide) hapi
    (of_decide_eq_true hcode)).mpr
    ⟨by decide, .inl (by decide)⟩
  have hp : PeerConnectionManager.sessionPeerId ApiEnv.drawn
      ((offerInfo "url=rtsp://cam").param .reading "peerid") = ApiEnv.drawn.random := by decide
  rw [hp] at hback
  exact ⟨sh', out, hback⟩

/-- Behind an empty peerid the random one is not found. -/
theorem location_lost : ¬ ∀ (srv : Server) (lib : Library) (e : ApiEnv) (info : RequestInfo)
    (input : Value) (reader : ParamReader) (rand : Nat → Nat) (s : State) (sh' : Shared)
    (out : Response), Reachable srv.cfg s →
    (∀ queryString paramName, lib.getParam queryString paramName =
      reader.getParam queryString paramName) →
    e.random = randomString rand 32 → '?' ∉ info.requestUri.toList →
    info.queryString.isSome = true → info.requestMethod = "POST" →
    api srv lib e .whep info input s.shared = .ok (sh', out) → out.code = 201 →
    LeadsBack lib out (PeerConnectionManager.sessionPeerId e (info.param lib "peerid"))
      s.shared.observers.length sh' := by
  intro halways
  obtain ⟨sh', out, hapi, hout⟩ := exists_answer "peerid=&url=rtsp://cam"
    (fun out => out.code = 201 && out.headers.lookup "Location" =
      some ("/api/whep?peerid=&url=rtsp://cam&peerid=" ++ ApiEnv.drawn.random)) (by decide)
  rw [Bool.and_eq_true, decide_eq_true_eq, decide_eq_true_eq] at hout
  obtain ⟨location, query, hfound, hpart, hsession, _⟩ := halways .plain .reading .drawn
    (offerInfo "peerid=&url=rtsp://cam") (.string "offer") .plain (fun i => 7 * i) .initial sh' out
    .refl (fun _ _ => rfl) rfl (by decide) rfl rfl hapi hout.1
  rw [hout.2, Option.some.injEq] at hfound
  subst hfound
  have hquery : query = "peerid=&url=rtsp://cam&peerid=" ++ ApiEnv.drawn.random := by
    rw [← Option.some.injEq, ← hpart]
    decide
  subst hquery
  revert hsession
  decide

end WebrtcStreamer
