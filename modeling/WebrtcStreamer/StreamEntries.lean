import WebrtcStreamer.SharedSources
import WebrtcStreamer.Replies

/-! What the entries of the stream map stand for between two requests: which of
them have a registered sender, and which of them remember a failure. -/

set_option autoImplicit false

namespace WebrtcStreamer

def attaches (source : Option Source) (track added : Bool) : Bool :=
  source.isSome && track && added

def attachesPair (e : Env) (pair : AudioVideoPair) : Bool :=
  attaches pair.1 e.videoTrack e.videoAdded || attaches pair.2 e.audioTrack e.audioAdded

def Used (sh : Shared) (l : Label) : Prop :=
  ∃ (p : PeerId) (o : ObsId), sh.peerConnectionObsMap[p]? = some o ∧ sh.sends l o = true

def NoOrphan (sh : Shared) : Prop := ∀ l ∈ sh.streamMap, Used sh l

def reachesStreams (cfg : Config) (e : Env) (r : Request) : Bool :=
  cfg.factory r.useNullCodec &&
    match r.api with
    | .call => e.message && e.parsed && e.connected
    | .whep => e.parsed && e.connected
    | .createOffer => true

def stores (cfg : Config) (r : Request) (sh : Shared) : Bool :=
  r.label cfg ∉ sh.streamMap ||
    (sh.getOldestPeerCannection cfg ≠ "" &&
      sh.closedBy (sh.getOldestPeerCannection cfg) (r.label cfg))

/-- A request that stores an entry attaches one of its sources to a connection
that is registered under a free peerid. -/
def leavesSender (cfg : Config) (sh : Shared) : Operation → Bool
  | .request e r =>
    !(reachesStreams cfg e r && stores cfg r sh) ||
      (attachesPair e (e.videoSource, e.audioSource) && !taken cfg e r sh)
  | .hangUp _ => true

variable {cfg : Config} {e : Env} {r : Request} {sh sh' : Shared}

/-! ### What `AddStreams` leaves -/

theorem Shared.attachTrack_sender {o : ObsId} {l : Label} {kind : Kind} {source : Option Source}
    {track added ret : Bool} (h : sh.attachTrack o l kind source track added = .ok (sh', ret)) :
    sh'.streamMap = sh.streamMap ∧ ∀ o', sh'.senders o' = sh.senders o' ++
      if o' = o ∧ (track && added) = true then (source.map (⟨[l], kind, ·⟩)).toList else [] := by
  unfold attachTrack at h
  cases source with
  | none =>
    cases h
    simp
  | some src =>
    cases track with
    | false =>
      cases h
      simp
    | true =>
      simp only [Bool.not_true, Bool.false_eq_true, if_false] at h
      split at h
      · cases h
      · rename_i hsome
        have hconnected : (sh.obs o).pc.isSome = true := by
          simpa [Option.isSome_iff_ne_none] using hsome
        cases added with
        | false =>
          cases h
          simp
        | true =>
          cases h
          refine ⟨rfl, fun o' => ?_⟩
          rw [Shared.addSender_senders _ hconnected]
          by_cases ho : o' = o <;> simp [ho]

def Env.tracks (e : Env) (l : Label) (pair : AudioVideoPair) : List Sender :=
  (if e.videoTrack && e.videoAdded then (pair.1.map (⟨[l], .video, ·⟩)).toList else []) ++
    if e.audioTrack && e.audioAdded then (pair.2.map (⟨[l], .audio, ·⟩)).toList else []

def pairFor (cfg : Config) (e : Env) (r : Request) (sh : Shared) : AudioVideoPair :=
  (sh.streamMap[r.label cfg]?).getD (e.videoSource, e.audioSource)

theorem addStreams_senders {o : ObsId} {ret : Bool}
    (h : addStreams cfg e r o sh = .ok (sh', ret)) :
    (∀ k : Label, sh'.streamMap[k]? =
      if k = r.label cfg then some (pairFor cfg e r sh) else sh.streamMap[k]?) ∧
    ∀ o', sh'.senders o' = sh.senders o' ++
      if o' = o then e.tracks (r.label cfg) (pairFor cfg e r sh) else [] := by
  simp only [addStreams] at h
  obtain ⟨_, _, hrest⟩ := bind_ok h
  have hstored : ∀ k : Label, (if r.label cfg ∈ sh.streamMap then sh
      else sh.storeStream (r.label cfg) (e.videoSource, e.audioSource)).streamMap[k]? =
      if k = r.label cfg then some (pairFor cfg e r sh) else sh.streamMap[k]? := by
    intro k
    unfold pairFor
    split
    · rename_i hmem
      rw [Std.TreeMap.mem_iff_isSome_getElem?] at hmem
      obtain ⟨pair, hpair⟩ := Option.isSome_iff_exists.mp hmem
      by_cases hk : k = r.label cfg
      · simp [hk, hpair]
      · simp [hk]
    · rename_i hmem
      have hnone : sh.streamMap[r.label cfg]? = none := by simpa using hmem
      rw [congrFun (Shared.storeStream_new (e.videoSource, e.audioSource) hnone) k,
        Function.update_apply, hnone]
      rfl
  have hsame : ∀ o', (if r.label cfg ∈ sh.streamMap then sh
      else sh.storeStream (r.label cfg) (e.videoSource, e.audioSource)).senders o' =
      sh.senders o' := by
    intro o'
    split <;> rfl
  generalize (if r.label cfg ∈ sh.streamMap then sh
    else sh.storeStream (r.label cfg) (e.videoSource, e.audioSource)) = sh₁ at hrest hstored hsame
  rw [hstored (r.label cfg), if_pos rfl] at hrest
  obtain ⟨⟨sh₂, video⟩, hvideo, hrest⟩ := bind_ok hrest
  obtain ⟨⟨sh₃, audio⟩, haudio, hlast⟩ := bind_ok hrest
  cases hlast
  obtain ⟨hmap₂, hsenders₂⟩ := Shared.attachTrack_sender hvideo
  obtain ⟨hmap₃, hsenders₃⟩ := Shared.attachTrack_sender haudio
  refine ⟨fun k => by rw [hmap₃, hmap₂]; exact hstored k, fun o' => ?_⟩
  rw [hsenders₃, hsenders₂, hsame]
  by_cases ho : o' = o <;> simp [ho, Env.tracks]

theorem sends_tracks (e : Env) (l : Label) (pair : AudioVideoPair) (l' : Label) :
    ((e.tracks l pair).any fun s => s.streamIds.head? = some l') =
      (decide (l' = l) && attachesPair e pair) := by
  have hpart : ∀ (kind : Kind) (source : Option Source) (track added : Bool),
      ((if track && added then (source.map (⟨[l], kind, ·⟩ : Source → Sender)).toList else []).any
        fun s => s.streamIds.head? = some l') =
      (decide (l' = l) && attaches source track added) := by
    intro kind source track added
    by_cases hl : l' = l
    · cases source <;> cases track <;> cases added <;> simp [attaches, hl]
    · have hne : l ≠ l' := Ne.symm hl
      cases source <;> cases track <;> cases added <;> simp [attaches, hl, hne]
  rw [Env.tracks, List.any_append, hpart, hpart, attachesPair, Bool.and_or_distrib_left]

theorem addStreams_sends {o : ObsId} {ret : Bool} (h : addStreams cfg e r o sh = .ok (sh', ret))
    (l : Label) (o' : ObsId) : sh'.sends l o' = (sh.sends l o' ||
      (decide (o' = o) && (decide (l = r.label cfg) && attachesPair e (pairFor cfg e r sh)))) := by
  rw [Shared.sends, (addStreams_senders h).2 o', List.any_append]
  by_cases ho : o' = o
  · simp only [ho, if_true, decide_true, Bool.true_and, sends_tracks, Shared.sends]
  · simp [ho, Shared.sends]

/-! ### No orphan after one function -/

theorem used_iff (sh : Shared) {l : Label} : sh.registered.any (sh.sends l) = true ↔ Used sh l := by
  simp only [List.any_eq_true, Shared.mem_registered, Used]
  constructor
  · rintro ⟨o, ⟨p, hp⟩, hsends⟩
    exact ⟨p, o, hp, hsends⟩
  · rintro ⟨p, o, hp, hsends⟩
    exact ⟨o, ⟨p, hp⟩, hsends⟩

theorem mem_streamMap {l : Label} : l ∈ sh.streamMap ↔ sh.streamMap[l]? ≠ none := by
  rw [Std.TreeMap.mem_iff_isSome_getElem?, Option.isSome_iff_ne_none]

theorem Used.mono {l : Label} (h : Used sh l)
    (hmap : ∀ (p : PeerId) (o : ObsId), sh.peerConnectionObsMap[p]? = some o →
      sh'.peerConnectionObsMap[p]? = some o)
    (hsends : ∀ o, sh.sends l o = true → sh'.sends l o = true) : Used sh' l := by
  obtain ⟨p, o, hp, hs⟩ := h
  exact ⟨p, o, hmap p o hp, hsends o hs⟩

theorem NoOrphan.congr (h : NoOrphan sh) (same : SamePeers sh sh')
    (hmap : sh'.streamMap = sh.streamMap) : NoOrphan sh' := by
  intro l hl
  rw [hmap] at hl
  refine (h l hl).mono (fun p o hp => ?_) fun o hs => (same.sends l o).trans hs
  rw [same.map]
  exact hp

theorem NoOrphan.hangUp {caller : Caller} {peerid : PeerId} {result : Bool} (h : NoOrphan sh)
    (hh : WebrtcStreamer.hangUp cfg caller peerid sh = .ok (sh', result)) : NoOrphan sh' := by
  obtain ⟨hmap, _, hpc, hstreams⟩ := hangUp_spec hh
  have hsame : ∀ l o, sh'.sends l o = sh.sends l o := by
    intro l o
    simp [Shared.sends, Shared.senders, hpc o]
  intro l hl
  rw [mem_streamMap, hstreams l] at hl
  cases hclosed : sh.closedBy peerid l with
  | true => simp [hclosed] at hl
  | false =>
    rw [hclosed, if_neg (by simp), ← mem_streamMap] at hl
    obtain ⟨p, o, hp, hsends⟩ := h l hl
    by_cases hpeer : p = peerid
    · subst hpeer
      simp only [Shared.closedBy, hp, hsends, Bool.true_and, Bool.not_eq_false'] at hclosed
      obtain ⟨q, o', hq, hsends'⟩ := (used_iff (sh.erasePeer p)).mp hclosed
      obtain ⟨hne, hq⟩ := Shared.erasePeer_lookup hq
      exact ⟨q, o', by rw [hmap q, if_neg hne]; exact hq, (hsame l o').trans hsends'⟩
    · exact ⟨p, o, by rw [hmap p, if_neg hpeer]; exact hp, (hsame l o).trans hsends⟩

theorem NoOrphan.evictOldest (h : NoOrphan sh)
    (he : WebrtcStreamer.evictOldest cfg r sh = .ok sh') : NoOrphan sh' := by
  simp only [WebrtcStreamer.evictOldest] at he
  have hlook : NoOrphan (if sh.peersFull cfg then sh.touchRegistered else sh) := by
    split
    · exact h.congr (.touchRegistered sh) (by simp)
    · exact h
  split at he
  · cases he
    exact hlook
  · obtain ⟨⟨sh₁, result⟩, hhang, hlast⟩ := bind_ok he
    cases hlast
    exact hlook.hangUp hhang

theorem NoOrphan.construct (h : NoOrphan sh) (p : PeerId) (connected : Bool) (time : UInt64) :
    NoOrphan (sh.construct p connected time) := by
  intro l hl
  refine (h l hl).mono (fun _ _ hp => hp) fun o hs => ?_
  rw [Shared.sends, Shared.construct_senders]
  exact hs

theorem NoOrphan.registerPeer (h : NoOrphan sh) (p : PeerId) (o : ObsId) :
    NoOrphan (sh.registerPeer p o) := by
  intro l hl
  exact (h l hl).mono (fun _ _ hp => Shared.registerPeer_keeps hp) fun _ hs => hs

theorem pollGathering_same (gathered : Bool) (o : ObsId) (retry : Nat) (sh : Shared) :
    SamePeers sh (pollGathering gathered o retry sh) ∧
      (pollGathering gathered o retry sh).streamMap = sh.streamMap := by
  induction retry generalizing sh with
  | zero => exact ⟨.touch sh o, sh.touch_streamMap o⟩
  | succ retry ih =>
    unfold pollGathering
    split
    · exact ⟨.touch sh o, sh.touch_streamMap o⟩
    · obtain ⟨hsame, hmap⟩ := ih (sh.touch o)
      exact ⟨(SamePeers.touch sh o).trans hsame, hmap.trans (sh.touch_streamMap o)⟩

/-! ### No orphan after one request -/

theorem evictOldest_stores (h : evictOldest cfg r sh = .ok sh') :
    r.label cfg ∉ sh'.streamMap ↔ stores cfg r sh = true := by
  rw [mem_streamMap, not_not, (evictOldest_spec h).2.2.2]
  by_cases hclosed : sh.getOldestPeerCannection cfg ≠ "" ∧
      sh.closedBy (sh.getOldestPeerCannection cfg) (r.label cfg) = true
  · simp [hclosed, stores]
  · rw [if_neg hclosed]
    have hkept : (decide (sh.getOldestPeerCannection cfg ≠ "") &&
        sh.closedBy (sh.getOldestPeerCannection cfg) (r.label cfg)) = false := by
      rw [Bool.eq_false_iff, ne_eq, Bool.and_eq_true, decide_eq_true_eq]
      exact hclosed
    rw [stores, hkept, Bool.or_false, decide_eq_true_eq, mem_streamMap, not_not]

theorem evictOldest_frees (h : evictOldest cfg r sh = .ok sh') {p : PeerId}
    (hfree : (decide (p ∈ sh.peerConnectionObsMap) && !sh.evicts cfg p) = false) :
    sh'.peerConnectionObsMap[p]? = none := by
  rw [(evictOldest_spec h).1]
  split
  · rfl
  · rename_i hkept
    simp only [Bool.not_eq_true] at hkept
    simpa [hkept] using hfree

theorem NoOrphan.addStreams {o : ObsId} {ret : Bool} (h : NoOrphan sh)
    (ha : WebrtcStreamer.addStreams cfg e r o sh = .ok (sh', ret)) {sh'' : Shared}
    (hmap : ∀ (p : PeerId) (o' : ObsId), sh.peerConnectionObsMap[p]? = some o' →
      sh''.peerConnectionObsMap[p]? = some o')
    (hsends : ∀ l o', sh''.sends l o' = sh'.sends l o') (hstreams : sh''.streamMap = sh'.streamMap)
    (hnew : r.label cfg ∉ sh.streamMap → attachesPair e (e.videoSource, e.audioSource) = true ∧
      ∃ p : PeerId, sh''.peerConnectionObsMap[p]? = some o) : NoOrphan sh'' := by
  intro l hl
  rw [hstreams, mem_streamMap, (addStreams_senders ha).1 l] at hl
  have hold : l ∈ sh.streamMap → Used sh'' l := by
    intro hmem
    refine (h l hmem).mono hmap fun o' hs => ?_
    rw [hsends, addStreams_sends ha, hs, Bool.true_or]
  by_cases hlabel : l = r.label cfg
  · subst hlabel
    by_cases hmem : r.label cfg ∈ sh.streamMap
    · exact hold hmem
    · obtain ⟨hattach, p, hp⟩ := hnew hmem
      have hnone : sh.streamMap[r.label cfg]? = none := by simpa using hmem
      refine ⟨p, o, hp, ?_⟩
      rw [hsends, addStreams_sends ha]
      simp [pairFor, hnone, hattach]
  · rw [if_neg hlabel, ← mem_streamMap] at hl
    exact hold hl

theorem offersStream_of_attaches {pair : AudioVideoPair} (h : attachesPair e pair = true) :
    offersStream e pair = true := by
  simp only [attachesPair, attaches, offersStream, offersTrack, Bool.or_eq_true,
    Bool.and_eq_true] at h ⊢
  rcases h with ⟨⟨hsource, _⟩, hadded⟩ | ⟨⟨hsource, _⟩, hadded⟩
  · exact .inl ⟨hsource, .inr hadded⟩
  · exact .inr ⟨hsource, .inr hadded⟩

theorem NoOrphan.createPeerConnection {obs : Option ObsId} (h : NoOrphan sh)
    (hc : WebrtcStreamer.createPeerConnection cfg e r sh = .ok (sh', obs)) :
    NoOrphan sh' ∧ obs.isSome = cfg.factory r.useNullCodec ∧
      (r.label cfg ∉ sh'.streamMap ↔ stores cfg r sh = true) ∧
      ∀ p : PeerId, (decide (p ∈ sh.peerConnectionObsMap) && !sh.evicts cfg p) = false →
        sh'.peerConnectionObsMap[p]? = none := by
  obtain ⟨sh₁, hevict, hcases⟩ := createPeerConnection_spec hc
  have hstores := evictOldest_stores hevict
  by_cases hfactory : cfg.factory r.useNullCodec = true
  · rw [if_pos hfactory] at hcases
    obtain ⟨rfl, rfl⟩ := hcases
    exact ⟨(h.evictOldest hevict).construct _ _ _, hfactory.symm, hstores,
      fun p hp => evictOldest_frees hevict hp⟩
  · rw [if_neg hfactory] at hcases
    obtain ⟨rfl, rfl⟩ := hcases
    exact ⟨h.evictOldest hevict, (Bool.eq_false_iff.mpr hfactory).symm, hstores,
      fun p hp => evictOldest_frees hevict hp⟩

theorem registerPeer_self {p : PeerId} (o : ObsId) (h : sh.peerConnectionObsMap[p]? = none) :
    (sh.registerPeer p o).peerConnectionObsMap[p]? = some o := by
  have hnew := congrFun (Shared.registerPeer_new o h) p
  rw [Function.update_self] at hnew
  exact hnew

theorem NoOrphan.getAnswer {reply : Option Description} (h : NoOrphan sh)
    (hg : WebrtcStreamer.getAnswer cfg e r sh = .ok (sh', reply))
    (hleaves : (cfg.factory r.useNullCodec && (e.parsed && e.connected) && stores cfg r sh) = true →
      attachesPair e (e.videoSource, e.audioSource) = true ∧
      (decide (r.peerid ∈ sh.peerConnectionObsMap) && !sh.evicts cfg r.peerid) = false) :
    NoOrphan sh' := by
  cases getAnswer_run hg with
  | unparsed hparsed => exact h
  | unavailable hparsed hfactory hcreate => exact (h.createPeerConnection hcreate).1
  | unconnected hparsed hfactory hcreate hconnected =>
    have htouched := (h.createPeerConnection hcreate).1.congr (.touch _ sh.observers.length)
      (Shared.touch_streamMap _ _)
    refine htouched.congr (.deleteObserver _ _) ?_
    simp [Shared.deleteObserver, Shared.modifyObs]
  | @streamed sh₁ sh₂ ok hparsed hfactory hcreate hconnected hstreams =>
    obtain ⟨hcreated, _, hstores, hfree⟩ := h.createPeerConnection hcreate
    have htouched := hcreated.congr (.touch sh₁ sh.observers.length) (sh₁.touch_streamMap _)
    have hregistered := htouched.registerPeer r.peerid sh.observers.length
    have hmap := (addStreams_spec hstreams).1.map
    have hadded : NoOrphan sh₂ := by
      refine hregistered.addStreams hstreams (fun p o' hp => ?_) (fun _ _ => rfl) rfl fun hout => ?_
      · rw [hmap]
        exact hp
      · have hnew : stores cfg r sh = true := hstores.mp (by
          rw [← sh₁.touch_streamMap sh.observers.length]
          exact hout)
        obtain ⟨hattach, htaken⟩ := hleaves (by simp [hfactory, hparsed, hconnected, hnew])
        refine ⟨hattach, r.peerid, ?_⟩
        rw [hmap]
        refine registerPeer_self _ ?_
        rw [sh₁.touch_peerConnectionObsMap]
        exact hfree _ htaken
    split
    · exact hadded.congr (pollGathering_same _ _ _ _).1 (pollGathering_same _ _ _ _).2
    · exact hadded

theorem NoOrphan.createOffer {reply : Option Description} (h : NoOrphan sh)
    (hc : WebrtcStreamer.createOffer cfg e r sh = .ok (sh', reply))
    (hleaves : (cfg.factory r.useNullCodec && stores cfg r sh) = true →
      attachesPair e (e.videoSource, e.audioSource) = true ∧
      (decide (r.peerid ∈ sh.peerConnectionObsMap) && !sh.evicts cfg r.peerid) = false) :
    NoOrphan sh' := by
  cases createOffer_run hc with
  | unavailable hfactory hcreate => exact (h.createPeerConnection hcreate).1
  | @refused sh₁ sh₂ hfactory hcreate hstreams =>
    obtain ⟨hcreated, _, hstores, _⟩ := h.createPeerConnection hcreate
    have htouched := hcreated.congr (.touch sh₁ sh.observers.length) (sh₁.touch_streamMap _)
    obtain ⟨hsame, hok⟩ := addStreams_spec hstreams
    refine htouched.addStreams hstreams (fun p o' hp => ?_) (fun _ _ => rfl) rfl fun hout => ?_
    · rw [hsame.map]
      exact hp
    · -- an attached source counts as a success of `AddStreams`
      have hnone : (sh₁.touch sh.observers.length).streamMap[r.label cfg]? = none := by
        simpa using hout
      rw [sh₁.touch_streamMap] at hout
      have hattach := (hleaves (by rw [hfactory, hstores.mp hout]; rfl)).1
      rw [hnone, Option.getD_none, offersStream_of_attaches hattach] at hok
      cases hok
  | @offered sh₁ sh₂ hfactory hcreate hstreams _ =>
    obtain ⟨hcreated, _, hstores, hfree⟩ := h.createPeerConnection hcreate
    have htouched := hcreated.congr (.touch sh₁ sh.observers.length) (sh₁.touch_streamMap _)
    have hmap := (addStreams_spec hstreams).1.map
    refine htouched.addStreams hstreams (fun p o' hp => ?_) (fun _ _ => rfl) rfl fun hout => ?_
    · refine Shared.registerPeer_keeps ?_
      rw [hmap]
      exact hp
    · rw [sh₁.touch_streamMap] at hout
      obtain ⟨hattach, htaken⟩ := hleaves (by rw [hfactory, hstores.mp hout]; rfl)
      refine ⟨hattach, r.peerid, registerPeer_self sh.observers.length ?_⟩
      rw [hmap, sh₁.touch_peerConnectionObsMap]
      exact hfree _ htaken

theorem NoOrphan.serve {reply : Option Description} (h : NoOrphan sh)
    (hs : WebrtcStreamer.serve cfg e r sh = .ok (sh', reply))
    (hleaves : leavesSender cfg sh (.request e r) = true) : NoOrphan sh' := by
  have hcase : (reachesStreams cfg e r && stores cfg r sh) = true →
      attachesPair e (e.videoSource, e.audioSource) = true ∧ taken cfg e r sh = false := by
    intro hstores
    simpa [leavesSender, hstores] using hleaves
  unfold WebrtcStreamer.serve at hs
  cases hapi : r.api with
  | call =>
    have hself : r.identified e = r := by simp [Request.identified, hapi]
    rw [hapi] at hs
    simp only [call] at hs
    split at hs
    · rename_i hmessage
      simp only [reachesStreams, hapi, hmessage, Bool.true_and, taken, hself] at hcase
      exact h.getAnswer hs hcase
    · cases hs
      exact h
  | whep =>
    rw [hapi] at hs
    simp only [reachesStreams, hapi] at hcase
    refine h.getAnswer (show WebrtcStreamer.getAnswer cfg e (r.identified e) sh = _ from hs) ?_
    have hlabel : (r.identified e).label cfg = r.label cfg := by
      simp [Request.label, (identified_toStreamRequest e r).1]
    rw [(identified_toStreamRequest e r).1, stores, hlabel]
    exact hcase
  | createOffer =>
    have hself : r.identified e = r := by simp [Request.identified, hapi]
    rw [hapi] at hs
    simp only [reachesStreams, hapi, Bool.and_true, taken, hself] at hcase
    exact h.createOffer hs hcase

/-- In every sequential run whose requests leave a registered sender behind
wherever they store an entry, every key of the stream map is the label of a
sender of a registered peer. -/
theorem no_orphan_stream (h : Transition.Reaches (perform cfg)
    (fun sh op => leavesSender cfg sh op = true) .initial sh) :
    ∀ l ∈ sh.streamMap, ∃ (p : PeerId) (o : ObsId),
      sh.peerConnectionObsMap[p]? = some o ∧ sh.sends l o = true := by
  refine h.invariant NoOrphan (fun l hl => by simp [Shared.initial] at hl)
    fun sh₁ op sh₂ hi hok hp => ?_
  cases op with
  | request e r =>
    obtain ⟨reply, hserve⟩ := perform_request hp
    exact hi.serve hserve hok
  | hangUp p =>
    obtain ⟨result, hhang⟩ := perform_hangUp hp
    exact hi.hangUp hhang

theorem no_orphan_stream_run : ∃ sh : Shared, sh.streamMap.size = 1 ∧
    ∀ l ∈ sh.streamMap, ∃ (p : PeerId) (o : ObsId),
      sh.peerConnectionObsMap[p]? = some o ∧ sh.sends l o = true := by
  obtain ⟨sh, hs, hp⟩ := Transition.exists_reaches_of_run (perform (.plain 0))
    (fun sh op => leavesSender (.plain 0) sh op = true) .initial
    [.request (.fine 7) (.plain .call "a" "rtsp://cam"), .hangUp "a",
      .request (.fine 8) (.plain .createOffer "b" "file://a.mkv")]
    (fun sh => decide (sh.streamMap.size = 1)) (by decide)
  exact ⟨sh, by simpa using hp, no_orphan_stream hs⟩

/-- A call for which no source can be opened leaves an entry that nobody sends,
and hanging it up does not remove the entry. -/
theorem orphan_stream : ¬ ∀ (cfg : Config) (sh : Shared),
    Transition.Reachable (perform cfg) .initial sh →
    ∀ l ∈ sh.streamMap, ∃ (p : PeerId) (o : ObsId),
      sh.peerConnectionObsMap[p]? = some o ∧ sh.sends l o = true := by
  intro halways
  obtain ⟨sh, hs, hp⟩ := Transition.exists_reaches_of_run (perform (.plain 0)) (fun _ _ => True)
    .initial
    [.request { Env.fine 7 with videoSource := none } (.plain .call "a" "rtsp://cam"), .hangUp "a"]
    (fun sh => decide (sh.streamMap.keys = ["0"]) && decide (sh.registered = [])) (by decide)
  simp only [Bool.and_eq_true, decide_eq_true_eq] at hp
  have hmem : "0" ∈ sh.streamMap := by
    rw [← Std.TreeMap.mem_keys, hp.1]
    exact List.mem_singleton_self _
  obtain ⟨p, o, hreg, _⟩ := halways _ sh hs "0" hmem
  have hin := sh.mem_registered.mpr ⟨p, hreg⟩
  rw [hp.2] at hin
  cases hin

/-! ### What an entry remembers of a failure -/

/-- The calls of a sequential run that matter for the stream map; connections
are constructed and registered in between in any way. -/
inductive StreamOperation where
  | construct (peerid : PeerId) (connected : Bool) (time : UInt64)
  | register (peerid : PeerId) (o : ObsId)
  | addStreams (e : Env) (r : Request) (o : ObsId)
  | hangUp (peerid : PeerId)

def operate (cfg : Config) (sh : Shared) : StreamOperation → Option Shared
  | .construct peerid connected time => some (sh.construct peerid connected time)
  | .register peerid o => some (sh.registerPeer peerid o)
  | .addStreams e r o => (addStreams cfg e r o sh).toOption.map Prod.fst
  | .hangUp peerid => (hangUp cfg .client peerid sh).toOption.map Prod.fst

def Env.source (e : Env) (kind : Kind) : Option Source :=
  sourceOf (e.videoSource, e.audioSource) kind

def Env.attachable (e : Env) : Kind → Bool
  | .video => e.videoTrack && e.videoAdded
  | .audio => e.audioTrack && e.audioAdded

def storedSource (cfg : Config) (r : Request) (sh : Shared) (kind : Kind) : Option Source :=
  (sh.streamMap[r.label cfg]?).bind (sourceOf · kind)

/-- `AddStreams` has attached exactly the tracks whose source is stored or can be
created now. -/
def UpToDate (cfg : Config) (e : Env) (r : Request) (o : ObsId) (sh sh' : Shared) : Prop :=
  ∀ kind, e.attachable kind = true →
    ((∃ s ∈ (sh'.senders o).drop (sh.senders o).length, s.kind = kind) ↔
      (storedSource cfg r sh kind).isSome = true ∨ (e.source kind).isSome = true)

/-- No entry stands in the way of a source that could be created now. -/
def fresh (cfg : Config) (e : Env) (r : Request) (sh : Shared) : Bool :=
  match sh.streamMap[r.label cfg]? with
  | none => true
  | some pair => [Kind.video, Kind.audio].all fun kind =>
      !e.attachable kind || (sourceOf pair kind).isSome || (e.source kind).isNone

/-- `AddStreams` finds no outdated entry, and one of its two creations succeeds
where it stores a new one. -/
def creates (cfg : Config) (sh : Shared) : StreamOperation → Bool
  | .addStreams e r _ =>
    fresh cfg e r sh &&
      (r.label cfg ∈ sh.streamMap || e.videoSource.isSome || e.audioSource.isSome)
  | _ => true

theorem tracks_kind (e : Env) (l : Label) (pair : AudioVideoPair) (kind : Kind) :
    (∃ s ∈ e.tracks l pair, s.kind = kind) ↔
      e.attachable kind = true ∧ (sourceOf pair kind).isSome = true := by
  obtain ⟨video, audio⟩ := pair
  cases kind with
  | video =>
    cases hattach : e.videoTrack && e.videoAdded <;>
      cases hother : e.audioTrack && e.audioAdded <;> cases video <;> cases audio <;>
        simp [Env.tracks, Env.attachable, sourceOf, hattach, hother]
  | audio =>
    cases hattach : e.videoTrack && e.videoAdded <;>
      cases hother : e.audioTrack && e.audioAdded <;> cases video <;> cases audio <;>
        simp [Env.tracks, Env.attachable, sourceOf, hattach, hother]

theorem upToDate_iff {o : ObsId} {ret : Bool} (h : addStreams cfg e r o sh = .ok (sh', ret)) :
    UpToDate cfg e r o sh sh' ↔ fresh cfg e r sh = true := by
  have hnew : (sh'.senders o).drop (sh.senders o).length =
      e.tracks (r.label cfg) (pairFor cfg e r sh) := by
    rw [(addStreams_senders h).2 o, if_pos rfl, List.drop_left]
  unfold UpToDate fresh
  simp only [hnew, tracks_kind, storedSource, pairFor]
  cases sh.streamMap[r.label cfg]? with
  | none => simp +contextual [Env.source]
  | some pair =>
    simp only [Option.getD_some, Option.bind_some, List.all_cons, List.all_nil, Bool.and_true,
      Bool.and_eq_true, Bool.or_eq_true, Bool.not_eq_true', Option.isNone_iff_eq_none,
      Option.isSome_iff_ne_none]
    constructor
    · intro hall
      constructor
      · have hv := hall .video
        grind
      · have ha := hall .audio
        grind
    · rintro ⟨hv, ha⟩ kind
      cases kind <;> grind

def NoEmptyEntry (sh : Shared) : Prop := ∀ l : Label, sh.streamMap[l]? ≠ some (none, none)

theorem NoEmptyEntry.addStreams {o : ObsId} {ret : Bool} (h : NoEmptyEntry sh)
    (hcreates : creates cfg sh (.addStreams e r o) = true)
    (ha : WebrtcStreamer.addStreams cfg e r o sh = .ok (sh', ret)) : NoEmptyEntry sh' := by
  intro l
  rw [(addStreams_senders ha).1 l]
  split
  · unfold pairFor
    cases hfound : sh.streamMap[r.label cfg]? with
    | some pair =>
      rw [Option.getD_some, ← hfound]
      exact h _
    | none =>
      have hout : r.label cfg ∉ sh.streamMap := by simpa using hfound
      rw [Option.getD_none]
      intro hempty
      simp only [Option.some.injEq, Prod.mk.injEq] at hempty
      simp [creates, hout, hempty] at hcreates
  · exact h l

theorem NoEmptyEntry.hangUp {peerid : PeerId} {result : Bool} (h : NoEmptyEntry sh)
    (hh : WebrtcStreamer.hangUp cfg .client peerid sh = .ok (sh', result)) : NoEmptyEntry sh' := by
  intro l
  rw [(hangUp_spec hh).2.2.2 l]
  split
  · simp
  · exact h l

/-- Where no outdated entry is found and no entry is stored after two failures,
no reachable entry is empty; and a call of `AddStreams` attaches what is stored
or can be created now exactly when it finds no outdated entry. -/
theorem failed_creation_forgotten (h : Transition.Reaches (operate cfg)
    (fun sh op => creates cfg sh op = true) .initial sh) :
    (∀ l : Label, sh.streamMap[l]? ≠ some (none, none)) ∧
    ∀ (e : Env) (r : Request) (o : ObsId) (sh' : Shared) (ret : Bool),
      addStreams cfg e r o sh = .ok (sh', ret) →
      (UpToDate cfg e r o sh sh' ↔ fresh cfg e r sh = true) := by
  refine ⟨?_, fun e r o sh' ret hadd => upToDate_iff hadd⟩
  refine h.invariant NoEmptyEntry (fun l => by simp [Shared.initial])
    fun sh₁ op sh₂ hi hok hop => ?_
  cases op with
  | construct p connected time =>
    cases hop
    exact hi
  | register p o =>
    cases hop
    exact hi
  | addStreams e r o =>
    simp only [operate] at hop
    cases hadd : addStreams cfg e r o sh₁ with
    | error f => simp [hadd, Except.toOption] at hop
    | ok result =>
      rw [hadd] at hop
      cases hop
      exact hi.addStreams hok hadd
  | hangUp p =>
    obtain ⟨result, hhang⟩ := perform_hangUp (show perform cfg sh₁ (.hangUp p) = some sh₂ from hop)
    exact hi.hangUp hhang

theorem failed_creation_forgotten_run : ∃ sh sh' : Shared,
    (∀ l : Label, sh.streamMap[l]? ≠ some (none, none)) ∧
    addStreams (.plain 0) { Env.fine 8 with videoSource := none }
      (.plain .call "b" "rtsp://cam") 1 sh = .ok (sh', true) ∧
    UpToDate (.plain 0) { Env.fine 8 with videoSource := none }
      (.plain .call "b" "rtsp://cam") 1 sh sh' := by
  obtain ⟨sh, hs, hp⟩ := Transition.exists_reaches_of_run (operate (.plain 0))
    (fun sh op => creates (.plain 0) sh op = true) .initial
    [.construct "a" true 0, .register "a" 0,
      .addStreams (.fine 7) (.plain .call "a" "rtsp://cam") 0, .construct "b" true 0]
    (fun sh => fresh (.plain 0) { Env.fine 8 with videoSource := none }
        (.plain .call "b" "rtsp://cam") sh &&
      (addStreams (.plain 0) { Env.fine 8 with videoSource := none }
        (.plain .call "b" "rtsp://cam") 1 sh).toOption.any fun x => x.2) (by decide)
  rw [Bool.and_eq_true] at hp
  obtain ⟨hnone, hcalls⟩ := failed_creation_forgotten hs
  cases hadd : addStreams (.plain 0) { Env.fine 8 with videoSource := none }
      (.plain .call "b" "rtsp://cam") 1 sh with
  | error f => simp [hadd, Except.toOption] at hp
  | ok x =>
    obtain ⟨sh', ret⟩ := x
    have hret : ret = true := by simpa [hadd, Except.toOption] using hp.2
    subst hret
    exact ⟨sh, sh', hnone, hadd, (hcalls _ _ _ sh' true hadd).mpr hp.1⟩

/-- After a first failure the label has an empty entry, and a later call whose
creation succeeds attaches nothing. -/
theorem failed_creation_remembered : ¬ ∀ (cfg : Config) (sh : Shared),
    Transition.Reachable (operate cfg) .initial sh →
    (∀ l : Label, sh.streamMap[l]? ≠ some (none, none)) ∧
    ∀ (e : Env) (r : Request) (o : ObsId) (sh' : Shared) (ret : Bool),
      addStreams cfg e r o sh = .ok (sh', ret) → UpToDate cfg e r o sh sh' := by
  intro halways
  obtain ⟨sh, hs, hp⟩ := Transition.exists_reaches_of_run (operate (.plain 0)) (fun _ _ => True)
    .initial
    [.construct "a" true 0, .register "a" 0,
      .addStreams { Env.fine 7 with videoSource := none } (.plain .call "a" "rtsp://cam") 0,
      .hangUp "a", .construct "b" true 0, .register "b" 1]
    (fun sh => !fresh (.plain 0) (.fine 8) (.plain .call "b" "rtsp://cam") sh &&
      (addStreams (.plain 0) (.fine 8) (.plain .call "b" "rtsp://cam") 1 sh).toOption.isSome)
    (by decide)
  rw [Bool.and_eq_true] at hp
  cases hadd : addStreams (.plain 0) (.fine 8) (.plain .call "b" "rtsp://cam") 1 sh with
  | error f => simp [hadd, Except.toOption] at hp
  | ok x =>
    have hfresh := (upToDate_iff hadd).mp ((halways _ sh hs).2 _ _ _ x.1 x.2 hadd)
    simp [hfresh] at hp

end WebrtcStreamer
