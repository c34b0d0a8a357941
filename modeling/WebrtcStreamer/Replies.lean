import WebrtcStreamer.Ownership

/-! What a request leaves behind when nothing else runs in between: one lemma
for each function of the code, then which entry the reply belongs to and what a
request without a reply has registered. -/

set_option autoImplicit false

namespace WebrtcStreamer

structure SamePeers (sh sh' : Shared) : Prop where
  map : sh'.peerConnectionObsMap = sh.peerConnectionObsMap
  length : sh'.observers.length = sh.observers.length
  pc : ∀ o, (sh'.obs o).pc = (sh.obs o).pc

namespace SamePeers

variable {sh sh' sh'' : Shared}

theorem refl (sh : Shared) : SamePeers sh sh := ⟨rfl, rfl, fun _ => rfl⟩

theorem trans (h : SamePeers sh sh') (h' : SamePeers sh' sh'') : SamePeers sh sh'' :=
  ⟨h'.map.trans h.map, h'.length.trans h.length, fun o => (h'.pc o).trans (h.pc o)⟩

theorem touch (sh : Shared) (o : ObsId) : SamePeers sh (sh.touch o) :=
  ⟨by simp, by simp, fun _ => by simp⟩

theorem touchRegistered (sh : Shared) : SamePeers sh sh.touchRegistered :=
  ⟨by simp, by simp, fun _ => by simp⟩

theorem readMember (caller : Caller) (sh : Shared) : SamePeers sh (caller.readMember sh) := by
  cases caller with
  | detached o => exact touch sh o
  | client => exact refl sh
  | evict r => exact refl sh

theorem logPeerId (caller : Caller) (cfg : Config) (sh : Shared) :
    SamePeers sh (caller.logPeerId cfg sh) := by
  unfold Caller.logPeerId
  split
  · exact readMember caller sh
  · exact refl sh

theorem deleteObserver (sh : Shared) (o : ObsId) : SamePeers sh (sh.deleteObserver o) := by
  refine ⟨by simp, by simp, fun o' => ?_⟩
  rw [Shared.deleteObserver_obs]
  split <;> rfl

theorem sends (h : SamePeers sh sh') (l : Label) (o : ObsId) : sh'.sends l o = sh.sends l o := by
  simp [Shared.sends, Shared.senders, h.pc o]

theorem any_sends (h : SamePeers sh sh') (l : Label) :
    sh'.registered.any (sh'.sends l) = sh.registered.any (sh.sends l) := by
  have hsends : sh'.sends l = sh.sends l := funext fun o => h.sends l o
  simp [Shared.registered, h.map, hsends]

end SamePeers

variable {cfg : Config} {e : Env} {r : Request} {sh sh' : Shared}

theorem closeStreams_spec {streams : List (List Label)} (h : closeStreams streams sh = .ok sh') :
    SamePeers sh sh' ∧ ∀ l : Label, sh'.streamMap[l]? =
      if (∃ ls ∈ streams, ls.head? = some l) ∧ sh.registered.any (sh.sends l) = false then none
      else sh.streamMap[l]? := by
  induction streams generalizing sh with
  | nil =>
    cases h
    exact ⟨.refl _, by simp⟩
  | cons ls rest ih =>
    cases ls with
    | nil =>
      obtain ⟨hsame, hmap⟩ := ih h
      exact ⟨hsame, fun l => by simpa using hmap l⟩
    | cons l' ls =>
      obtain ⟨stillUsed, hused, hrest⟩ := bind_ok h
      obtain ⟨hsame, hmap⟩ := ih hrest
      have hresult := sh.streamStillUsed_ok hused
      have hstep : SamePeers sh
          (if stillUsed then sh.touchRegistered else sh.touchRegistered.eraseStream l') := by
        split
        · exact .touchRegistered sh
        · exact ⟨by simp [Shared.eraseStream], by simp [Shared.eraseStream], fun _ => by simp⟩
      refine ⟨hstep.trans hsame, fun l => ?_⟩
      rw [hmap l, hstep.any_sends]
      by_cases hl : l = l'
      · subst hl
        cases stillUsed with
        | true => simp [← hresult]
        | false =>
          have herase : (sh.touchRegistered.eraseStream l).streamMap[l]? = none := by
            simp [Shared.eraseStream]
          simp [← hresult, herase]
      · have hsame' : (if stillUsed then sh.touchRegistered
            else sh.touchRegistered.eraseStream l').streamMap[l]? = sh.streamMap[l]? := by
          split
          · simp
          · have hupdate := congrFun (sh.touchRegistered.eraseStream_update l') l
            rw [Function.update_of_ne hl] at hupdate
            simpa using hupdate
        have hhead : l' ≠ l := fun heq => hl heq.symm
        rw [hsame']
        simp [hhead]

def Shared.closedBy (sh : Shared) (peerid : PeerId) (l : Label) : Bool :=
  match sh.peerConnectionObsMap[peerid]? with
  | none => false
  | some o => sh.sends l o && !(sh.erasePeer peerid).registered.any (sh.sends l)

theorem hangUp_spec {caller : Caller} {peerid : PeerId} {result : Bool}
    (h : hangUp cfg caller peerid sh = .ok (sh', result)) :
    (∀ q : PeerId, sh'.peerConnectionObsMap[q]? =
      if q = peerid then none else sh.peerConnectionObsMap[q]?) ∧
    sh'.observers.length = sh.observers.length ∧ (∀ o, (sh'.obs o).pc = (sh.obs o).pc) ∧
    ∀ l : Label, sh'.streamMap[l]? = if sh.closedBy peerid l then none else sh.streamMap[l]? := by
  simp only [hangUp] at h
  have hread : SamePeers sh (caller.readMember (caller.logPeerId cfg (caller.readMember sh))) :=
    ((SamePeers.readMember caller sh).trans (.logPeerId caller cfg _)).trans (.readMember caller _)
  have hstreams : (caller.readMember (caller.logPeerId cfg (caller.readMember sh))).streamMap =
      sh.streamMap := by
    rw [(readMember_streams _ _).1, (logPeerId_streams _ _ _).1, (readMember_streams _ _).1]
  generalize caller.readMember (caller.logPeerId cfg (caller.readMember sh)) = sh₁
      at h hread hstreams
  cases hfound : sh₁.peerConnectionObsMap[peerid]? with
  | none =>
    rw [hfound] at h
    cases h
    have hafter := hread.trans (.logPeerId caller cfg sh₁)
    rw [hread.map] at hfound
    refine ⟨fun q => ?_, hafter.length, hafter.pc, fun l => ?_⟩
    · rw [hafter.map]
      split
      · rename_i hq
        rw [hq, hfound]
      · rfl
    · simp [Shared.closedBy, hfound, (logPeerId_streams _ _ _).1, hstreams]
  | some o =>
    simp only [hfound] at h
    cases hpc : (((sh₁.erasePeer peerid).touch o).obs o).pc with
    | none =>
      rw [hpc] at h
      cases h
    | some localstreams =>
      rw [hpc] at h
      obtain ⟨sh₂, hclose, hlast⟩ := bind_ok h
      cases hlast
      obtain ⟨hsame, hmap⟩ := closeStreams_spec hclose
      have htouch : SamePeers (sh₁.erasePeer peerid) ((sh₁.erasePeer peerid).touch o) := .touch _ o
      have hafter : SamePeers (sh₁.erasePeer peerid)
          (caller.logPeerId cfg (sh₂.deleteObserver o)) :=
        (htouch.trans hsame).trans ((SamePeers.deleteObserver sh₂ o).trans
          (.logPeerId caller cfg _))
      rw [hread.map] at hfound
      refine ⟨fun q => ?_, ?_, fun o' => ?_, fun l => ?_⟩
      · rw [hafter.map]
        have hupdate := congrFun (sh₁.erasePeer_update peerid) q
        rw [Function.update_apply, hread.map] at hupdate
        exact hupdate
      · rw [hafter.length]
        exact hread.length
      · rw [hafter.pc]
        exact hread.pc o'
      · have hlast : (caller.logPeerId cfg (sh₂.deleteObserver o)).streamMap = sh₂.streamMap := by
          rw [(logPeerId_streams _ _ _).1]
          simp [Shared.deleteObserver, Shared.modifyObs]
        have herased : SamePeers (sh.erasePeer peerid) (sh₁.erasePeer peerid) :=
          ⟨by simp [Shared.erasePeer, hread.map], hread.length, hread.pc⟩
        have hsource : ((sh₁.erasePeer peerid).touch o).streamMap = sh.streamMap :=
          ((sh₁.erasePeer peerid).touch_streamMap o).trans hstreams
        have hclosed : sh.closedBy peerid l =
            (sh.sends l o && !(sh.erasePeer peerid).registered.any (sh.sends l)) := by
          simp only [Shared.closedBy, hfound]
        have hsenders : localstreams = sh.senders o := by
          have hsome : (sh.obs o).pc = some localstreams := by
            rw [← hpc, htouch.pc]
            exact (hread.pc o).symm
          simp [Shared.senders, hsome]
        have hsent : (∃ ls ∈ localstreams.map Sender.streamIds, ls.head? = some l) ↔
            sh.sends l o = true := by
          simp [Shared.sends, hsenders]
        have hsends : (sh.erasePeer peerid).sends l = sh.sends l := rfl
        rw [hlast, hmap l, htouch.any_sends, herased.any_sends, hsource, hclosed, hsends]
        simp only [hsent, Bool.and_eq_true, Bool.not_eq_true']

def Shared.evicts (cfg : Config) (sh : Shared) (peerid : PeerId) : Bool :=
  sh.getOldestPeerCannection cfg = peerid && peerid ≠ ""

theorem evictOldest_spec (h : evictOldest cfg r sh = .ok sh') :
    (∀ q : PeerId, sh'.peerConnectionObsMap[q]? =
      if sh.evicts cfg q then none else sh.peerConnectionObsMap[q]?) ∧
    sh'.observers.length = sh.observers.length ∧ (∀ o, (sh'.obs o).pc = (sh.obs o).pc) ∧
    ∀ l : Label, sh'.streamMap[l]? =
      if sh.getOldestPeerCannection cfg ≠ "" ∧ sh.closedBy (sh.getOldestPeerCannection cfg) l
        then none
      else sh.streamMap[l]? := by
  simp only [evictOldest] at h
  have hlook : SamePeers sh (if sh.peersFull cfg then sh.touchRegistered else sh) ∧
      (if sh.peersFull cfg then sh.touchRegistered else sh).streamMap = sh.streamMap := by
    split
    · exact ⟨.touchRegistered sh, by simp⟩
    · exact ⟨.refl sh, rfl⟩
  generalize (if sh.peersFull cfg then sh.touchRegistered else sh) = sh₁ at h hlook
  obtain ⟨hsame, hstreams⟩ := hlook
  by_cases hempty : sh.getOldestPeerCannection cfg = ""
  · rw [if_pos hempty] at h
    cases h
    refine ⟨fun q => ?_, hsame.length, hsame.pc, fun l => ?_⟩
    · have hnone : sh.evicts cfg q = false := by
        rw [Shared.evicts, hempty]
        by_cases hq : q = ""
        · simp [hq]
        · have hne : "" ≠ q := Ne.symm hq
          simp [hne]
      rw [hsame.map, hnone]
      simp
    · rw [hstreams]
      simp [hempty]
  · rw [if_neg hempty] at h
    obtain ⟨⟨sh₂, result⟩, hhang, hlast⟩ := bind_ok h
    cases hlast
    obtain ⟨hmap, hlen, hpc, hclosed⟩ := hangUp_spec hhang
    refine ⟨fun q => ?_, hlen.trans hsame.length, fun o => (hpc o).trans (hsame.pc o), fun l => ?_⟩
    · rw [hmap q, hsame.map]
      have hiff : sh.evicts cfg q = true ↔ q = sh.getOldestPeerCannection cfg := by
        simp only [Shared.evicts, Bool.and_eq_true, decide_eq_true_eq]
        constructor
        · intro hq
          exact hq.1.symm
        · rintro rfl
          exact ⟨rfl, hempty⟩
      simp only [hiff]
    · have hsent : sh₁.closedBy (sh.getOldestPeerCannection cfg) l =
          sh.closedBy (sh.getOldestPeerCannection cfg) l := by
        have hany : (sh₁.erasePeer (sh.getOldestPeerCannection cfg)).registered =
            (sh.erasePeer (sh.getOldestPeerCannection cfg)).registered := by
          simp [Shared.registered, Shared.erasePeer, hsame.map]
        have hsends : sh₁.sends l = sh.sends l := funext fun o => hsame.sends l o
        simp only [Shared.closedBy, hsame.map, hany, hsends]
      rw [hclosed l, hsent, hstreams]
      simp [hempty]

theorem createPeerConnection_spec {obs : Option ObsId}
    (h : createPeerConnection cfg e r sh = .ok (sh', obs)) :
    ∃ sh₁, evictOldest cfg r sh = .ok sh₁ ∧
      if cfg.factory r.useNullCodec then
        sh' = sh₁.construct r.peerid e.connected e.time ∧ obs = some sh₁.observers.length
      else sh' = sh₁ ∧ obs = none := by
  unfold createPeerConnection at h
  obtain ⟨sh₁, hevict, hrest⟩ := bind_ok h
  refine ⟨sh₁, hevict, ?_⟩
  split
  · rename_i hfactory
    rw [if_pos hfactory] at hrest
    cases hrest
    exact ⟨rfl, rfl⟩
  · rename_i hfactory
    rw [if_neg hfactory] at hrest
    cases hrest
    exact ⟨rfl, rfl⟩

def offersTrack (source : Option Source) (track added : Bool) : Bool :=
  source.isSome && (!track || added)

theorem attachTrack_ret {o : ObsId} {l : Label} {kind : Kind} {source : Option Source}
    {track added ret : Bool} (h : sh.attachTrack o l kind source track added = .ok (sh', ret)) :
    ret = offersTrack source track added := by
  unfold Shared.attachTrack at h
  split at h
  · cases h
    rfl
  · cases track with
    | false =>
      cases h
      rfl
    | true =>
      simp only [Bool.not_true, Bool.false_eq_true, if_false] at h
      split at h
      · cases h
      · cases added <;> cases h <;> rfl

def offersStream (e : Env) (pair : AudioVideoPair) : Bool :=
  offersTrack pair.1 e.videoTrack e.videoAdded || offersTrack pair.2 e.audioTrack e.audioAdded

theorem addStreams_spec {o : ObsId} {ret : Bool} (h : addStreams cfg e r o sh = .ok (sh', ret)) :
    SameOwners sh sh' ∧
      ret = offersStream e ((sh.streamMap[r.label cfg]?).getD (e.videoSource, e.audioSource)) := by
  simp only [addStreams] at h
  obtain ⟨_, _, hrest⟩ := bind_ok h
  have hmap : (if r.label cfg ∈ sh.streamMap then sh
      else sh.storeStream (r.label cfg) (e.videoSource, e.audioSource)).streamMap[r.label cfg]? =
      some ((sh.streamMap[r.label cfg]?).getD (e.videoSource, e.audioSource)) := by
    split
    · rename_i hmem
      rw [Std.TreeMap.mem_iff_isSome_getElem?] at hmem
      obtain ⟨pair, hpair⟩ := Option.isSome_iff_exists.mp hmem
      simp [hpair]
    · rename_i hmem
      have hnone : sh.streamMap[r.label cfg]? = none := by simpa using hmem
      have hnew := congrFun (Shared.storeStream_new (e.videoSource, e.audioSource) hnone)
        (r.label cfg)
      rw [Function.update_self] at hnew
      rw [hnew, hnone]
      rfl
  have hsame : SameOwners sh (if r.label cfg ∈ sh.streamMap then sh
      else sh.storeStream (r.label cfg) (e.videoSource, e.audioSource)) := by
    split
    · exact .refl sh
    · exact ⟨rfl, rfl, fun _ => ⟨rfl, rfl, rfl⟩⟩
  generalize (if r.label cfg ∈ sh.streamMap then sh
    else sh.storeStream (r.label cfg) (e.videoSource, e.audioSource)) = sh₁ at hrest hmap hsame
  rw [hmap] at hrest
  obtain ⟨⟨sh₂, video⟩, hvideo, hrest⟩ := bind_ok hrest
  obtain ⟨⟨sh₃, audio⟩, haudio, hlast⟩ := bind_ok hrest
  cases hlast
  refine ⟨(hsame.trans (.attachTrack hvideo)).trans (.attachTrack haudio), ?_⟩
  rw [attachTrack_ret hvideo, attachTrack_ret haudio]
  rfl

theorem pollGathering_spec (gathered : Bool) (o : ObsId) (retry : Nat) (sh : Shared) :
    SameOwners sh (pollGathering gathered o retry sh) := by
  induction retry generalizing sh with
  | zero => exact .touch sh o
  | succ retry ih =>
    unfold pollGathering
    split
    · exact .touch sh o
    · exact (SameOwners.touch sh o).trans (ih (sh.touch o))

/-! ### Registration -/

theorem identified_toStreamRequest (e : Env) (r : Request) :
    (r.identified e).toStreamRequest = r.toStreamRequest ∧ (r.identified e).api = r.api := by
  unfold Request.identified
  split <;> exact ⟨rfl, rfl⟩

def streamPair (cfg : Config) (e : Env) (r : Request) (sh : Shared) : AudioVideoPair :=
  if sh.getOldestPeerCannection cfg ≠ "" ∧
      sh.closedBy (sh.getOldestPeerCannection cfg) (r.label cfg) then (e.videoSource, e.audioSource)
  else (sh.streamMap[r.label cfg]?).getD (e.videoSource, e.audioSource)

def registers (cfg : Config) (e : Env) (r : Request) (sh : Shared) : Bool :=
  cfg.factory r.useNullCodec &&
    match r.api with
    | .call => e.message && e.parsed && e.connected
    | .whep => e.parsed && e.connected
    | .createOffer => offersStream e (streamPair cfg e r sh)

def taken (cfg : Config) (e : Env) (r : Request) (sh : Shared) : Bool :=
  decide ((r.identified e).peerid ∈ sh.peerConnectionObsMap) &&
    !sh.evicts cfg (r.identified e).peerid

/-- The peer map after the eviction and, where it comes so far, the registration
of observer `o`. -/
structure Registered (cfg : Config) (peerid : PeerId) (o : ObsId) (sh sh' : Shared) : Prop where
  lookup : ∀ q : PeerId, sh'.peerConnectionObsMap[q]? =
    if q = peerid ∧ (sh.evicts cfg q = true ∨ q ∉ sh.peerConnectionObsMap) then some o
    else if sh.evicts cfg q then none else sh.peerConnectionObsMap[q]?
  connected : (sh'.obs o).pc.isSome = true

/-- What the three parts before the registration leave. -/
structure Prepared (cfg : Config) (e : Env) (r : Request) (sh sh' : Shared) : Prop where
  lookup : ∀ q : PeerId, sh'.peerConnectionObsMap[q]? =
    if sh.evicts cfg q then none else sh.peerConnectionObsMap[q]?
  connected : (sh'.obs sh.observers.length).pc.isSome = e.connected
  kept : ∀ o, (sh.obs o).pc.isSome = true → (sh'.obs o).pc.isSome = true
  streams : (sh'.streamMap[r.label cfg]?).getD (e.videoSource, e.audioSource) =
    streamPair cfg e r sh

theorem createPeerConnection_available {obs : Option ObsId}
    (h : createPeerConnection cfg e r sh = .ok (sh', obs))
    (hfactory : cfg.factory r.useNullCodec = true) :
    obs = some sh.observers.length ∧ Prepared cfg e r sh sh' := by
  obtain ⟨sh₁, hevict, hcases⟩ := createPeerConnection_spec h
  obtain ⟨hmap, hlen, hpc, hstreams⟩ := evictOldest_spec hevict
  rw [if_pos hfactory] at hcases
  obtain ⟨rfl, rfl⟩ := hcases
  refine ⟨by rw [hlen], hmap, ?_, fun (o : Nat) ho => ?_, ?_⟩
  · rw [Shared.construct_obs, if_pos hlen.symm]
    cases e.connected <;> rfl
  · have hlt := Shared.obs_lt_of_connected ho
    rw [Shared.construct_obs, if_neg (by omega), hpc]
    exact ho
  · have hkeep : (sh₁.construct r.peerid e.connected e.time).streamMap = sh₁.streamMap := rfl
    rw [hkeep, hstreams]
    unfold streamPair
    split <;> rfl

theorem createPeerConnection_unavailable {obs : Option ObsId}
    (h : createPeerConnection cfg e r sh = .ok (sh', obs))
    (hfactory : cfg.factory r.useNullCodec = false) :
    obs = none ∧ (∀ q : PeerId, sh'.peerConnectionObsMap[q]? =
      if sh.evicts cfg q then none else sh.peerConnectionObsMap[q]?) ∧
      ∀ o, (sh'.obs o).pc = (sh.obs o).pc := by
  obtain ⟨sh₁, hevict, hcases⟩ := createPeerConnection_spec h
  obtain ⟨hmap, _, hpc, _⟩ := evictOldest_spec hevict
  rw [hfactory] at hcases
  obtain ⟨rfl, rfl⟩ := hcases
  exact ⟨rfl, hmap, hpc⟩

theorem Prepared.register (h : Prepared cfg e r sh sh') (hconnected : e.connected = true)
    (peerid : PeerId) :
    Registered cfg peerid sh.observers.length sh (sh'.registerPeer peerid sh.observers.length) := by
  refine ⟨fun q => ?_, h.connected.trans hconnected⟩
  have hfree : (sh.evicts cfg peerid = true ∨ peerid ∉ sh.peerConnectionObsMap) ↔
      sh'.peerConnectionObsMap[peerid]? = none := by
    rw [h.lookup peerid]
    by_cases hevict : sh.evicts cfg peerid = true <;> simp [hevict]
  by_cases hq : q = peerid
  · subst hq
    by_cases hnone : sh'.peerConnectionObsMap[q]? = none
    · have hnew := congrFun (Shared.registerPeer_new sh.observers.length hnone) q
      rw [Function.update_self] at hnew
      rw [if_pos ⟨rfl, hfree.mpr hnone⟩, hnew]
    · have hmem : q ∈ sh'.peerConnectionObsMap := by
        rw [Std.TreeMap.mem_iff_isSome_getElem?]
        exact Option.isSome_iff_ne_none.mpr hnone
      rw [if_neg (fun hboth => hnone (hfree.mp hboth.2)), ← h.lookup q]
      exact congrFun (Shared.registerPeer_old sh.observers.length hmem) q
  · rw [if_neg (fun hboth => hq hboth.1), ← h.lookup q]
    by_cases hnone : sh'.peerConnectionObsMap[peerid]? = none
    · have hnew := congrFun (Shared.registerPeer_new sh.observers.length hnone) q
      rw [Function.update_of_ne hq] at hnew
      exact hnew
    · have hmem : peerid ∈ sh'.peerConnectionObsMap := by
        rw [Std.TreeMap.mem_iff_isSome_getElem?]
        exact Option.isSome_iff_ne_none.mpr hnone
      exact congrFun (Shared.registerPeer_old sh.observers.length hmem) q

theorem Registered.congr {sh'' : Shared} {peerid : PeerId} {o : ObsId}
    (h : Registered cfg peerid o sh sh') (same : SameOwners sh' sh'') :
    Registered cfg peerid o sh sh'' :=
  ⟨fun q => by rw [same.map]; exact h.lookup q, (same.obs o).2.2.trans h.connected⟩

/-- Either the request registers the observer it has constructed, and the reply
describes that one, or it has no reply and at most an eviction has happened. -/
structure Outcomes (cfg : Config) (peerid : PeerId) (sh sh' : Shared) (reply : Option Description)
    (registering : Bool) : Prop where
  kept : ∀ o, (sh.obs o).pc.isSome = true → (sh'.obs o).pc.isSome = true
  registered : registering = true → Registered cfg peerid sh.observers.length sh sh' ∧
    ∀ d, reply = some d → d.origin = sh.observers.length
  unregistered : registering = false → reply = none ∧ ∀ q : PeerId,
    sh'.peerConnectionObsMap[q]? = sh.peerConnectionObsMap[q]? ∨
      (sh.evicts cfg q = true ∧ sh'.peerConnectionObsMap[q]? = none)

theorem evicted_or_kept {sh'' : Shared} (hmap : ∀ q : PeerId, sh'.peerConnectionObsMap[q]? =
      if sh.evicts cfg q then none else sh.peerConnectionObsMap[q]?)
    (hsame : sh''.peerConnectionObsMap = sh'.peerConnectionObsMap) (q : PeerId) :
    sh''.peerConnectionObsMap[q]? = sh.peerConnectionObsMap[q]? ∨
      (sh.evicts cfg q = true ∧ sh''.peerConnectionObsMap[q]? = none) := by
  rw [hsame, hmap q]
  by_cases hevict : sh.evicts cfg q = true
  · exact .inr ⟨hevict, if_pos hevict⟩
  · exact .inl (if_neg hevict)

theorem Outcomes.unchanged (cfg : Config) (peerid : PeerId) (sh : Shared) :
    Outcomes cfg peerid sh sh none false :=
  ⟨fun _ => id, fun h => (by cases h), fun _ => ⟨rfl, fun _ => .inl rfl⟩⟩

theorem Outcomes.unavailable {obs : Option ObsId} {peerid : PeerId}
    (h : createPeerConnection cfg e r sh = .ok (sh', obs))
    (hfactory : cfg.factory r.useNullCodec = false) : Outcomes cfg peerid sh sh' none false := by
  obtain ⟨_, hmap, hpc⟩ := createPeerConnection_unavailable h hfactory
  exact ⟨fun o ho => by rw [hpc]; exact ho, fun h => (by cases h),
    fun _ => ⟨rfl, evicted_or_kept hmap rfl⟩⟩

inductive AnswerRun (cfg : Config) (e : Env) (r : Request) (sh : Shared) :
    Shared → Option Description → Prop where
  | unparsed (parsed : e.parsed = false) : AnswerRun cfg e r sh sh none
  | unavailable {sh₁ : Shared} (parsed : e.parsed = true)
      (factory : cfg.factory r.useNullCodec = false)
      (create : createPeerConnection cfg e r sh = .ok (sh₁, none)) : AnswerRun cfg e r sh sh₁ none
  | unconnected {sh₁ : Shared} (parsed : e.parsed = true)
      (factory : cfg.factory r.useNullCodec = true)
      (create : createPeerConnection cfg e r sh = .ok (sh₁, some sh.observers.length))
      (connected : e.connected = false) :
      AnswerRun cfg e r sh
        ((sh₁.touch sh.observers.length).deleteObserver sh.observers.length) none
  | streamed {sh₁ sh₂ : Shared} {ok : Bool} (parsed : e.parsed = true)
      (factory : cfg.factory r.useNullCodec = true)
      (create : createPeerConnection cfg e r sh = .ok (sh₁, some sh.observers.length))
      (connected : e.connected = true)
      (streams : addStreams cfg e r sh.observers.length
        ((sh₁.touch sh.observers.length).registerPeer r.peerid sh.observers.length) =
          .ok (sh₂, ok)) :
      AnswerRun cfg e r sh
        (if ok ∧ r.api = .whep then pollGathering e.gathered sh.observers.length 5 sh₂ else sh₂)
        (if ok then e.description.map (⟨sh.observers.length, ·⟩) else none)

theorem getAnswer_run {reply : Option Description} (h : getAnswer cfg e r sh = .ok (sh', reply)) :
    AnswerRun cfg e r sh sh' reply := by
  simp only [getAnswer] at h
  cases hparsed : e.parsed with
  | false =>
    rw [hparsed] at h
    cases h
    exact .unparsed hparsed
  | true =>
    rw [hparsed] at h
    simp only [Bool.not_true, Bool.false_eq_true, if_false] at h
    obtain ⟨⟨sh₁, obs⟩, hcreate, h⟩ := bind_ok h
    cases hfactory : cfg.factory r.useNullCodec with
    | false =>
      obtain ⟨rfl, _⟩ := createPeerConnection_unavailable hcreate hfactory
      cases h
      exact .unavailable hparsed hfactory hcreate
    | true =>
      obtain ⟨rfl, hprepared⟩ := createPeerConnection_available hcreate hfactory
      have hpc : ((sh₁.touch sh.observers.length).obs sh.observers.length).pc.isNone =
          !e.connected := by
        rw [Shared.touch_obs, ← Option.not_isSome, hprepared.connected]
      dsimp only at h
      rw [hpc] at h
      cases hconnected : e.connected with
      | false =>
        rw [hconnected] at h
        cases h
        exact .unconnected hparsed hfactory hcreate hconnected
      | true =>
        simp only [hconnected, Bool.not_true, Bool.false_eq_true, if_false] at h
        obtain ⟨⟨sh₂, ok⟩, hstreams, h⟩ := bind_ok h
        have hrun := AnswerRun.streamed hparsed hfactory hcreate hconnected hstreams
        cases ok <;> cases h
        · simpa using hrun
        · simpa using hrun

theorem getAnswer_outcomes {reply : Option Description}
    (h : getAnswer cfg e r sh = .ok (sh', reply)) :
    Outcomes cfg r.peerid sh sh' reply
      (cfg.factory r.useNullCodec && (e.parsed && e.connected)) := by
  cases getAnswer_run h with
  | unparsed hparsed =>
    rw [hparsed, Bool.false_and, Bool.and_false]
    exact .unchanged cfg r.peerid sh
  | unavailable hparsed hfactory hcreate =>
    rw [hfactory]
    exact .unavailable hcreate hfactory
  | @unconnected sh₁ hparsed hfactory hcreate hconnected =>
    obtain ⟨_, hprepared⟩ := createPeerConnection_available hcreate hfactory
    rw [hconnected, Bool.and_false, Bool.and_false]
    refine ⟨fun o ho => ?_, fun htrue => (by cases htrue), fun _ => ⟨rfl, ?_⟩⟩
    · rw [Shared.deleteObserver_obs, Shared.touch_obs]
      split <;> exact hprepared.kept o ho
    · refine evicted_or_kept hprepared.lookup ?_
      rw [Shared.deleteObserver_peerConnectionObsMap, Shared.touch_peerConnectionObsMap]
  | @streamed sh₁ sh₂ ok hparsed hfactory hcreate hconnected hstreams =>
    obtain ⟨_, hprepared⟩ := createPeerConnection_available hcreate hfactory
    have htouch := SameOwners.touch sh₁ sh.observers.length
    have hadded := (addStreams_spec hstreams).1
    have hregister : Registered cfg r.peerid sh.observers.length sh
        ((sh₁.touch sh.observers.length).registerPeer r.peerid sh.observers.length) := by
      have hbase := hprepared.register hconnected r.peerid
      refine ⟨fun q => ?_, (htouch.obs _).2.2.trans hbase.connected⟩
      rw [← hbase.lookup q]
      simp [Shared.registerPeer]
    have hpoll : SameOwners sh₂ (if ok ∧ r.api = .whep then
        pollGathering e.gathered sh.observers.length 5 sh₂ else sh₂) := by
      split
      · exact pollGathering_spec _ _ _ _
      · exact .refl sh₂
    rw [hfactory, hparsed, hconnected]
    refine ⟨fun o ho => ?_, fun _ => ⟨(hregister.congr hadded).congr hpoll, fun d hd => ?_⟩,
      fun hfalse => by cases hfalse⟩
    · rw [(hpoll.obs o).2.2, (hadded.obs o).2.2]
      exact (htouch.obs o).2.2.trans (hprepared.kept o ho)
    · split at hd
      · obtain ⟨sdp, _, rfl⟩ := Option.map_eq_some_iff.mp hd
        rfl
      · cases hd

/-- The ways through `createOffer`: the observer is registered after `AddStreams`,
and only if that returned `true`. -/
inductive OfferRun (cfg : Config) (e : Env) (r : Request) (sh : Shared) :
    Shared → Option Description → Prop where
  | unavailable {sh₁ : Shared} (factory : cfg.factory r.useNullCodec = false)
      (create : createPeerConnection cfg e r sh = .ok (sh₁, none)) : OfferRun cfg e r sh sh₁ none
  | refused {sh₁ sh₂ : Shared} (factory : cfg.factory r.useNullCodec = true)
      (create : createPeerConnection cfg e r sh = .ok (sh₁, some sh.observers.length))
      (streams : addStreams cfg e r sh.observers.length (sh₁.touch sh.observers.length) =
        .ok (sh₂, false)) :
      OfferRun cfg e r sh sh₂ none
  | offered {sh₁ sh₂ : Shared} (factory : cfg.factory r.useNullCodec = true)
      (create : createPeerConnection cfg e r sh = .ok (sh₁, some sh.observers.length))
      (streams : addStreams cfg e r sh.observers.length (sh₁.touch sh.observers.length) =
        .ok (sh₂, true))
      (connected : (sh₂.obs sh.observers.length).pc.isSome = true) :
      OfferRun cfg e r sh (sh₂.registerPeer r.peerid sh.observers.length)
        (e.description.map (⟨sh.observers.length, ·⟩))

theorem createOffer_run {reply : Option Description}
    (h : createOffer cfg e r sh = .ok (sh', reply)) : OfferRun cfg e r sh sh' reply := by
  simp only [createOffer] at h
  obtain ⟨⟨sh₁, obs⟩, hcreate, h⟩ := bind_ok h
  cases hfactory : cfg.factory r.useNullCodec with
  | false =>
    obtain ⟨rfl, _⟩ := createPeerConnection_unavailable hcreate hfactory
    cases h
    exact .unavailable hfactory hcreate
  | true =>
    obtain ⟨rfl, _⟩ := createPeerConnection_available hcreate hfactory
    obtain ⟨⟨sh₂, ok⟩, hstreams, h⟩ := bind_ok h
    cases ok with
    | false =>
      cases h
      exact .refused hfactory hcreate hstreams
    | true =>
      simp only [Bool.not_true, Bool.false_eq_true, if_false] at h
      split at h
      · cases h
      · rename_i hnull
        cases h
        refine .offered hfactory hcreate hstreams ?_
        simpa [Option.isSome_iff_ne_none] using hnull

theorem createOffer_outcomes {reply : Option Description}
    (h : createOffer cfg e r sh = .ok (sh', reply)) :
    Outcomes cfg r.peerid sh sh' reply
      (cfg.factory r.useNullCodec && offersStream e (streamPair cfg e r sh)) := by
  cases createOffer_run h with
  | unavailable hfactory hcreate =>
    rw [hfactory]
    exact .unavailable hcreate hfactory
  | @refused sh₁ sh₂ hfactory hcreate hstreams =>
    obtain ⟨_, hprepared⟩ := createPeerConnection_available hcreate hfactory
    obtain ⟨hsame, hok⟩ := addStreams_spec hstreams
    rw [Shared.touch_streamMap, hprepared.streams] at hok
    have hadded := (SameOwners.touch sh₁ sh.observers.length).trans hsame
    rw [← hok, Bool.and_false]
    exact ⟨fun o ho => (hadded.obs o).2.2.trans (hprepared.kept o ho),
      fun htrue => (by cases htrue),
      fun _ => ⟨rfl, evicted_or_kept hprepared.lookup hadded.map⟩⟩
  | @offered sh₁ sh₂ hfactory hcreate hstreams hsome =>
    obtain ⟨_, hprepared⟩ := createPeerConnection_available hcreate hfactory
    obtain ⟨hsame, hok⟩ := addStreams_spec hstreams
    rw [Shared.touch_streamMap, hprepared.streams] at hok
    have hadded := (SameOwners.touch sh₁ sh.observers.length).trans hsame
    have hconnected : e.connected = true := by
      rw [← hprepared.connected, ← (hadded.obs _).2.2]
      exact hsome
    have hbase := hprepared.register hconnected r.peerid
    rw [hfactory, ← hok, Bool.and_true]
    refine ⟨fun o ho => (hadded.obs o).2.2.trans (hprepared.kept o ho),
      fun _ => ⟨⟨fun q => ?_, hsome⟩, fun d hd => ?_⟩, fun hfalse => by cases hfalse⟩
    · rw [← hbase.lookup q]
      simp [Shared.registerPeer, hadded.map]
    · obtain ⟨sdp, _, rfl⟩ := Option.map_eq_some_iff.mp hd
      rfl

theorem serve_outcomes {reply : Option Description} (h : serve cfg e r sh = .ok (sh', reply)) :
    Outcomes cfg (r.identified e).peerid sh sh' reply (registers cfg e r sh) := by
  unfold serve at h
  cases hapi : r.api with
  | call =>
    have hself : r.identified e = r := by simp [Request.identified, hapi]
    rw [hapi] at h
    simp only [call] at h
    rw [hself]
    by_cases hmessage : e.message = true
    · rw [if_pos hmessage] at h
      simpa [registers, hapi, hmessage] using getAnswer_outcomes h
    · rw [if_neg hmessage] at h
      cases h
      simpa [registers, hapi, hmessage] using Outcomes.unchanged cfg r.peerid sh
  | whep =>
    rw [hapi] at h
    have hanswer := getAnswer_outcomes (show getAnswer cfg e (r.identified e) sh = _ from h)
    rw [(identified_toStreamRequest e r).1] at hanswer
    simpa [registers, hapi] using hanswer
  | createOffer =>
    have hself : r.identified e = r := by simp [Request.identified, hapi]
    rw [hapi] at h
    rw [hself]
    simpa [registers, hapi] using createOffer_outcomes h

/-! ### A request without a reply -/

theorem Reachable.next_unregistered {s : State} (h : Reachable cfg s) (p : PeerId) :
    s.shared.peerConnectionObsMap[p]? ≠ some s.shared.observers.length := by
  intro hp
  have hlt := Shared.obs_lt_of_alive (h.owned.registered p _ hp).1
  omega

theorem Registered.lookup_self {p : PeerId} {o : ObsId} (h : Registered cfg p o sh sh')
    (htaken : (decide (p ∈ sh.peerConnectionObsMap) && !sh.evicts cfg p) = false) :
    sh'.peerConnectionObsMap[p]? = some o := by
  have hlookup := h.lookup p
  have hfree : sh.evicts cfg p = true ∨ p ∉ sh.peerConnectionObsMap := by
    by_cases hmem : p ∈ sh.peerConnectionObsMap
    · simp only [hmem, decide_true, Bool.true_and, Bool.not_eq_false'] at htaken
      exact .inl htaken
    · exact .inr hmem
  rw [if_pos ⟨rfl, hfree⟩] at hlookup
  exact hlookup

theorem Registered.lookup_taken {p : PeerId} {o : ObsId} (h : Registered cfg p o sh sh')
    (htaken : (decide (p ∈ sh.peerConnectionObsMap) && !sh.evicts cfg p) = true) (q : PeerId) :
    sh'.peerConnectionObsMap[q]? =
      if sh.evicts cfg q then none else sh.peerConnectionObsMap[q]? := by
  have hlookup := h.lookup q
  rw [Bool.and_eq_true, decide_eq_true_eq, Bool.not_eq_true'] at htaken
  rw [if_neg] at hlookup
  · exact hlookup
  · rintro ⟨rfl, hevict | hout⟩
    · rw [htaken.2] at hevict
      cases hevict
    · exact hout htaken.1

/-- A request that returns without a description leaves no new entry exactly
when it stops before its registration or its peerid stays taken. -/
theorem failed_request_entries_iff {s : State} (hs : Reachable cfg s)
    (h : serve cfg e r s.shared = .ok (sh', none)) :
    (∀ (q : PeerId) (o : ObsId), sh'.peerConnectionObsMap[q]? = some o →
      s.shared.peerConnectionObsMap[q]? = some o) ↔
    registers cfg e r s.shared = false ∨ taken cfg e r s.shared = true := by
  have hserved := serve_outcomes h
  cases hregisters : registers cfg e r s.shared with
  | false =>
    refine ⟨fun _ => .inl rfl, fun _ q o hq => ?_⟩
    rcases (hserved.unregistered hregisters).2 q with hsame | ⟨_, hnone⟩
    · rw [← hsame]
      exact hq
    · rw [hnone] at hq
      cases hq
  | true =>
    have hregistered := (hserved.registered hregisters).1
    cases htaken : taken cfg e r s.shared with
    | false =>
      refine ⟨fun hold => ?_, fun hcontra => ?_⟩
      · exact absurd (hold _ _ (hregistered.lookup_self htaken)) (hs.next_unregistered _)
      · rcases hcontra with hcontra | hcontra <;> cases hcontra
    | true =>
      refine ⟨fun _ => .inr rfl, fun _ q o hq => ?_⟩
      rw [hregistered.lookup_taken htaken q] at hq
      split at hq
      · cases hq
      · exact hq

theorem exists_serve (cfg : Config) (e : Env) (r : Request) (sh : Shared)
    (p : Shared → Option Description → Bool)
    (h : ((serve cfg e r sh).toOption.any fun x => p x.1 x.2) = true) :
    ∃ sh' reply, serve cfg e r sh = .ok (sh', reply) ∧ p sh' reply = true := by
  cases hserve : serve cfg e r sh with
  | error f => simp [hserve, Except.toOption] at h
  | ok x => exact ⟨x.1, x.2, rfl, by simpa [hserve, Except.toOption] using h⟩

/-- An offer for which no source can be opened returns nothing and registers nothing. -/
theorem failed_request_entries_offer : ∃ sh', serve (.plain 0)
      { Env.fine 7 with videoSource := none } (.plain .createOffer "a" "rtsp://cam")
      State.initial.shared = .ok (sh', none) ∧
    ∀ (q : PeerId) (o : ObsId), sh'.peerConnectionObsMap[q]? = some o →
      State.initial.shared.peerConnectionObsMap[q]? = some o := by
  obtain ⟨sh', reply, hserve, hreply⟩ := exists_serve (.plain 0)
    { Env.fine 7 with videoSource := none } (.plain .createOffer "a" "rtsp://cam")
    State.initial.shared (fun _ reply => reply.isNone) (by decide)
  have hnone : reply = none := by simpa using hreply
  subst hnone
  exact ⟨sh', hserve, (failed_request_entries_iff .refl hserve).mpr (.inl (by decide))⟩

/-- A call for which no source can be opened returns nothing and stays registered. -/
theorem failed_call_registered : ¬ ∀ (cfg : Config) (e : Env) (r : Request) (s : State)
    (sh' : Shared),
    Reachable cfg s → serve cfg e r s.shared = .ok (sh', none) →
    ∀ (q : PeerId) (o : ObsId), sh'.peerConnectionObsMap[q]? = some o →
      s.shared.peerConnectionObsMap[q]? = some o := by
  intro halways
  obtain ⟨sh', reply, hserve, hreply⟩ := exists_serve (.plain 0)
    { Env.fine 7 with videoSource := none } (.plain .call "a" "rtsp://cam") State.initial.shared
    (fun sh' reply => reply.isNone && sh'.peerConnectionObsMap["a"]? = some 0) (by decide)
  simp only [Bool.and_eq_true, Option.isNone_iff_eq_none, decide_eq_true_eq] at hreply
  obtain ⟨rfl, hfound⟩ := hreply
  have hold := halways _ _ _ .initial sh' .refl hserve "a" 0 hfound
  simp [State.initial, Shared.initial] at hold

/-! ### The connection a reply belongs to -/

inductive Operation where
  | request (e : Env) (r : Request)
  | hangUp (peerid : PeerId)

def perform (cfg : Config) (sh : Shared) : Operation → Option Shared
  | .request e r => (serve cfg e r sh).toOption.map Prod.fst
  | .hangUp peerid => (WebrtcStreamer.hangUp cfg .client peerid sh).toOption.map Prod.fst

def spares (cfg : Config) (peerid : PeerId) (sh : Shared) : Operation → Bool
  | .request _ _ => !sh.evicts cfg peerid
  | .hangUp p => p ≠ peerid

theorem perform_request {e : Env} {r : Request} (h : perform cfg sh (.request e r) = some sh') :
    ∃ reply, serve cfg e r sh = .ok (sh', reply) := by
  simp only [perform] at h
  cases hserve : serve cfg e r sh with
  | error f =>
    rw [hserve] at h
    cases h
  | ok result =>
    rw [hserve] at h
    cases h
    exact ⟨result.2, rfl⟩

theorem perform_hangUp {p : PeerId} (h : perform cfg sh (.hangUp p) = some sh') :
    ∃ result, hangUp cfg .client p sh = .ok (sh', result) := by
  simp only [perform] at h
  cases hhang : hangUp cfg .client p sh with
  | error f =>
    rw [hhang] at h
    cases h
  | ok result =>
    rw [hhang] at h
    cases h
    exact ⟨result.2, rfl⟩

theorem perform_keeps {p : PeerId} {o : ObsId} {op : Operation}
    (hspares : spares cfg p sh op = true)
    (hperform : perform cfg sh op = some sh') (hfound : sh.peerConnectionObsMap[p]? = some o)
    (hconnected : (sh.obs o).pc.isSome = true) :
    sh'.peerConnectionObsMap[p]? = some o ∧ (sh'.obs o).pc.isSome = true := by
  cases op with
  | request e r =>
    obtain ⟨reply, hserve⟩ := perform_request hperform
    have hserved := serve_outcomes hserve
    refine ⟨?_, hserved.kept o hconnected⟩
    have hevict : sh.evicts cfg p = false := by simpa [spares] using hspares
    cases hregisters : registers cfg e r sh with
    | false =>
      rcases (hserved.unregistered hregisters).2 p with hsame | ⟨htrue, _⟩
      · rw [hsame]
        exact hfound
      · rw [hevict] at htrue
        cases htrue
    | true =>
      have hmem : p ∈ sh.peerConnectionObsMap := by
        rw [Std.TreeMap.mem_iff_isSome_getElem?, hfound]
        rfl
      rw [(hserved.registered hregisters).1.lookup p, hevict, if_neg (by simp [hmem])]
      exact hfound
  | hangUp q =>
    obtain ⟨result, hhang⟩ := perform_hangUp hperform
    obtain ⟨hmap, _, hpc, _⟩ := hangUp_spec hhang
    have hne : p ≠ q := by
      rintro rfl
      simp [spares] at hspares
    rw [hmap p, if_neg hne, hpc o]
    exact ⟨hfound, hconnected⟩

/-- A reply with a description describes the connection that its peerid stands
for, from then on until that peer is hung up or evicted, exactly when the
peerid was free for the new observer. -/
theorem reply_registered_iff {s : State} {d : Description} (hs : Reachable cfg s)
    (h : serve cfg e r s.shared = .ok (sh', some d)) :
    (∀ sh'', Transition.Reaches (perform cfg)
        (fun sh op => spares cfg (r.identified e).peerid sh op = true) sh' sh'' →
      sh''.peerConnectionObsMap[(r.identified e).peerid]? = some d.origin ∧
        sh''.getPeerConnection (r.identified e).peerid = some d.origin) ↔
    taken cfg e r s.shared = false := by
  have hserved := serve_outcomes h
  have hregisters : registers cfg e r s.shared = true := by
    by_contra hfalse
    cases (hserved.unregistered (Bool.eq_false_iff.mpr hfalse)).1
  obtain ⟨hregistered, horigin⟩ := hserved.registered hregisters
  have hnew := horigin d rfl
  cases htaken : taken cfg e r s.shared with
  | false =>
    refine ⟨fun _ => rfl, fun _ sh'' hlater => ?_⟩
    have hkept := hlater.invariant (fun sh =>
      sh.peerConnectionObsMap[(r.identified e).peerid]? = some d.origin ∧
        (sh.obs d.origin).pc.isSome = true)
      ⟨hnew ▸ hregistered.lookup_self htaken, hnew ▸ hregistered.connected⟩
      fun _ _ _ hi hspares hperform => perform_keeps hspares hperform hi.1 hi.2
    refine ⟨hkept.1, ?_⟩
    simp [Shared.getPeerConnection, hkept.1, hkept.2]
  | true =>
    refine ⟨fun hall => ?_, fun hfalse => by cases hfalse⟩
    have hself := (hall sh' .refl).1
    rw [hregistered.lookup_taken htaken, hnew] at hself
    split at hself
    · cases hself
    · exact absurd hself (hs.next_unregistered _)

theorem reply_registered_first : ∃ sh' sh'',
    serve (.plain 0) (.fine 7) (.plain .call "a" "rtsp://cam") State.initial.shared =
      .ok (sh', some ⟨0, "sdp"⟩) ∧
    perform (.plain 0) sh' (.request (.fine 8) (.plain .call "b" "rtsp://cam")) = some sh'' ∧
    sh''.getPeerConnection "a" = some 0 := by
  obtain ⟨sh', reply, hserve, hreply⟩ := exists_serve (.plain 0) (.fine 7)
    (.plain .call "a" "rtsp://cam") State.initial.shared
    (fun sh' reply => reply = some ⟨0, "sdp"⟩ && spares (.plain 0) "a" sh'
      (.request (.fine 8) (.plain .call "b" "rtsp://cam")) &&
      (perform (.plain 0) sh' (.request (.fine 8) (.plain .call "b" "rtsp://cam"))).isSome)
    (by decide)
  simp only [Bool.and_eq_true, decide_eq_true_eq] at hreply
  obtain ⟨⟨rfl, hspares⟩, hnext⟩ := hreply
  obtain ⟨sh'', hperform⟩ := Option.isSome_iff_exists.mp hnext
  have hkept := (reply_registered_iff .refl hserve).mpr (by decide)
  exact ⟨sh', sh'', hserve, hperform, (hkept sh'' (.single hspares hperform)).2⟩

/-- The second call with one peerid gets the description of a connection that
is not the registered one. -/
theorem reply_unregistered : ¬ ∀ (cfg : Config) (e : Env) (r : Request) (s : State) (sh' : Shared)
    (d : Description), Reachable cfg s → serve cfg e r s.shared = .ok (sh', some d) →
    ∀ sh'', Transition.Reaches (perform cfg)
        (fun sh op => spares cfg (r.identified e).peerid sh op = true) sh' sh'' →
      sh''.peerConnectionObsMap[(r.identified e).peerid]? = some d.origin := by
  intro halways
  obtain ⟨s, hs, hp⟩ := Reachable.of_run (.plain 0)
    ([Action.request (.plain .call "a" "rtsp://cam")] ++ runs 0 14 (.fine 7))
    (fun s => (serve (.plain 0) (.fine 7) (.plain .call "a" "rtsp://cam") s.shared).toOption.any
      fun x => x.2 = some ⟨1, "sdp"⟩ && x.1.peerConnectionObsMap["a"]? = some 0) (by decide)
  obtain ⟨sh', reply, hserve, hreply⟩ := exists_serve _ _ _ _
    (fun sh' reply => reply = some ⟨1, "sdp"⟩ && sh'.peerConnectionObsMap["a"]? = some 0) hp
  simp only [Bool.and_eq_true, decide_eq_true_eq] at hreply
  obtain ⟨rfl, hfound⟩ := hreply
  have hself := halways _ _ _ s sh' _ hs hserve sh' .refl
  have hother : sh'.peerConnectionObsMap["a"]? = some 1 := hself
  rw [hfound] at hother
  cases hother

end WebrtcStreamer
