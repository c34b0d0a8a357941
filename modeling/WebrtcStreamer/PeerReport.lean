import WebrtcStreamer.Api
import WebrtcStreamer.BandwidthFigures
import WebrtcStreamer.OwnStreams

/-! The whole of `getPeerConnectionList`: what it reads from a peer connection and
what it says of it. -/

set_option autoImplicit false

namespace WebrtcStreamer

open Json (Value Members)

def Kind.name : Kind → String
  | .video => "video"
  | .audio => "audio"

/-- `GetSource()` of a track; only a video source has statistics, and not always. -/
structure SourceReading where
  state : Int
  stats : Option (Int × Int)
  deriving DecidableEq, Repr

structure MediaStreamTrack where
  id : String
  kind : Kind
  source : Option SourceReading
  signalLevel : Option Int
  deriving DecidableEq, Repr

structure RtpSender where
  streamIds : List Label
  track : Option MediaStreamTrack
  deriving DecidableEq, Repr

structure PeerReading where
  peerConnectionState : String
  signalingState : String
  iceConnectionState : String
  timeMicros : UInt64
  stats : PeerConnectionStatsCollectorCallback
  localDescription : Option String
  iceCandidateList : Value
  senders : List (Option RtpSender)

def MediaStreamTrack.describe (mediaTrack : MediaStreamTrack) : Members :=
  let track : Members := (∅ : Members).insert "kind" (.string mediaTrack.kind.name)
  let track := mediaTrack.source.elim track fun source =>
    track.insert "state" (.number (toString source.state))
  match mediaTrack.kind with
  | .video =>
    (mediaTrack.source.bind SourceReading.stats).elim track fun stats =>
      (track.insert "width" (.number (toString stats.1))).insert "height"
        (.number (toString stats.2))
  | .audio =>
    mediaTrack.signalLevel.elim track fun level =>
      track.insert "level" (.number (toString level))

abbrev Streams := Std.TreeMap Label Members

def Streams.addTrack (streams : Streams) (streamLabel : Label) (mediaTrack : MediaStreamTrack) :
    Streams :=
  streams.insert streamLabel
    ((streams.getD streamLabel ∅).insert mediaTrack.id (.ofMembers mediaTrack.describe))

/-- One round of the loop over the senders; `none` where `stream_ids()[0]` does not exist. -/
def Streams.addSender (streams : Streams) (localStream : Option RtpSender) : Option Streams :=
  match localStream with
  | none => some streams
  | some localStream =>
    match localStream.track with
    | none => some streams
    | some mediaTrack => localStream.streamIds.head?.map fun streamLabel =>
        streams.addTrack streamLabel mediaTrack

def Streams.value (streams : Streams) : Value :=
  if streams.isEmpty then .null
  else .object (streams.toList.map fun x => (x.1, .object x.2.toList))

namespace PeerConnectionManager

def describePeer (creationTime : UInt64) (x : PeerReading) (sdp : String) (streams : Value) :
    Members :=
  (∅ : Members)
    |>.insert "pc_state" (.string x.peerConnectionState)
    |>.insert "signaling_state" (.string x.signalingState)
    |>.insert "ice_state" (.string x.iceConnectionState)
    |>.insert "duration_ms" (.number (toString ((x.timeMicros - creationTime) / 1000)))
    |>.insert "bytes_sent" (.number (toString x.stats.bytesSent))
    |>.insert "bytes_received" (.number (toString x.stats.bytesReceived))
    |>.insert "bandwidth_sent_bps" (.number (toString x.stats.bwSentBps))
    |>.insert "bandwidth_received_bps" (.number (toString x.stats.bwRecvBps))
    |>.insert "sdp" (.string sdp)
    |>.insert "candidateList" x.iceCandidateList
    |>.insert "streams" streams

def peerContent (sh : Shared) (o : ObsId) (x : PeerReading) : Option Value :=
  match (sh.obs o).pc, x.localDescription with
  | some _, some sdp =>
    (x.senders.foldlM Streams.addSender ∅).map fun streams =>
      .ofMembers (describePeer (sh.obs o).creationTime x sdp streams.value)
  | _, _ => some .null

def reportPeers (sh : Shared) (readings : ObsId → PeerReading) : Option Value :=
  (sh.peerConnectionObsMap.toList.mapM fun entry =>
    (peerContent sh entry.2 (readings entry.2)).map fun content =>
      Value.object [(entry.1, content)]).map Value.array

end PeerConnectionManager

/-! ### The tracks of one label -/

def tracksOf (senders : List (Option RtpSender)) : List (List Label × MediaStreamTrack) :=
  senders.filterMap fun localStream =>
    localStream.bind fun localStream => localStream.track.map fun t => (localStream.streamIds, t)

def MediaStreamTrack.collect (ts : List MediaStreamTrack) : Members :=
  ts.foldl (fun m t => m.insert t.id (.ofMembers t.describe)) ∅

def Streams.single (l : Label) (ts : List MediaStreamTrack) : List (Label × Members) :=
  if ts = [] then [] else [(l, MediaStreamTrack.collect ts)]

namespace Streams

variable {streams : Streams} {l : Label} {ts : List MediaStreamTrack}

theorem getD_single (h : streams.toList = single l ts) :
    streams.getD l ∅ = MediaStreamTrack.collect ts := by
  rw [Std.TreeMap.getD_eq_getD_getElem?, ← Members.lookup_toList, h, single]
  split
  · rename_i hts
    rw [hts]
    rfl
  · simp

theorem addTrack_single (t : MediaStreamTrack) (h : streams.toList = single l ts) :
    (streams.addTrack l t).toList = single l (ts ++ [t]) := by
  have hrest : (streams.toList.filter fun x => ¬l == x.1) = [] := by
    rw [h, single]
    split <;> simp
  have hperm := Std.TreeMap.toList_insert_perm (t := streams) (k := l)
    (v := (streams.getD l ∅).insert t.id (.ofMembers t.describe))
  rw [hrest] at hperm
  rw [addTrack, List.perm_singleton.mp hperm, getD_single h]
  simp [single, MediaStreamTrack.collect]

theorem foldlM_addSender {senders : List (Option RtpSender)}
    (hlabels : ∀ x ∈ tracksOf senders, x.1 = [l]) (h : streams.toList = single l ts) :
    ∃ streams', senders.foldlM addSender streams = some streams' ∧
      streams'.toList = single l (ts ++ (tracksOf senders).map Prod.snd) := by
  induction senders generalizing streams ts with
  | nil => exact ⟨streams, rfl, by simpa [tracksOf] using h⟩
  | cons localStream senders ih =>
    obtain _ | ⟨streamIds, _ | mediaTrack⟩ := localStream
    · obtain ⟨streams', hrun, hsingle⟩ := ih hlabels h
      exact ⟨streams', hrun, hsingle⟩
    · obtain ⟨streams', hrun, hsingle⟩ := ih hlabels h
      exact ⟨streams', hrun, hsingle⟩
    · have hhead : streamIds = [l] := hlabels (streamIds, mediaTrack) List.mem_cons_self
      obtain ⟨streams', hrun, hsingle⟩ := ih (fun x hx => hlabels x (List.mem_cons_of_mem _ hx))
        (addTrack_single mediaTrack h)
      refine ⟨streams', ?_, ?_⟩
      · rw [List.foldlM_cons, hhead]
        exact hrun
      · rw [hsingle, List.append_assoc]
        rfl

theorem value_single (h : streams.toList = single l ts) : streams.value =
    if ts = [] then .null else .object [(l, .object (MediaStreamTrack.collect ts).toList)] := by
  rw [value, ← Std.TreeMap.isEmpty_toList, h, single]
  split <;> simp

end Streams

theorem MediaStreamTrack.toList_collect {ts : List MediaStreamTrack}
    (h : (ts.map MediaStreamTrack.id).Nodup) : (collect ts).toList.Perm
      (ts.map fun t => (t.id, .ofMembers t.describe)) := by
  have hcollect : collect ts = (ts.map fun t => (t.id, Value.ofMembers t.describe)).foldl
      (fun m x => m.insert x.1 x.2) (∅ : Members) := by
    rw [List.foldl_map]
    rfl
  have hempty : (∅ : Members).toList = [] := rfl
  rw [hcollect]
  refine Members.toList_foldl_insert _ ?_
  rw [hempty, List.nil_append, List.map_map]
  exact h

/-! ### The report -/

def Sender.trackId (x : Sender) : String := x.streamIds.headD "" ++ "_" ++ x.kind.name

/-- `GetSenders` returns the senders that `AddTrack` has made, in any order; the
senders of what is only received have no track. -/
def PeerReading.AnswersFor (x : PeerReading) (senders : List Sender) : Prop :=
  ((tracksOf x.senders).map fun s => (s.1, s.2.id, s.2.kind)).Perm
    (senders.map fun s => (s.streamIds, s.trackId, s.kind))

def findPeer (report : Value) (peerid : PeerId) : Option Value :=
  match report with
  | .array entries => entries.findSome? fun entry => entry.find peerid
  | _ => none

section Report

variable {sh : Shared} {o : ObsId} {l : Label} {x : PeerReading}

theorem trackId_nodup {senders : List Sender} (hlabel : ∀ s ∈ senders, s.streamIds = [l])
    (hkinds : (senders.map Sender.kind).Nodup) : (senders.map Sender.trackId).Nodup := by
  refine (List.nodup_map_iff_inj_on hkinds.of_map).mpr fun s hs s' hs' heq => ?_
  have hname : s.kind.name = s'.kind.name := by
    simpa [Sender.trackId, hlabel s hs, hlabel s' hs'] using heq
  have hkind : s.kind = s'.kind := by
    revert hname
    cases s.kind <;> cases s'.kind <;> simp [Kind.name]
  exact List.inj_on_of_nodup_map hkinds hs hs' hkind

theorem streams_of_answers {senders : List Sender} (h : x.AnswersFor senders)
    (hlabel : ∀ s ∈ senders, s.streamIds = [l]) (hkinds : (senders.map Sender.kind).Nodup) :
    ∃ streams tracks, x.senders.foldlM Streams.addSender ∅ = some streams ∧
      streams.value = (if senders = [] then .null else .object [(l, .object tracks)]) ∧
      tracks.Perm ((tracksOf x.senders).map fun s => (s.2.id, .ofMembers s.2.describe)) := by
  have hlabels : ∀ s ∈ tracksOf x.senders, s.1 = [l] := by
    intro s hs
    obtain ⟨s', hs', heq⟩ := List.mem_map.mp (h.subset (List.mem_map_of_mem hs))
    rw [← hlabel s' hs']
    exact (congrArg Prod.fst heq).symm
  have hids : (((tracksOf x.senders).map Prod.snd).map MediaStreamTrack.id).Nodup := by
    have hperm := h.map fun s => s.2.1
    simp only [List.map_map] at hperm ⊢
    exact hperm.nodup_iff.mpr (trackId_nodup hlabel hkinds)
  have hnil : (tracksOf x.senders).map Prod.snd = [] ↔ senders = [] := by
    have hlength := h.length_eq
    simp only [List.length_map] at hlength
    rw [List.map_eq_nil_iff, ← List.length_eq_zero_iff, hlength, List.length_eq_zero_iff]
  have hempty : (∅ : Streams).toList = Streams.single l [] := rfl
  obtain ⟨streams, hrun, hsingle⟩ := Streams.foldlM_addSender hlabels hempty
  have hvalue := Streams.value_single hsingle
  rw [List.nil_append] at hvalue
  refine ⟨streams, (MediaStreamTrack.collect ((tracksOf x.senders).map Prod.snd)).toList, hrun,
    ?_, ?_⟩
  · rw [hvalue]
    simp only [hnil]
  · simpa [Function.comp_def] using MediaStreamTrack.toList_collect hids

theorem findPeer_entries (xs : List (PeerId × ObsId)) (content : ObsId → Value) (p : PeerId) :
    findPeer (.array (xs.map fun entry => .object [(entry.1, content entry.2)])) p =
      (xs.lookup p).map content := by
  simp only [findPeer, List.findSome?_map, Function.comp_def]
  induction xs with
  | nil => rfl
  | cons entry xs ih =>
    obtain ⟨q, o⟩ := entry
    rw [List.findSome?_cons, ih, Value.find]
    simp only [List.lookup_cons, List.lookup_nil]
    cases p == q <;> rfl

theorem reportPeers_of_contents {readings : ObsId → PeerReading} {content : ObsId → Value}
    (h : ∀ o ∈ sh.registered,
      PeerConnectionManager.peerContent sh o (readings o) = some (content o)) :
    PeerConnectionManager.reportPeers sh readings = some (.array
      (sh.peerConnectionObsMap.toList.map fun entry => .object [(entry.1, content entry.2)])) := by
  have hrounds : ∀ xs : List (PeerId × ObsId), (∀ entry ∈ xs, entry.2 ∈ sh.registered) →
      (xs.mapM fun entry =>
        (PeerConnectionManager.peerContent sh entry.2 (readings entry.2)).map fun content =>
          Value.object [(entry.1, content)]) =
        some (xs.map fun entry => Value.object [(entry.1, content entry.2)]) := by
    intro xs hxs
    induction xs with
    | nil => rfl
    | cons entry xs ih =>
      rw [List.mapM_cons, h entry.2 (hxs entry List.mem_cons_self),
        ih fun e he => hxs e (List.mem_cons_of_mem _ he)]
      rfl
  rw [PeerConnectionManager.reportPeers, hrounds _ fun entry he => List.mem_map_of_mem he]
  rfl

end Report

structure Told (cfg : Config) (sh : Shared) (r : Request) (o : ObsId) (x : PeerReading)
    (content : Value) : Prop where
  unconnected : (sh.obs o).pc = none ∨ x.localDescription = none → content = .null
  sdp : ∀ sdp, (sh.obs o).pc ≠ none → x.localDescription = some sdp →
    content.find "sdp" = some (.string sdp)
  streams : ∀ sdp, (sh.obs o).pc ≠ none → x.localDescription = some sdp →
    ∃ tracks : List (String × Value),
      tracks.Perm ((tracksOf x.senders).map fun t => (t.2.id, .ofMembers t.2.describe)) ∧
      content.find "streams" = some
        (if sh.senders o = [] then .null else .object [(r.label cfg, .object tracks)])

theorem peerContent_told {cfg : Config} {sh : Shared} {r : Request} {o : ObsId} {x : PeerReading}
    (hreads : ∀ senders, (sh.obs o).pc = some senders → x.AnswersFor senders)
    (hlabel : ∀ s ∈ sh.senders o, s.streamIds = [r.label cfg])
    (hkinds : ((sh.senders o).map Sender.kind).Nodup) :
    ∃ content, PeerConnectionManager.peerContent sh o x = some content ∧
      Told cfg sh r o x content := by
  unfold PeerConnectionManager.peerContent
  cases hpc : (sh.obs o).pc with
  | none =>
    refine ⟨.null, rfl, fun _ => rfl, fun _ h => absurd hpc h, fun _ h => absurd hpc h⟩
  | some senders =>
    cases hsdp : x.localDescription with
    | none =>
      refine ⟨.null, rfl, fun _ => rfl, fun _ _ h => ?_, fun _ _ h => ?_⟩
      all_goals
        rw [hsdp] at h
        cases h
    | some sdp =>
      have hsenders : sh.senders o = senders := by simp [Shared.senders, hpc]
      rw [hsenders] at hlabel hkinds
      obtain ⟨streams, tracks, hrun, hvalue, hperm⟩ :=
        streams_of_answers (hreads senders hpc) hlabel hkinds
      refine ⟨_, by rw [hrun]; rfl, fun h => ?_, fun sdp' _ h => ?_, fun sdp' _ h => ?_⟩
      · rw [hpc, hsdp] at h
        simp at h
      · rw [hsdp] at h
        cases h
        rw [Value.find_ofMembers]
        simp only [PeerConnectionManager.describePeer, Std.TreeMap.getElem?_insert,
          Std.compare_eq_iff_eq, String.reduceEq, if_false, if_true]
      · refine ⟨tracks, hperm, ?_⟩
        rw [Value.find_ofMembers, hsenders, ← hvalue]
        simp [PeerConnectionManager.describePeer]

def ApiEnv.reporting (e : ApiEnv) (sh : Shared) (readings : ObsId → PeerReading) : ApiEnv :=
  { e with content := fun o => (PeerConnectionManager.peerContent sh o (readings o)).getD .null }

/-- The report is true: in every run `getPeerConnectionList` comes to its end, it
lists every registered peer once and nobody else, and of a peer that was made for
a request it shows the streams of this request only, with exactly the tracks that
its connection sends. -/
theorem peers_reported {cfg : Config} {s : State} {served : Served}
    {readings : ObsId → PeerReading} (h : Serves cfg s served)
    (hreads : ∀ (o : ObsId) senders, (s.shared.obs o).pc = some senders →
      (readings o).AnswersFor senders) :
    ∃ entries, PeerConnectionManager.reportPeers s.shared readings = some (.array entries) ∧
      entries.length = s.shared.peerConnectionObsMap.size ∧
      (∀ (srv : Server) (lib : Library) (e : ApiEnv) (info : RequestInfo) (input : Value),
        api srv lib (e.reporting s.shared readings) .getPeerConnectionList info input s.shared =
          .ok (s.shared, ⟨200, [], .array entries⟩)) ∧
      (∀ peerid : PeerId, s.shared.peerConnectionObsMap[peerid]? = none →
        findPeer (.array entries) peerid = none) ∧
      ∀ (peerid : PeerId) (o : ObsId), s.shared.peerConnectionObsMap[peerid]? = some o →
        ∃ r content, served.constructed[o]? = some r ∧ r.peerid = peerid ∧
          findPeer (.array entries) peerid = some content ∧
          Told cfg s.shared r o (readings o) content := by
  have hown : Own cfg (s, served) := h.invariant (Own cfg) .initial fun _ _ _ hi _ hs => hi.step hs
  -- every registered peer was made for a request, and its content is about that request
  have hpeer : ∀ (peerid : PeerId) (o : Nat), s.shared.peerConnectionObsMap[peerid]? = some o →
      ∃ r content, served.constructed[o]? = some r ∧ r.peerid = peerid ∧
        PeerConnectionManager.peerContent s.shared o (readings o) = some content ∧
        Told cfg s.shared r o (readings o) content := by
    intro peerid o hp
    obtain ⟨halive, hid⟩ := hown.owned.registered peerid o hp
    have hlt : o < served.constructed.length := by
      rw [hown.recorded.length]
      exact Shared.obs_lt_of_alive halive
    have hr := List.getElem?_eq_getElem hlt
    have hlabel : ∀ x ∈ s.shared.senders o, x.streamIds = [served.constructed[o].label cfg] :=
      fun x hx => (hown.senders.sends o _ hr x hx).label
    obtain ⟨content, hcontent, htold⟩ :=
      peerContent_told (hreads o) hlabel ((hown.senders.kinds o).nodup (by decide))
    exact ⟨_, content, hr, (hown.recorded.peerid o _ hr).symm.trans hid, hcontent, htold⟩
  have hcontents : ∀ o ∈ s.shared.registered,
      PeerConnectionManager.peerContent s.shared o (readings o) =
        some ((PeerConnectionManager.peerContent s.shared o (readings o)).getD .null) := by
    intro o ho
    obtain ⟨peerid, hp⟩ := s.shared.mem_registered.mp ho
    obtain ⟨_, content, _, _, hcontent, _⟩ := hpeer peerid o hp
    rw [hcontent]
    rfl
  have hfind : ∀ peerid, findPeer (.array (s.shared.peerConnectionObsMap.toList.map fun entry =>
        .object [(entry.1,
          (PeerConnectionManager.peerContent s.shared entry.2 (readings entry.2)).getD .null)]))
      peerid = (s.shared.peerConnectionObsMap[peerid]?).map fun o =>
        (PeerConnectionManager.peerContent s.shared o (readings o)).getD .null := by
    intro peerid
    rw [← Members.lookup_toList]
    exact findPeer_entries _ (fun o =>
      (PeerConnectionManager.peerContent s.shared o (readings o)).getD .null) peerid
  refine ⟨_, reportPeers_of_contents hcontents, by simp, fun srv lib e info input => rfl,
    fun peerid hp => ?_, fun peerid o hp => ?_⟩
  · rw [hfind, hp]
    rfl
  · obtain ⟨r, content, hr, hid, hcontent, htold⟩ := hpeer peerid o hp
    refine ⟨r, content, hr, hid, ?_, htold⟩
    rw [hfind, hp, Option.map_some, hcontent]
    rfl

def PeerReading.plain (senders : List Sender) : PeerReading where
  peerConnectionState := "connected"
  signalingState := "stable"
  iceConnectionState := "completed"
  timeMicros := 5000
  stats := .initial
  localDescription := some "sdp"
  iceCandidateList := .array []
  senders := some ⟨[], none⟩ :: senders.map fun x =>
    some ⟨x.streamIds, some ⟨x.trackId, x.kind, some ⟨1, none⟩, none⟩⟩

theorem PeerReading.plain_tracks (senders : List Sender) :
    tracksOf (plain senders).senders =
      senders.map fun x => (x.streamIds, ⟨x.trackId, x.kind, some ⟨1, none⟩, none⟩) := by
  simp [tracksOf, plain, List.filterMap_map]

theorem peers_reported_shared : ∃ s served, Serves (.plain 0) s served ∧
    ∃ entries, entries.length = 2 ∧
      PeerConnectionManager.reportPeers s.shared (fun o => .plain (s.shared.senders o)) =
        some (.array entries) ∧
      ∃ r content tracks, served.constructed[1]? = some r ∧ r.peerid = "b" ∧
        findPeer (.array entries) "b" = some content ∧
        content.find "streams" = some (.object [(r.label (.plain 0), .object tracks)]) ∧
        tracks.length = 1 := by
  obtain ⟨⟨s, served⟩, hrun, hp⟩ := Transition.exists_reaches_of_run
    (Histories.recorded (step (.plain 0)) Served.note) (fun _ _ => True) (.initial, ⟨[], []⟩)
    ([Action.request (.plain .call "a" "rtsp://cam"), .request (.plain .call "b" "rtsp://cam")] ++
      runs 0 14 (.fine 7) ++ runs 1 12 (.fine 8))
    (fun x => (x.1.shared.peerConnectionObsMap["b"]? = some 1) &&
      (x.1.shared.peerConnectionObsMap.size = 2) && ((x.1.shared.senders 1).length = 1))
    (by decide +kernel)
  simp only [Bool.and_eq_true, decide_eq_true_eq] at hp
  obtain ⟨⟨hb, hsize⟩, hsenders⟩ := hp
  have hreads : ∀ (o : ObsId) senders, (s.shared.obs o).pc = some senders →
      (PeerReading.plain (s.shared.senders o)).AnswersFor senders := by
    intro o senders hpc
    rw [Shared.senders, hpc, PeerReading.AnswersFor, PeerReading.plain_tracks, List.map_map]
    exact .refl _
  obtain ⟨entries, hreport, hlength, -, -, hpeers⟩ := peers_reported hrun hreads
  obtain ⟨r, content, hr, hid, hfind, htold⟩ := hpeers "b" 1 hb
  have hconnected : (s.shared.obs 1).pc ≠ none := by
    intro hnone
    simp [Shared.senders, hnone] at hsenders
  obtain ⟨tracks, hperm, hstreams⟩ := htold.streams "sdp" hconnected rfl
  rw [if_neg (by intro hnil; simp [hnil] at hsenders)] at hstreams
  refine ⟨s, served, hrun, entries, hlength.trans hsize, hreport, r, content, tracks, hr, hid,
    hfind, hstreams, ?_⟩
  rw [hperm.length_eq, List.length_map, PeerReading.plain_tracks, List.length_map, hsenders]

end WebrtcStreamer
