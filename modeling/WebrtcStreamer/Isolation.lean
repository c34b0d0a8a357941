import WebrtcStreamer.StreamsInUse
import WebrtcStreamer.Replies

/-! A thread of the machine that nothing interrupts does what the request does
in one piece. -/

set_option autoImplicit false

namespace WebrtcStreamer

def alone (cfg : Config) (e : Env) (x : Shared × Pc) (_ : Unit) : Option (Shared × Pc) :=
  match exec cfg e x.1 x.2 with
  | .next sh pc => some (sh, pc)
  | .fault _ | .blocked => none

abbrev Alone (cfg : Config) (e : Env) : Shared × Pc → Shared × Pc → Prop :=
  Transition.Reachable (alone cfg e)

/-- From this position, with the stream map unlocked, the thread does what `x`
says and goes on at `next`. -/
def Performs (cfg : Config) (e : Env) {γ : Type} (sh : Shared) (pc : Pc) (x : Except Fault γ)
    (next : γ → Shared × Pc) : Prop :=
  sh.streamMapLocked = false →
    match x with
    | .ok a => Alone cfg e (sh, pc) (next a) ∧ (next a).1.streamMapLocked = false
    | .error f => ∃ y, Alone cfg e (sh, pc) y ∧ exec cfg e y.1 y.2 = .fault f

namespace Performs

variable {cfg : Config} {e : Env} {sh sh' : Shared} {pc pc' : Pc} {γ δ : Type}
  {x : Except Fault γ} {next : γ → Shared × Pc}

theorem stay {a : γ} (h : next a = (sh, pc)) : Performs cfg e sh pc (.ok a) next := by
  intro hunlocked
  simp only [h]
  exact ⟨.refl, hunlocked⟩

theorem fault {f : Fault} (h : exec cfg e sh pc = .fault f) :
    Performs cfg e sh pc (.error f) next :=
  fun _ => ⟨(sh, pc), .refl, h⟩

theorem step (hx : sh.streamMapLocked = false → exec cfg e sh pc = .next sh' pc')
    (hlock : sh'.streamMapLocked = sh.streamMapLocked) (h : Performs cfg e sh' pc' x next) :
    Performs cfg e sh pc x next := by
  intro hunlocked
  have hfirst : Alone cfg e (sh, pc) (sh', pc') :=
    .single (a := ()) trivial (by simp [alone, hx hunlocked])
  have hrest := h (hlock.trans hunlocked)
  cases x with
  | ok a => exact ⟨hfirst.trans hrest.1, hrest.2⟩
  | error f =>
    obtain ⟨y, hy, hfault⟩ := hrest
    exact ⟨y, hfirst.trans hy, hfault⟩

theorem bind {y : Except Fault δ} {f : δ → Except Fault γ} {middle : δ → Shared × Pc}
    (h : Performs cfg e sh pc y middle)
    (hf : ∀ a, y = .ok a → Performs cfg e (middle a).1 (middle a).2 (f a) next) :
    Performs cfg e sh pc (y >>= f) next := by
  intro hunlocked
  have hfirst := h hunlocked
  cases y with
  | error fault => exact hfirst
  | ok a =>
    obtain ⟨hreach, hfree⟩ := hfirst
    have hrest := hf a rfl hfree
    change match f a with
      | .ok b => Alone cfg e (sh, pc) (next b) ∧ (next b).1.streamMapLocked = false
      | .error fault => ∃ z, Alone cfg e (sh, pc) z ∧ exec cfg e z.1 z.2 = .fault fault
    cases hb : f a with
    | ok b =>
      rw [hb] at hrest
      exact ⟨hreach.trans hrest.1, hrest.2⟩
    | error fault =>
      rw [hb] at hrest
      obtain ⟨z, hz, hfault⟩ := hrest
      exact ⟨z, hreach.trans hz, hfault⟩

end Performs

section Functions

variable {cfg : Config} {e : Env}

theorem closeStreams_performs (caller : Caller) (peerid : PeerId) (o : ObsId)
    (streams : List (List Label)) (sh : Shared) :
    Performs cfg e sh (.hangUp caller peerid (.scan o streams)) (closeStreams streams sh)
      fun sh' => (sh', .hangUp caller peerid (.destroy o)) := by
  induction streams generalizing sh with
  | nil => exact .step (fun _ => rfl) rfl (.stay rfl)
  | cons ls rest ih =>
    cases ls with
    | nil => exact .step (fun _ => rfl) rfl (ih sh)
    | cons l ls =>
      cases hused : sh.streamStillUsed l with
      | error f =>
        have hclose : closeStreams ((l :: ls) :: rest) sh = .error f := by
          simp only [closeStreams, hused]
          rfl
        rw [hclose]
        exact .fault (by simp [exec, execHangUp, hused])
      | ok stillUsed =>
        have hclose : closeStreams ((l :: ls) :: rest) sh = closeStreams rest
            (if stillUsed then sh.touchRegistered else sh.touchRegistered.eraseStream l) := by
          simp only [closeStreams, hused]
          rfl
        have hscan : exec cfg e sh (.hangUp caller peerid (.scan o ((l :: ls) :: rest))) =
            .next sh.touchRegistered (.hangUp caller peerid
              (if stillUsed then .scan o rest else .close o l rest)) := by
          simp only [exec, execHangUp, hused]
        rw [hclose]
        refine .step (fun _ => hscan) (by simp) ?_
        cases stillUsed with
        | true => exact ih _
        | false =>
          have hgo : sh.touchRegistered.streamMapLocked = false →
              exec cfg e sh.touchRegistered (.hangUp caller peerid (.close o l rest)) =
                .next (sh.touchRegistered.eraseStream l)
                  (.hangUp caller peerid (.scan o rest)) := by
            intro hfree
            simp only [exec, execHangUp, hfree]
            rfl
          exact .step hgo rfl (ih _)

theorem hangUp_performs {caller : Caller} (howns : ∀ o, caller ≠ .detached o) (peerid : PeerId)
    (sh : Shared) :
    Performs cfg e sh (.hangUp caller peerid .enter) (hangUp cfg caller peerid sh)
      fun x => (x.1, caller.resume x.2) := by
  have hlock : ∀ sh', (caller.readMember sh').streamMapLocked = sh'.streamMapLocked :=
    readMember_lock caller
  have htarget : ∀ sh', caller.target e sh' peerid = peerid := by
    intro sh'
    cases caller with
    | detached o => exact absurd rfl (howns o)
    | client => rfl
    | evict r => rfl
  refine .step (fun _ => rfl) ((logPeerId_lock _ _ _).trans (hlock sh)) ?_
  simp only [hangUp]
  generalize caller.logPeerId cfg (caller.readMember sh) = sh₁
  cases hfound : (caller.readMember sh₁).peerConnectionObsMap[peerid]? with
  | none =>
    have htake : exec cfg e sh₁ (.hangUp caller peerid .take) =
        .next (caller.readMember sh₁) (.hangUp caller peerid (.answer false)) := by
      simp only [exec, execHangUp, htarget, hfound]
    refine .step (fun _ => htake) (hlock sh₁) ?_
    exact .step (fun _ => rfl) (logPeerId_lock _ _ _) (.stay rfl)
  | some o =>
    have htake : exec cfg e sh₁ (.hangUp caller peerid .take) =
        .next ((caller.readMember sh₁).erasePeer peerid) (.hangUp caller peerid (.senders o)) := by
      simp only [exec, execHangUp, htarget, hfound]
    refine .step (fun _ => htake) (hlock sh₁) ?_
    generalize (caller.readMember sh₁).erasePeer peerid = sh₂
    simp only [Shared.touch_obs]
    cases hpc : (sh₂.obs o).pc with
    | none => exact .fault (by simp only [exec, execHangUp, hpc])
    | some localstreams =>
      have hsenders : exec cfg e sh₂ (.hangUp caller peerid (.senders o)) =
          .next (sh₂.touch o) (.hangUp caller peerid
            (.scan o (localstreams.map Sender.streamIds))) := by
        simp only [exec, execHangUp, hpc]
      refine .step (fun _ => hsenders) (by simp) ?_
      refine (closeStreams_performs caller peerid o _ _).bind fun sh₃ _ => ?_
      refine .step (fun _ => rfl) ?_ (.step (fun _ => rfl) (logPeerId_lock _ _ _) (.stay rfl))
      simp [Shared.deleteObserver, Shared.modifyObs]

theorem evictOldest_performs (r : Request) (sh : Shared) :
    Performs cfg e sh (.oldest r) (evictOldest cfg r sh) fun sh' => (sh', .construct r) := by
  have hlock : (if sh.peersFull cfg then sh.touchRegistered else sh).streamMapLocked =
      sh.streamMapLocked := by
    split <;> simp
  by_cases hempty : sh.getOldestPeerCannection cfg = ""
  · have hroom : evictOldest cfg r sh =
        .ok (if sh.peersFull cfg then sh.touchRegistered else sh) := by
      simp [evictOldest, hempty]
    rw [hroom]
    refine .step (fun _ => ?_) hlock (.stay rfl)
    simp [exec, hempty]
  · simp only [evictOldest, hempty, if_false]
    refine .step (fun _ => ?_) hlock
      ((hangUp_performs (fun _ h => by cases h) _ _).bind fun x _ => .stay rfl)
    simp [exec, hempty]

theorem createPeerConnection_performs (r : Request) (sh : Shared) :
    Performs cfg e sh (.oldest r) (createPeerConnection cfg e r sh)
      fun x => (x.1, x.2.elim .failed (.opened r)) := by
  refine (evictOldest_performs r sh).bind fun sh₁ _ => ?_
  by_cases hfactory : cfg.factory r.useNullCodec = true
  · simp only [hfactory, if_true]
    have hconstruct : exec cfg e sh₁ (.construct r) =
        .next (sh₁.construct r.peerid e.connected e.time) (.opened r sh₁.observers.length) := by
      simp only [exec, hfactory, if_true]
    exact .step (fun _ => hconstruct) rfl (.stay rfl)
  · simp only [hfactory]
    have hnone : exec cfg e sh₁ (.construct r) = .next sh₁ .failed := by
      simp only [exec, hfactory]
      rfl
    exact .step (fun _ => hnone) rfl (.stay rfl)

theorem attachTrack_locked (sh : Shared) (locked : Bool) (o : ObsId) (l : Label) (kind : Kind)
    (source : Option Source) (track added : Bool) :
    (sh.lockStreamMap locked).attachTrack o l kind source track added =
      (sh.attachTrack o l kind source track added).map
        fun x => (x.1.lockStreamMap locked, x.2) := by
  have hobs : (sh.lockStreamMap locked).obs o = sh.obs o := rfl
  unfold Shared.attachTrack
  cases source with
  | none => rfl
  | some src =>
    simp only [hobs]
    cases track
    · rfl
    · cases (sh.obs o).pc.isNone
      · cases added <;> rfl
      · rfl

theorem lockStreamMap_unlocked {sh : Shared} (h : sh.streamMapLocked = false) :
    sh.lockStreamMap false = sh := by
  cases sh
  simp only at h
  subst h
  rfl

theorem tracks_performs (r : Request) (o : ObsId) (sh : Shared) {pair : AudioVideoPair}
    (hfound : sh.streamMap[r.label cfg]? = some pair) :
    Performs cfg e sh (.streams r o .final)
      (do
        let (sh, video) ← sh.attachTrack o (r.label cfg) .video pair.1 e.videoTrack e.videoAdded
        let (sh, audio) ← sh.attachTrack o (r.label cfg) .audio pair.2 e.audioTrack e.audioAdded
        .ok (sh, video || audio))
      fun x => (x.1, afterStreams r o x.2) := by
  intro hfree
  have hfinal : Alone cfg e (sh, .streams r o .final)
      (sh.lockStreamMap true, .streams r o (.video pair)) := by
    refine .single (a := ()) trivial ?_
    simp [alone, exec, execStreams, hfree, hfound]
  have hvideo := attachTrack_locked sh true o (r.label cfg) .video pair.1 e.videoTrack e.videoAdded
  cases hv : sh.attachTrack o (r.label cfg) .video pair.1 e.videoTrack e.videoAdded with
  | error f =>
    rw [hv] at hvideo
    exact ⟨_, hfinal, by simp only [exec, execStreams, hvideo, Except.map]⟩
  | ok y =>
    obtain ⟨sh₁, video⟩ := y
    rw [hv] at hvideo
    have hsecond : Alone cfg e (sh, .streams r o .final)
        (sh₁.lockStreamMap true, .streams r o (.audio pair video)) := by
      refine hfinal.trans (.single (a := ()) trivial ?_)
      simp only [alone, exec, execStreams, hvideo, Except.map]
    have haudio := attachTrack_locked sh₁ true o (r.label cfg) .audio pair.2
      e.audioTrack e.audioAdded
    cases ha : sh₁.attachTrack o (r.label cfg) .audio pair.2 e.audioTrack e.audioAdded with
    | error f =>
      rw [ha] at haudio
      simp only [bind, Except.bind, ha]
      exact ⟨_, hsecond, by simp only [exec, execStreams, haudio, Except.map]⟩
    | ok z =>
      obtain ⟨sh₂, audio⟩ := z
      rw [ha] at haudio
      have hfree₂ : sh₂.streamMapLocked = false := by
        rw [(Shared.attachTrack_lock ha).1, (Shared.attachTrack_lock hv).1, hfree]
      have hunlock : (sh₂.lockStreamMap true).lockStreamMap false = sh₂ :=
        lockStreamMap_unlocked hfree₂
      simp only [bind, Except.bind, ha]
      refine ⟨hsecond.trans (.single (a := ()) trivial ?_), hfree₂⟩
      simp only [alone, exec, execStreams, haudio, Except.map, hunlock]

theorem final_performs (r : Request) (o : ObsId) (sh : Shared) :
    Performs cfg e sh (.streams r o .final)
      (match sh.streamMap[r.label cfg]? with
        | none => .ok (sh, false)
        | some pair => do
          let (sh, video) ← sh.attachTrack o (r.label cfg) .video pair.1 e.videoTrack e.videoAdded
          let (sh, audio) ← sh.attachTrack o (r.label cfg) .audio pair.2 e.audioTrack e.audioAdded
          .ok (sh, video || audio))
      fun x => (x.1, afterStreams r o x.2) := by
  cases hfound : sh.streamMap[r.label cfg]? with
  | none =>
    have hlost : sh.streamMapLocked = false →
        exec cfg e sh (.streams r o .final) = .next sh .failed := by
      intro hfree
      simp [exec, execStreams, hfree, hfound]
    exact .step hlost rfl (.stay rfl)
  | some pair => exact tracks_performs r o sh hfound

theorem addStreams_performs (r : Request) (o : ObsId) (sh : Shared) :
    Performs cfg e sh (.streams r o .setup) (addStreams cfg e r o sh)
      fun x => (x.1, afterStreams r o x.2) := by
  have hsetup : Performs cfg e sh (.streams r o .setup) (setUpStreams cfg r o sh)
      fun _ => (sh, .streams r o .lookup) := by
    cases hset : setUpStreams cfg r o sh with
    | error f => exact .fault (by simp only [exec, execStreams, hset])
    | ok u =>
      have hgo : exec cfg e sh (.streams r o .setup) = .next sh (.streams r o .lookup) := by
        simp only [exec, execStreams, hset]
      exact .step (fun _ => hgo) rfl (.stay rfl)
  refine hsetup.bind fun _ _ => ?_
  by_cases hmem : r.label cfg ∈ sh.streamMap
  · have hfound : sh.streamMapLocked = false →
        exec cfg e sh (.streams r o .lookup) = .next sh (.streams r o .final) := by
      intro hfree
      simp [exec, execStreams, hfree, hmem]
    simp only [hmem, if_true]
    exact .step hfound rfl (final_performs r o sh)
  · have hmissing : sh.streamMapLocked = false →
        exec cfg e sh (.streams r o .lookup) = .next sh (.streams r o .create) := by
      intro hfree
      simp [exec, execStreams, hfree, hmem]
    have hstore : sh.streamMapLocked = false →
        exec cfg e sh (.streams r o (.store (e.videoSource, e.audioSource))) =
          .next (sh.storeStream (r.label cfg) (e.videoSource, e.audioSource))
            (.streams r o .final) := by
      intro hfree
      simp [exec, execStreams, hfree]
    simp only [hmem, if_false]
    exact .step hmissing rfl (.step (fun _ => rfl) rfl (.step hstore rfl (final_performs r o _)))

theorem pollGathering_performs (r : Request) (o : ObsId) (retry : Nat) (sh : Shared) :
    Performs cfg e sh (.gather r o retry) (.ok (pollGathering e.gathered o retry sh))
      fun sh' => (sh', .await r o) := by
  induction retry generalizing sh with
  | zero => exact .step (fun _ => rfl) (by simp) (.stay rfl)
  | succ retry ih =>
    have hgather : exec cfg e sh (.gather r o (retry + 1)) =
        .next (sh.touch o) (if e.gathered then .await r o else .gather r o retry) := rfl
    refine .step (fun _ => hgather) (by simp) ?_
    cases hdone : e.gathered with
    | true => exact .stay (by simp [pollGathering])
    | false =>
      rw [hdone] at ih
      simpa [pollGathering] using ih (sh.touch o)

theorem describe_performs (r : Request) (o : ObsId) (sh : Shared)
    (hpc : (sh.obs o).pc.isNone = false) :
    Performs cfg e sh (.describe r o)
      (.ok (if r.api = .whep then pollGathering e.gathered o 5 sh else sh,
        e.description.map (⟨o, ·⟩)))
      fun x => (x.1, .done (.description x.2)) := by
  have hdescribe : exec cfg e sh (.describe r o) =
      .next sh (if r.api = .whep then .gather r o 5 else .await r o) := by
    simp only [exec, hpc]
    rfl
  refine .step (fun _ => hdescribe) rfl ?_
  split
  · have hreply : Performs cfg e sh (.gather r o 5)
        (.ok (pollGathering e.gathered o 5 sh) >>= fun sh' =>
          .ok (sh', e.description.map (⟨o, ·⟩)))
        fun x : Shared × Option Description => (x.1, .done (.description x.2)) :=
      (pollGathering_performs r o 5 sh).bind fun sh' _ => .step (fun _ => rfl) rfl (.stay rfl)
    exact hreply
  · exact .step (fun _ => rfl) rfl (.stay rfl)

theorem getAnswer_performs (r : Request) (hapi : r.api ≠ .createOffer) (hparsed : e.parsed = true)
    (sh : Shared) :
    Performs cfg e sh (.oldest r) (getAnswer cfg e r sh)
      fun x => (x.1, .done (.description x.2)) := by
  simp only [getAnswer, hparsed, Bool.not_true, Bool.false_eq_true, if_false]
  refine (createPeerConnection_performs r sh).bind fun x _ => ?_
  obtain ⟨sh₁, obs⟩ := x
  cases obs with
  | none => exact .stay rfl
  | some o =>
    simp only [Option.elim_some, Shared.touch_obs]
    cases hpc : (sh₁.obs o).pc.isNone with
    | true =>
      have hdiscard : exec cfg e sh₁ (.opened r o) =
          .next ((sh₁.touch o).deleteObserver o) .failed := by
        simp only [exec, hapi, if_false, hpc, if_true]
      refine .step (fun _ => hdiscard) ?_ (.stay rfl)
      simp [Shared.deleteObserver, Shared.modifyObs]
    | false =>
      have hopened : exec cfg e sh₁ (.opened r o) = .next (sh₁.touch o) (.register r o) := by
        simp only [exec, hapi, if_false, hpc]
        rfl
      have hregister : exec cfg e (sh₁.touch o) (.register r o) =
          .next ((sh₁.touch o).registerPeer r.peerid o) (.streams r o .setup) := by
        simp only [exec, hapi, if_false]
      refine .step (fun _ => hopened) (by simp) (.step (fun _ => hregister) rfl ?_)
      refine (addStreams_performs r o _).bind fun y hstreams => ?_
      obtain ⟨sh₂, ret⟩ := y
      cases ret with
      | false => exact .stay rfl
      | true =>
        have hsame := (addStreams_spec hstreams).1
        have hnext : afterStreams r o true = .describe r o := by simp [afterStreams, hapi]
        rw [hnext]
        have hsome : (sh₂.obs o).pc.isNone = false := by
          have hkept := (hsame.obs o).2.2
          simp only [Shared.registerPeer_obs, Shared.touch_obs] at hkept
          rw [← Option.not_isSome, hkept, Option.not_isSome, hpc]
        exact describe_performs r o sh₂ hsome

theorem createOffer_performs (r : Request) (hapi : r.api = .createOffer) (sh : Shared) :
    Performs cfg e sh (.oldest r) (createOffer cfg e r sh)
      fun x => (x.1, .done (.description x.2)) := by
  refine (createPeerConnection_performs r sh).bind fun x _ => ?_
  obtain ⟨sh₁, obs⟩ := x
  cases obs with
  | none => exact .stay rfl
  | some o =>
    have hopened : exec cfg e sh₁ (.opened r o) = .next (sh₁.touch o) (.streams r o .setup) := by
      simp only [exec, hapi, if_true]
    refine .step (fun _ => hopened) (by simp) ?_
    refine (addStreams_performs r o _).bind fun y _ => ?_
    obtain ⟨sh₂, ret⟩ := y
    cases ret with
    | false => exact .stay rfl
    | true =>
      have hnext : afterStreams r o true = .register r o := by simp [afterStreams, hapi]
      have hregister : exec cfg e sh₂ (.register r o) =
          .next (sh₂.registerPeer r.peerid o) (.describe r o) := by
        simp only [exec, hapi, if_true]
      simp only [hnext, Bool.not_true, Bool.false_eq_true, if_false]
      refine .step (fun _ => hregister) rfl ?_
      cases hpc : ((sh₂.registerPeer r.peerid o).obs o).pc.isNone with
      | true => exact .fault (by simp only [exec, hpc, if_true])
      | false =>
        simpa [hapi] using describe_performs r o _ hpc

theorem serve_performs (r : Request) (sh : Shared) :
    Performs cfg e sh (.accept r) (serve cfg e r sh) fun x => (x.1, .done (.description x.2)) := by
  have hrefused (h : r.offerRead e = false) : Performs cfg e sh (.accept r) (.ok (sh, none))
      fun x : Shared × Option Description => (x.1, .done (.description x.2)) := by
    have hgo : exec cfg e sh (.accept r) = .next sh .failed := by
      simp only [exec, h]
      rfl
    exact .step (fun _ => hgo) rfl (.stay rfl)
  have haccepted (h : r.offerRead e = true) :
      exec cfg e sh (.accept r) = .next sh (.oldest (r.identified e)) := by
    simp only [exec, h, if_true]
  cases hapi : r.api with
  | call =>
    have hid : r.identified e = r := by simp [Request.identified, hapi]
    simp only [serve, hapi, call]
    cases hmessage : e.message with
    | false => exact hrefused (by simp [Request.offerRead, hapi, hmessage])
    | true =>
      cases hparsed : e.parsed with
      | false =>
        have hnone : getAnswer cfg e r sh = .ok (sh, none) := by simp [getAnswer, hparsed]
        rw [if_pos rfl, hnone]
        exact hrefused (by simp [Request.offerRead, hapi, hparsed])
      | true =>
        have hread : r.offerRead e = true := by simp [Request.offerRead, hapi, hmessage, hparsed]
        have hgo := haccepted hread
        rw [hid] at hgo
        exact .step (fun _ => hgo) rfl (getAnswer_performs r (by simp [hapi]) hparsed sh)
  | whep =>
    simp only [serve, hapi, whep]
    have hsame : (r.identified e).api = .whep := by rw [(identified_toStreamRequest e r).2, hapi]
    cases hparsed : e.parsed with
    | false =>
      have hnone : getAnswer cfg e (r.identified e) sh = .ok (sh, none) := by
        simp [getAnswer, hparsed]
      rw [hnone]
      exact hrefused (by simp [Request.offerRead, hapi, hparsed])
    | true =>
      have hread : r.offerRead e = true := by simp [Request.offerRead, hapi, hparsed]
      exact .step (fun _ => haccepted hread) rfl
        (getAnswer_performs _ (by simp [hsame]) hparsed sh)
  | createOffer =>
    have hid : r.identified e = r := by simp [Request.identified, hapi]
    have hread : r.offerRead e = true := by simp [Request.offerRead, hapi]
    have hgo := haccepted hread
    rw [hid] at hgo
    simp only [serve, hapi]
    exact .step (fun _ => hgo) rfl (createOffer_performs r hapi sh)

end Functions

section Machine

variable {cfg : Config} {e : Env} {s : State} {t : Tid} {pc : Pc} {γ : Type}
  {x : Except Fault γ} {next : γ → Shared × Pc}

theorem Alone.reaches (hfault : s.fault = none) (hpos : s.threads[t]? = some pc)
    {y : Shared × Pc} (h : Alone cfg e (s.shared, pc) y) :
    ∃ s', Transition.Reachable (step cfg) s s' ∧ s'.shared = y.1 ∧
      s'.threads = s.threads.set t y.2 ∧ s'.fault = none := by
  have hlt : t < s.threads.length := (List.getElem?_eq_some_iff.mp hpos).1
  induction h with
  | refl =>
    refine ⟨s, .refl, rfl, ?_, hfault⟩
    rw [← (List.getElem?_eq_some_iff.mp hpos).2, List.set_getElem_self]
  | @tail y z u hy _ hz ih =>
    obtain ⟨s₁, hreach, hshared, hthreads, hfine⟩ := ih
    have hat : s₁.threads[t]? = some y.2 := by simp [hthreads, hlt]
    unfold alone at hz
    split at hz
    · rename_i sh' pc' hexec
      cases hz
      have hstep : step cfg s₁ (.run t e) = some { s₁ with
          shared := sh'
          threads := s₁.threads.set t pc'
          trace := events cfg e t s₁.shared y.2 ++ s₁.trace } := by
        simp only [step, hfine, Option.isSome_none, hat, hshared, hexec]
        rfl
      exact ⟨_, hreach.tail trivial hstep, rfl, by simp [hthreads], hfine⟩
    all_goals cases hz

/-- Nothing has crashed, and nobody is in the last section of `AddStreams`. -/
structure Calm (s : State) : Prop where
  fault : s.fault = none
  unlocked : s.shared.streamMapLocked = false

theorem Performs.reaches (h : Performs cfg e s.shared pc x next) (hcalm : Calm s)
    (hpos : s.threads[t]? = some pc) {a : γ} (hx : x = .ok a) :
    ∃ s', Transition.Reachable (WebrtcStreamer.step cfg) s s' ∧ Calm s' ∧
      s'.shared = (next a).1 ∧ s'.threads = s.threads.set t (next a).2 := by
  have hend := h hcalm.unlocked
  rw [hx] at hend
  obtain ⟨s', hreach, hshared, hthreads, hfine⟩ := Alone.reaches hcalm.fault hpos hend.1
  exact ⟨s', hreach, ⟨hfine, by rw [hshared]; exact hend.2⟩, hshared, hthreads⟩

theorem Performs.crashes (h : Performs cfg e s.shared pc x next) (hcalm : Calm s)
    (hpos : s.threads[t]? = some pc) {f : Fault} (hx : x = .error f) :
    ∃ s', Transition.Reachable (WebrtcStreamer.step cfg) s s' ∧ s'.fault = some f := by
  have hend := h hcalm.unlocked
  rw [hx] at hend
  obtain ⟨y, hy, hexec⟩ := hend
  obtain ⟨s₁, hreach, hshared, hthreads, hfine⟩ := Alone.reaches hcalm.fault hpos hy
  have hlt : t < s.threads.length := (List.getElem?_eq_some_iff.mp hpos).1
  have hat : s₁.threads[t]? = some y.2 := by simp [hthreads, hlt]
  refine ⟨{ s₁ with fault := some f }, hreach.tail (a := .run t e) trivial ?_, rfl⟩
  simp only [WebrtcStreamer.step, hfine, Option.isSome_none, hat, hshared, hexec]
  rfl

theorem spawned (pc : Pc) : (s.spawn pc).threads[s.threads.length]? = some pc := by
  simp [State.spawn]

theorem Reachable.request (h : Reachable cfg s) (hcalm : Calm s) (r : Request) :
    Reachable cfg (s.spawn (.accept r)) :=
  h.tail (a := .request r) trivial (by simp [WebrtcStreamer.step, hcalm.fault])

theorem serve_reachable (h : Reachable cfg s) (hcalm : Calm s) {r : Request} {sh' : Shared}
    {reply : Option Description} (hserve : serve cfg e r s.shared = .ok (sh', reply)) :
    ∃ s', Reachable cfg s' ∧ Calm s' ∧ s'.shared = sh' ∧
      s'.threads = s.threads ++ [.done (.description reply)] := by
  have hspawned : Calm (s.spawn (.accept r)) := ⟨hcalm.fault, hcalm.unlocked⟩
  have hperforms : Performs cfg e (s.spawn (.accept r)).shared (.accept r) _ _ :=
    serve_performs r s.shared
  obtain ⟨s', hreach, hcalm', hshared, hthreads⟩ := hperforms.reaches hspawned (spawned _) hserve
  exact ⟨s', (h.request hcalm r).trans hreach, hcalm', hshared, by simp [hthreads, State.spawn]⟩

theorem serve_crashes (h : Reachable cfg s) (hcalm : Calm s) {r : Request} {f : Fault}
    (hserve : serve cfg e r s.shared = .error f) : ∃ s', Reachable cfg s' ∧ s'.fault = some f := by
  have hspawned : Calm (s.spawn (.accept r)) := ⟨hcalm.fault, hcalm.unlocked⟩
  have hperforms : Performs cfg e (s.spawn (.accept r)).shared (.accept r) _ _ :=
    serve_performs r s.shared
  obtain ⟨s', hreach, hcrash⟩ := hperforms.crashes hspawned (spawned _) hserve
  exact ⟨s', (h.request hcalm r).trans hreach, hcrash⟩

theorem hangUp_reachable (h : Reachable cfg s) (hcalm : Calm s) {peerid : PeerId} {sh' : Shared}
    {result : Bool} (hhangUp : hangUp cfg .client peerid s.shared = .ok (sh', result)) (e : Env) :
    ∃ s', Reachable cfg s' ∧ Calm s' ∧ s'.shared = sh' ∧
      s'.threads = s.threads ++ [.done (.hungUp result)] := by
  have harrives : Reachable cfg (s.spawn (.hangUp .client peerid .enter)) :=
    h.tail (a := .hangUp peerid) trivial (by simp [WebrtcStreamer.step, hcalm.fault])
  have hspawned : Calm (s.spawn (.hangUp .client peerid .enter)) := ⟨hcalm.fault, hcalm.unlocked⟩
  have hperforms : Performs cfg e (s.spawn (.hangUp .client peerid .enter)).shared
      (.hangUp .client peerid .enter) _ _ := hangUp_performs (fun _ h => by cases h) peerid s.shared
  obtain ⟨s', hreach, hcalm', hshared, hthreads⟩ := hperforms.reaches hspawned (spawned _) hhangUp
  refine ⟨s', harrives.trans hreach, hcalm', hshared, ?_⟩
  simp [hthreads, State.spawn, Caller.resume]

/-- Operations that come one after the other are a run of the machine. -/
theorem perform_reachable (h : Reachable cfg s) (hcalm : Calm s) {ok : Shared → Operation → Prop}
    {sh' : Shared} (hlater : Transition.Reaches (perform cfg) ok s.shared sh') (e : Env) :
    ∃ s', Reachable cfg s' ∧ Calm s' ∧ s'.shared = sh' := by
  refine hlater.invariant (fun sh => ∃ s', Reachable cfg s' ∧ Calm s' ∧ s'.shared = sh)
    ⟨s, h, hcalm, rfl⟩ fun sh₁ op sh₂ hbefore _ hop => ?_
  obtain ⟨s₁, hs₁, hcalm₁, rfl⟩ := hbefore
  cases op with
  | request e' r =>
    obtain ⟨reply, hserve⟩ := perform_request hop
    obtain ⟨s₂, hs₂, hcalm₂, hshared, _⟩ := serve_reachable hs₁ hcalm₁ hserve
    exact ⟨s₂, hs₂, hcalm₂, hshared⟩
  | hangUp p =>
    obtain ⟨result, hhangUp⟩ := perform_hangUp hop
    obtain ⟨s₂, hs₂, hcalm₂, hshared, _⟩ := hangUp_reachable hs₁ hcalm₁ hhangUp e
    exact ⟨s₂, hs₂, hcalm₂, hshared⟩

end Machine

end WebrtcStreamer
