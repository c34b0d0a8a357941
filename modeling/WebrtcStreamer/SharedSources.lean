import WebrtcStreamer.Ownership

/-! The stream map and the tracks: what one step can do to them, and that
without a `hangUp` all requests for a label share one pair of sources. -/

set_option autoImplicit false

namespace WebrtcStreamer

def sourceOf (pair : AudioVideoPair) : Kind → Option Source
  | .video => pair.1
  | .audio => pair.2

def Pc.attaching : Pc → Option (Request × ObsId × AudioVideoPair)
  | .streams r o (.video pair) | .streams r o (.audio pair _) => some (r, o, pair)
  | _ => none

def Pc.addingStreams : Pc → Bool
  | .streams _ _ _ => true
  | _ => false

def Event.streamEntry : Event → Option (Ledger.Entry Label AudioVideoPair)
  | .stored l pair => some (.put l pair)
  | .closed l pair => some (.take l pair)
  | _ => none

def streamHistory (trace : List Event) : List (Ledger.Entry Label AudioVideoPair) :=
  trace.filterMap Event.streamEntry

/-- What a step of thread `t` at `pc` does to the stream map and to the senders. -/
inductive StreamEffect (cfg : Config) (e : Env) (t : Tid) (sh : Shared) : Pc → Shared → Prop where
  | keep {pc : Pc} {sh' : Shared} (map : sh'.streamMap = sh.streamMap)
      (senders : ∀ o, sh'.senders o = sh.senders o)
      (entries : (events cfg e t sh pc).filterMap Event.streamEntry = []) :
      StreamEffect cfg e t sh pc sh'
  | store (r : Request) (o : ObsId) (pair : AudioVideoPair) :
      StreamEffect cfg e t sh (.streams r o (.store pair)) (sh.storeStream (r.label cfg) pair)
  | attach {pc : Pc} {sh' : Shared} (r : Request) (o : ObsId) (pair : AudioVideoPair) (x : Sender)
      (position : pc.attaching = some (r, o, pair)) (label : x.streamIds = [r.label cfg])
      (source : sourceOf pair x.kind = some x.source) (map : sh'.streamMap = sh.streamMap)
      (senders : ∀ o', sh'.senders o' = sh.senders o' ++ if o' = o then [x] else [])
      (entries : (events cfg e t sh pc).filterMap Event.streamEntry = []) :
      StreamEffect cfg e t sh pc sh'
  | erase (caller : Caller) (peerid : PeerId) (o : ObsId) (l : Label) (rest : List (List Label)) :
      StreamEffect cfg e t sh (.hangUp caller peerid (.close o l rest)) (sh.eraseStream l)

section Step

variable {cfg : Config} {t : Tid} {e : Env} {sh sh' : Shared} {pc pc' : Pc}

theorem Shared.senders_congr {o : ObsId} (h : (sh'.obs o).pc = (sh.obs o).pc) :
    sh'.senders o = sh.senders o := by
  simp [senders, h]

theorem Shared.construct_senders (p : PeerId) (connected : Bool) (time : UInt64) (o : Nat) :
    (sh.construct p connected time).senders o = sh.senders o := by
  simp only [senders, construct_obs]
  split
  · rename_i hnew
    have hnone : (sh.obs o).pc = none := by
      cases hpc : (sh.obs o).pc with
      | none => rfl
      | some l =>
        have hconnected : (sh.obs o).pc.isSome = true := by rw [hpc]; rfl
        have hlt := obs_lt_of_connected hconnected
        omega
    rw [hnone]
    cases connected <;> rfl
  · rfl

theorem Shared.addSender_senders {o : ObsId} (x : Sender) (h : (sh.obs o).pc.isSome = true)
    (o' : ObsId) :
    (sh.addSender o x).senders o' = sh.senders o' ++ if o' = o then [x] else [] := by
  simp only [senders, addSender_obs]
  by_cases ho : o = o'
  · subst ho
    obtain ⟨l, hl⟩ := Option.isSome_iff_exists.mp h
    simp [hl]
  · simp [ho, Ne.symm ho]

theorem StreamEffect.attachTrack {r : Request} {o : ObsId} {pair : AudioVideoPair} {kind : Kind}
    {track added ret : Bool} {sh'' : Shared} (hpc : pc.attaching = some (r, o, pair))
    (hentries : (events cfg e t sh pc).filterMap Event.streamEntry = [])
    (h : sh.attachTrack o (r.label cfg) kind (sourceOf pair kind) track added = .ok (sh', ret))
    (hmap : sh''.streamMap = sh'.streamMap) (hobs : ∀ o', sh''.obs o' = sh'.obs o') :
    StreamEffect cfg e t sh pc sh'' := by
  have hsenders : ∀ o', sh''.senders o' = sh'.senders o' := fun o' =>
    Shared.senders_congr (by rw [hobs])
  rcases Shared.attachTrack_cases h with rfl | ⟨src, hsource, hsome, rfl⟩
  · exact .keep hmap hsenders hentries
  · refine .attach r o pair ⟨[r.label cfg], kind, src⟩ hpc rfl hsource hmap (fun o' => ?_) hentries
    rw [hsenders, Shared.addSender_senders _ hsome]

theorem Executed.streamEffect (hx : Executed cfg e sh pc sh' pc') :
    StreamEffect cfg e t sh pc sh' := by
  cases hx with
  | accepted | refused | unavailable | setup | found | missing | created | lost | locked |
      described | replied | scanned | unlabelled => exact .keep rfl (fun _ => rfl) rfl
  | room | evicting =>
    refine .keep ?_ (fun o => ?_) rfl
    · split <;> simp
    · split
      · exact Shared.senders_congr (by simp)
      · rfl
  | constructed r _ => exact .keep rfl (fun o => Shared.construct_senders _ _ _ o) rfl
  | offering r o offer =>
    exact .keep (by simp) (fun _ => Shared.senders_congr (by simp)) (by simp [events, offer])
  | discarded r o _ null =>
    refine .keep (by simp [Shared.deleteObserver, Shared.modifyObs]) (fun o' => ?_) ?_
    · refine Shared.senders_congr ?_
      rw [Shared.deleteObserver_obs]
      split <;> simp
    · simp only [events]
      split <;> rfl
  | answering r o =>
    refine .keep (by simp) (fun _ => Shared.senders_congr (by simp)) ?_
    simp only [events]
    split <;> rfl
  | registered r o =>
    refine .keep rfl (fun _ => rfl) ?_
    simp only [events]
    split <;> rfl
  | stored r o pair _ => exact .store r o pair
  | video r o pair ret attached =>
    exact .attachTrack rfl rfl attached rfl fun _ => rfl
  | audio r o pair ret ret' attached =>
    exact .attachTrack rfl rfl attached rfl fun _ => rfl
  | gathered r o | gathering r o =>
    exact .keep (by simp) (fun _ => Shared.senders_congr (by simp)) rfl
  | entered caller peerid =>
    obtain ⟨hmap, hobs⟩ := readMember_streams caller sh
    obtain ⟨hmap', hobs'⟩ := logPeerId_streams caller cfg (caller.readMember sh)
    exact .keep (hmap'.trans hmap) (fun o => Shared.senders_congr (by rw [hobs', hobs])) rfl
  | unknown caller peerid absent =>
    obtain ⟨hmap, hobs⟩ := readMember_streams caller sh
    exact .keep hmap (fun o => Shared.senders_congr (by rw [hobs])) (by simp [events, absent])
  | took caller peerid o present =>
    obtain ⟨hmap, hobs⟩ := readMember_streams caller sh
    refine .keep hmap (fun o' => Shared.senders_congr ?_)
      (by simp [events, present, Event.streamEntry])
    rw [Shared.erasePeer_obs, hobs]
  | listed caller peerid o =>
    exact .keep (by simp) (fun _ => Shared.senders_congr (by simp)) rfl
  | inUse | unused => exact .keep (by simp) (fun _ => Shared.senders_congr (by simp)) rfl
  | closed caller peerid o l rest _ => exact .erase caller peerid o l rest
  | destroyed caller peerid o =>
    refine .keep (by simp [Shared.deleteObserver, Shared.modifyObs]) (fun o' => ?_) rfl
    refine Shared.senders_congr ?_
    rw [Shared.deleteObserver_obs]
    split <;> simp
  | resumed caller peerid result =>
    obtain ⟨hmap, hobs⟩ := logPeerId_streams caller cfg sh
    exact .keep hmap (fun o => Shared.senders_congr (by rw [hobs])) rfl

end Step

/-! ### The accounts of the stream map -/

def Event.storesAt (l : Label) : Event → Bool
  | .stored l' _ => l' = l
  | _ => false

def Event.closesAt (l : Label) : Event → Bool
  | .closed l' _ => l' = l
  | _ => false

theorem streamHistory_counts (trace : List Event) (l : Label) :
    (streamHistory trace).countP (Ledger.Entry.putAt l) = trace.countP (Event.storesAt l) ∧
      (streamHistory trace).countP (Ledger.Entry.takeAt l) = trace.countP (Event.closesAt l) := by
  induction trace with
  | nil => exact ⟨rfl, rfl⟩
  | cons ev trace ih =>
    obtain ⟨hput, htake⟩ := ih
    cases ev with
    | stored l' pair =>
      have hh : streamHistory (.stored l' pair :: trace) =
        .put l' pair :: streamHistory trace := rfl
      constructor
      · simp [hh, List.countP_cons, hput, Ledger.Entry.putAt, Event.storesAt]
      · simp [hh, htake, Ledger.Entry.takeAt, Event.closesAt]
    | closed l' pair =>
      have hh : streamHistory (.closed l' pair :: trace) =
        .take l' pair :: streamHistory trace := rfl
      constructor
      · simp [hh, hput, Ledger.Entry.putAt, Event.storesAt]
      · simp [hh, List.countP_cons, htake, Ledger.Entry.takeAt, Event.closesAt]
    | inserted | tookOut | destroyed | discarded | answered => exact ⟨hput, htake⟩

theorem StreamEffect.history {cfg : Config} {e : Env} {t : Tid} {sh sh' : Shared} {pc : Pc}
    {trace : List Event} (h : StreamEffect cfg e t sh pc sh')
    (hvalid : Ledger.Valid (streamHistory trace) fun l => sh.streamMap[l]?) :
    Ledger.Valid (streamHistory (events cfg e t sh pc ++ trace)) fun l => sh'.streamMap[l]? := by
  cases h with
  | keep map _ entries =>
    simpa [streamHistory, List.filterMap_append, entries, map] using hvalid
  | attach _ _ _ _ _ _ _ map _ entries =>
    simpa [streamHistory, List.filterMap_append, entries, map] using hvalid
  | store r o pair =>
    by_cases hmem : r.label cfg ∈ sh.streamMap
    · rw [Shared.storeStream_old pair hmem]
      simpa [events, hmem] using hvalid
    · have hnone : sh.streamMap[r.label cfg]? = none := by simpa using hmem
      have hevents : events cfg e t sh (.streams r o (.store pair)) =
        [.stored (r.label cfg) pair] := by
        simp [events, hmem]
      rw [hevents, Shared.storeStream_new pair hnone]
      exact .put hvalid hnone
  | erase caller peerid o l rest =>
    rw [Shared.eraseStream_update]
    cases hfound : sh.streamMap[l]? with
    | none =>
      have hsame : Function.update (fun k : Label => sh.streamMap[k]?) l none =
          fun k : Label => sh.streamMap[k]? := by
        rw [← hfound, Function.update_eq_self]
      rw [hsame]
      simpa [events, hfound] using hvalid
    | some pair =>
      have hevents : events cfg e t sh (.hangUp caller peerid (.close o l rest)) =
        [.closed l pair] := by
        simp [events, hfound]
      rw [hevents]
      exact .take hvalid hfound

theorem Reachable.streamHistory {cfg : Config} {s : State} (h : Reachable cfg s) :
    Ledger.Valid (WebrtcStreamer.streamHistory s.trace) fun l => s.shared.streamMap[l]? := by
  refine (h.invariant (fun s => Owned s.shared s.threads ∧
    Ledger.Valid (WebrtcStreamer.streamHistory s.trace) fun l => s.shared.streamMap[l]?)
    ⟨.initial, ?_⟩ fun s a s' hi _ hs => ⟨hi.1.step hs, ?_⟩).2
  · simpa [WebrtcStreamer.streamHistory, State.initial, Shared.initial] using Ledger.Valid.nil
  · cases step_stepped hs with
    | request | hangUp | iceClosed | crash => exact hi.2
    | look os hos =>
      simp only [hi.1.look hos]
      exact hi.2
    | run hpos hx => exact hx.streamEffect.history hi.2

/-! ### Runs without a `hangUp` -/

def noHangUp (s : State) (_ : Action) : Bool := s.threads.all fun pc => !pc.hangingUp

/-- What holds of `s` when a run without `hangUp` has led there from `s₀`. -/
structure SharedSince (cfg : Config) (s₀ s : State) : Prop where
  closed : ∀ l : Label, s.trace.countP (Event.closesAt l) = s₀.trace.countP (Event.closesAt l)
  found : ∀ r o, Pc.streams r o .final ∈ s.threads → r.label cfg ∈ s.shared.streamMap
  locked : ∀ pc ∈ s.threads, ∀ r o pair, pc.attaching = some (r, o, pair) →
    s.shared.streamMap[r.label cfg]? = some pair
  senders : ∀ o, ∃ new, s.shared.senders o = s₀.shared.senders o ++ new ∧
    ∀ x ∈ new, ∃ l pair, x.streamIds = [l] ∧ s.shared.streamMap[l]? = some pair ∧
      sourceOf pair x.kind = some x.source

section Step

variable {cfg : Config} {t : Tid} {e : Env} {sh sh' : Shared} {pc pc' : Pc}

theorem Executed.final_mem (hx : Executed cfg e sh pc sh' pc') {r : Request} {o : ObsId}
    (h : pc' = .streams r o .final) : r.label cfg ∈ sh'.streamMap := by
  cases hx with
  | found r' o' _ present =>
    cases h
    exact present
  | stored r' o' pair _ =>
    cases h
    exact Std.TreeMap.mem_insertIfNew_self
  | registered r' o' => split at h <;> cases h
  | audio r' o' pair ret ret' _ =>
    have hnext := apply_afterStreams Pc.addingStreams r' o' (ret || ret') rfl rfl rfl
    rw [h] at hnext
    cases hnext
  | described r' o' _ => split at h <;> cases h
  | resumed caller => cases caller <;> cases h
  | _ => cases h

theorem Executed.attaching (hx : Executed cfg e sh pc sh' pc') {r : Request} {o : ObsId}
    {pair : AudioVideoPair} (h : pc'.attaching = some (r, o, pair)) :
    pc.attaching = some (r, o, pair) ∨
      (pc = .streams r o .final ∧ sh.streamMap[r.label cfg]? = some pair) := by
  cases hx with
  | locked r' o' pair' _ present =>
    cases h
    exact .inr ⟨rfl, present⟩
  | video => exact .inl h
  | registered r' o' => split at h <;> cases h
  | audio r' o' pair ret ret' _ =>
    rw [apply_afterStreams Pc.attaching r' o' (ret || ret') rfl rfl rfl] at h
    cases h
  | described r' o' _ => split at h <;> cases h
  | resumed caller => cases caller <;> cases h
  | _ => cases h

theorem StreamEffect.grows (h : StreamEffect cfg e t sh pc sh') (hpc : pc.hangingUp = false)
    {l : Label} {pair : AudioVideoPair} (hl : sh.streamMap[l]? = some pair) :
    sh'.streamMap[l]? = some pair := by
  cases h with
  | keep map =>
    rw [map]
    exact hl
  | store r o pair' => exact Shared.storeStream_keeps hl
  | attach _ _ _ _ _ _ _ map =>
    rw [map]
    exact hl
  | erase => cases hpc

end Step

namespace SharedSince

variable {cfg : Config} {s₀ s s' : State}

theorem refl (hidle : ∀ pc ∈ s₀.threads, pc.addingStreams = false) : SharedSince cfg s₀ s₀ where
  closed _ := rfl
  found r o h := by
    have hfalse := hidle _ h
    cases hfalse
  locked pc hpc r o pair h := by
    have hfalse := hidle pc hpc
    cases pc <;> first | (cases hfalse; done) | cases h
  senders o := ⟨[], by simp, by simp⟩

theorem run {t : Nat} {e : Env} {sh' : Shared} {pc pc' : Pc} (h : SharedSince cfg s₀ s)
    (hquiet : pc.hangingUp = false) (hpos : s.threads[t]? = some pc)
    (hx : Executed cfg e s.shared pc sh' pc') :
    SharedSince cfg s₀ { s with
      shared := sh', threads := s.threads.set t pc',
      trace := events cfg e t s.shared pc ++ s.trace } := by
  have hmem := List.mem_of_getElem? hpos
  have heffect := hx.streamEffect (t := t)
  have hgrow : ∀ (l : Label) (pair : AudioVideoPair), s.shared.streamMap[l]? = some pair →
      sh'.streamMap[l]? = some pair := fun l pair hl => heffect.grows hquiet hl
  refine ⟨fun l => ?_, fun r o hin => ?_,
    fun pcj hj r o pair hat => ?_, fun o => ?_⟩
  · have hnone : (events cfg e t s.shared pc).countP (Event.closesAt l) = 0 := by
      rw [List.countP_eq_zero]
      intro ev hev
      cases emitted_of_mem hev <;> first | (cases hquiet; done) | simp [Event.closesAt]
    rw [List.countP_append, hnone, Nat.zero_add]
    exact h.closed l
  · rcases Transition.mem_set hin with hin | hin
    · exact hx.final_mem hin.symm
    · have hold := h.found r o hin
      rw [Std.TreeMap.mem_iff_isSome_getElem?] at hold ⊢
      obtain ⟨pair, hpair⟩ := Option.isSome_iff_exists.mp hold
      simp [hgrow _ _ hpair]
  · rcases Transition.mem_set hj with rfl | hj
    · rcases hx.attaching hat with hold | ⟨_, hfound⟩
      · exact hgrow _ _ (h.locked pc hmem r o pair hold)
      · exact hgrow _ _ hfound
    · exact hgrow _ _ (h.locked pcj hj r o pair hat)
  · obtain ⟨new, hsenders, hnew⟩ := h.senders o
    have hkeep : ∀ x ∈ new, ∃ l pair, x.streamIds = [l] ∧ sh'.streamMap[l]? = some pair ∧
        sourceOf pair x.kind = some x.source := by
      intro x hx
      obtain ⟨l, pair, hl, hpair, hsource⟩ := hnew x hx
      exact ⟨l, pair, hl, hgrow l pair hpair, hsource⟩
    cases heffect with
    | keep _ senders => exact ⟨new, (senders o).trans hsenders, hkeep⟩
    | store r o' pair => exact ⟨new, hsenders, hkeep⟩
    | erase => exact ⟨new, hsenders, hkeep⟩
    | attach r o' pair x position label source map senders =>
      refine ⟨new ++ if o = o' then [x] else [], ?_, ?_⟩
      · rw [senders, hsenders, List.append_assoc]
      · intro y hy
        rcases List.mem_append.mp hy with hy | hy
        · exact hkeep y hy
        · split at hy
          · cases List.mem_singleton.mp hy
            exact ⟨r.label cfg, pair, label, hgrow _ _ (h.locked pc hmem r o' pair position),
              source⟩
          · cases hy

theorem spawn (h : SharedSince cfg s₀ s) {pc : Pc} (hpc : pc.addingStreams = false) :
    SharedSince cfg s₀ (s.spawn pc) := by
  refine ⟨h.closed, fun r o hin => ?_, fun pcj hj r o pair hat => ?_, h.senders⟩
  · rcases List.mem_append.mp hin with hin | hin
    · exact h.found r o hin
    · rw [← List.mem_singleton.mp hin] at hpc
      cases hpc
  · rcases List.mem_append.mp hj with hj | hj
    · exact h.locked pcj hj r o pair hat
    · rw [← List.mem_singleton.mp hj] at hpc
      cases pcj <;> first | (cases hpc; done) | cases hat

theorem step {a : Action} (h : SharedSince cfg s₀ s) (hok : noHangUp s a = true)
    (hs : WebrtcStreamer.step cfg s a = some s') : SharedSince cfg s₀ s' := by
  cases step_stepped hs with
  | request r => exact h.spawn rfl
  | hangUp peerid => exact h.spawn rfl
  | iceClosed o _ _ => exact h.spawn rfl
  | crash t e f => exact ⟨h.closed, h.found, h.locked, h.senders⟩
  | look os hos =>
    obtain ⟨_, hmap, _, hobs⟩ := Shared.foldl_touch os s.shared
    have hsenders : ∀ o, (os.foldl Shared.touch s.shared).senders o = s.shared.senders o := by
      intro o
      exact Shared.senders_congr (by simp [Shared.obs, hobs])
    refine ⟨h.closed, ?_, ?_, fun o => ?_⟩
    · simpa only [hmap] using h.found
    · simpa only [hmap] using h.locked
    · simpa only [hmap, hsenders] using h.senders o
  | run hpos hx =>
    have hall : ∀ pc ∈ s.threads, pc.hangingUp = false := by simpa [noHangUp] using hok
    exact h.run (hall _ (List.mem_of_getElem? hpos)) hpos hx

theorem of_reaches (hidle : ∀ pc ∈ s₀.threads, pc.addingStreams = false)
    (h : Transition.Reaches (WebrtcStreamer.step cfg) (fun s a => noHangUp s a = true) s₀ s) :
    SharedSince cfg s₀ s :=
  h.invariant (SharedSince cfg s₀) (.refl hidle) fun _ _ _ hi hok hs => hi.step hok hs

end SharedSince

theorem kept_without_hangUp {cfg : Config} {s s' : State} {l : Label} {pair : AudioVideoPair}
    (h : Transition.Reaches (step cfg) (fun s a => noHangUp s a = true) s s')
    (hl : s.shared.streamMap[l]? = some pair) : s'.shared.streamMap[l]? = some pair := by
  refine h.invariant (fun s => s.shared.streamMap[l]? = some pair) hl fun s₁ a s₂ hi hok hs => ?_
  cases step_stepped hs with
  | request | hangUp | iceClosed | crash => exact hi
  | look os hos =>
    rw [(Shared.foldl_touch os s₁.shared).2.1]
    exact hi
  | @run t e pc pc' sh hpos hx =>
    have hall : ∀ pc ∈ s₁.threads, pc.hangingUp = false := by simpa [noHangUp] using hok
    exact (hx.streamEffect (t := t)).grows (hall pc (List.mem_of_getElem? hpos)) hi

/-- Any number of `AddStreams` interleaved without a `hangUp`, started when none
is under way: at most one pair is stored under a label, counting the one that
was there before; it is not replaced; every execution finds it in the end; and
all tracks that have been added come from it. -/
theorem one_source_per_label {cfg : Config} {s₀ s : State} (h₀ : Reachable cfg s₀)
    (hidle : ∀ pc ∈ s₀.threads, pc.addingStreams = false)
    (h : Transition.Reaches (step cfg) (fun s a => noHangUp s a = true) s₀ s) (l : Label) :
    s.trace.countP (Event.storesAt l) + (if l ∈ s₀.shared.streamMap then 1 else 0) ≤
      s₀.trace.countP (Event.storesAt l) + 1 ∧
    (∀ s', Transition.Reaches (step cfg) (fun s a => noHangUp s a = true) s s' →
      ∀ pair, s.shared.streamMap[l]? = some pair → s'.shared.streamMap[l]? = some pair) ∧
    (∀ r o, Pc.streams r o .final ∈ s.threads → r.label cfg = l → l ∈ s.shared.streamMap) ∧
    ∀ o, ∃ new, s.shared.senders o = s₀.shared.senders o ++ new ∧
      ∀ x ∈ new, x.streamIds = [l] →
        ∃ pair, s.shared.streamMap[l]? = some pair ∧ sourceOf pair x.kind = some x.source := by
  have hsince := SharedSince.of_reaches hidle h
  have hs : Reachable cfg s := h₀.trans h.reachable
  refine ⟨?_, fun s' h' pair hl => kept_without_hangUp h' hl, fun r o hin hl => ?_, fun o => ?_⟩
  · have hbefore := h₀.streamHistory.countP_put l
    have hafter := hs.streamHistory.countP_put l
    rw [(streamHistory_counts _ l).1, (streamHistory_counts _ l).2] at hbefore hafter
    have hclosed := hsince.closed l
    have hone : (if (s.shared.streamMap[l]?).isSome = true then 1 else 0) ≤ 1 := by
      split <;> omega
    simp only [Std.TreeMap.mem_iff_isSome_getElem?]
    omega
  · exact hl ▸ hsince.found r o hin
  · obtain ⟨new, hsenders, hnew⟩ := hsince.senders o
    refine ⟨new, hsenders, fun x hx hxl => ?_⟩
    obtain ⟨l', pair, hids, hpair, hsource⟩ := hnew x hx
    rw [hids] at hxl
    cases hxl
    exact ⟨pair, hpair, hsource⟩

theorem one_source_per_label_run : ∃ s, Reachable (.plain 0) s ∧
    (Request.plain .call "a" "rtsp://cam").label (.plain 0) ∈ s.shared.streamMap ∧
    s.shared.senders 0 ≠ [] ∧ s.shared.senders 1 ≠ [] ∧
    s.trace.countP (Event.storesAt ((Request.plain .call "a" "rtsp://cam").label (.plain 0)))
      ≤ 1 := by
  obtain ⟨s, hs, hp⟩ := Transition.exists_reaches_of_run (step (.plain 0))
    (fun s a => noHangUp s a = true) .initial
    ([Action.request (.plain .call "a" "rtsp://cam"), .request (.plain .call "b" "rtsp://cam")] ++
      runs 0 8 (.fine 7) ++ runs 1 8 (.fine 8) ++ runs 1 4 (.fine 8) ++ runs 0 4 (.fine 7))
    (fun s => decide ((Request.plain .call "a" "rtsp://cam").label (.plain 0) ∈
      s.shared.streamMap) &&
      decide (s.shared.senders 0 ≠ []) && decide (s.shared.senders 1 ≠ [])) (by decide +kernel)
  simp only [Bool.and_eq_true, decide_eq_true_eq] at hp
  obtain ⟨⟨hmem, hfirst⟩, hsecond⟩ := hp
  have hstart : Reachable (.plain 0) .initial := .refl
  have hmain := one_source_per_label hstart (by simp [State.initial]) hs
    ((Request.plain .call "a" "rtsp://cam").label (.plain 0))
  refine ⟨s, hs.reachable, hmem, hfirst, hsecond, ?_⟩
  have hcount := hmain.1
  simp only [State.initial, List.countP_nil, Nat.zero_add] at hcount
  omega

end WebrtcStreamer
