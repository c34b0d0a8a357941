import WebrtcStreamer.Ownership

/-! The limit on the number of registered peers (`m_maxpc`).

The size test, the eviction and the insertion are separate sections. What stays
bounded is the number of peers together with the number of requests that are
between their own size test and their own insertion. -/

set_option autoImplicit false

namespace WebrtcStreamer

/-- The request has passed the size test and may still insert a peer. -/
def Pc.pending : Pc → Bool
  | .hangUp (.evict _) _ _ | .construct _ | .opened _ _ | .register _ _ => true
  | .streams r _ _ => r.api = .createOffer
  | _ => false

def Pc.evicts : Pc → Option PeerId
  | .hangUp (.evict _) peerid .enter | .hangUp (.evict _) peerid .take => some peerid
  | _ => none

theorem Pc.evicts_cases {pc : Pc} {p : PeerId} (h : pc.evicts = some p) :
    ∃ r, pc = .hangUp (.evict r) p .enter ∨ pc = .hangUp (.evict r) p .take := by
  cases pc with
  | hangUp caller peerid hp =>
    cases caller with
    | evict r =>
      cases hp with
      | enter =>
        cases h
        exact ⟨r, .inl rfl⟩
      | take =>
        cases h
        exact ⟨r, .inr rfl⟩
      | _ => cases h
    | client => cases h
    | detached o => cases h
  | _ => cases h

/-- A size test is made when there is room for all pending requests too, or when
none is pending and the oldest peer has a peerid that can be hung up. -/
def roomFor (cfg : Config) (s : State) : Action → Bool
  | .run t _ =>
    match s.threads[t]? with
    | some (.oldest _) =>
      decide (s.shared.peerConnectionObsMap.size + s.threads.countP Pc.pending < cfg.maxpc.toNat) ||
        s.threads.countP Pc.pending = 0 && s.shared.getOldestPeerCannection cfg ≠ ""
    | _ => true
  | _ => true

section Step

variable {cfg : Config} {e : Env} {sh sh' : Shared} {pc pc' : Pc}

theorem Executed.pending (hx : Executed cfg e sh pc sh' pc') (h : pc'.pending = true) :
    pc.pending = true ∨ ∃ r, pc = .oldest r := by
  cases hx with
  | room r _ => exact .inr ⟨r, rfl⟩
  | evicting r _ => exact .inr ⟨r, rfl⟩
  | constructed | offering | answering | registered => exact .inl rfl
  | setup | found | missing | created | stored | locked | video => exact .inl h
  | audio r o pair ret ret' _ =>
    obtain ⟨hnext, _⟩ | ⟨hnext, hoffer⟩ | ⟨hnext, _⟩ := afterStreams_cases r o (ret || ret')
    · rw [hnext] at h
      cases h
    · exact .inl (by simp [Pc.pending, hoffer])
    · rw [hnext] at h
      cases h
  | described r o _ => split at h <;> cases h
  | entered caller | unknown caller | took caller | listed caller | scanned caller
  | unlabelled caller | inUse caller | unused caller | closed caller | destroyed caller =>
    cases caller with
    | evict r => exact .inl rfl
    | client => cases h
    | detached o => cases h
  | resumed caller =>
    cases caller with
    | evict r => exact .inl rfl
    | client => cases h
    | detached o => cases h
  | _ => cases h

theorem Executed.register_done {r : Request} {o : ObsId}
    (hx : Executed cfg e sh (.register r o) sh' pc') : pc'.pending = false := by
  cases hx
  by_cases hoffer : r.api = .createOffer <;> simp [hoffer, Pc.pending]

theorem Shared.erasePeer_size {p : PeerId} {o : ObsId} (h : sh.peerConnectionObsMap[p]? = some o) :
    (sh.erasePeer p).peerConnectionObsMap.size + 1 = sh.peerConnectionObsMap.size := by
  have hmem : p ∈ sh.peerConnectionObsMap := by
    rw [Std.TreeMap.mem_iff_isSome_getElem?, h]
    rfl
  have hle : sh.peerConnectionObsMap.size ≤ (sh.erasePeer p).peerConnectionObsMap.size + 1 :=
    Std.TreeMap.size_le_size_erase
  have hsize : (sh.erasePeer p).peerConnectionObsMap.size =
      if sh.peerConnectionObsMap.contains p then sh.peerConnectionObsMap.size - 1
      else sh.peerConnectionObsMap.size := Std.TreeMap.size_erase
  have hcontains : sh.peerConnectionObsMap.contains p = true := hmem
  have hpos : sh.peerConnectionObsMap.size ≠ 0 := by
    intro hzero
    have hempty : sh.peerConnectionObsMap.isEmpty = true := by
      simp [Std.TreeMap.isEmpty_eq_size_eq_zero, hzero]
    have hnone := Std.TreeMap.contains_of_isEmpty (a := p) hempty
    rw [hcontains] at hnone
    cases hnone
  rw [hcontains, if_pos rfl] at hsize
  omega

theorem Shared.oldest_full (h : sh.getOldestPeerCannection cfg ≠ "") : sh.peersFull cfg = true := by
  unfold getOldestPeerCannection at h
  by_contra hfull
  rw [if_neg hfull] at h
  exact h rfl

theorem Shared.foldl_oldest (os : List ObsId) (oldest : UInt64 × PeerId) :
    (os.foldl (fun oldest o =>
      if (sh.obs o).creationTime < oldest.1 then ((sh.obs o).creationTime, (sh.obs o).peerid)
      else oldest) oldest).2 = oldest.2 ∨
    ∃ o ∈ os, (os.foldl (fun oldest o =>
      if (sh.obs o).creationTime < oldest.1 then ((sh.obs o).creationTime, (sh.obs o).peerid)
      else oldest) oldest).2 = (sh.obs o).peerid := by
  induction os generalizing oldest with
  | nil => exact .inl rfl
  | cons o os ih =>
    rw [List.foldl_cons]
    rcases ih (if (sh.obs o).creationTime < oldest.1 then
          ((sh.obs o).creationTime, (sh.obs o).peerid)
      else oldest) with hsame | ⟨o', ho', hfrom⟩
    · rw [hsame]
      split
      · exact .inr ⟨o, List.mem_cons_self, rfl⟩
      · exact .inl rfl
    · exact .inr ⟨o', List.mem_cons_of_mem _ ho', hfrom⟩

theorem Executed.mapSize (hx : Executed cfg e sh pc sh' pc') :
    sh'.peerConnectionObsMap = sh.peerConnectionObsMap ∨
    (∃ r o, pc = .register r o ∧
      sh'.peerConnectionObsMap.size ≤ sh.peerConnectionObsMap.size + 1) ∨
    sh'.peerConnectionObsMap.size + 1 = sh.peerConnectionObsMap.size := by
  cases hx.effect (t := 0) with
  | keep same => exact .inl same.map
  | construct r connected time => exact .inl rfl
  | register r o => exact .inr (.inl ⟨r, o, rfl, Std.TreeMap.size_insertIfNew_le⟩)
  | take caller peerid o found =>
    have hmap := (SameOwners.readMember caller sh).map
    have hfree := Shared.erasePeer_size (hmap ▸ found)
    rw [hmap] at hfree
    exact .inr (.inr hfree)
  | delete o same =>
    exact .inl (by rw [Shared.deleteObserver_peerConnectionObsMap, same.map])

theorem Owned.oldest_mem {threads : List Pc} (h : Owned sh threads)
    (hnamed : sh.getOldestPeerCannection cfg ≠ "") :
    sh.getOldestPeerCannection cfg ∈ sh.peerConnectionObsMap := by
  have hfull := Shared.oldest_full hnamed
  unfold Shared.getOldestPeerCannection at hnamed ⊢
  rw [if_pos hfull] at hnamed ⊢
  rcases sh.foldl_oldest sh.registered (18446744073709551615, "") with hnone | ⟨o, ho, hfrom⟩
  · exact absurd hnone hnamed
  · obtain ⟨p, hp⟩ := sh.mem_registered.mp ho
    rw [hfrom, (h.registered p o hp).2, Std.TreeMap.mem_iff_isSome_getElem?, hp]
    rfl

end Step

/-- There is room for every pending request, or the only one is about to take a
peer out. -/
def Admission (limit : Nat) (sh : Shared) (threads : List Pc) : Prop :=
  sh.peerConnectionObsMap.size + threads.countP Pc.pending ≤ limit ∨
    (sh.peerConnectionObsMap.size ≤ limit ∧ threads.countP Pc.pending = 1 ∧
      ∃ (j : Nat) (pc : Pc) (p : PeerId), threads[j]? = some pc ∧ pc.evicts = some p ∧
        p ∈ sh.peerConnectionObsMap)

namespace Admission

variable {cfg : Config} {limit : Nat} {threads : List Pc} {sh sh' : Shared} {pc pc' : Pc}

theorem size_le (h : Admission limit sh threads) : sh.peerConnectionObsMap.size ≤ limit := by
  rcases h with h | h
  · omega
  · exact h.1

theorem initial : Admission limit .initial [] := .inl (by simp [Shared.initial])

theorem spawn (h : Admission limit sh threads) (hpc : pc.pending = false) :
    Admission limit sh (threads ++ [pc]) := by
  have hcount : (threads ++ [pc]).countP Pc.pending = threads.countP Pc.pending := by
    simp [List.countP_append, hpc]
  unfold Admission
  rw [hcount]
  rcases h with h | ⟨hsize, hone, j, pcj, p, hj, hevicts, hmem⟩
  · exact .inl h
  · refine .inr ⟨hsize, hone, j, pcj, p, ?_, hevicts, hmem⟩
    rw [List.getElem?_append_left (List.getElem?_eq_some_iff.mp hj).1]
    exact hj

theorem oldest {t : Nat} {e : Env} {r : Request} (h : Admission cfg.maxpc.toNat sh threads)
    (howned : Owned sh threads) (hpos : threads[t]? = some (.oldest r))
    (hx : Executed cfg e sh (.oldest r) sh' pc')
    (hok : sh.peerConnectionObsMap.size + threads.countP Pc.pending < cfg.maxpc.toNat ∨
      threads.countP Pc.pending = 0 ∧ sh.getOldestPeerCannection cfg ≠ "") :
    Admission cfg.maxpc.toNat sh' (threads.set t pc') := by
  have hmap : ∀ sh₁, sh₁ = (if sh.peersFull cfg then sh.touchRegistered else sh) →
      sh₁.peerConnectionObsMap = sh.peerConnectionObsMap := by
    rintro sh₁ rfl
    split <;> simp
  have hsize := h.size_le
  cases hx with
  | room _ hempty =>
    have hcount := Transition.countP_set_add Pc.pending hpos (y := .construct r)
    simp only [Pc.pending, Bool.false_eq_true, if_false, if_true, Nat.add_zero] at hcount
    rcases hok with hroom | ⟨_, hnamed⟩
    · refine .inl ?_
      rw [hmap _ rfl, hcount]
      omega
    · exact absurd hempty hnamed
  | evicting _ hnamed =>
    have hcount := Transition.countP_set_add Pc.pending
      (y := .hangUp (.evict r) (sh.getOldestPeerCannection cfg) .enter) hpos
    simp only [Pc.pending, Bool.false_eq_true, if_false, if_true, Nat.add_zero] at hcount
    have hlt := (List.getElem?_eq_some_iff.mp hpos).1
    rcases hok with hroom | ⟨hnone, _⟩
    · refine .inl ?_
      rw [hmap _ rfl, hcount]
      omega
    · refine .inr ⟨?_, by omega, t, _, _, List.getElem?_set_self hlt, rfl, ?_⟩
      · rw [hmap _ rfl]
        exact hsize
      · rw [hmap _ rfl]
        exact howned.oldest_mem hnamed

theorem pending_run {t : Nat} {e : Env} (hpos : threads[t]? = some pc)
    (hx : Executed cfg e sh pc sh' pc') (hpc : ∀ r, pc ≠ .oldest r) :
    (threads.set t pc').countP Pc.pending ≤ threads.countP Pc.pending := by
  have hcount := Transition.countP_set_add Pc.pending (y := pc') hpos
  by_cases hnext : pc'.pending = true
  · rcases hx.pending hnext with hnow | ⟨r, hr⟩
    · simp only [hnow, hnext, if_true] at hcount
      omega
    · exact absurd hr (hpc r)
  · simp only [hnext, Bool.false_eq_true, if_false] at hcount
    omega

theorem register_run {t : Nat} {e : Env} {r : Request} {o : ObsId}
    (hpos : threads[t]? = some (.register r o)) (hx : Executed cfg e sh (.register r o) sh' pc') :
    (threads.set t pc').countP Pc.pending + 1 = threads.countP Pc.pending := by
  have hcount := Transition.countP_set_add Pc.pending (y := pc') hpos
  rw [hx.register_done] at hcount
  simpa [Pc.pending] using hcount

theorem room_run {t : Nat} {e : Env} (hpos : threads[t]? = some pc)
    (hx : Executed cfg e sh pc sh' pc') (hpc : ∀ r, pc ≠ .oldest r)
    (h : sh.peerConnectionObsMap.size + threads.countP Pc.pending ≤ limit) :
    sh'.peerConnectionObsMap.size + (threads.set t pc').countP Pc.pending ≤ limit := by
  have hless := pending_run hpos hx hpc
  rcases hx.mapSize with hsame | ⟨r, o, rfl, hgrow⟩ | hfree
  · rw [hsame]
    omega
  · have hused := register_run hpos hx
    omega
  · omega

theorem evictor_run {t : Nat} {e : Env} {p : PeerId} (hpos : threads[t]? = some pc)
    (hx : Executed cfg e sh pc sh' pc') (hsize : sh.peerConnectionObsMap.size ≤ limit)
    (hone : threads.countP Pc.pending = 1) (hevicts : pc.evicts = some p)
    (hmem : p ∈ sh.peerConnectionObsMap) : Admission limit sh' (threads.set t pc') := by
  have hcount := Transition.countP_set_add Pc.pending (y := pc') hpos
  have hlt := (List.getElem?_eq_some_iff.mp hpos).1
  obtain ⟨r, rfl | rfl⟩ := Pc.evicts_cases hevicts
  · cases hx
    simp only [Pc.pending, if_true] at hcount
    have hmap := (SameOwners.trans (.readMember (.evict r) sh)
      (.logPeerId (.evict r) cfg _)).map
    exact .inr ⟨by rw [hmap]; exact hsize, by omega, t, _, _, List.getElem?_set_self hlt, rfl,
      by rw [hmap]; exact hmem⟩
  · cases hx with
    | unknown _ _ absent =>
      have hnone : sh.peerConnectionObsMap[p]? = none := absent
      rw [Std.TreeMap.mem_iff_isSome_getElem?, hnone] at hmem
      cases hmem
    | took _ _ o present =>
      have hfound : sh.peerConnectionObsMap[p]? = some o := present
      have hfree := Shared.erasePeer_size hfound
      simp only [Pc.pending, if_true] at hcount
      refine .inl ?_
      change (sh.erasePeer p).peerConnectionObsMap.size + _ ≤ limit
      omega

theorem run {t : Nat} {e : Env} (h : Admission limit sh threads) (hpos : threads[t]? = some pc)
    (hx : Executed cfg e sh pc sh' pc') (hpc : ∀ r, pc ≠ .oldest r) :
    Admission limit sh' (threads.set t pc') := by
  rcases h with h | ⟨hsize, hone, j, pcj, p, hj, hevicts, hmem⟩
  · exact .inl (room_run hpos hx hpc h)
  · by_cases hjt : j = t
    · subst hjt
      rw [hpos] at hj
      cases hj
      exact evictor_run hpos hx hsize hone hevicts hmem
    · have hj' : (threads.set t pc')[j]? = some pcj := by
        rw [List.getElem?_set_ne (Ne.symm hjt)]
        exact hj
      have hpending : pcj.pending = true := by
        obtain ⟨r, rfl | rfl⟩ := Pc.evicts_cases hevicts <;> rfl
      have hstill : 0 < (threads.set t pc').countP Pc.pending :=
        List.countP_pos_iff.mpr ⟨pcj, List.mem_of_getElem? hj', hpending⟩
      have hless := pending_run hpos hx hpc
      rcases hx.mapSize with hsame | ⟨r, o, rfl, _⟩ | hfree
      · exact .inr ⟨by rw [hsame]; exact hsize, by omega, j, pcj, p, hj', hevicts,
          by rw [hsame]; exact hmem⟩
      · -- the only pending request cannot be the one that inserts
        have hused := register_run hpos hx
        omega
      · exact .inl (by omega)

theorem step {s s' : State} {a : Action} (h : Admission cfg.maxpc.toNat s.shared s.threads)
    (howned : Owned s.shared s.threads) (hok : roomFor cfg s a = true)
    (hs : WebrtcStreamer.step cfg s a = some s') :
    Admission cfg.maxpc.toNat s'.shared s'.threads := by
  cases step_stepped hs with
  | request r => exact h.spawn rfl
  | hangUp peerid => exact h.spawn rfl
  | iceClosed o _ _ => exact h.spawn rfl
  | look os hos =>
    rw [howned.look hos]
    exact h
  | crash t e f => exact h
  | @run t e pc pc' sh hpos hx =>
    by_cases hpc : ∃ r, pc = .oldest r
    · obtain ⟨r, rfl⟩ := hpc
      refine h.oldest howned hpos hx ?_
      simpa [roomFor, hpos] using hok
    · exact h.run hpos hx fun r hr => hpc ⟨r, hr⟩

end Admission

/-- With a positive limit, where each size test finds room for all pending
requests or a lone request has a peer to evict, the limit holds throughout. -/
theorem peer_limit {cfg : Config} {s : State} (hmax : 0 < cfg.maxpc)
    (h : Transition.Reaches (step cfg) (fun s a => roomFor cfg s a = true) .initial s) :
    (s.shared.peerConnectionObsMap.size : Int) ≤ cfg.maxpc := by
  have hboth := h.invariant
    (fun s => Owned s.shared s.threads ∧ Admission cfg.maxpc.toNat s.shared s.threads)
    ⟨.initial, .initial⟩ fun _ _ _ hi hok hs => ⟨hi.1.step hs, hi.2.step hi.1 hok hs⟩
  have hsize := hboth.2.size_le
  omega

/-- Two calls after each other with room for one: the first is evicted. -/
theorem peer_limit_run : ∃ s, (0 : Int) < (Config.plain 1).maxpc ∧
    Transition.Reaches (step (.plain 1)) (fun s a => roomFor (.plain 1) s a = true) .initial s ∧
    Event.inserted "a" 0 ∈ s.trace ∧ Event.inserted "b" 1 ∈ s.trace ∧
    (s.shared.peerConnectionObsMap.size : Int) ≤ (Config.plain 1).maxpc := by
  obtain ⟨s, hs, hp⟩ := Transition.exists_reaches_of_run (step (.plain 1))
    (fun s a => roomFor (.plain 1) s a = true) .initial
    ([Action.request (.plain .call "a" "rtsp://cam")] ++ runs 0 5 (.fine 7) ++
      [Action.request (.plain .createOffer "b" "rtsp://cam")] ++ runs 1 18 (.fine 7))
    (fun s => decide (Event.inserted "a" 0 ∈ s.trace) && decide (Event.inserted "b" 1 ∈ s.trace))
    (by decide +kernel)
  simp only [Bool.and_eq_true, decide_eq_true_eq] at hp
  exact ⟨s, by decide, hs, hp.1, hp.2, peer_limit (by decide) hs⟩

/-- Two calls make their size tests before either has inserted its peer. -/
theorem peer_limit_exceeded : ¬ ∀ (cfg : Config) (s : State), 0 < cfg.maxpc → Reachable cfg s →
    (s.shared.peerConnectionObsMap.size : Int) ≤ cfg.maxpc := by
  intro halways
  obtain ⟨s, hs, hp⟩ := Reachable.of_run (.plain 1)
    ([Action.request (.plain .call "a" "rtsp://cam"), .request (.plain .call "b" "rtsp://cam")] ++
      runs 0 4 (.fine 7) ++ runs 1 5 (.fine 7) ++ runs 0 1 (.fine 7))
    (fun s => decide (s.shared.peerConnectionObsMap.size = 2)) (by decide +kernel)
  have hsize : s.shared.peerConnectionObsMap.size = 2 := by simpa using hp
  have hle := halways _ s (by decide) hs
  rw [hsize] at hle
  revert hle
  decide

end WebrtcStreamer
