import WebrtcStreamer.SharedSources

/-! The labels that registered peers send stay in the stream map, as long as
two windows of `hangUp` and `createOffer` do not overlap with other requests. -/

set_option autoImplicit false

namespace WebrtcStreamer

def Pc.closing : Pc → Option Label
  | .hangUp _ _ (.close _ l _) => some l
  | _ => none

def Pc.adds (e : Env) : Pc → Option (Request × ObsId)
  | .streams r o (.video pair) =>
    if pair.1.isSome && e.videoTrack && e.videoAdded then some (r, o) else none
  | .streams r o (.audio pair _) =>
    if pair.2.isSome && e.audioTrack && e.audioAdded then some (r, o) else none
  | _ => none

def Live (sh : Shared) (threads : List Pc) (o : ObsId) : Prop :=
  (∃ p : PeerId, sh.peerConnectionObsMap[p]? = some o) ∨ ∃ pc ∈ threads, pc.unregistered = some o

def live (sh : Shared) (threads : List Pc) (o : ObsId) : Bool :=
  decide (o ∈ sh.registered) || threads.any fun pc => pc.unregistered = some o

/-- A live peer gets no track for a label that a `hangUp` is about to erase, and
no `hangUp` finds a label unused that an offer not registered yet already sends. -/
def streamsGuarded (cfg : Config) (s : State) : Action → Bool
  | .run t e =>
    match s.threads[t]? with
    | some (.hangUp _ _ (.scan _ ((l :: _) :: _))) =>
      match s.shared.streamStillUsed l with
      | .ok false => s.threads.all fun pc => pc.unregistered.all fun o => l ∉ s.shared.labels o
      | _ => true
    | some pc =>
      (pc.adds e).all fun (r, o) =>
        !live s.shared s.threads o || s.threads.all fun pc => pc.closing ≠ some (r.label cfg)
    | none => true
  | _ => true

section Step

variable {cfg : Config} {t : Tid} {e : Env} {sh sh' : Shared} {pc pc' : Pc} {threads : List Pc}

theorem live_iff {o : ObsId} : live sh threads o = true ↔ Live sh threads o := by
  simp [live, Live, Shared.mem_registered]

theorem Shared.mem_labels {o : ObsId} {l : Label} :
    l ∈ sh.labels o ↔ ∃ x ∈ sh.senders o, l ∈ x.streamIds := by
  simp [labels, List.mem_flatMap]

theorem Executed.closing (hx : Executed cfg e sh pc sh' pc') {l : Label}
    (h : pc'.closing = some l) : ∃ caller peerid o ls rest,
      pc = .hangUp caller peerid (.scan o ((l :: ls) :: rest)) ∧
        sh.streamStillUsed l = .ok false := by
  cases hx with
  | unused caller peerid o l' ls rest free =>
    cases h
    exact ⟨caller, peerid, o, ls, rest, rfl, free⟩
  | registered r o => split at h <;> cases h
  | audio r o pair ret ret' _ =>
    rw [apply_afterStreams Pc.closing r o (ret || ret') rfl rfl rfl] at h
    cases h
  | described r o _ => split at h <;> cases h
  | resumed caller => cases caller <;> cases h
  | _ => cases h

theorem Effect.live (h : Effect cfg e t sh pc sh' pc') (hpos : threads[t]? = some pc)
    {o : Nat} (hlive : Live sh' (threads.set t pc') o) :
    Live sh threads o ∨ sh'.senders o = [] := by
  have hmem := List.mem_of_getElem? hpos
  have hthreads : ∀ pcj ∈ threads.set t pc', pcj.unregistered = some o →
      (pcj ∈ threads ∨ (pcj = pc' ∧ pc'.unregistered = some o)) := by
    intro pcj hj hun
    rcases Transition.mem_set hj with rfl | hj
    · exact .inr ⟨rfl, hun⟩
    · exact .inl hj
  cases h with
  | keep same holds creating =>
    refine .inl ?_
    rcases hlive with ⟨p, hp⟩ | ⟨pcj, hj, hun⟩
    · exact .inl ⟨p, same.map ▸ hp⟩
    · rcases hthreads pcj hj hun with hj | ⟨_, hun⟩
      · exact .inr ⟨pcj, hj, hun⟩
      · obtain ⟨hhold, r, hcreate⟩ := Pc.unregistered_iff.mp hun
        exact .inr ⟨pc, hmem, Pc.unregistered_iff.mpr ⟨holds o hhold, r, creating _ hcreate⟩⟩
  | construct r connected time =>
    rcases hlive with ⟨p, hp⟩ | ⟨pcj, hj, hun⟩
    · exact .inl (.inl ⟨p, hp⟩)
    · rcases hthreads pcj hj hun with hj | ⟨_, hun⟩
      · exact .inl (.inr ⟨pcj, hj, hun⟩)
      · cases hun
        refine .inr ?_
        rw [Shared.construct_senders]
        simp [Shared.senders, Shared.obs, List.getD_eq_getElem?_getD]
  | register r o' holds =>
    refine .inl ?_
    rcases hlive with ⟨p, hp⟩ | ⟨pcj, hj, hun⟩
    · rcases Shared.registerPeer_lookup hp with hp | ⟨_, _, rfl⟩
      · exact .inl ⟨p, hp⟩
      · exact .inr ⟨_, hmem, rfl⟩
    · rcases hthreads pcj hj hun with hj | ⟨_, hun⟩
      · exact .inr ⟨pcj, hj, hun⟩
      · rw [Pc.holds_of_unregistered hun] at holds
        cases holds
  | take caller peerid o' =>
    refine .inl ?_
    rcases hlive with ⟨p, hp⟩ | ⟨pcj, hj, hun⟩
    · have hold := (Shared.erasePeer_lookup hp).2
      rw [(SameOwners.readMember caller sh).map] at hold
      exact .inl ⟨p, hold⟩
    · rcases hthreads pcj hj hun with hj | ⟨_, hun⟩
      · exact .inr ⟨pcj, hj, hun⟩
      · cases hun
  | delete o' same holds holds' =>
    refine .inl ?_
    rcases hlive with ⟨p, hp⟩ | ⟨pcj, hj, hun⟩
    · rw [Shared.deleteObserver_peerConnectionObsMap, same.map] at hp
      exact .inl ⟨p, hp⟩
    · rcases hthreads pcj hj hun with hj | ⟨_, hun⟩
      · exact .inr ⟨pcj, hj, hun⟩
      · rw [Pc.holds_of_unregistered hun] at holds'
        cases holds'

theorem Shared.attachTrack_lock {o : ObsId} {l : Label} {kind : Kind} {source : Option Source}
    {track added ret : Bool} (h : sh.attachTrack o l kind source track added = .ok (sh', ret)) :
    sh'.streamMapLocked = sh.streamMapLocked ∧ sh'.streamMap = sh.streamMap := by
  rcases attachTrack_cases h with rfl | ⟨src, _, _, rfl⟩ <;> exact ⟨rfl, rfl⟩

theorem Shared.attachTrack_idle {o : ObsId} {l : Label} {kind : Kind} {source : Option Source}
    {track added ret : Bool} (h : sh.attachTrack o l kind source track added = .ok (sh', ret))
    (hidle : (source.isSome && track && added) = false) : sh' = sh := by
  unfold attachTrack at h
  split at h
  · cases h
    rfl
  · split at h
    · cases h
      rfl
    · rename_i htrack
      split at h
      · cases h
      · split at h
        · rename_i hadded
          simp [hadded] at hidle
          simp [hidle] at htrack
        · cases h
          rfl

theorem Executed.adds (hx : Executed cfg e sh pc sh' pc') {r : Request} {o : ObsId}
    {pair : AudioVideoPair} (hat : pc.attaching = some (r, o, pair))
    (hmore : sh'.senders o ≠ sh.senders o) : pc.adds e = some (r, o) := by
  cases hx with
  | video r' o' pair' ret attached =>
    cases hat
    cases hadds : pair.1.isSome && e.videoTrack && e.videoAdded with
    | true => simp [Pc.adds, hadds]
    | false => exact absurd (by rw [Shared.attachTrack_idle attached hadds]) hmore
  | audio r' o' pair' ret ret' attached =>
    cases hat
    cases hadds : pair.2.isSome && e.audioTrack && e.audioAdded with
    | true => simp [Pc.adds, hadds]
    | false =>
      refine absurd ?_ hmore
      rw [Shared.attachTrack_idle attached hadds]
      rfl
  | _ => cases hat

theorem readMember_lock (caller : Caller) (sh : Shared) :
    (caller.readMember sh).streamMapLocked = sh.streamMapLocked := by
  cases caller <;> simp [Caller.readMember]

theorem logPeerId_lock (caller : Caller) (cfg : Config) (sh : Shared) :
    (caller.logPeerId cfg sh).streamMapLocked = sh.streamMapLocked := by
  unfold Caller.logPeerId
  split
  · exact readMember_lock caller sh
  · rfl

/-- The lock is taken at the last lookup of `AddStreams`, given back after the
last track, and nobody changes the stream map in between. -/
theorem Executed.lock (hx : Executed cfg e sh pc sh' pc') :
    (sh'.streamMapLocked = sh.streamMapLocked ∧
      (sh.streamMapLocked = true → sh'.streamMap = sh.streamMap)) ∨
    (∃ r o pair, pc = .streams r o .final ∧ pc' = .streams r o (.video pair) ∧
      sh.streamMapLocked = false ∧ sh.streamMap[r.label cfg]? = some pair ∧
      sh' = sh.lockStreamMap true) ∨
    (∃ x, pc.attaching = some x) ∧ pc'.attaching = none := by
  cases hx with
  | locked r o pair unlocked present =>
    exact .inr (.inl ⟨r, o, pair, rfl, rfl, unlocked, present, rfl⟩)
  | audio r o pair ret ret' _ =>
    refine .inr (.inr ⟨⟨_, rfl⟩, ?_⟩)
    exact apply_afterStreams Pc.attaching r o (ret || ret') rfl rfl rfl
  | video r o pair ret attached =>
    obtain ⟨hlock, hmap⟩ := Shared.attachTrack_lock attached
    exact .inl ⟨hlock, fun _ => hmap⟩
  | stored r o pair unlocked =>
    exact .inl ⟨rfl, fun hlocked => by rw [unlocked] at hlocked; cases hlocked⟩
  | closed _ _ _ l _ unlocked =>
    exact .inl ⟨rfl, fun hlocked => by rw [unlocked] at hlocked; cases hlocked⟩
  | room | evicting =>
    refine .inl ⟨?_, fun _ => ?_⟩ <;> split <;> simp
  | entered caller | unknown caller | took caller | resumed caller =>
    refine .inl ⟨?_, fun _ => ?_⟩
    · simp [logPeerId_lock, readMember_lock, Shared.erasePeer]
    · simp [(logPeerId_streams _ _ _).1, (readMember_streams _ _).1, Shared.erasePeer]
  | _ =>
    exact .inl ⟨by simp [Shared.deleteObserver, Shared.modifyObs, Shared.construct,
        Shared.registerPeer],
      fun _ => by simp [Shared.deleteObserver, Shared.modifyObs, Shared.construct,
          Shared.registerPeer]⟩

end Step

structure Locking (cfg : Config) (sh : Shared) (threads : List Pc) : Prop where
  locked : ∀ (t : Nat) (pc : Pc) (r : Request) (o : ObsId) (pair : AudioVideoPair),
    threads[t]? = some pc → pc.attaching = some (r, o, pair) →
    sh.streamMapLocked = true ∧ sh.streamMap[r.label cfg]? = some pair
  alone : ∀ (t t' : Nat) (pc pc' : Pc) (x x' : Request × ObsId × AudioVideoPair),
    threads[t]? = some pc → threads[t']? = some pc' → pc.attaching = some x →
    pc'.attaching = some x' → t = t'

namespace Locking

variable {cfg : Config} {threads : List Pc} {sh sh' : Shared} {pc pc' : Pc}

theorem initial : Locking cfg .initial [] where
  locked t pc r o pair h := by simp at h
  alone t t' pc pc' x x' h := by simp at h

theorem spawn (h : Locking cfg sh threads) (hpc : pc.attaching = none) :
    Locking cfg sh (threads ++ [pc]) := by
  have hold : ∀ {j : Nat} {pcj : Pc} {x : Request × ObsId × AudioVideoPair},
      (threads ++ [pc])[j]? = some pcj → pcj.attaching = some x → threads[j]? = some pcj := by
    intro j pcj x hj hx
    rcases Transition.get_push hj with hj | ⟨_, rfl⟩
    · exact hj
    · rw [hpc] at hx
      cases hx
  exact ⟨fun t pcj r o pair hj hx => h.locked t pcj r o pair (hold hj hx) hx,
    fun t t' pcj pcj' x x' hj hj' hx hx' =>
      h.alone t t' pcj pcj' x x' (hold hj hx) (hold hj' hx') hx hx'⟩

theorem run {t : Nat} {e : Env} (h : Locking cfg sh threads) (hpos : threads[t]? = some pc)
    (hx : Executed cfg e sh pc sh' pc') : Locking cfg sh' (threads.set t pc') := by
  rcases hx.lock with ⟨hlock, hmap⟩ | ⟨r, o, pair, rfl, rfl, hfree, hpresent, rfl⟩ |
      ⟨⟨x, hat⟩, hleave⟩
  · -- nobody enters or leaves the section
    have hold : ∀ {j : Nat} {pcj : Pc} {x : Request × ObsId × AudioVideoPair},
        (threads.set t pc')[j]? = some pcj → pcj.attaching = some x →
        ∃ pc₀, threads[j]? = some pc₀ ∧ pc₀.attaching = some x := by
      intro j pcj x hj hxj
      rcases Transition.get_set hj with ⟨rfl, rfl⟩ | ⟨_, hj⟩
      · obtain ⟨r, o, pair⟩ := x
        rcases hx.attaching hxj with hsame | ⟨rfl, _⟩
        · exact ⟨pc, hpos, hsame⟩
        · cases hx with
          | lost => cases hxj
          | locked _ _ _ unlocked =>
            rw [unlocked] at hlock
            cases hlock
      · exact ⟨pcj, hj, hxj⟩
    refine ⟨fun j pcj r o pair hj hxj => ?_, fun j j' pcj pcj' x x' hj hj' hxj hxj' => ?_⟩
    · obtain ⟨pc₀, hj₀, hx₀⟩ := hold hj hxj
      obtain ⟨hlocked, hfound⟩ := h.locked j pc₀ r o pair hj₀ hx₀
      exact ⟨hlock.trans hlocked, by rw [hmap hlocked]; exact hfound⟩
    · obtain ⟨pc₀, hj₀, hx₀⟩ := hold hj hxj
      obtain ⟨pc₁, hj₁, hx₁⟩ := hold hj' hxj'
      exact h.alone j j' pc₀ pc₁ x x' hj₀ hj₁ hx₀ hx₁
  · -- this thread enters, and the lock was free
    have hnobody : ∀ (j : Nat) (pcj : Pc) (x : Request × ObsId × AudioVideoPair),
        threads[j]? = some pcj → pcj.attaching ≠ some x := by
      rintro j pcj ⟨r', o', pair'⟩ hj hxj
      have hlocked := (h.locked j pcj r' o' pair' hj hxj).1
      rw [hfree] at hlocked
      cases hlocked
    refine ⟨fun j pcj r' o' pair' hj hxj => ?_, fun j j' pcj pcj' x x' hj hj' hxj hxj' => ?_⟩
    · rcases Transition.get_set hj with ⟨_, rfl⟩ | ⟨_, hj⟩
      · cases hxj
        exact ⟨rfl, hpresent⟩
      · exact absurd hxj (hnobody j pcj _ hj)
    · rcases Transition.get_set hj with ⟨rfl, _⟩ | ⟨_, hj⟩
      · rcases Transition.get_set hj' with ⟨rfl, _⟩ | ⟨_, hj'⟩
        · rfl
        · exact absurd hxj' (hnobody j' pcj' _ hj')
      · exact absurd hxj (hnobody j pcj _ hj)
  · -- this thread leaves, and was the only one
    have hnobody : ∀ (j : Nat) (pcj : Pc) (x' : Request × ObsId × AudioVideoPair),
        (threads.set t pc')[j]? = some pcj → pcj.attaching ≠ some x' := by
      intro j pcj x' hj hxj
      rcases Transition.get_set hj with ⟨_, rfl⟩ | ⟨hne, hj⟩
      · rw [hleave] at hxj
        cases hxj
      · exact hne (h.alone j t pcj pc x' x hj hpos hxj hat)
    exact ⟨fun j pcj r o pair hj hxj => absurd hxj (hnobody j pcj _ hj),
      fun j j' pcj pcj' x₁ x₂ hj hj' hxj hxj' => absurd hxj (hnobody j pcj _ hj)⟩

end Locking

/-- Every sender has one stream label, and a label that a live observer sends
is in the stream map and not about to be erased. -/
structure InUse (cfg : Config) (sh : Shared) (threads : List Pc) : Prop where
  owned : Owned sh threads
  locking : Locking cfg sh threads
  single : ∀ o, ∀ x ∈ sh.senders o, ∃ l, x.streamIds = [l]
  used : ∀ o, Live sh threads o → ∀ l ∈ sh.labels o,
    l ∈ sh.streamMap ∧ ∀ pc ∈ threads, pc.closing ≠ some l

namespace InUse

variable {cfg : Config} {threads : List Pc} {sh sh' : Shared} {pc pc' : Pc}

theorem initial : InUse cfg .initial [] where
  owned := .initial
  locking := .initial
  single o x hx := by simp [Shared.senders, Shared.obs, Shared.initial] at hx
  used o _ l hl := by simp [Shared.labels, Shared.senders, Shared.obs, Shared.initial] at hl

theorem spawn (h : InUse cfg sh threads) (howned : Owned sh (threads ++ [pc]))
    (hat : pc.attaching = none) (hclosing : pc.closing = none) (hun : pc.unregistered = none) :
    InUse cfg sh (threads ++ [pc]) := by
  refine ⟨howned, h.locking.spawn hat, h.single, fun o hlive l hl => ?_⟩
  have hold : Live sh threads o := by
    rcases hlive with hreg | ⟨pcj, hj, hunj⟩
    · exact .inl hreg
    · rcases List.mem_append.mp hj with hj | hj
      · exact .inr ⟨pcj, hj, hunj⟩
      · rw [List.mem_singleton.mp hj, hun] at hunj
        cases hunj
  obtain ⟨hmem, hfree⟩ := h.used o hold l hl
  refine ⟨hmem, fun pcj hj => ?_⟩
  rcases List.mem_append.mp hj with hj | hj
  · exact hfree pcj hj
  · rw [List.mem_singleton.mp hj, hclosing]
    simp

theorem not_unused (h : InUse cfg sh threads) {l : Label}
    (hunused : sh.streamStillUsed l = .ok false)
    (hoffers : ∀ pcj ∈ threads, ∀ o, pcj.unregistered = some o → l ∉ sh.labels o) {o : ObsId}
    (hlive : Live sh threads o) : l ∉ sh.labels o := by
  rcases hlive with ⟨p, hp⟩ | ⟨pcj, hj, hun⟩
  · intro hl
    obtain ⟨x, hx, hlx⟩ := Shared.mem_labels.mp hl
    obtain ⟨l', hl'⟩ := h.single o x hx
    have hnone := List.any_eq_false.mp (sh.streamStillUsed_ok hunused).symm o
      (sh.mem_registered.mpr ⟨p, hp⟩)
    rw [hl', List.mem_singleton] at hlx
    exact hnone (List.any_eq_true.mpr ⟨x, hx, by simp [hl', hlx]⟩)
  · exact hoffers pcj hj o hun

theorem closing_run {t : Nat} {e : Env} (h : InUse cfg sh threads)
    (hx : Executed cfg e sh pc sh' pc')
    (htest : ∀ caller peerid o l ls rest, pc = .hangUp caller peerid (.scan o ((l :: ls) :: rest)) →
      sh.streamStillUsed l = .ok false →
        ∀ pcj ∈ threads, ∀ o, pcj.unregistered = some o → l ∉ sh.labels o)
    {o : ObsId} {l : Label} (hlive : Live sh threads o) (hl : l ∈ sh.labels o) :
    ∀ pcj ∈ threads.set t pc', pcj.closing ≠ some l := by
  intro pcj hj
  rcases Transition.mem_set hj with rfl | hj
  · intro hclose
    obtain ⟨caller, peerid, o', ls, rest, rfl, hunused⟩ := hx.closing hclose
    exact h.not_unused hunused (htest _ _ _ _ _ _ rfl hunused) hlive hl
  · exact (h.used o hlive l hl).2 pcj hj

theorem single_run {t : Nat} {e : Env} (h : InUse cfg sh threads)
    (hstream : StreamEffect cfg e t sh pc sh') :
    ∀ o, ∀ x ∈ sh'.senders o, ∃ l, x.streamIds = [l] := by
  intro o x hxs
  cases hstream with
  | keep _ senders => exact h.single o x (senders o ▸ hxs)
  | store => exact h.single o x hxs
  | erase => exact h.single o x hxs
  | attach r o' pair y position label _ _ senders =>
    rw [senders, List.mem_append] at hxs
    rcases hxs with hxs | hxs
    · exact h.single o x hxs
    · split at hxs
      · rw [List.mem_singleton.mp hxs]
        exact ⟨_, label⟩
      · cases hxs

theorem attached_run {t : Nat} {e : Env} (h : InUse cfg sh threads)
    (hpos : threads[t]? = some pc) (hx : Executed cfg e sh pc sh' pc') {r : Request} {o : ObsId}
    {pair : AudioVideoPair} (position : pc.attaching = some (r, o, pair))
    (hattach : ∀ pcj ∈ threads, pcj.closing ≠ some (r.label cfg)) :
    r.label cfg ∈ sh.streamMap ∧ ∀ pcj ∈ threads.set t pc', pcj.closing ≠ some (r.label cfg) := by
  have hfound := (h.locking.locked t pc r o pair hpos position).2
  refine ⟨by rw [Std.TreeMap.mem_iff_isSome_getElem?, hfound]; rfl, fun pcj hj hclose => ?_⟩
  rcases Transition.mem_set hj with rfl | hj
  · obtain ⟨caller, peerid, o₁, ls, rest, rfl, _⟩ := hx.closing hclose
    cases position
  · exact hattach pcj hj hclose

theorem run {t : Nat} {e : Env} (h : InUse cfg sh threads) (hpos : threads[t]? = some pc)
    (hx : Executed cfg e sh pc sh' pc')
    (hattach : ∀ r o, pc.adds e = some (r, o) → Live sh threads o →
      ∀ pcj ∈ threads, pcj.closing ≠ some (r.label cfg))
    (htest : ∀ caller peerid o l ls rest, pc = .hangUp caller peerid (.scan o ((l :: ls) :: rest)) →
      sh.streamStillUsed l = .ok false →
        ∀ pcj ∈ threads, ∀ o, pcj.unregistered = some o → l ∉ sh.labels o) :
    InUse cfg sh' (threads.set t pc') := by
  have hmem := List.mem_of_getElem? hpos
  have heffect := hx.effect (t := t)
  have hstream := hx.streamEffect (t := t)
  have hclosing : ∀ o l, Live sh threads o → l ∈ sh.labels o →
      ∀ pcj ∈ threads.set t pc', pcj.closing ≠ some l :=
    fun _ _ hlive hl => h.closing_run hx htest hlive hl
  refine ⟨h.owned.effect hpos heffect, h.locking.run hpos hx, h.single_run hstream,
    fun o hlive l hl => ?_⟩
  rcases heffect.live hpos hlive with hold | hempty
  · cases hstream with
    | keep map senders =>
      have hl' : l ∈ sh.labels o := by simpa [Shared.labels, senders] using hl
      rw [map]
      exact ⟨(h.used o hold l hl').1, hclosing o l hold hl'⟩
    | store r o' pair =>
      have hgrow : l ∈ (sh.storeStream (r.label cfg) pair).streamMap := by
        have hin := (h.used o hold l hl).1
        rw [Std.TreeMap.mem_iff_isSome_getElem?] at hin ⊢
        obtain ⟨v, hv⟩ := Option.isSome_iff_exists.mp hin
        rw [Shared.storeStream_keeps hv]
        rfl
      exact ⟨hgrow, hclosing o l hold hl⟩
    | erase caller peerid o' l' rest =>
      obtain ⟨hin, hfree⟩ := h.used o hold l hl
      have hne : l ≠ l' := fun heq => hfree _ hmem (by rw [heq]; rfl)
      refine ⟨?_, hclosing o l hold hl⟩
      have hlookup := congrFun (sh.eraseStream_update l') l
      simp only [Function.update_of_ne hne] at hlookup
      rw [Std.TreeMap.mem_iff_isSome_getElem?] at hin ⊢
      rw [hlookup]
      exact hin
    | attach r o' pair y position label _ map senders =>
      rw [map]
      obtain ⟨x, hxs, hlx⟩ := Shared.mem_labels.mp hl
      rw [senders, List.mem_append] at hxs
      rcases hxs with hxs | hxs
      · have hl' := Shared.mem_labels.mpr ⟨x, hxs, hlx⟩
        exact ⟨(h.used o hold l hl').1, hclosing o l hold hl'⟩
      · split at hxs
        · rename_i ho
          subst ho
          have hmore : sh'.senders o ≠ sh.senders o := by
            rw [senders, if_pos rfl]
            simp
          rw [List.mem_singleton.mp hxs, label, List.mem_singleton] at hlx
          subst hlx
          exact h.attached_run hpos hx position (hattach r o (hx.adds position hmore) hold)
        · cases hxs
  · obtain ⟨x, hxs, _⟩ := Shared.mem_labels.mp hl
    rw [hempty] at hxs
    cases hxs

theorem step {s s' : State} {a : Action} (h : InUse cfg s.shared s.threads)
    (hok : streamsGuarded cfg s a = true) (hs : WebrtcStreamer.step cfg s a = some s') :
    InUse cfg s'.shared s'.threads := by
  have howned := h.owned.step hs
  cases step_stepped hs with
  | request r => exact h.spawn howned rfl rfl rfl
  | hangUp peerid => exact h.spawn howned rfl rfl rfl
  | iceClosed o _ _ => exact h.spawn howned rfl rfl rfl
  | look os hos =>
    rw [h.owned.look hos]
    exact h
  | crash t e f => exact h
  | @run t e pc pc' sh hpos hx =>
    refine h.run hpos hx (fun r o hadds hlive pcj hj => ?_)
      fun caller peerid o l ls rest hpc hunused pcj hj o' hun => ?_
    · have hguard : (pc.adds e).all (fun (r, o) => !live s.shared s.threads o ||
          s.threads.all fun pc => pc.closing ≠ some (r.label cfg)) = true := by
        cases pc with
        | streams r' o' a => simpa [streamsGuarded, hpos] using hok
        | _ => cases hadds
      rw [hadds] at hguard
      simp only [Option.all_some, live_iff.mpr hlive, Bool.not_true, Bool.false_or,
        List.all_eq_true, decide_eq_true_eq] at hguard
      exact hguard pcj hj
    · subst hpc
      simp only [streamsGuarded, hpos, hunused, List.all_eq_true] at hok
      have hoffer := hok pcj hj
      rw [hun] at hoffer
      simpa using hoffer

end InUse

/-- Where neither window overlaps with another request, every label that a
registered peer sends is a key of the stream map, in every state of the run. -/
theorem streams_in_use {cfg : Config} {s : State}
    (h : Transition.Reaches (step cfg) (fun s a => streamsGuarded cfg s a = true) .initial s)
    (p : PeerId) (o : ObsId) (hp : s.shared.peerConnectionObsMap[p]? = some o) :
    ∀ l ∈ s.shared.labels o, l ∈ s.shared.streamMap := by
  intro l hl
  have hinv := h.invariant (fun s => InUse cfg s.shared s.threads) .initial
    fun _ _ _ hi hok hs => hi.step hok hs
  exact (hinv.used o (.inl ⟨p, hp⟩) l hl).1

theorem streams_in_use_run : ∃ s, Transition.Reaches (step (.plain 0))
    (fun s a => streamsGuarded (.plain 0) s a = true) .initial s ∧
    Event.destroyed 2 .client 0 ∈ s.trace ∧ s.shared.labels 1 ≠ [] ∧
    ∀ l ∈ s.shared.labels 1, l ∈ s.shared.streamMap := by
  obtain ⟨s, hs, hp⟩ := Transition.exists_reaches_of_run (step (.plain 0))
    (fun s a => streamsGuarded (.plain 0) s a = true) .initial
    ([Action.request (.plain .call "a" "rtsp://cam")] ++ runs 0 12 (.fine 7) ++
      [Action.request (.plain .createOffer "b" "rtsp://cam")] ++ runs 1 10 (.fine 8) ++
      [Action.hangUp "a"] ++ runs 2 7 (.fine 7))
    (fun s => decide (Event.destroyed 2 .client 0 ∈ s.trace) && decide (s.shared.labels 1 ≠ []) &&
      decide (s.shared.peerConnectionObsMap["b"]? = some 1)) (by decide +kernel)
  simp only [Bool.and_eq_true, decide_eq_true_eq] at hp
  obtain ⟨⟨hdestroyed, hlabels⟩, hreg⟩ := hp
  exact ⟨s, hs, hdestroyed, hlabels, streams_in_use hs "b" 1 hreg⟩

/-- A `hangUp` finds the label unused, another peer is registered and sends it,
then the label is erased. -/
theorem streams_in_use_lost : ¬ ∀ (cfg : Config) (s : State), Reachable cfg s →
    ∀ (p : PeerId) (o : ObsId), s.shared.peerConnectionObsMap[p]? = some o →
      ∀ l ∈ s.shared.labels o, l ∈ s.shared.streamMap := by
  intro halways
  obtain ⟨s, hs, hp⟩ := Reachable.of_run (.plain 0)
    ([Action.request (.plain .call "a" "rtsp://cam")] ++ runs 0 12 (.fine 7) ++
      [Action.hangUp "a"] ++ runs 1 4 (.fine 7) ++
      [Action.request (.plain .call "b" "rtsp://cam")] ++ runs 2 10 (.fine 8) ++ runs 1 1 (.fine 7))
    (fun s => decide (s.shared.peerConnectionObsMap["b"]? = some 1) &&
      decide (s.shared.labels 1 ≠ []) && decide (s.shared.streamMap.size = 0)) (by decide +kernel)
  simp only [Bool.and_eq_true, decide_eq_true_eq] at hp
  obtain ⟨⟨hreg, hlabels⟩, hsize⟩ := hp
  obtain ⟨l, hl⟩ := List.exists_mem_of_ne_nil _ hlabels
  have hmem := halways _ s hs "b" 1 hreg l hl
  have hempty : s.shared.streamMap.isEmpty = true := by
    simp [Std.TreeMap.isEmpty_eq_size_eq_zero, hsize]
  exact Std.TreeMap.not_mem_of_isEmpty hempty hmem

end WebrtcStreamer
