import WebrtcStreamer.Machine

/-! Who may delete an observer, and what one step can do to the peer map and to
the observers. The invariants of the machine are derived from `Executed.effect`. -/

set_option autoImplicit false

namespace WebrtcStreamer

/-- The observer that only this thread may delete: one it has constructed and
not registered yet, or one it has taken out of the map. -/
def Pc.holds : Pc → Option ObsId
  | .opened _ o | .register _ o => some o
  | .streams r o _ => if r.api = .createOffer then some o else none
  | .hangUp _ _ (.senders o) | .hangUp _ _ (.scan o _) | .hangUp _ _ (.close o _ _)
  | .hangUp _ _ (.destroy o) => some o
  | _ => none

def Pc.creating : Pc → Option (Request × ObsId)
  | .opened r o | .register r o | .streams r o _ | .describe r o | .gather r o _
  | .await r o => some (r, o)
  | _ => none

def Pc.unregistered : Pc → Option ObsId
  | .opened _ o | .register _ o => some o
  | .streams r o _ => if r.api = .createOffer then some o else none
  | _ => none

theorem Pc.unregistered_iff {pc : Pc} {o : ObsId} :
    pc.unregistered = some o ↔ pc.holds = some o ∧ ∃ r, pc.creating = some (r, o) := by
  cases pc with
  | streams r o' a =>
    by_cases hoffer : r.api = .createOffer <;>
      simp [Pc.unregistered, Pc.holds, Pc.creating, hoffer]
  | hangUp caller peerid h => cases h <;> simp [Pc.unregistered, Pc.creating]
  | _ => simp [Pc.unregistered, Pc.holds, Pc.creating]

theorem Pc.holds_of_unregistered {pc : Pc} {o : ObsId} (h : pc.unregistered = some o) :
    pc.holds = some o := (unregistered_iff.mp h).1

def Event.peerEntry : Event → Option (Ledger.Entry PeerId ObsId)
  | .inserted peerid o => some (.put peerid o)
  | .tookOut _ _ peerid o => some (.take peerid o)
  | _ => none

def Event.deletion : Event → Option ObsId
  | .destroyed _ _ o | .discarded o => some o
  | _ => none

structure SameOwners (sh sh' : Shared) : Prop where
  map : sh'.peerConnectionObsMap = sh.peerConnectionObsMap
  length : sh'.observers.length = sh.observers.length
  obs : ∀ o, (sh'.obs o).alive = (sh.obs o).alive ∧ (sh'.obs o).peerid = (sh.obs o).peerid ∧
    (sh'.obs o).pc.isSome = (sh.obs o).pc.isSome

namespace SameOwners

variable {sh sh' sh'' : Shared}

theorem refl (sh : Shared) : SameOwners sh sh := ⟨rfl, rfl, fun _ => ⟨rfl, rfl, rfl⟩⟩

theorem trans (h : SameOwners sh sh') (h' : SameOwners sh' sh'') : SameOwners sh sh'' where
  map := h'.map.trans h.map
  length := h'.length.trans h.length
  obs o := ⟨(h'.obs o).1.trans (h.obs o).1, (h'.obs o).2.1.trans (h.obs o).2.1,
    (h'.obs o).2.2.trans (h.obs o).2.2⟩

theorem touch (sh : Shared) (o : ObsId) : SameOwners sh (sh.touch o) :=
  ⟨by simp, by simp, fun _ => by simp⟩

theorem touchRegistered (sh : Shared) : SameOwners sh sh.touchRegistered :=
  ⟨by simp, by simp, fun _ => by simp⟩

theorem addSender (sh : Shared) (o : ObsId) (s : Sender) : SameOwners sh (sh.addSender o s) where
  map := rfl
  length := by simp
  obs o' := by
    rw [Shared.addSender_obs]
    split <;> simp

theorem readMember (caller : Caller) (sh : Shared) : SameOwners sh (caller.readMember sh) := by
  cases caller with
  | detached o => exact touch sh o
  | client => exact refl sh
  | evict r => exact refl sh

theorem logPeerId (caller : Caller) (cfg : Config) (sh : Shared) :
    SameOwners sh (caller.logPeerId cfg sh) := by
  unfold Caller.logPeerId
  split
  · exact readMember caller sh
  · exact refl sh

end SameOwners

theorem readMember_streams (caller : Caller) (sh : Shared) :
    (caller.readMember sh).streamMap = sh.streamMap ∧
      ∀ o, (caller.readMember sh).obs o = sh.obs o := by
  cases caller <;> simp [Caller.readMember]

theorem logPeerId_streams (caller : Caller) (cfg : Config) (sh : Shared) :
    (caller.logPeerId cfg sh).streamMap = sh.streamMap ∧
      ∀ o, (caller.logPeerId cfg sh).obs o = sh.obs o := by
  unfold Caller.logPeerId
  split
  · exact readMember_streams caller sh
  · exact ⟨rfl, fun _ => rfl⟩

theorem Shared.attachTrack_cases {sh sh' : Shared} {o : ObsId} {l : Label} {kind : Kind}
    {source : Option Source} {track added ret : Bool}
    (h : sh.attachTrack o l kind source track added = .ok (sh', ret)) :
    sh' = sh ∨ ∃ src, source = some src ∧ (sh.obs o).pc.isSome = true ∧
      sh' = sh.addSender o ⟨[l], kind, src⟩ := by
  unfold attachTrack at h
  split at h
  · cases h
    exact .inl rfl
  · rename_i src
    split at h
    · cases h
      exact .inl rfl
    · split at h
      · cases h
      · rename_i hsome
        split at h <;> cases h
        · exact .inr ⟨src, rfl, by simpa [Option.isSome_iff_ne_none] using hsome, rfl⟩
        · exact .inl rfl

theorem SameOwners.attachTrack {sh sh' : Shared} {o : ObsId} {l : Label} {kind : Kind}
    {source : Option Source} {track added ret : Bool}
    (h : sh.attachTrack o l kind source track added = .ok (sh', ret)) : SameOwners sh sh' := by
  rcases Shared.attachTrack_cases h with rfl | ⟨src, _, _, rfl⟩
  · exact .refl _
  · exact .addSender _ _ _

/-- What a step of thread `t` at `pc` does to the peer map and the observers. -/
inductive Effect (cfg : Config) (e : Env) (t : Tid) (sh : Shared) :
    Pc → Shared → Pc → Prop where
  | keep {pc pc' : Pc} {sh' : Shared} (same : SameOwners sh sh')
      (holds : ∀ o, pc'.holds = some o → pc.holds = some o)
      (creating : ∀ x, pc'.creating = some x → pc.creating = some x)
      (entries : (events cfg e t sh pc).filterMap Event.peerEntry = [])
      (deletions : (events cfg e t sh pc).filterMap Event.deletion = []) :
      Effect cfg e t sh pc sh' pc'
  | construct (r : Request) (connected : Bool) (time : UInt64) :
      Effect cfg e t sh (.construct r) (sh.construct r.peerid connected time)
        (.opened r sh.observers.length)
  | register {pc' : Pc} (r : Request) (o : ObsId) (holds : pc'.holds = none)
      (creating : pc'.creating = some (r, o)) :
      Effect cfg e t sh (.register r o) (sh.registerPeer r.peerid o) pc'
  | take (caller : Caller) (peerid : PeerId) (o : ObsId)
      (found : sh.peerConnectionObsMap[caller.target e sh peerid]? = some o) :
      Effect cfg e t sh (.hangUp caller peerid .take)
        ((caller.readMember sh).erasePeer (caller.target e sh peerid))
        (.hangUp caller (caller.target e sh peerid) (.senders o))
  | delete {pc pc' : Pc} {sh₁ : Shared} (o : ObsId) (same : SameOwners sh sh₁)
      (holds : pc.holds = some o) (holds' : pc'.holds = none) (creating : pc'.creating = none)
      (entries : (events cfg e t sh pc).filterMap Event.peerEntry = [])
      (deletions : (events cfg e t sh pc).filterMap Event.deletion = [o])
      (position : (∃ caller peerid, pc = .hangUp caller peerid (.destroy o)) ∨
        ∃ r, pc = .opened r o ∧ (sh.obs o).pc.isNone = true) :
      Effect cfg e t sh pc (sh₁.deleteObserver o) pc'

variable {cfg : Config} {t : Tid} {e : Env} {sh sh' : Shared} {pc' : Pc}

theorem Executed.effect {pc : Pc} (hx : Executed cfg e sh pc sh' pc') :
    Effect cfg e t sh pc sh' pc' := by
  cases hx with
  | accepted | refused | unavailable | setup | found | missing | created | lost | replied |
      scanned | unlabelled =>
    exact .keep (.refl sh) (by simp [Pc.holds, Pc.failed]) (by simp [Pc.creating, Pc.failed])
      rfl rfl
  | room r _ | evicting r _ =>
    refine .keep ?_ (by simp [Pc.holds]) (by simp [Pc.creating]) rfl rfl
    split
    · exact .touchRegistered sh
    · exact .refl sh
  | constructed r _ => exact .construct r _ _
  | offering r o offer =>
    exact .keep (.touch sh o) (by simp [Pc.holds, offer]) (by simp [Pc.creating])
      (by simp [events, offer]) (by simp [events, offer])
  | discarded r o answer null =>
    exact .delete o (.touch sh o) rfl rfl rfl (by simp [events, answer, null, Event.peerEntry])
      (by simp [events, answer, null, Event.deletion]) (.inr ⟨r, rfl, null⟩)
  | answering r o _ connected =>
    have hsome : (sh.obs o).pc ≠ none := Option.isSome_iff_ne_none.mp connected
    exact .keep (.touch sh o) (by simp [Pc.holds]) (by simp [Pc.creating])
      (by simp [events, hsome]) (by simp [events, hsome])
  | registered r o =>
    refine .register r o ?_ ?_
    · split <;> simp_all [Pc.holds]
    · split <;> simp [Pc.creating]
  | stored r o pair _ =>
    refine .keep ⟨rfl, rfl, fun _ => ⟨rfl, rfl, rfl⟩⟩ (by simp [Pc.holds]) (by simp [Pc.creating])
      ?_ ?_
    · simp only [events]
      split <;> rfl
    · simp only [events]
      split <;> rfl
  | locked =>
    exact .keep ⟨rfl, rfl, fun _ => ⟨rfl, rfl, rfl⟩⟩ (by simp [Pc.holds]) (by simp [Pc.creating])
      rfl rfl
  | video r o pair ret attached =>
    exact .keep (.attachTrack attached) (by simp [Pc.holds]) (by simp [Pc.creating]) rfl rfl
  | audio r o pair ret ret' attached =>
    have hsame := SameOwners.attachTrack attached
    refine .keep ⟨hsame.map, hsame.length, hsame.obs⟩ ?_ ?_ rfl rfl
    all_goals
      obtain ⟨hnext, _⟩ | ⟨hnext, hoffer⟩ | ⟨hnext, hoffer⟩ := afterStreams_cases r o (ret || ret')
    · simp [hnext, Pc.holds, Pc.failed]
    · simp [hnext, Pc.holds, hoffer]
    · simp [hnext, Pc.holds]
    · simp [hnext, Pc.creating, Pc.failed]
    · simp [hnext, Pc.creating]
    · simp [hnext, Pc.creating]
  | described r o _ =>
    refine .keep (.refl sh) ?_ ?_ rfl rfl
    · split <;> simp [Pc.holds]
    · split <;> simp [Pc.creating]
  | gathered r o retry | gathering r o retry =>
    exact .keep (.touch sh o) (by simp [Pc.holds]) (by simp [Pc.creating]) rfl rfl
  | entered caller peerid =>
    exact .keep ((SameOwners.readMember caller sh).trans (.logPeerId caller cfg _))
      (by simp [Pc.holds]) (by simp [Pc.creating]) rfl rfl
  | unknown caller peerid absent =>
    exact .keep (.readMember caller sh) (by simp [Pc.holds]) (by simp [Pc.creating])
      (by simp [events, absent]) (by simp [events, absent])
  | took caller peerid o present => exact .take caller peerid o present
  | listed caller peerid o =>
    exact .keep (.touch sh o) (by simp [Pc.holds]) (by simp [Pc.creating]) rfl rfl
  | inUse | unused =>
    exact .keep (.touchRegistered sh) (by simp [Pc.holds]) (by simp [Pc.creating]) rfl rfl
  | closed caller peerid o l rest _ =>
    refine .keep ⟨rfl, rfl, fun _ => ⟨rfl, rfl, rfl⟩⟩ (by simp [Pc.holds]) (by simp [Pc.creating])
      ?_ ?_
    · simp only [events]
      split <;> rfl
    · simp only [events]
      split <;> rfl
  | destroyed caller peerid o =>
    exact .delete o (.refl sh) rfl rfl rfl rfl rfl (.inl ⟨caller, peerid, rfl⟩)
  | resumed caller peerid result =>
    refine .keep (.logPeerId caller cfg sh) ?_ ?_ rfl rfl
    · cases caller <;> simp [Caller.resume, Pc.holds]
    · cases caller <;> simp [Caller.resume, Pc.creating]

theorem Effect.alive {pc : Pc} (h : Effect cfg e t sh pc sh' pc') {o : Nat}
    (halive : (sh.obs o).alive = true) :
    (sh'.obs o).alive = true ∨ (∃ caller peerid, pc = .hangUp caller peerid (.destroy o)) ∨
      ∃ r, pc = .opened r o ∧ (sh.obs o).pc.isNone = true := by
  cases h with
  | keep same => exact .inl ((same.obs o).1.trans halive)
  | construct r connected time =>
    have hlt := Shared.obs_lt_of_alive halive
    rw [Shared.construct_obs, if_neg (by omega)]
    exact .inl halive
  | register r o' => exact .inl halive
  | take caller peerid o' =>
    exact .inl (((SameOwners.readMember caller sh).obs o).1.trans halive)
  | delete o' same _ _ _ _ _ position =>
    by_cases ho : o' = o
    · subst ho
      exact .inr position
    · rw [Shared.deleteObserver_obs, if_neg ho]
      exact .inl ((same.obs o).1.trans halive)

theorem Effect.connected {pc : Pc} (h : Effect cfg e t sh pc sh' pc') {o : Nat}
    (hsome : (sh.obs o).pc.isSome = true) : (sh'.obs o).pc.isSome = true := by
  cases h with
  | keep same => exact (same.obs o).2.2.trans hsome
  | construct r connected time =>
    have hlt := Shared.obs_lt_of_connected hsome
    rw [Shared.construct_obs, if_neg (by omega)]
    exact hsome
  | register r o' => exact hsome
  | take caller peerid o' => exact ((SameOwners.readMember caller sh).obs o).2.2.trans hsome
  | delete o' same =>
    rw [Shared.deleteObserver_obs]
    split <;> exact (same.obs o).2.2.trans hsome

theorem Effect.peerid {pc : Pc} (h : Effect cfg e t sh pc sh' pc') {o : Nat}
    (ho : o < sh.observers.length) : (sh'.obs o).peerid = (sh.obs o).peerid := by
  cases h with
  | keep same => exact (same.obs o).2.1
  | construct r connected time => rw [Shared.construct_obs, if_neg (by omega)]
  | register => rfl
  | take caller => exact ((SameOwners.readMember caller sh).obs o).2.1
  | delete o' same =>
    rw [Shared.deleteObserver_obs]
    split <;> exact (same.obs o).2.1

/-- An observer is in the map under its own peerid, or some single thread may
delete it, or nobody may; and the request it was constructed for is served by a
single thread. Threads are named by their index. -/
structure Owned (sh : Shared) (threads : List Pc) : Prop where
  registered : ∀ (p : PeerId) (o : ObsId), sh.peerConnectionObsMap[p]? = some o →
    (sh.obs o).alive = true ∧ (sh.obs o).peerid = p
  held : ∀ (t : Nat) (pc : Pc) (o : ObsId), threads[t]? = some pc → pc.holds = some o →
    (sh.obs o).alive = true ∧ ∀ p : PeerId, sh.peerConnectionObsMap[p]? ≠ some o
  sole : ∀ (t t' : Nat) (pc pc' : Pc) (o : ObsId), threads[t]? = some pc → threads[t']? = some pc' →
    pc.holds = some o → pc'.holds = some o → t = t'
  named : ∀ (t : Nat) (pc : Pc) (r : Request) (o : Nat), threads[t]? = some pc →
    pc.creating = some (r, o) → o < sh.observers.length ∧ (sh.obs o).peerid = r.peerid
  creator : ∀ (t t' : Nat) (pc pc' : Pc) (r r' : Request) (o : ObsId), threads[t]? = some pc →
    threads[t']? = some pc' → pc.creating = some (r, o) → pc'.creating = some (r', o) → t = t'

namespace Owned

variable {threads : List Pc} {pc : Pc}

theorem initial : Owned .initial [] where
  registered p o h := by simp [Shared.initial] at h
  held t pc o h := by simp at h
  sole t t' pc pc' o h := by simp at h
  named t pc r o h := by simp at h
  creator t t' pc pc' r r' o h := by simp at h

theorem look (h : Owned sh threads) {os : List ObsId} (hos : ∀ o ∈ os, o ∈ sh.registered) :
    os.foldl Shared.touch sh = sh := by
  apply sh.foldl_touch_of_alive
  intro o ho
  obtain ⟨p, hp⟩ := sh.mem_registered.mp (hos o ho)
  exact (h.registered p o hp).1

theorem spawn (h : Owned sh threads) (hholds : pc.holds = none) (hcreating : pc.creating = none) :
    Owned sh (threads ++ [pc]) := by
  have hold : ∀ {j : Nat} {pcj : Pc} {o : ObsId}, (threads ++ [pc])[j]? = some pcj →
      pcj.holds = some o → threads[j]? = some pcj := by
    intro j pcj o hj ho
    rcases Transition.get_push hj with hj | ⟨_, rfl⟩
    · exact hj
    · rw [hholds] at ho
      cases ho
  have hmake : ∀ {j : Nat} {pcj : Pc} {x : Request × ObsId}, (threads ++ [pc])[j]? = some pcj →
      pcj.creating = some x → threads[j]? = some pcj := by
    intro j pcj x hj hx
    rcases Transition.get_push hj with hj | ⟨_, rfl⟩
    · exact hj
    · rw [hcreating] at hx
      cases hx
  exact {
    registered := h.registered
    held := fun j pcj o hj ho => h.held j pcj o (hold hj ho) ho
    sole := fun j j' pcj pcj' o hj hj' ho ho' =>
      h.sole j j' pcj pcj' o (hold hj ho) (hold hj' ho') ho ho'
    named := fun j pcj r o hj hx => h.named j pcj r o (hmake hj hx) hx
    creator := fun j j' pcj pcj' r r' o hj hj' hx hx' =>
      h.creator j j' pcj pcj' r r' o (hmake hj hx) (hmake hj' hx') hx hx' }

theorem shrink (h : Owned sh threads) (hpos : threads[t]? = some pc)
    (hholds : ∀ o, pc'.holds = some o → pc.holds = some o)
    (hcreating : ∀ x, pc'.creating = some x → pc.creating = some x) :
    Owned sh (threads.set t pc') := by
  have hold : ∀ {j : Nat} {pcj : Pc} {o : ObsId}, (threads.set t pc')[j]? = some pcj →
      pcj.holds = some o → ∃ pc₀, threads[j]? = some pc₀ ∧ pc₀.holds = some o := by
    intro j pcj o hj ho
    rcases Transition.get_set hj with ⟨rfl, rfl⟩ | ⟨_, hj⟩
    · exact ⟨pc, hpos, hholds o ho⟩
    · exact ⟨pcj, hj, ho⟩
  have hmake : ∀ {j : Nat} {pcj : Pc} {x : Request × ObsId}, (threads.set t pc')[j]? = some pcj →
      pcj.creating = some x → ∃ pc₀, threads[j]? = some pc₀ ∧ pc₀.creating = some x := by
    intro j pcj x hj hx
    rcases Transition.get_set hj with ⟨rfl, rfl⟩ | ⟨_, hj⟩
    · exact ⟨pc, hpos, hcreating x hx⟩
    · exact ⟨pcj, hj, hx⟩
  refine ⟨h.registered, fun j pcj o hj ho => ?_, fun j j' pcj pcj' o hj hj' ho ho' => ?_,
    fun j pcj r o hj hx => ?_, fun j j' pcj pcj' r r' o hj hj' hx hx' => ?_⟩
  · obtain ⟨pc₀, hj₀, ho₀⟩ := hold hj ho
    exact h.held j pc₀ o hj₀ ho₀
  · obtain ⟨pc₀, hj₀, ho₀⟩ := hold hj ho
    obtain ⟨pc₁, hj₁, ho₁⟩ := hold hj' ho'
    exact h.sole j j' pc₀ pc₁ o hj₀ hj₁ ho₀ ho₁
  · obtain ⟨pc₀, hj₀, hx₀⟩ := hmake hj hx
    exact h.named j pc₀ r o hj₀ hx₀
  · obtain ⟨pc₀, hj₀, hx₀⟩ := hmake hj hx
    obtain ⟨pc₁, hj₁, hx₁⟩ := hmake hj' hx'
    exact h.creator j j' pc₀ pc₁ r r' o hj₀ hj₁ hx₀ hx₁

theorem congr (h : Owned sh threads) (same : SameOwners sh sh') : Owned sh' threads where
  registered p o hp := by
    rw [same.map] at hp
    obtain ⟨halive, hid⟩ := h.registered p o hp
    exact ⟨(same.obs o).1.trans halive, (same.obs o).2.1.trans hid⟩
  held j pc o hj ho := by
    obtain ⟨halive, hout⟩ := h.held j pc o hj ho
    exact ⟨(same.obs o).1.trans halive, fun p hp => hout p (same.map ▸ hp)⟩
  sole := h.sole
  named j pc r o hj hx := by
    obtain ⟨hlt, hid⟩ := h.named j pc r o hj hx
    exact ⟨by rw [same.length]; exact hlt, (same.obs o).2.1.trans hid⟩
  creator := h.creator

theorem construct {r : Request} (h : Owned sh threads) (hpos : threads[t]? = some (.construct r))
    (connected : Bool) (time : UInt64) :
    Owned (sh.construct r.peerid connected time)
      (threads.set t (.opened r sh.observers.length)) := by
  have hobs : ∀ o : Nat, o < sh.observers.length →
      (sh.construct r.peerid connected time).obs o = sh.obs o := by
    intro o ho
    rw [Shared.construct_obs, if_neg (by omega)]
  have hlt : ∀ (j : Nat) (pc : Pc) (o : Nat), threads[j]? = some pc → pc.holds = some o →
      o < sh.observers.length := fun j pc o hj ho => Shared.obs_lt_of_alive (h.held j pc o hj ho).1
  refine ⟨fun p o hp => ?_, fun j pcj o hj ho => ?_, fun j j' pcj pcj' o hj hj' ho ho' => ?_,
    fun j pcj r' o hj hx => ?_, fun j j' pcj pcj' r₁ r₂ o hj hj' hx hx' => ?_⟩
  · have hreg := h.registered p o hp
    rw [hobs o (Shared.obs_lt_of_alive hreg.1)]
    exact hreg
  · rcases Transition.get_set hj with ⟨_, rfl⟩ | ⟨_, hj⟩
    · cases ho
      refine ⟨by simp, fun p hp => ?_⟩
      have := Shared.obs_lt_of_alive (h.registered p _ hp).1
      omega
    · rw [hobs o (hlt j pcj o hj ho)]
      exact h.held j pcj o hj ho
  · rcases Transition.get_set hj with ⟨rfl, rfl⟩ | ⟨_, hold⟩ <;>
      rcases Transition.get_set hj' with ⟨rfl, rfl⟩ | ⟨_, hold'⟩
    · rfl
    · cases ho
      have := hlt j' pcj' _ hold' ho'
      omega
    · cases ho'
      have := hlt j pcj _ hold ho
      omega
    · exact h.sole j j' pcj pcj' o hold hold' ho ho'
  · rcases Transition.get_set hj with ⟨_, rfl⟩ | ⟨_, hj⟩
    · cases hx
      exact ⟨by simp, by simp⟩
    · obtain ⟨ho, hid⟩ := h.named j pcj r' o hj hx
      rw [hobs o ho]
      exact ⟨by rw [Shared.construct_length]; omega, hid⟩
  · rcases Transition.get_set hj with ⟨rfl, rfl⟩ | ⟨_, hold⟩ <;>
      rcases Transition.get_set hj' with ⟨rfl, rfl⟩ | ⟨_, hold'⟩
    · rfl
    · cases hx
      have := (h.named j' pcj' r₂ _ hold' hx').1
      omega
    · cases hx'
      have := (h.named j pcj r₁ _ hold hx).1
      omega
    · exact h.creator j j' pcj pcj' r₁ r₂ o hold hold' hx hx'

theorem register {r : Request} {o : ObsId} (h : Owned sh threads)
    (hpos : threads[t]? = some (.register r o)) (hholds : pc'.holds = none)
    (hcreating : pc'.creating = some (r, o)) :
    Owned (sh.registerPeer r.peerid o) (threads.set t pc') := by
  have hself := h.held t _ o hpos rfl
  have hkeep : Owned sh (threads.set t pc') := h.shrink hpos (by simp [hholds])
    (fun x hx => by rw [hcreating] at hx; exact hx)
  refine ⟨fun p o' hp => ?_, fun j pcj o' hj ho => ?_, hkeep.sole, hkeep.named, hkeep.creator⟩
  · rcases Shared.registerPeer_lookup hp with hp | ⟨_, rfl, rfl⟩
    · exact h.registered p o' hp
    · exact ⟨hself.1, (h.named t _ r o' hpos rfl).2⟩
  · obtain ⟨halive, hout⟩ := hkeep.held j pcj o' hj ho
    refine ⟨halive, fun p hp => ?_⟩
    rcases Shared.registerPeer_lookup hp with hp | ⟨_, _, rfl⟩
    · exact hout p hp
    · rcases Transition.get_set hj with ⟨_, rfl⟩ | ⟨hne, hj⟩
      · rw [hholds] at ho
        cases ho
      · exact hne (h.sole j t pcj _ o' hj hpos ho rfl)

theorem take {caller : Caller} {given peerid : PeerId} {o : ObsId} (h : Owned sh threads)
    (hpos : threads[t]? = some (.hangUp caller given .take))
    (hfound : sh.peerConnectionObsMap[peerid]? = some o) :
    Owned (sh.erasePeer peerid) (threads.set t (.hangUp caller peerid (.senders o))) := by
  refine ⟨fun p o' hp => h.registered p o' (Shared.erasePeer_lookup hp).2, fun j pcj o' hj ho => ?_,
    fun j j' pcj pcj' o' hj hj' ho ho' => ?_, fun j pcj r o' hj hx => ?_,
    fun j j' pcj pcj' r₁ r₂ o' hj hj' hx hx' => ?_⟩
  · rcases Transition.get_set hj with ⟨_, rfl⟩ | ⟨_, hj⟩
    · cases ho
      refine ⟨(h.registered peerid o hfound).1, fun p hp => ?_⟩
      obtain ⟨hne, hp⟩ := Shared.erasePeer_lookup hp
      exact hne ((h.registered p o hp).2.symm.trans (h.registered peerid o hfound).2)
    · obtain ⟨halive, hout⟩ := h.held j pcj o' hj ho
      exact ⟨halive, fun p hp => hout p (Shared.erasePeer_lookup hp).2⟩
  · rcases Transition.get_set hj with ⟨rfl, rfl⟩ | ⟨_, hold⟩ <;>
      rcases Transition.get_set hj' with ⟨rfl, rfl⟩ | ⟨_, hold'⟩
    · rfl
    · cases ho
      exact absurd hfound ((h.held j' pcj' o hold' ho').2 peerid)
    · cases ho'
      exact absurd hfound ((h.held j pcj o hold ho).2 peerid)
    · exact h.sole j j' pcj pcj' o' hold hold' ho ho'
  · rcases Transition.get_set hj with ⟨_, rfl⟩ | ⟨_, hj⟩
    · cases hx
    · exact h.named j pcj r o' hj hx
  · rcases Transition.get_set hj with ⟨_, rfl⟩ | ⟨_, hold⟩ <;>
      rcases Transition.get_set hj' with ⟨_, rfl⟩ | ⟨_, hold'⟩
    · cases hx
    · cases hx
    · cases hx'
    · exact h.creator j j' pcj pcj' r₁ r₂ o' hold hold' hx hx'

theorem delete {pc : Pc} {o : ObsId} (h : Owned sh threads) (hpos : threads[t]? = some pc)
    (hholds : pc.holds = some o) (hholds' : pc'.holds = none) (hcreating : pc'.creating = none) :
    Owned (sh.deleteObserver o) (threads.set t pc') := by
  have hself := h.held t pc o hpos hholds
  have hkeep : Owned sh (threads.set t pc') :=
    h.shrink hpos (by simp [hholds']) (by simp [hcreating])
  have hmap := sh.deleteObserver_peerConnectionObsMap o
  have hid : ∀ o', ((sh.deleteObserver o).obs o').peerid = (sh.obs o').peerid := by
    intro o'
    rw [Shared.deleteObserver_obs]
    split <;> rfl
  have hother : ∀ o', o' ≠ o → (sh.deleteObserver o).obs o' = sh.obs o' := by
    intro o' hne
    rw [Shared.deleteObserver_obs, if_neg hne.symm]
  refine ⟨fun p o' hp => ?_, fun j pcj o' hj ho => ?_, hkeep.sole, fun j pcj r o' hj hx => ?_,
    hkeep.creator⟩
  · rw [hmap] at hp
    have hne : o' ≠ o := fun heq => hself.2 p (heq ▸ hp)
    rw [hother o' hne]
    exact h.registered p o' hp
  · rcases Transition.get_set hj with ⟨_, rfl⟩ | ⟨hjt, hj⟩
    · rw [hholds'] at ho
      cases ho
    · have hne : o' ≠ o := fun heq => hjt (h.sole j t pcj pc o hj hpos (heq ▸ ho) hholds)
      rw [hother o' hne, hmap]
      exact h.held j pcj o' hj ho
  · obtain ⟨hlt, hname⟩ := hkeep.named j pcj r o' hj hx
    exact ⟨by simpa using hlt, (hid o').trans hname⟩

theorem effect {pc : Pc} (h : Owned sh threads) (hpos : threads[t]? = some pc)
    (heffect : Effect cfg e t sh pc sh' pc') : Owned sh' (threads.set t pc') := by
  cases heffect with
  | keep same holds creating _ _ => exact (h.shrink hpos holds creating).congr same
  | construct r connected time => exact h.construct hpos connected time
  | register r o holds creating => exact h.register hpos holds creating
  | take caller peerid o found =>
    have hread := (h.congr (SameOwners.readMember caller sh)).take hpos
      (by rw [(SameOwners.readMember caller sh).map]; exact found)
    exact hread
  | delete o same holds holds' creating _ _ _ =>
    exact (h.congr same).delete hpos holds holds' creating

theorem step {s s' : State} {a : Action} (h : Owned s.shared s.threads)
    (hs : WebrtcStreamer.step cfg s a = some s') : Owned s'.shared s'.threads := by
  cases step_stepped hs with
  | request r => exact h.spawn rfl rfl
  | hangUp peerid => exact h.spawn rfl rfl
  | iceClosed o _ _ => exact h.spawn rfl rfl
  | look os hos =>
    rw [h.look hos]
    exact h
  | crash t e f => exact h
  | run hpos hx => exact h.effect hpos hx.effect

end Owned

theorem Reachable.owned {s : State} (h : Reachable cfg s) : Owned s.shared s.threads :=
  h.invariant (fun s => Owned s.shared s.threads) .initial fun _ _ _ hi _ hs => hi.step hs

end WebrtcStreamer
