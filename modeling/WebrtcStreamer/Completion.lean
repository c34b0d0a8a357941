import WebrtcStreamer.Draining
import WebrtcStreamer.ObserverLeaks
import WebrtcStreamer.StreamsInUse

/-! Every request comes to its end. The only thing a thread ever waits for is
`m_streamMapMutex`; the `AddStreams` that holds it over several sections can
always go on, and no thread has endlessly many sections before it. -/

set_option autoImplicit false

namespace WebrtcStreamer

open Draining

/-- The position that a thread has come to: the number of the section, counted
from the end, then what is left of a loop. -/
def HangPc.rank : HangPc → Nat ×ₗ Nat
  | .enter => toLex (20, 0)
  | .take => toLex (19, 0)
  | .senders _ => toLex (18, 0)
  | .scan _ rest => toLex (17, 2 * rest.length)
  | .close _ _ rest => toLex (17, 2 * rest.length + 1)
  | .destroy _ => toLex (16, 0)
  | .answer _ => toLex (15, 0)

def StreamsPc.rank : StreamsPc → Nat ×ₗ Nat
  | .setup => toLex (11, 0)
  | .lookup => toLex (10, 0)
  | .create => toLex (9, 0)
  | .store _ => toLex (8, 0)
  | .final => toLex (7, 0)
  | .video _ => toLex (6, 0)
  | .audio _ _ => toLex (5, 0)

/-- `createOffer` registers its peer after `AddStreams`, `getAnswer` before. -/
def Pc.rank : Pc → Nat ×ₗ Nat
  | .accept _ => toLex (22, 0)
  | .oldest _ => toLex (21, 0)
  | .hangUp _ _ h => h.rank
  | .construct _ => toLex (14, 0)
  | .opened _ _ => toLex (13, 0)
  | .register r _ => toLex (if r.api = .createOffer then 4 else 12, 0)
  | .streams _ _ a => a.rank
  | .describe _ _ => toLex (3, 0)
  | .gather _ _ retry => toLex (2, retry)
  | .await _ _ => toLex (1, 0)
  | .done _ => toLex (0, 0)

def Pc.holdsLock (pc : Pc) : Bool := pc.attaching.isSome

section Sections

variable {cfg : Config} {e : Env} {sh sh' : Shared} {pc pc' : Pc}

theorem rank_lt {a b c d : Nat} (h : a < c ∨ a = c ∧ b < d) :
    toLex (a, b) < toLex (c, d) := Prod.Lex.toLex_lt_toLex.mpr h

theorem Executed.rank_lt (hx : Executed cfg e sh pc sh' pc') : pc'.rank < pc.rank := by
  cases hx with
  | answering r o answer => exact WebrtcStreamer.rank_lt (by simp [answer])
  | registered r o =>
    by_cases hoffer : r.api = .createOffer
    · rw [if_pos hoffer]
      exact WebrtcStreamer.rank_lt (by simp [hoffer])
    · rw [if_neg hoffer]
      exact WebrtcStreamer.rank_lt (by simp [hoffer])
  | audio r o pair ret ret' =>
    obtain ⟨hnext, _⟩ | ⟨hnext, hoffer⟩ | ⟨hnext, _⟩ := afterStreams_cases r o (ret || ret')
    · rw [hnext]
      exact WebrtcStreamer.rank_lt (by simp)
    · rw [hnext]
      exact WebrtcStreamer.rank_lt (by simp [hoffer])
    · rw [hnext]
      exact WebrtcStreamer.rank_lt (by simp)
  | described r o =>
    split
    · exact WebrtcStreamer.rank_lt (by simp)
    · exact WebrtcStreamer.rank_lt (by simp)
  | resumed caller peerid result =>
    cases caller <;> exact WebrtcStreamer.rank_lt (by simp)
  | unused => exact WebrtcStreamer.rank_lt (.inr ⟨rfl, by rw [List.length_cons]; omega⟩)
  | _ => exact WebrtcStreamer.rank_lt (by simp)

theorem exec_blocked (h : exec cfg e sh pc = .blocked) :
    pc.finished = true ∨ sh.streamMapLocked = true ∧ pc.holdsLock = false := by
  cases pc with
  | done reply => exact .inl rfl
  | hangUp caller peerid hp =>
    cases hp with
    | close o l rest =>
      simp only [exec, execHangUp] at h
      split at h
      · rename_i hlocked
        exact .inr ⟨hlocked, rfl⟩
      · cases h
    | take =>
      simp only [exec, execHangUp] at h
      split at h <;> cases h
    | senders o =>
      simp only [exec, execHangUp] at h
      split at h <;> cases h
    | scan o rest =>
      rcases rest with _ | ⟨_ | ⟨l, ls⟩, rest⟩
      · cases h
      · cases h
      · simp only [exec, execHangUp] at h
        split at h <;> cases h
    | enter | destroy | answer => cases h
  | streams r o a =>
    cases a with
    | lookup | store =>
      simp only [exec, execStreams] at h
      split at h
      · rename_i hlocked
        exact .inr ⟨hlocked, rfl⟩
      · cases h
    | final =>
      simp only [exec, execStreams] at h
      split at h
      · rename_i hlocked
        exact .inr ⟨hlocked, rfl⟩
      · split at h <;> cases h
    | setup | video | audio =>
      simp only [exec, execStreams] at h
      split at h <;> cases h
    | create => cases h
  | gather r o retry => cases retry <;> cases h
  | accept | construct | describe =>
    simp only [exec] at h
    split at h <;> cases h
  | opened r o =>
    simp only [exec] at h
    split at h
    · cases h
    · split at h <;> cases h
  | _ => cases h

theorem Executed.holdsLock (hx : Executed cfg e sh pc sh' pc')
    (hlocked : sh'.streamMapLocked = true) :
    pc'.holdsLock = true ∨ sh.streamMapLocked = true ∧ pc.holdsLock = false := by
  cases hx with
  | locked | video => exact .inl rfl
  | audio => cases hlocked
  | room | evicting =>
    split at hlocked
    · exact .inr ⟨by simpa using hlocked, rfl⟩
    · exact .inr ⟨hlocked, rfl⟩
  | entered caller | unknown caller | took caller | resumed caller =>
    refine .inr ⟨?_, rfl⟩
    simpa [logPeerId_lock, readMember_lock, Shared.erasePeer] using hlocked
  | discarded | destroyed =>
    exact .inr ⟨by simpa [Shared.deleteObserver, Shared.modifyObs] using hlocked, rfl⟩
  | offering | answering | gathered | gathering | listed | inUse | unused =>
    exact .inr ⟨by simpa using hlocked, rfl⟩
  | _ => exact .inr ⟨hlocked, rfl⟩

end Sections

/-! ### All threads together -/

def LockHeld (s : State) : Prop :=
  s.shared.streamMapLocked = true → ∃ pc ∈ s.threads, pc.holdsLock = true

section Runs

variable {cfg : Config} {s s' : State}

theorem LockHeld.step {a : Action} (h : LockHeld s)
    (hs : WebrtcStreamer.step cfg s a = some s') : LockHeld s' := by
  intro hlocked
  cases step_stepped hs with
  | request | hangUp | iceClosed =>
    obtain ⟨pc, hmem, hholds⟩ := h hlocked
    exact ⟨pc, List.mem_append_left _ hmem, hholds⟩
  | crash => exact h hlocked
  | look os =>
    rw [(Shared.foldl_touch os s.shared).2.2.1] at hlocked
    exact h hlocked
  | @run t e pc pc' sh hpos hx =>
    have hlt : t < s.threads.length := (List.getElem?_eq_some_iff.mp hpos).1
    rcases hx.holdsLock hlocked with hholds | ⟨hbefore, hnot⟩
    · exact ⟨pc', List.mem_set hlt pc', hholds⟩
    · obtain ⟨pc₀, hmem, hholds⟩ := h hbefore
      obtain ⟨t₀, hpos₀⟩ := List.mem_iff_getElem?.mp hmem
      have hne : t ≠ t₀ := by
        rintro rfl
        rw [hpos] at hpos₀
        cases hpos₀
        rw [hnot] at hholds
        cases hholds
      refine ⟨pc₀, List.mem_iff_getElem?.mpr ⟨t₀, ?_⟩, hholds⟩
      rw [List.getElem?_set_ne hne]
      exact hpos₀

theorem Reachable.lockHeld (h : Reachable cfg s) : LockHeld s :=
  h.invariant LockHeld (fun hlocked => by cases hlocked) fun _ _ _ hi _ hs => hi.step hs

def Runs (cfg : Config) (s s' : State) : Prop := ∃ t e, step cfg s (.run t e) = some s'

def State.Finished (s : State) : Prop :=
  s.fault.isSome = true ∨ ∀ pc ∈ s.threads, pc.finished = true

theorem step_run_isSome {t : Nat} {e : Env} {pc : Pc} (hfault : s.fault.isSome = false)
    (hpos : s.threads[t]? = some pc) (hfree : exec cfg e s.shared pc ≠ .blocked) :
    ∃ s', step cfg s (.run t e) = some s' := by
  simp only [step, hfault, Bool.false_eq_true, if_false, hpos]
  cases hexec : exec cfg e s.shared pc with
  | blocked => exact absurd hexec hfree
  | fault f => exact ⟨_, rfl⟩
  | next sh pc' => exact ⟨_, rfl⟩

/-- As long as there is work left, some thread can go on, whatever is answered to it. -/
theorem LockHeld.progress (h : LockHeld s) (hwork : ¬ s.Finished) :
    ∃ t, ∀ e, ∃ s', WebrtcStreamer.step cfg s (.run t e) = some s' := by
  simp only [State.Finished, not_or, Bool.not_eq_true, not_forall] at hwork
  obtain ⟨hfault, pc, hmem, hunfinished⟩ := hwork
  cases hlocked : s.shared.streamMapLocked with
  | false =>
    obtain ⟨t, hpos⟩ := List.mem_iff_getElem?.mp hmem
    refine ⟨t, fun e => step_run_isSome hfault hpos fun hblocked => ?_⟩
    rcases exec_blocked hblocked with hfinished | ⟨hheld, _⟩
    · exact Bool.noConfusion (hfinished.symm.trans hunfinished)
    · exact Bool.noConfusion (hheld.symm.trans hlocked)
  | true =>
    obtain ⟨holder, hholder, hholds⟩ := h hlocked
    obtain ⟨t, hpos⟩ := List.mem_iff_getElem?.mp hholder
    refine ⟨t, fun e => step_run_isSome hfault hpos fun hblocked => ?_⟩
    rcases exec_blocked hblocked with hfinished | ⟨_, hnot⟩
    · cases holder <;> first | cases hholds | cases hfinished
    · exact Bool.noConfusion (hnot.symm.trans hholds)

def Descent (s' s : State) : Prop :=
  Prod.Lex (· < ·) (Lowers fun pc' pc : Pc => pc'.rank < pc.rank)
    (if s'.fault.isSome then 0 else 1, s'.threads) (if s.fault.isSome then 0 else 1, s.threads)

theorem descent_wellFounded : WellFounded Descent :=
  InvImage.wf _ (Nat.lt_wfRel.wf.prod_lex
    (lowers_wellFounded (InvImage.wf Pc.rank wellFounded_lt)))

theorem step_fault {a : Action} (hs : step cfg s a = some s') : s.fault.isSome = false := by
  unfold step at hs
  split at hs
  · cases hs
  · rename_i hfault
    simpa using hfault

theorem Runs.descent (h : Runs cfg s s') : Descent s' s := by
  obtain ⟨t, e, hs⟩ := h
  have hfault := step_fault hs
  obtain ⟨pc, hpos, ⟨f, _, rfl⟩ | ⟨sh, pc', hx, rfl⟩⟩ := step_run hs
  · exact .left _ _ (by simp [hfault])
  · exact .right _ ⟨t, pc, pc', hpos, hx.rank_lt, rfl⟩

theorem Reachable.drains (h : Reachable cfg s) : Drains (Runs cfg) State.Finished s := by
  refine .of_descent descent_wellFounded LockHeld
    (fun _ _ hi ⟨t, e, hs⟩ => hi.step hs) (fun _ _ _ hmove => hmove.descent)
    (fun s hi => ?_) h.lockHeld
  by_cases hdone : s.Finished
  · exact .inl hdone
  · obtain ⟨t, hgo⟩ := hi.progress hdone
    obtain ⟨s', hs⟩ := hgo (.fine 0)
    exact .inr ⟨s', t, .fine 0, hs⟩

end Runs

end WebrtcStreamer
