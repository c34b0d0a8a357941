import WebrtcStreamer.Transition

/-! A queue under a mutex with a condition variable: any number of producers, one
consumer that handles the entries in a loop, and a request to stop that raises a
flag outside of the mutex and pushes an entry of its own.

A step is a critical section, a call of `notify_all` or a step of the consumer.
The mutex is free whenever the consumer does not hold it, since every other
critical section is one step. -/

set_option autoImplicit false

namespace MessageQueue

inductive Position (α : Type*) where
  /-- it tests the flag -/
  | test
  /-- it wants the mutex, for the first time or after it has been woken -/
  | lock
  /-- it holds the mutex and looks at the queue -/
  | locked
  /-- it sleeps on the condition variable -/
  | waiting
  | handling (a : α)
  | left
  deriving DecidableEq, Repr

inductive Stopper where
  | idle | raised | posted | joining | joined
  deriving DecidableEq, Repr

structure State (α σ ρ : Type*) where
  queue : List α
  stop : Bool
  stopper : Stopper
  /-- the producers that have pushed and not yet notified -/
  unnotified : Nat
  position : Position α
  /-- what the handling of entries reads and writes -/
  worker : σ
  /-- Ghost: all entries ever pushed. -/
  posted : List α
  /-- Ghost: the entries that have been handled, with the outcome of each. -/
  handled : List (α × ρ)
  /-- Ghost: how many had been handled when the entry of the stop was pushed. -/
  handledAtStop : Option Nat

inductive Action (α ρ : Type*) where
  | post (a : α)
  | notify
  | raiseStop
  | postStop
  | notifyStop
  | join
  | test
  | acquire
  | look
  /-- a wakeup without a notification -/
  | spurious
  | handle (r : ρ)
  deriving DecidableEq, Repr

variable {α σ ρ : Type*}

namespace Position

def holdsMutex : Position α → Bool
  | .locked => true
  | _ => false

def current : Position α → List α
  | .handling a => [a]
  | _ => []

def fetching : Position α → Bool
  | .lock | .locked | .waiting => true
  | _ => false

def wake : Position α → Position α
  | .waiting => .lock
  | p => p

/-- How many steps the consumer is away from its end once it is to stop. -/
def rank : Position α → Nat
  | .left => 0
  | .test => 1
  | .handling _ => 2
  | .locked => 3
  | .lock => 4
  | .waiting => 5

end Position

namespace Action

def consumes : Action α ρ → Bool
  | .test | .acquire | .look | .handle _ => true
  | _ => false

end Action

def State.initial (worker : σ) : State α σ ρ :=
  ⟨[], false, .idle, 0, .test, worker, [], [], none⟩

def State.push (s : State α σ ρ) (a : α) : State α σ ρ :=
  { s with queue := s.queue ++ [a], posted := s.posted ++ [a] }

variable (stopEntry : α) (handle : σ → α → ρ → σ)

def step (s : State α σ ρ) : Action α ρ → Option (State α σ ρ)
  | .post a =>
    if s.position.holdsMutex then none else some { s.push a with unnotified := s.unnotified + 1 }
  | .notify =>
    if s.unnotified = 0 then none
    else some { s with unnotified := s.unnotified - 1, position := s.position.wake }
  | .raiseStop =>
    if s.stopper = .idle then some { s with stop := true, stopper := .raised } else none
  | .postStop =>
    if s.stopper = .raised ∧ s.position.holdsMutex = false then
      some { s.push stopEntry with stopper := .posted, handledAtStop := some s.handled.length }
    else none
  | .notifyStop =>
    if s.stopper = .posted then some { s with stopper := .joining, position := s.position.wake }
    else none
  | .join =>
    match s.stopper, s.position with
    | .joining, .left => some { s with stopper := .joined }
    | _, _ => none
  | .test =>
    match s.position with
    | .test => some { s with position := if s.stop then .left else .lock }
    | _ => none
  | .acquire =>
    match s.position with
    | .lock => some { s with position := .locked }
    | _ => none
  | .look =>
    match s.position, s.queue with
    | .locked, [] => some { s with position := .waiting }
    | .locked, a :: rest => some { s with position := .handling a, queue := rest }
    | _, _ => none
  | .spurious =>
    match s.position with
    | .waiting => some { s with position := .lock }
    | _ => none
  | .handle r =>
    match s.position with
    | .handling a =>
      some { s with
        position := .test
        worker := handle s.worker a r
        handled := s.handled ++ [(a, r)] }
    | _ => none

def replay (init : σ) (handled : List (α × ρ)) : σ :=
  handled.foldl (fun w x => handle w x.1 x.2) init

/-- After the entry of the stop has been pushed: nothing is fetched from an
empty queue, and one more entry at most is handled. -/
structure Stopping (s : State α σ ρ) (n : Nat) : Prop where
  least : n ≤ s.handled.length
  most : s.handled.length ≤ n + 1
  handling : s.position.current ≠ [] → s.handled.length = n
  fetching : s.position.fetching = true → s.handled.length = n ∧ s.queue ≠ []

structure Invariant (init : σ) (s : State α σ ρ) : Prop where
  fifo : s.posted = s.handled.map Prod.fst ++ s.position.current ++ s.queue
  worker : s.worker = replay handle init s.handled
  flag : s.stopper ≠ .idle → s.stop = true
  asleep : s.position = .waiting → s.queue ≠ [] → 0 < s.unnotified ∨ s.stopper = .posted
  running : s.stopper = .idle ∨ s.stopper = .raised → s.handledAtStop = none
  stopping : s.stopper ≠ .idle → s.stopper ≠ .raised →
    ∃ n, s.handledAtStop = some n ∧ Stopping s n
  joining : s.stopper = .joining ∨ s.stopper = .joined → s.position ≠ .waiting

inductive Stepped (s : State α σ ρ) : Action α ρ → State α σ ρ → Prop where
  | post (a : α) (free : s.position.holdsMutex = false) :
      Stepped s (.post a) { s.push a with unnotified := s.unnotified + 1 }
  | notify (pending : s.unnotified ≠ 0) :
      Stepped s .notify { s with unnotified := s.unnotified - 1, position := s.position.wake }
  | raiseStop (idle : s.stopper = .idle) :
      Stepped s .raiseStop { s with stop := true, stopper := .raised }
  | postStop (raised : s.stopper = .raised) (free : s.position.holdsMutex = false) :
      Stepped s .postStop
        { s.push stopEntry with stopper := .posted, handledAtStop := some s.handled.length }
  | notifyStop (posted : s.stopper = .posted) :
      Stepped s .notifyStop { s with stopper := .joining, position := s.position.wake }
  | join (joining : s.stopper = .joining) (left : s.position = .left) :
      Stepped s .join { s with stopper := .joined }
  | test (test : s.position = .test) :
      Stepped s .test { s with position := if s.stop then .left else .lock }
  | acquire (lock : s.position = .lock) : Stepped s .acquire { s with position := .locked }
  | sleep (locked : s.position = .locked) (empty : s.queue = []) :
      Stepped s .look { s with position := .waiting }
  | fetch (a : α) (rest : List α) (locked : s.position = .locked) (queue : s.queue = a :: rest) :
      Stepped s .look { s with position := .handling a, queue := rest }
  | spurious (waiting : s.position = .waiting) : Stepped s .spurious { s with position := .lock }
  | handle (a : α) (r : ρ) (handling : s.position = .handling a) :
      Stepped s (.handle r) { s with
        position := .test
        worker := handle s.worker a r
        handled := s.handled ++ [(a, r)] }

variable {stopEntry : α} {handle : σ → α → ρ → σ} {init : σ} {s s' : State α σ ρ}

theorem step_stepped {a : Action α ρ} (h : step stopEntry handle s a = some s') :
    Stepped stopEntry handle s a s' := by
  cases a with
  | post a =>
    simp only [step, Option.ite_none_left_eq_some, Option.some.injEq] at h
    obtain ⟨hfree, rfl⟩ := h
    exact .post a (Bool.eq_false_iff.mpr hfree)
  | notify =>
    simp only [step, Option.ite_none_left_eq_some, Option.some.injEq] at h
    obtain ⟨hpending, rfl⟩ := h
    exact .notify hpending
  | raiseStop =>
    simp only [step, Option.ite_none_right_eq_some, Option.some.injEq] at h
    obtain ⟨hidle, rfl⟩ := h
    exact .raiseStop hidle
  | postStop =>
    simp only [step, Option.ite_none_right_eq_some, Option.some.injEq] at h
    obtain ⟨⟨hraised, hfree⟩, rfl⟩ := h
    exact .postStop hraised hfree
  | notifyStop =>
    simp only [step, Option.ite_none_right_eq_some, Option.some.injEq] at h
    obtain ⟨hposted, rfl⟩ := h
    exact .notifyStop hposted
  | join =>
    simp only [step] at h
    split at h
    · rename_i hjoining hleft
      cases h
      exact .join hjoining hleft
    · cases h
  | test =>
    simp only [step] at h
    split at h
    · rename_i htest
      cases h
      exact .test htest
    · cases h
  | acquire =>
    simp only [step] at h
    split at h
    · rename_i hlock
      cases h
      exact .acquire hlock
    · cases h
  | look =>
    simp only [step] at h
    split at h
    · rename_i hlocked hempty
      cases h
      exact .sleep hlocked hempty
    · rename_i a rest hlocked hqueue
      cases h
      exact .fetch a rest hlocked hqueue
    · cases h
  | spurious =>
    simp only [step] at h
    split at h
    · rename_i hwaiting
      cases h
      exact .spurious hwaiting
    · cases h
  | handle r =>
    simp only [step] at h
    split at h
    · rename_i a hhandling
      cases h
      exact .handle a r hhandling
    · cases h

theorem Position.wake_ne_waiting (p : Position α) : p.wake ≠ .waiting := by
  cases p <;> simp [wake]

theorem Position.wake_of_ne {p : Position α} (h : p ≠ .waiting) : p.wake = p := by
  cases p <;> first | rfl | exact absurd rfl h

@[simp] theorem Position.current_wake (p : Position α) : p.wake.current = p.current := by
  cases p <;> rfl

@[simp] theorem Position.fetching_wake (p : Position α) : p.wake.fetching = p.fetching := by
  cases p <;> rfl

theorem replay_append (init : σ) (handled : List (α × ρ)) (x : α × ρ) :
    replay handle init (handled ++ [x]) = handle (replay handle init handled) x.1 x.2 := by
  simp [replay]

theorem Invariant.initial : Invariant handle init (.initial init) where
  fifo := rfl
  worker := rfl
  flag h := absurd rfl h
  asleep h := by cases h
  running _ := rfl
  stopping h := absurd rfl h
  joining h := by rcases h with h | h <;> cases h

theorem Stopping.push {n : Nat} (h : Stopping s n) (a : α) : Stopping (s.push a) n where
  least := h.least
  most := h.most
  handling := h.handling
  fetching hf := ⟨(h.fetching hf).1, by simp [State.push]⟩

theorem Stopping.wake {n : Nat} (h : Stopping s n)
    (hs' : s'.handled = s.handled ∧ s'.queue = s.queue ∧ s'.position = s.position.wake) :
    Stopping s' n := by
  obtain ⟨hhandled, hqueue, hposition⟩ := hs'
  refine ⟨hhandled ▸ h.least, hhandled ▸ h.most, fun hc => ?_, fun hf => ?_⟩
  · rw [hposition, Position.current_wake] at hc
    rw [hhandled]
    exact h.handling hc
  · rw [hposition, Position.fetching_wake] at hf
    rw [hhandled, hqueue]
    exact h.fetching hf

theorem Invariant.post (h : Invariant handle init s) (a : α) :
    Invariant handle init { s.push a with unnotified := s.unnotified + 1 } := by
  refine ⟨?_, h.worker, h.flag, fun _ _ => .inl (Nat.succ_pos _), h.running, fun h₁ h₂ => ?_,
    h.joining⟩
  · simp only [State.push]
    rw [h.fifo, List.append_assoc]
  · obtain ⟨n, hn, hstopping⟩ := h.stopping h₁ h₂
    have hpushed := hstopping.push a
    exact ⟨n, hn, hpushed.least, hpushed.most, hpushed.handling, hpushed.fetching⟩

theorem Invariant.notify (h : Invariant handle init s) :
    Invariant handle init
      { s with unnotified := s.unnotified - 1, position := s.position.wake } := by
  refine ⟨by simpa using h.fifo, h.worker, h.flag, fun hw => absurd hw s.position.wake_ne_waiting,
    h.running, fun h₁ h₂ => ?_, fun _ => s.position.wake_ne_waiting⟩
  obtain ⟨n, hn, hstopping⟩ := h.stopping h₁ h₂
  exact ⟨n, hn, hstopping.wake ⟨rfl, rfl, rfl⟩⟩

theorem Invariant.raiseStop (h : Invariant handle init s) (hidle : s.stopper = .idle) :
    Invariant handle init { s with stop := true, stopper := .raised } := by
  have hrunning := h.running (.inl hidle)
  refine ⟨h.fifo, h.worker, fun _ => rfl, fun hw hq => .inl ?_, fun _ => hrunning,
    fun _ h₂ => absurd rfl h₂, fun hj => ?_⟩
  · rcases h.asleep hw hq with hpos | hposted
    · exact hpos
    · rw [hidle] at hposted
      cases hposted
  · rcases hj with hj | hj <;> cases hj

theorem Invariant.postStop (h : Invariant handle init s) (hraised : s.stopper = .raised)
    (stopEntry : α) :
    Invariant handle init
      { s.push stopEntry with stopper := .posted, handledAtStop := some s.handled.length } := by
  refine ⟨?_, h.worker, fun _ => h.flag (by simp [hraised]), fun _ _ => .inr rfl, fun hr => ?_,
    fun _ _ => ⟨s.handled.length, rfl, le_rfl, Nat.le_succ _, fun _ => rfl,
      fun _ => ⟨rfl, by simp [State.push]⟩⟩, fun hj => ?_⟩
  · simp only [State.push]
    rw [h.fifo, List.append_assoc]
  · rcases hr with hr | hr <;> cases hr
  · rcases hj with hj | hj <;> cases hj

theorem Invariant.notifyStop (h : Invariant handle init s) (hposted : s.stopper = .posted) :
    Invariant handle init { s with stopper := .joining, position := s.position.wake } := by
  refine ⟨by simpa using h.fifo, h.worker, fun _ => h.flag (by simp [hposted]),
    fun hw => absurd hw s.position.wake_ne_waiting, fun hr => ?_, fun _ _ => ?_,
    fun _ => s.position.wake_ne_waiting⟩
  · rcases hr with hr | hr <;> cases hr
  · obtain ⟨n, hn, hstopping⟩ := h.stopping (by simp [hposted]) (by simp [hposted])
    exact ⟨n, hn, hstopping.wake ⟨rfl, rfl, rfl⟩⟩

theorem Invariant.join (h : Invariant handle init s) (hjoining : s.stopper = .joining)
    (hleft : s.position = .left) : Invariant handle init { s with stopper := .joined } := by
  refine ⟨h.fifo, h.worker, fun _ => h.flag (by simp [hjoining]), fun hw => ?_, fun hr => ?_,
    fun _ _ => ?_, fun _ => by simp [hleft]⟩
  · rw [hleft] at hw
    cases hw
  · rcases hr with hr | hr <;> cases hr
  · obtain ⟨n, hn, hstopping⟩ := h.stopping (by simp [hjoining]) (by simp [hjoining])
    exact ⟨n, hn, hstopping.least, hstopping.most, hstopping.handling, hstopping.fetching⟩

/-! The steps of the consumer. -/

theorem Invariant.test (h : Invariant handle init s) (htest : s.position = .test) :
    Invariant handle init { s with position := if s.stop then .left else .lock } := by
  refine ⟨?_, h.worker, h.flag, fun hw => ?_, h.running, fun h₁ h₂ => ?_, fun _ => ?_⟩
  · have hfifo := h.fifo
    rw [htest] at hfifo
    cases s.stop <;> exact hfifo
  · cases hstop : s.stop <;> simp [hstop] at hw
  · obtain ⟨n, hn, hstopping⟩ := h.stopping h₁ h₂
    -- the flag has been raised before the entry was pushed
    refine ⟨n, hn, hstopping.least, hstopping.most, ?_, ?_⟩ <;>
      simp [h.flag h₁, Position.current, Position.fetching]
  · cases s.stop <;> simp

theorem Invariant.acquire (h : Invariant handle init s) (hlock : s.position = .lock) :
    Invariant handle init { s with position := .locked } := by
  have hfifo := h.fifo
  rw [hlock] at hfifo
  refine ⟨hfifo, h.worker, h.flag, fun hw => (by cases hw), h.running, fun h₁ h₂ => ?_,
    fun _ => by simp⟩
  obtain ⟨n, hn, hstopping⟩ := h.stopping h₁ h₂
  exact ⟨n, hn, hstopping.least, hstopping.most, fun hc => absurd rfl hc,
    fun _ => hstopping.fetching (by rw [hlock]; rfl)⟩

theorem Invariant.sleep (h : Invariant handle init s) (hlocked : s.position = .locked)
    (hempty : s.queue = []) : Invariant handle init { s with position := .waiting } := by
  have hfifo := h.fifo
  rw [hlocked] at hfifo
  have hnot : ¬ (s.stopper ≠ .idle ∧ s.stopper ≠ .raised) := by
    rintro ⟨h₁, h₂⟩
    obtain ⟨n, _, hstopping⟩ := h.stopping h₁ h₂
    exact (hstopping.fetching (by rw [hlocked]; rfl)).2 hempty
  refine ⟨hfifo, h.worker, h.flag, fun _ hq => absurd hempty hq, h.running,
    fun h₁ h₂ => absurd ⟨h₁, h₂⟩ hnot, fun hj => ?_⟩
  refine absurd ?_ hnot
  rcases hj with hj | hj <;> simp only at hj <;> simp [hj]

theorem Invariant.fetch {a : α} {rest : List α} (h : Invariant handle init s)
    (hlocked : s.position = .locked) (hqueue : s.queue = a :: rest) :
    Invariant handle init { s with position := .handling a, queue := rest } := by
  have hfifo := h.fifo
  rw [hlocked, hqueue] at hfifo
  refine ⟨by simpa [Position.current] using hfifo, h.worker, h.flag, fun hw => (by cases hw),
    h.running, fun h₁ h₂ => ?_, fun _ => by simp⟩
  obtain ⟨n, hn, hstopping⟩ := h.stopping h₁ h₂
  exact ⟨n, hn, hstopping.least, hstopping.most,
    fun _ => (hstopping.fetching (by rw [hlocked]; rfl)).1, fun hf => by cases hf⟩

theorem Invariant.spurious (h : Invariant handle init s) (hwaiting : s.position = .waiting) :
    Invariant handle init { s with position := .lock } := by
  have hwake : Position.lock = s.position.wake := by rw [hwaiting]; rfl
  have hfifo := h.fifo
  rw [hwaiting] at hfifo
  refine ⟨hfifo, h.worker, h.flag, fun hw => (by cases hw), h.running, fun h₁ h₂ => ?_,
    fun _ => by simp⟩
  obtain ⟨n, hn, hstopping⟩ := h.stopping h₁ h₂
  exact ⟨n, hn, hstopping.wake ⟨rfl, rfl, hwake⟩⟩

theorem Invariant.handleEntry {a : α} (h : Invariant handle init s)
    (hhandling : s.position = .handling a) (r : ρ) :
    Invariant handle init { s with
      position := .test
      worker := handle s.worker a r
      handled := s.handled ++ [(a, r)] } := by
  have hfifo := h.fifo
  rw [hhandling] at hfifo
  refine ⟨by simpa [Position.current] using hfifo, ?_, h.flag, fun hw => (by cases hw), h.running,
    fun h₁ h₂ => ?_, fun _ => by simp⟩
  · rw [replay_append, ← h.worker]
  · obtain ⟨n, hn, hstopping⟩ := h.stopping h₁ h₂
    have hlen := hstopping.handling (by rw [hhandling]; simp [Position.current])
    refine ⟨n, hn, ?_, ?_, fun hc => absurd rfl hc, fun hf => by cases hf⟩ <;>
      simp only [List.length_append, List.length_singleton] <;> omega

theorem Invariant.step {a : Action α ρ} (h : Invariant handle init s)
    (hs : step stopEntry handle s a = some s') : Invariant handle init s' := by
  cases step_stepped hs with
  | post a => exact h.post a
  | notify => exact h.notify
  | raiseStop idle => exact h.raiseStop idle
  | postStop raised => exact h.postStop raised stopEntry
  | notifyStop posted => exact h.notifyStop posted
  | join joining left => exact h.join joining left
  | test test => exact h.test test
  | acquire lock => exact h.acquire lock
  | sleep locked empty => exact h.sleep locked empty
  | fetch a rest locked queue => exact h.fetch locked queue
  | spurious waiting => exact h.spurious waiting
  | handle a r handling => exact h.handleEntry handling r

theorem Invariant.of_reaches {ok : State α σ ρ → Action α ρ → Prop}
    (h : Transition.Reaches (MessageQueue.step stopEntry handle) ok (.initial init) s) :
    Invariant handle init s :=
  h.invariant _ .initial fun _ _ _ hi _ hs => hi.step hs

/-! ### What a run posts and handles -/

def Action.pushes (stopEntry : α) : Action α ρ → List α
  | .post a => [a]
  | .postStop => [stopEntry]
  | _ => []

def Action.handles (p : Position α) : Action α ρ → List (α × ρ)
  | .handle r => p.current.map (·, r)
  | _ => []

theorem step_ghosts {a : Action α ρ} (hs : MessageQueue.step stopEntry handle s a = some s') :
    s'.posted = s.posted ++ a.pushes stopEntry ∧
      s'.handled = s.handled ++ a.handles s.position := by
  cases step_stepped hs with
  | post | postStop => exact ⟨rfl, (List.append_nil _).symm⟩
  | handle a r handling => simp [Action.pushes, Action.handles, handling, Position.current]
  | notify | raiseStop | notifyStop | join | test | acquire | sleep | fetch | spurious =>
    simp [Action.pushes, Action.handles]

/-- What holds of everything that may be pushed, and of every outcome. -/
theorem forall_of_reaches {ok : State α σ ρ → Action α ρ → Prop} {P : α → Prop} {Q : ρ → Prop}
    (h : Transition.Reaches (MessageQueue.step stopEntry handle) ok (.initial init) s)
    (hP : ∀ s a, ok s a → ∀ x ∈ a.pushes stopEntry, P x) (hQ : ∀ s r, ok s (.handle r) → Q r) :
    (∀ x ∈ s.posted, P x) ∧ ∀ x ∈ s.handled, Q x.2 := by
  refine h.invariant (fun s => (∀ x ∈ s.posted, P x) ∧ ∀ x ∈ s.handled, Q x.2)
    ⟨by simp [State.initial], by simp [State.initial]⟩ fun s₁ a s₂ hi hok hs => ?_
  obtain ⟨hposted, hhandled⟩ := step_ghosts hs
  rw [hposted, hhandled]
  refine ⟨fun x hx => ?_, fun x hx => ?_⟩
  · rcases List.mem_append.mp hx with hx | hx
    · exact hi.1 x hx
    · exact hP s₁ a hok x hx
  · rcases List.mem_append.mp hx with hx | hx
    · exact hi.2 x hx
    · cases a with
      | handle r =>
        obtain ⟨y, _, rfl⟩ := List.mem_map.mp hx
        exact hQ s₁ r hok
      | _ => cases hx

/-! ### The end of the consumer -/

/-- Once the stop is waiting for its end the consumer is never without a step of
its own. -/
theorem Invariant.joining_enabled [Nonempty ρ] (h : Invariant handle init s) (stopEntry : α)
    (hjoining : s.stopper = .joining) (hleft : s.position ≠ .left) :
    ∃ a : Action α ρ, a.consumes = true ∧
      (MessageQueue.step stopEntry handle s a).isSome = true := by
  cases hposition : s.position with
  | test => exact ⟨.test, rfl, by simp [MessageQueue.step, hposition]⟩
  | lock => exact ⟨.acquire, rfl, by simp [MessageQueue.step, hposition]⟩
  | locked =>
    refine ⟨.look, rfl, ?_⟩
    cases hqueue : s.queue <;> simp [MessageQueue.step, hposition, hqueue]
  | waiting => exact absurd hposition (h.joining (.inl hjoining))
  | handling a =>
    obtain ⟨r⟩ := ‹Nonempty ρ›
    exact ⟨.handle r, rfl, by simp [MessageQueue.step, hposition]⟩
  | left => exact absurd hposition hleft

/-- Each of these steps brings it closer to its end, and nobody else throws it back. -/
theorem Invariant.joining_rank {a : Action α ρ} (h : Invariant handle init s)
    (hjoining : s.stopper = .joining)
    (hs : MessageQueue.step stopEntry handle s a = some s') :
    s'.position.rank + (if a.consumes then 1 else 0) ≤ s.position.rank := by
  have hawake := h.joining (.inl hjoining)
  obtain ⟨n, _, hstopping⟩ := h.stopping (by simp [hjoining]) (by simp [hjoining])
  have hstop := h.flag (by simp [hjoining])
  cases step_stepped hs with
  | post => simp [State.push, Action.consumes]
  | notify => simp [Position.wake_of_ne hawake, Action.consumes]
  | raiseStop idle => cases hjoining.symm.trans idle
  | postStop raised => cases hjoining.symm.trans raised
  | notifyStop posted => cases hjoining.symm.trans posted
  | join => simp [Action.consumes]
  | test test => simp [hstop, test, Position.rank, Action.consumes]
  | acquire lock => simp [lock, Position.rank, Action.consumes]
  | sleep locked empty => exact absurd empty (hstopping.fetching (by rw [locked]; rfl)).2
  | fetch a rest locked queue => simp [locked, Position.rank, Action.consumes]
  -- nobody wakes up who is awake
  | spurious waiting => exact absurd waiting hawake
  | handle a r handling => simp [handling, Position.rank, Action.consumes]

end MessageQueue
