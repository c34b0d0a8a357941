import WebrtcStreamer.Transition

/-! `createOffer`, `getAnswer` and `setAnswer` wait on promises that live on their stack, and
the description observers that set them are called back by WebRTC at any time.

Any number of such calls run side by side. A step lets one of them execute up
to its next wait, or lets WebRTC call one observer back. -/

set_option autoImplicit false

namespace WebrtcStreamer.Promises

abbrev CallId := Nat
abbrev PromiseId := Nat
abbrev ObserverRef := Nat
abbrev ConnectionId := Nat

inductive Fn where
  | createOffer | getAnswer | setAnswer
  deriving DecidableEq, Repr

/-- A function waits for the remote description, for its own, or for both in turn. -/
inductive Side where
  | remote | own
  deriving DecidableEq, Repr

/-- The WebRTC operation an observer is handed to. `create` is `CreateOffer` or
`CreateAnswer` and takes a `CreateSessionDescriptionObserver`; the others take
a `SetSessionDescriptionObserver`. -/
inductive Operation where
  | setRemote | create | setLocal
  deriving DecidableEq, Repr

def Side.operation : Side → Operation
  | .remote => .setRemote
  | .own => .create

structure SessionObserver where
  operation : Operation
  pc : ConnectionId
  promise : PromiseId
  cancelled : Bool
  -- WebRTC has called it back
  delivered : Bool
  deriving DecidableEq, Repr

/-- A call of `set_value`. -/
structure Setting where
  value : Option String
  -- the function that owns the promise had returned
  late : Bool
  deriving DecidableEq, Repr

structure Promise where
  owner : CallId
  settings : List Setting
  deriving DecidableEq, Repr

inductive Position where
  | ask (side : Side)
  | wait (side : Side) (p : PromiseId) (o : ObserverRef)
  -- `wait_for` gave up, `cancel` comes next
  | timedOut (side : Side) (o : ObserverRef)
  -- the block that holds the promises is left
  | leave (answer : Option String)
  | returned (answer : Option String)
  deriving DecidableEq, Repr

structure Call where
  fn : Fn
  pc : ConnectionId
  position : Position
  deriving DecidableEq, Repr

structure Descriptions where
  localDescription : Option String
  remoteDescription : Option String
  deriving DecidableEq, Repr

structure State where
  calls : List Call
  promises : List Promise
  observers : List SessionObserver
  -- what WebRTC holds for each connection
  connections : ConnectionId → Descriptions

def State.initial : State := ⟨[], [], [], fun _ => ⟨none, none⟩⟩

inductive Callback where
  | onSuccess | onFailure
  deriving DecidableEq, Repr

inductive Action where
  | start (fn : Fn) (pc : ConnectionId)
  | proceed (t : CallId)
  | timeout (t : CallId)
  | deliver (o : ObserverRef) (cb : Callback)
  | describe (pc : ConnectionId) (d : Descriptions)
  deriving DecidableEq, Repr

def Fn.first : Fn → Side
  | .createOffer => .own
  | .getAnswer | .setAnswer => .remote

/-- Where a function goes on once the wait is over. `getAnswer` looks at neither
the remote description nor the timeout of its first wait. -/
def Fn.after (fn : Fn) (side : Side) (value : Option String) : Position :=
  if fn = .getAnswer ∧ side = .remote then .ask .own else .leave value

def Position.over : Position → Bool
  | .returned _ => true
  | _ => false

namespace State

def hasReturned (s : State) (t : CallId) : Bool := s.calls[t]?.any (·.position.over)

def setPosition (s : State) (t : CallId) (c : Call) (position : Position) : State :=
  { s with calls := s.calls.set t { c with position } }

def setValue (s : State) (p : PromiseId) (value : Option String) : State :=
  match s.promises[p]? with
  | none => s
  | some promise =>
    let settings := promise.settings ++ [⟨value, s.hasReturned promise.owner⟩]
    { s with promises := s.promises.set p { promise with settings } }

def addObserver (s : State) (operation : Operation) (pc : ConnectionId) (p : PromiseId) : State :=
  { s with observers := s.observers ++ [⟨operation, pc, p, false, false⟩] }

/-- `OnSuccess` of both observers; the nested observer gets a reference to the same promise. -/
def onSuccess (s : State) (ob : SessionObserver) : State :=
  if ob.cancelled then s
  else
    match ob.operation with
    | .create => s.addObserver .setLocal ob.pc ob.promise
    | .setRemote | .setLocal =>
      match (s.connections ob.pc).localDescription, (s.connections ob.pc).remoteDescription with
      | some sdp, _ => s.setValue ob.promise (some sdp)
      | none, some sdp => s.setValue ob.promise (some sdp)
      | none, none => s

def onFailure (s : State) (ob : SessionObserver) : State :=
  if ob.cancelled then s else s.setValue ob.promise none

def callback (s : State) (ob : SessionObserver) : Callback → State
  | .onSuccess => s.onSuccess ob
  | .onFailure => s.onFailure ob

def markDelivered (s : State) (o : ObserverRef) (ob : SessionObserver) : State :=
  { s with observers := s.observers.set o { ob with delivered := true } }

def cancel (s : State) (o : ObserverRef) (ob : SessionObserver) : State :=
  { s with observers := s.observers.set o { ob with cancelled := true } }

def future (s : State) (p : PromiseId) : Option (Option String) :=
  s.promises[p]?.bind fun promise => promise.settings.head?.map Setting.value

/-- A new promise of call `t`, and the observer over it handed to WebRTC. -/
def ask (s : State) (t : CallId) (c : Call) (side : Side) : State :=
  let s₁ := s.setPosition t c (.wait side s.promises.length s.observers.length)
  let s₂ : State := { s₁ with promises := s.promises ++ [⟨t, []⟩] }
  s₂.addObserver side.operation c.pc s.promises.length

/-- One call goes on. `getAnswer` may spend some time on the gathering between
`ask` and `wait`, where it touches nothing of this state. -/
def proceed (s : State) (t : CallId) (c : Call) : Option State :=
  match c.position with
  | .ask side => some (s.ask t c side)
  | .wait side p _ =>
    (s.future p).map fun value => s.setPosition t c (c.fn.after side value)
  | .timedOut side o =>
    s.observers[o]?.map fun ob => (s.cancel o ob).setPosition t c (c.fn.after side none)
  | .leave answer => some (s.setPosition t c (.returned answer))
  | .returned _ => none

/-- `wait_for` reports a timeout only where the future is not ready. -/
def timeout (s : State) (t : CallId) (c : Call) : Option State :=
  match c.position with
  | .wait side p o =>
    if s.future p = none then some (s.setPosition t c (.timedOut side o)) else none
  | _ => none

end State

def step (s : State) : Action → Option State
  | .start fn pc => some { s with calls := s.calls ++ [⟨fn, pc, .ask fn.first⟩] }
  | .proceed t => s.calls[t]?.bind (s.proceed t)
  | .timeout t => s.calls[t]?.bind (s.timeout t)
  | .deliver o cb => s.observers[o]?.bind fun ob =>
      if ob.delivered then none else some ((s.markDelivered o ob).callback ob cb)
  | .describe pc d => some { s with connections := Function.update s.connections pc d }

inductive Stepped (s : State) : Action → State → Prop where
  | start (fn : Fn) (pc : ConnectionId) :
      Stepped s (.start fn pc) { s with calls := s.calls ++ [⟨fn, pc, .ask fn.first⟩] }
  | ask {t : CallId} {c : Call} {side : Side} (call : s.calls[t]? = some c)
      (position : c.position = .ask side) : Stepped s (.proceed t) (s.ask t c side)
  | ready {t : CallId} {c : Call} {side : Side} {p : PromiseId} {o : ObserverRef}
      {value : Option String} (call : s.calls[t]? = some c)
      (position : c.position = .wait side p o) (future : s.future p = some value) :
      Stepped s (.proceed t) (s.setPosition t c (c.fn.after side value))
  | cancel {t : CallId} {c : Call} {side : Side} {o : ObserverRef} {ob : SessionObserver}
      (call : s.calls[t]? = some c) (position : c.position = .timedOut side o)
      (present : s.observers[o]? = some ob) :
      Stepped s (.proceed t) ((s.cancel o ob).setPosition t c (c.fn.after side none))
  | leave {t : CallId} {c : Call} {answer : Option String} (call : s.calls[t]? = some c)
      (position : c.position = .leave answer) :
      Stepped s (.proceed t) (s.setPosition t c (.returned answer))
  | timeout {t : CallId} {c : Call} {side : Side} {p : PromiseId} {o : ObserverRef}
      (call : s.calls[t]? = some c) (position : c.position = .wait side p o) :
      Stepped s (.timeout t) (s.setPosition t c (.timedOut side o))
  | ignore {o : ObserverRef} {ob : SessionObserver} {cb : Callback}
      (present : s.observers[o]? = some ob) (undelivered : ob.delivered = false) :
      Stepped s (.deliver o cb) (s.markDelivered o ob)
  | set {o : ObserverRef} {ob : SessionObserver} {cb : Callback} (value : Option String)
      (present : s.observers[o]? = some ob) (undelivered : ob.delivered = false)
      (uncancelled : ob.cancelled = false) :
      Stepped s (.deliver o cb) ((s.markDelivered o ob).setValue ob.promise value)
  | nest {o : ObserverRef} {ob : SessionObserver} {cb : Callback}
      (present : s.observers[o]? = some ob) (undelivered : ob.delivered = false)
      (uncancelled : ob.cancelled = false) :
      Stepped s (.deliver o cb) ((s.markDelivered o ob).addObserver .setLocal ob.pc ob.promise)
  | describe (pc : ConnectionId) (d : Descriptions) :
      Stepped s (.describe pc d) { s with connections := Function.update s.connections pc d }

section Steps

variable {s s' : State} {a : Action}

theorem proceed_stepped {t : CallId} {c : Call} (hc : s.calls[t]? = some c)
    (h : s.proceed t c = some s') : Stepped s (.proceed t) s' := by
  unfold State.proceed at h
  split at h
  · rename_i side hpos
    cases h
    exact .ask hc hpos
  · rename_i side p o hpos
    obtain ⟨value, hfuture, rfl⟩ := Option.map_eq_some_iff.mp h
    exact .ready hc hpos hfuture
  · rename_i side o hpos
    obtain ⟨ob, hob, rfl⟩ := Option.map_eq_some_iff.mp h
    exact .cancel hc hpos hob
  · rename_i answer hpos
    cases h
    exact .leave hc hpos
  · cases h

theorem deliver_stepped {o : ObserverRef} {ob : SessionObserver} (cb : Callback)
    (hob : s.observers[o]? = some ob) (hnew : ob.delivered = false) :
    Stepped s (.deliver o cb) ((s.markDelivered o ob).callback ob cb) := by
  cases hcancel : ob.cancelled with
  | true =>
    have hnone : (s.markDelivered o ob).callback ob cb = s.markDelivered o ob := by
      cases cb <;> simp [State.callback, State.onSuccess, State.onFailure, hcancel]
    rw [hnone]
    exact .ignore hob hnew
  | false =>
    cases cb with
    | onFailure =>
      simp only [State.callback, State.onFailure, hcancel, Bool.false_eq_true, if_false]
      exact .set none hob hnew hcancel
    | onSuccess =>
      simp only [State.callback, State.onSuccess, hcancel, Bool.false_eq_true, if_false]
      split
      · exact .nest hob hnew hcancel
      all_goals
        split
        · exact .set _ hob hnew hcancel
        · exact .set _ hob hnew hcancel
        · exact .ignore hob hnew

theorem deliver_cases {o : ObserverRef} {cb : Callback} (h : step s (.deliver o cb) = some s') :
    ∃ ob, s.observers[o]? = some ob ∧ ob.delivered = false ∧
      s' = (s.markDelivered o ob).callback ob cb := by
  obtain ⟨ob, present, hgo⟩ := Option.bind_eq_some_iff.mp h
  split at hgo
  · cases hgo
  · rename_i hnew
    exact ⟨ob, present, by simpa using hnew, (Option.some.inj hgo).symm⟩

theorem step_stepped (h : step s a = some s') : Stepped s a s' := by
  cases a with
  | start fn pc =>
    cases h
    exact .start fn pc
  | proceed t =>
    obtain ⟨c, hc, hgo⟩ := Option.bind_eq_some_iff.mp h
    exact proceed_stepped hc hgo
  | timeout t =>
    obtain ⟨c, hc, hgo⟩ := Option.bind_eq_some_iff.mp h
    unfold State.timeout at hgo
    split at hgo
    · rename_i side p o hpos
      split at hgo
      · cases hgo
        exact .timeout hc hpos
      · cases hgo
    · cases hgo
  | deliver o cb =>
    obtain ⟨ob, hob, hnew, rfl⟩ := deliver_cases h
    exact deliver_stepped cb hob hnew
  | describe pc d =>
    cases h
    exact .describe pc d

end Steps

/-- A callback of this observer would set its promise or hand it on. -/
def SessionObserver.live (ob : SessionObserver) : Bool := !ob.delivered && !ob.cancelled

def State.pending (s : State) (p : PromiseId) : Nat :=
  s.observers.countP fun ob => ob.live && decide (ob.promise = p)

def Position.awaits (p : PromiseId) (o : ObserverRef) : Position → Bool
  | .wait _ p' o' => decide (p' = p) && decide (o' = o)
  | .timedOut _ o' => decide (o' = o)
  | _ => false

section Frames

variable {s : State} {t : CallId} {c : Call} {o : ObserverRef} {ob : SessionObserver}

theorem live_iff : ob.live = true ↔ ob.delivered = false ∧ ob.cancelled = false := by
  simp [SessionObserver.live]

theorem pending_addObserver (operation : Operation) (pc : ConnectionId) (q p : PromiseId) :
    (s.addObserver operation pc q).pending p = s.pending p + if q = p then 1 else 0 := by
  by_cases hq : q = p <;>
    simp [State.pending, State.addObserver, SessionObserver.live, List.countP_append, hq]

theorem pending_markDelivered (present : s.observers[o]? = some ob) (p : PromiseId) :
    (s.markDelivered o ob).pending p + (if ob.live && decide (ob.promise = p) then 1 else 0) =
      s.pending p := by
  have hcount := Transition.countP_set_add (y := { ob with delivered := true })
    (fun ob => ob.live && decide (ob.promise = p)) present
  simpa [State.pending, State.markDelivered, SessionObserver.live] using hcount

theorem pending_cancel (present : s.observers[o]? = some ob) (p : PromiseId) :
    (s.cancel o ob).pending p ≤ s.pending p := by
  have hcount := Transition.countP_set_add (y := { ob with cancelled := true })
    (fun ob => ob.live && decide (ob.promise = p)) present
  have hle : (s.cancel o ob).pending p + (if ob.live && decide (ob.promise = p) then 1 else 0) =
      s.pending p := by
    simpa [State.pending, State.cancel, SessionObserver.live] using hcount
  omega

theorem setValue_lookup {p q : PromiseId} {value : Option String} {promise : Promise}
    (h : (s.setValue p value).promises[q]? = some promise) :
    ∃ before, s.promises[q]? = some before ∧ promise.owner = before.owner ∧
      promise.settings = before.settings ++
        if q = p then [⟨value, s.hasReturned before.owner⟩] else [] := by
  unfold State.setValue at h
  split at h
  · rename_i habsent
    have hne : q ≠ p := by
      rintro rfl
      rw [habsent] at h
      cases h
    exact ⟨promise, h, rfl, by simp [hne]⟩
  · rename_i before hbefore
    rcases Transition.get_set h with ⟨rfl, rfl⟩ | ⟨hne, hold⟩
    · exact ⟨before, hbefore, rfl, by simp⟩
    · exact ⟨promise, hold, rfl, by simp [hne]⟩

theorem setValue_self {p : PromiseId} {promise : Promise} (h : s.promises[p]? = some promise)
    (value : Option String) : (s.setValue p value).promises[p]? =
      some { promise with
        settings := promise.settings ++ [⟨value, s.hasReturned promise.owner⟩] } := by
  have hlt : p < s.promises.length := (List.getElem?_eq_some_iff.mp h).1
  simp only [State.setValue, h]
  exact List.getElem?_set_self hlt

theorem setValue_keeps (p : PromiseId) (value : Option String) :
    (s.setValue p value).calls = s.calls ∧ (s.setValue p value).observers = s.observers ∧
      (s.setValue p value).promises.length = s.promises.length := by
  unfold State.setValue
  split
  · exact ⟨rfl, rfl, rfl⟩
  · exact ⟨rfl, rfl, by simp⟩

end Frames

/-- Each promise is set once or has one callback left that may set it; an
observer that a function has asked for is the one the function is at. -/
structure Held (s : State) : Prop where
  owner : ∀ promise ∈ s.promises, promise.owner < s.calls.length
  known : ∀ ob ∈ s.observers, ob.promise < s.promises.length
  once : ∀ (p : PromiseId) (promise : Promise), s.promises[p]? = some promise →
    promise.settings.length + s.pending p ≤ 1
  awaited : ∀ (o : ObserverRef) (ob : SessionObserver) (promise : Promise),
    s.observers[o]? = some ob → ob.live = true → ob.operation ≠ .setLocal →
      s.promises[ob.promise]? = some promise →
        ∃ c : Call, s.calls[promise.owner]? = some c ∧ c.position.awaits ob.promise o = true

namespace Held

variable {s : State} {t : CallId} {c : Call} {o : ObserverRef} {ob : SessionObserver}

theorem initial : Held .initial where
  owner promise h := by simp [State.initial] at h
  known ob h := by simp [State.initial] at h
  once p promise h := by simp [State.initial] at h
  awaited o ob promise h := by simp [State.initial] at h

theorem start (h : Held s) (call : Call) : Held { s with calls := s.calls ++ [call] } := by
  refine ⟨fun promise hp => ?_, h.known, h.once, fun o ob promise hob hlive hop hp => ?_⟩
  · rw [List.length_append, List.length_singleton]
    exact Nat.lt_add_right 1 (h.owner promise hp)
  · obtain ⟨c, hc, hawaits⟩ := h.awaited o ob promise hob hlive hop hp
    have hlt := h.owner promise (List.mem_of_getElem? hp)
    exact ⟨c, by rw [List.getElem?_append_left hlt, hc], hawaits⟩

theorem move (h : Held s) (call : s.calls[t]? = some c) (position : Position)
    (hmove : ∀ (o : ObserverRef) (ob : SessionObserver), s.observers[o]? = some ob →
      ob.live = true → ob.operation ≠ .setLocal →
      c.position.awaits ob.promise o = true → position.awaits ob.promise o = true) :
    Held (s.setPosition t c position) := by
  refine ⟨fun promise hp => ?_, h.known, h.once, fun o ob promise hob hlive hop hp => ?_⟩
  · simpa [State.setPosition] using h.owner promise hp
  · obtain ⟨c', hc', hawaits⟩ := h.awaited o ob promise hob hlive hop hp
    by_cases ht : promise.owner = t
    · have hsame : c' = c := by
        rw [ht, call] at hc'
        cases hc'
        rfl
      have hlt : t < s.calls.length := (List.getElem?_eq_some_iff.mp call).1
      refine ⟨{ c with position }, ?_, hmove o ob hob hlive hop (hsame ▸ hawaits)⟩
      simp [State.setPosition, ht, hlt]
    · refine ⟨c', ?_, hawaits⟩
      rw [State.setPosition, List.getElem?_set_ne fun he => ht he.symm]
      exact hc'

theorem push (h : Held s) (ht : t < s.calls.length) :
    Held { s with promises := s.promises ++ [⟨t, []⟩] } := by
  have hnone : ∀ p, s.promises.length ≤ p → s.pending p = 0 := by
    intro p hp
    refine List.countP_eq_zero.mpr fun ob hob => ?_
    have hne : ob.promise ≠ p := ((h.known ob hob).trans_le hp).ne
    simp [hne]
  refine ⟨fun promise hp => ?_, fun ob hob => ?_, fun p promise hp => ?_,
    fun o ob promise hob hlive hop hp => ?_⟩
  · rcases List.mem_append.mp hp with hold | hnew
    · exact h.owner promise hold
    · have heq : promise = ⟨t, []⟩ := by simpa using hnew
      simpa [heq] using ht
  · rw [List.length_append, List.length_singleton]
    exact Nat.lt_add_right 1 (h.known ob hob)
  · rcases Transition.get_push hp with hold | ⟨hp, hnew⟩
    · exact h.once p promise hold
    · have hzero := hnone p hp.ge
      subst hnew
      change 0 + s.pending p ≤ 1
      omega
  · have hlt := h.known ob (List.mem_of_getElem? hob)
    have hold : s.promises[ob.promise]? = some promise := by
      rwa [List.getElem?_append_left hlt] at hp
    exact h.awaited o ob promise hob hlive hop hold

theorem add (h : Held s) (operation : Operation) (pc : ConnectionId) {q : PromiseId}
    {promise : Promise} (hq : s.promises[q]? = some promise)
    (room : promise.settings.length + s.pending q = 0)
    (hawaits : operation ≠ .setLocal → ∃ c, s.calls[promise.owner]? = some c ∧
      c.position.awaits q s.observers.length = true) :
    Held (s.addObserver operation pc q) := by
  refine ⟨h.owner, fun ob hob => ?_, fun p found hp => ?_, fun o ob found hob hlive hop hp => ?_⟩
  · rcases List.mem_append.mp hob with hold | hnew
    · exact h.known ob hold
    · have heq : ob = ⟨operation, pc, q, false, false⟩ := by simpa using hnew
      rw [heq]
      exact (List.getElem?_eq_some_iff.mp hq).1
  · rw [pending_addObserver]
    by_cases hqp : q = p
    · subst hqp
      have hsame : found = promise := by
        have hp' : s.promises[q]? = some found := hp
        rw [hq] at hp'
        cases hp'
        rfl
      rw [if_pos rfl, hsame]
      omega
    · rw [if_neg hqp]
      exact h.once p found hp
  · rcases Transition.get_push hob with hold | ⟨ho, hnew⟩
    · exact h.awaited o ob found hold hlive hop hp
    · subst hnew ho
      have hp' : s.promises[q]? = some found := hp
      rw [hq] at hp'
      cases hp'
      exact hawaits hop

theorem retire (h : Held s) (present : s.observers[o]? = some ob) (ob' : SessionObserver)
    (hpromise : ob'.promise = ob.promise) (hdead : ob'.live = false)
    (hpending : ∀ p, State.pending { s with observers := s.observers.set o ob' } p ≤ s.pending p) :
    Held { s with observers := s.observers.set o ob' } := by
  refine ⟨h.owner, fun x hx => ?_, fun p promise hp => ?_,
    fun o' x promise hx hlive hop hp => ?_⟩
  · rcases Transition.mem_set hx with rfl | hold
    · rw [hpromise]
      exact h.known ob (List.mem_of_getElem? present)
    · exact h.known x hold
  · have hle := hpending p
    have honce := h.once p promise hp
    omega
  · rcases Transition.get_set hx with ⟨-, rfl⟩ | ⟨-, hold⟩
    · rw [hdead] at hlive
      cases hlive
    · exact h.awaited o' x promise hold hlive hop hp

theorem deliver (h : Held s) (present : s.observers[o]? = some ob) :
    Held (s.markDelivered o ob) := by
  refine h.retire present _ rfl (by simp [SessionObserver.live]) fun p => ?_
  have hcount := pending_markDelivered present p
  simp only [State.markDelivered] at hcount
  omega

theorem cancel (h : Held s) (present : s.observers[o]? = some ob) : Held (s.cancel o ob) :=
  h.retire present _ rfl (by simp [SessionObserver.live]) fun p => pending_cancel present p

theorem set (h : Held s) (p : PromiseId) (value : Option String)
    (room : ∀ promise, s.promises[p]? = some promise →
      promise.settings.length + s.pending p = 0) : Held (s.setValue p value) := by
  obtain ⟨hcalls, hobservers, hlength⟩ := setValue_keeps (s := s) p value
  have hpending : ∀ q, (s.setValue p value).pending q = s.pending q := fun q => by
    rw [State.pending, hobservers, State.pending]
  refine ⟨fun promise hp => ?_, fun ob hob => ?_, fun q promise hp => ?_,
    fun o ob promise hob hlive hop hp => ?_⟩
  · obtain ⟨q, hq⟩ := List.getElem?_of_mem hp
    obtain ⟨before, hbefore, howner, -⟩ := setValue_lookup hq
    rw [hcalls, howner]
    exact h.owner before (List.mem_of_getElem? hbefore)
  · rw [hlength]
    exact h.known ob (hobservers ▸ hob)
  · obtain ⟨before, hbefore, -, hsettings⟩ := setValue_lookup hp
    have honce := h.once q before hbefore
    rw [hpending, hsettings, List.length_append]
    by_cases hqp : q = p
    · subst hqp
      have hroom := room before hbefore
      rw [if_pos rfl, List.length_singleton]
      omega
    · rw [if_neg hqp, List.length_nil]
      omega
  · obtain ⟨before, hbefore, howner, -⟩ := setValue_lookup hp
    rw [hcalls, howner]
    exact h.awaited o ob before (hobservers ▸ hob) hlive hop hbefore

theorem room (h : Held s) (present : s.observers[o]? = some ob) (hlive : ob.live = true)
    {promise : Promise} (hp : s.promises[ob.promise]? = some promise) :
    promise.settings.length + (s.markDelivered o ob).pending ob.promise = 0 := by
  have honce := h.once _ promise hp
  have hcount := pending_markDelivered present ob.promise
  simp only [hlive, decide_true, Bool.and_self, if_true] at hcount
  omega

theorem ask (h : Held s) (call : s.calls[t]? = some c) {side : Side}
    (position : c.position = .ask side) : Held (s.ask t c side) := by
  have hlt : t < s.calls.length := (List.getElem?_eq_some_iff.mp call).1
  have hmoved := h.move call (.wait side s.promises.length s.observers.length)
    fun o ob _ _ _ hawaits => by simp [position, Position.awaits] at hawaits
  have hpushed := hmoved.push (t := t) (by simpa [State.setPosition] using hlt)
  have hnew : (s.promises ++ [⟨t, []⟩])[s.promises.length]? = some ⟨t, []⟩ := by simp
  refine hpushed.add side.operation c.pc hnew ?_ fun _ => ?_
  · have hnone : State.pending s s.promises.length = 0 := by
      refine List.countP_eq_zero.mpr fun ob hob => ?_
      simp [(h.known ob hob).ne]
    simpa [State.pending, State.setPosition] using hnone
  · refine ⟨{ c with position := .wait side s.promises.length s.observers.length }, ?_, ?_⟩
    · simp [State.setPosition, hlt]
    · simp [Position.awaits, State.setPosition]

theorem ready (h : Held s) {p : PromiseId} {value : Option String}
    (hready : s.future p = some value)
    (present : s.observers[o]? = some ob) (hp : ob.promise = p) : ob.live = false := by
  obtain ⟨promise, hpromise, hvalue⟩ := Option.bind_eq_some_iff.mp hready
  obtain ⟨setting, hsetting, -⟩ := Option.map_eq_some_iff.mp hvalue
  have hpos : 0 < promise.settings.length := by
    rw [List.head?_eq_some_iff] at hsetting
    obtain ⟨rest, hrest⟩ := hsetting
    simp [hrest]
  have honce := h.once p promise hpromise
  have hzero : s.pending p = 0 := by omega
  have hnot := List.countP_eq_zero.mp hzero ob (List.mem_of_getElem? present)
  simpa [hp] using hnot

theorem step {s' : State} {a : Action} (h : Held s) (hs : Stepped s a s') : Held s' := by
  cases hs with
  | start fn pc => exact h.start _
  | ask call position => exact h.ask call position
  | ready call position hready =>
    refine h.move call _ fun o ob present hlive _ hawaits => ?_
    simp only [position, Position.awaits, Bool.and_eq_true, decide_eq_true_eq] at hawaits
    rw [h.ready hready present hawaits.1.symm] at hlive
    cases hlive
  | cancel call position present =>
    refine (h.cancel present).move call _ fun o ob hob hlive _ hawaits => ?_
    -- the one observer of this position has just been cancelled
    simp only [position, Position.awaits, decide_eq_true_eq] at hawaits
    subst hawaits
    rcases Transition.get_set hob with ⟨-, rfl⟩ | ⟨hne, -⟩
    · simp [SessionObserver.live] at hlive
    · exact absurd rfl hne
  | leave call position =>
    exact h.move call _ fun o ob _ _ _ hawaits => by simp [position, Position.awaits] at hawaits
  | timeout call position =>
    refine h.move call _ fun o ob _ _ _ hawaits => ?_
    simp only [position, Position.awaits, Bool.and_eq_true, decide_eq_true_eq] at hawaits ⊢
    exact hawaits.2
  | ignore present undelivered => exact h.deliver present
  | set value present undelivered uncancelled =>
    have hlive := live_iff.mpr ⟨undelivered, uncancelled⟩
    exact (h.deliver present).set _ value fun promise hp => h.room present hlive hp
  | nest present undelivered uncancelled =>
    have hlive := live_iff.mpr ⟨undelivered, uncancelled⟩
    have hlt := h.known _ (List.mem_of_getElem? present)
    have hp := List.getElem?_eq_getElem hlt
    exact (h.deliver present).add .setLocal _ hp (h.room present hlive hp) fun hne => absurd rfl hne
  | describe pc d => exact ⟨h.owner, h.known, h.once, h.awaited⟩

end Held

theorem settings_length_le {ok : State → Action → Prop} {s : State}
    (h : Transition.Reaches step ok .initial s) {promise : Promise} (hp : promise ∈ s.promises) :
    promise.settings.length ≤ 1 := by
  have hheld : Held s := h.invariant Held .initial fun _ _ _ hi _ hs => hi.step (step_stepped hs)
  obtain ⟨p, hfound⟩ := List.getElem?_of_mem hp
  have honce := hheld.once p promise hfound
  omega

/-- A function does not return while the nested observer of its promise waits for the end
of `SetLocalDescription`. -/
def nestedSettled (s : State) : Action → Bool
  | .proceed t =>
    match s.calls[t]?.map Call.position with
    | some (.leave _) => s.observers.all fun ob =>
        ob.delivered || decide (ob.operation ≠ .setLocal) ||
          s.promises[ob.promise]?.all fun promise => decide (promise.owner ≠ t)
    | _ => true
  | _ => true

/-- The callbacks that may still set a promise come before the return of its owner. -/
structure Timely (s : State) : Prop where
  unreturned : ∀ ob ∈ s.observers, ob.live = true →
    ∀ promise, s.promises[ob.promise]? = some promise →
    s.hasReturned promise.owner = false
  early : ∀ promise ∈ s.promises, ∀ setting ∈ promise.settings, setting.late = false

namespace Timely

variable {s s' : State} {t : CallId} {c : Call} {o : ObserverRef} {ob : SessionObserver}

theorem initial : Timely .initial where
  unreturned ob h := by simp [State.initial] at h
  early promise h := by simp [State.initial] at h

theorem start (h : Timely s) (hheld : Held s) (call : Call) :
    Timely { s with calls := s.calls ++ [call] } := by
  refine ⟨fun ob hob hlive promise hp => ?_, h.early⟩
  have hlt := hheld.owner promise (List.mem_of_getElem? hp)
  have hbefore := h.unreturned ob hob hlive promise hp
  simpa [State.hasReturned, List.getElem?_append_left hlt] using hbefore

theorem move (h : Timely s) (call : s.calls[t]? = some c) (position : Position)
    (hmove : position.over = true → ∀ ob ∈ s.observers, ob.live = true →
      ∀ promise, s.promises[ob.promise]? = some promise → promise.owner ≠ t) :
    Timely (s.setPosition t c position) := by
  refine ⟨fun ob hob hlive promise hp => ?_, h.early⟩
  have hbefore := h.unreturned ob hob hlive promise hp
  have hlt : t < s.calls.length := (List.getElem?_eq_some_iff.mp call).1
  by_cases ht : promise.owner = t
  · cases hover : position.over with
    | true => exact absurd ht (hmove hover ob hob hlive promise hp)
    | false => simp [State.hasReturned, State.setPosition, ht, hlt, hover]
  · have hsame : (s.setPosition t c position).calls[promise.owner]? = s.calls[promise.owner]? :=
      List.getElem?_set_ne fun he => ht he.symm
    rw [State.hasReturned, hsame]
    exact hbefore

theorem retire (h : Timely s) (ob' : SessionObserver) (hdead : ob'.live = false) :
    Timely { s with observers := s.observers.set o ob' } := by
  refine ⟨fun x hx hlive promise hp => ?_, h.early⟩
  rcases Transition.mem_set hx with rfl | hold
  · rw [hdead] at hlive
    cases hlive
  · exact h.unreturned x hold hlive promise hp

theorem set (h : Timely s) (p : PromiseId) (value : Option String)
    (hopen : ∀ promise, s.promises[p]? = some promise → s.hasReturned promise.owner = false) :
    Timely (s.setValue p value) := by
  obtain ⟨hcalls, hobservers, -⟩ := setValue_keeps (s := s) p value
  refine ⟨fun ob hob hlive promise hp => ?_, fun promise hp setting hsetting => ?_⟩
  · obtain ⟨before, hbefore, howner, -⟩ := setValue_lookup hp
    rw [State.hasReturned, hcalls, howner]
    exact h.unreturned ob (hobservers ▸ hob) hlive before hbefore
  · obtain ⟨q, hq⟩ := List.getElem?_of_mem hp
    obtain ⟨before, hbefore, -, hsettings⟩ := setValue_lookup hq
    rw [hsettings] at hsetting
    rcases List.mem_append.mp hsetting with hold | hnew
    · exact h.early before (List.mem_of_getElem? hbefore) setting hold
    · split at hnew
      · rename_i hqp
        subst hqp
        have heq := List.mem_singleton.mp hnew
        rw [heq]
        exact hopen before hbefore
      · cases hnew

theorem add (h : Timely s) (operation : Operation) (pc : ConnectionId) {p : PromiseId}
    (hopen : ∀ promise, s.promises[p]? = some promise → s.hasReturned promise.owner = false) :
    Timely (s.addObserver operation pc p) := by
  refine ⟨fun ob hob hlive promise hp => ?_, h.early⟩
  rcases List.mem_append.mp hob with hold | hnew
  · exact h.unreturned ob hold hlive promise hp
  · have heq := List.mem_singleton.mp hnew
    subst heq
    exact hopen promise hp

theorem push (h : Timely s) (hheld : Held s) :
    Timely { s with promises := s.promises ++ [⟨t, []⟩] } := by
  refine ⟨fun ob hob hlive promise hp => ?_, fun promise hp setting hsetting => ?_⟩
  · have hlt := hheld.known ob hob
    have hold : s.promises[ob.promise]? = some promise := by
      rwa [List.getElem?_append_left hlt] at hp
    exact h.unreturned ob hob hlive promise hold
  · rcases List.mem_append.mp hp with hold | hnew
    · exact h.early promise hold setting hsetting
    · have heq := List.mem_singleton.mp hnew
      subst heq
      cases hsetting

theorem leave (h : Timely s) (hheld : Held s) (call : s.calls[t]? = some c)
    {answer : Option String} (position : c.position = .leave answer)
    (hok : nestedSettled s (.proceed t) = true) :
    Timely (s.setPosition t c (.returned answer)) := by
  refine h.move call _ fun _ ob hob hlive promise hp howner => ?_
  obtain ⟨o, ho⟩ := List.getElem?_of_mem hob
  by_cases hop : ob.operation = .setLocal
  · simp only [nestedSettled, call, Option.map_some, position, List.all_eq_true] at hok
    have hall := hok ob hob
    simp [hop, hp, howner, (live_iff.mp hlive).1] at hall
  · obtain ⟨c', hc', hawaits⟩ := hheld.awaited o ob promise ho hlive hop hp
    rw [howner, call] at hc'
    cases hc'
    simp [position, Position.awaits] at hawaits

theorem step {a : Action} (h : Timely s) (hheld : Held s) (hok : nestedSettled s a = true)
    (hs : Stepped s a s') : Timely s' := by
  cases hs with
  | start fn pc => exact h.start hheld _
  | @ask t c side call position =>
    have hmoved := h.move call (.wait side s.promises.length s.observers.length)
      fun hover => by cases hover
    have hlt : t < s.calls.length := (List.getElem?_eq_some_iff.mp call).1
    refine (hmoved.push (hheld.move call _ ?_)).add _ _ fun promise hp => ?_
    · exact fun o ob _ _ _ hawaits => by simp [position, Position.awaits] at hawaits
    · have heq : promise = ⟨t, []⟩ := by simpa [State.setPosition] using hp.symm
      subst heq
      simp [State.hasReturned, State.setPosition, hlt, Position.over]
  | ready call position hready =>
    refine h.move call _ fun hover => ?_
    unfold Fn.after at hover
    split at hover <;> cases hover
  | cancel call position present =>
    refine (h.retire _ ?_).move call _ fun hover => ?_
    · simp [SessionObserver.live]
    · unfold Fn.after at hover
      split at hover <;> cases hover
  | leave call position => exact h.leave hheld call position hok
  | timeout call position => exact h.move call _ fun hover => by cases hover
  | ignore present undelivered => exact h.retire _ (by simp [SessionObserver.live])
  | set value present undelivered uncancelled =>
    have hlive := live_iff.mpr ⟨undelivered, uncancelled⟩
    exact (h.retire _ (by simp [SessionObserver.live])).set _ value
      (h.unreturned _ (List.mem_of_getElem? present) hlive)
  | nest present undelivered uncancelled =>
    have hlive := live_iff.mpr ⟨undelivered, uncancelled⟩
    exact (h.retire _ (by simp [SessionObserver.live])).add .setLocal _
      (h.unreturned _ (List.mem_of_getElem? present) hlive)
  | describe pc d => exact ⟨h.unreturned, h.early⟩

end Timely

/-- Where no function returns under a nested observer, each promise is set at
most once, and not after the function owning it has returned. -/
theorem promise_protocol {s : State} (h : Transition.Reaches step
    (fun s a => nestedSettled s a = true) .initial s) :
    ∀ promise ∈ s.promises, promise.settings.length ≤ 1 ∧
      ∀ setting ∈ promise.settings, setting.late = false := by
  have hboth := h.invariant (fun s => Held s ∧ Timely s) ⟨.initial, .initial⟩
    fun _ _ _ hi hok hs =>
      ⟨hi.1.step (step_stepped hs), hi.2.step hi.1 hok (step_stepped hs)⟩
  exact fun promise hp => ⟨settings_length_le h hp, hboth.2.early promise hp⟩

theorem promise_protocol_run : ∃ s, Transition.Reaches step
    (fun s a => nestedSettled s a = true) .initial s ∧
    s.promises = [⟨0, []⟩, ⟨1, []⟩, ⟨2, [⟨some "offer", false⟩]⟩, ⟨2, [⟨some "answer", false⟩]⟩] ∧
    ∀ promise ∈ s.promises, promise.settings.length ≤ 1 ∧
      ∀ setting ∈ promise.settings, setting.late = false := by
  obtain ⟨s, hs, hp⟩ := Transition.exists_reaches_of_run step
    (fun s a => nestedSettled s a = true) .initial [
      .start .setAnswer 0, .proceed 0, .timeout 0, .proceed 0, .proceed 0,
      .start .createOffer 1, .proceed 1, .timeout 1, .proceed 1, .proceed 1, .deliver 1 .onSuccess,
      .start .getAnswer 2, .proceed 2, .describe 2 ⟨none, some "offer"⟩, .deliver 2 .onSuccess,
      .proceed 2, .proceed 2, .deliver 3 .onSuccess, .describe 2 ⟨some "answer", some "offer"⟩,
      .deliver 4 .onSuccess, .proceed 2, .proceed 2]
    (fun s => decide (s.promises = [⟨0, []⟩, ⟨1, []⟩, ⟨2, [⟨some "offer", false⟩]⟩,
      ⟨2, [⟨some "answer", false⟩]⟩])) (by decide)
  exact ⟨s, hs, of_decide_eq_true hp, promise_protocol hs⟩

/-- The offer is created, `createOffer` gives up, and then `SetLocalDescription` ends. -/
theorem promise_set_after_return : ¬ ∀ s, Transition.Reachable step .initial s →
    ∀ promise ∈ s.promises, promise.settings.length ≤ 1 ∧
      ∀ setting ∈ promise.settings, setting.late = false := by
  intro halways
  obtain ⟨s, hs, hp⟩ := Transition.exists_reaches_of_run step (fun _ _ => True) .initial [
      .start .createOffer 0, .proceed 0, .deliver 0 .onSuccess, .timeout 0, .proceed 0, .proceed 0,
      .describe 0 ⟨some "offer", none⟩, .deliver 1 .onSuccess]
    (fun s => decide (s.promises = [⟨0, [⟨some "offer", true⟩]⟩])) (by decide)
  have hpromises := of_decide_eq_true hp
  have hearly := (halways s hs ⟨0, [⟨some "offer", true⟩]⟩ (by simp [hpromises])).2
  cases hearly ⟨some "offer", true⟩ (by simp)

/-- Nothing ever cancels a nested observer: the functions know the others only. -/
structure NestedUncancelled (s : State) : Prop where
  nested : ∀ ob ∈ s.observers, ob.operation = .setLocal → ob.cancelled = false
  known : ∀ c ∈ s.calls, ∀ side o, (c.position = .timedOut side o ∨
    ∃ p, c.position = .wait side p o) → ∃ ob, s.observers[o]? = some ob ∧ ob.operation ≠ .setLocal

namespace NestedUncancelled

variable {s s' : State} {t : CallId} {c : Call} {o : ObserverRef} {ob : SessionObserver}

theorem initial : NestedUncancelled .initial where
  nested ob h := by simp [State.initial] at h
  known c h := by simp [State.initial] at h

theorem move (h : NestedUncancelled s) (position : Position)
    (hmove : ∀ side o, (position = .timedOut side o ∨ ∃ p, position = .wait side p o) →
      ∃ ob, s.observers[o]? = some ob ∧ ob.operation ≠ .setLocal) :
    NestedUncancelled (s.setPosition t c position) := by
  refine ⟨h.nested, fun c' hc' side o hpos => ?_⟩
  rcases Transition.mem_set hc' with rfl | hold
  · exact hmove side o hpos
  · exact h.known c' hold side o hpos

theorem replace (h : NestedUncancelled s) (present : s.observers[o]? = some ob)
    (ob' : SessionObserver) (hoperation : ob'.operation = ob.operation)
    (hnested : ob'.operation = .setLocal → ob'.cancelled = false) :
    NestedUncancelled { s with observers := s.observers.set o ob' } := by
  refine ⟨fun x hx hop => ?_, fun c hc side o' hpos => ?_⟩
  · rcases Transition.mem_set hx with rfl | hold
    · exact hnested hop
    · exact h.nested x hold hop
  · obtain ⟨x, hx, hop⟩ := h.known c hc side o' hpos
    by_cases ho : o = o'
    · subst ho
      have hlt : o < s.observers.length := (List.getElem?_eq_some_iff.mp present).1
      rw [present] at hx
      cases hx
      exact ⟨ob', by simp [hlt], hoperation ▸ hop⟩
    · exact ⟨x, by rw [List.getElem?_set_ne ho, hx], hop⟩

theorem add (h : NestedUncancelled s) (operation : Operation) (pc : ConnectionId)
    (p : PromiseId) : NestedUncancelled (s.addObserver operation pc p) := by
  refine ⟨fun ob hob hop => ?_, fun c hc side o hpos => ?_⟩
  · rcases List.mem_append.mp hob with hold | hnew
    · exact h.nested ob hold hop
    · rw [List.mem_singleton.mp hnew]
  · obtain ⟨ob, hob, hop⟩ := h.known c hc side o hpos
    have hlt : o < s.observers.length := (List.getElem?_eq_some_iff.mp hob).1
    exact ⟨ob, by rw [State.addObserver, List.getElem?_append_left hlt, hob], hop⟩

theorem congr (h : NestedUncancelled s) (hcalls : s'.calls = s.calls)
    (hobservers : s'.observers = s.observers) : NestedUncancelled s' :=
  ⟨by rw [hobservers]; exact h.nested, by rw [hcalls, hobservers]; exact h.known⟩

theorem deliver (h : NestedUncancelled s) (present : s.observers[o]? = some ob) :
    NestedUncancelled (s.markDelivered o ob) :=
  h.replace present { ob with delivered := true } rfl (h.nested ob (List.mem_of_getElem? present))

theorem after (fn : Fn) (side : Side) (value : Option String) {side' : Side} {o : ObserverRef}
    (h : fn.after side value = .timedOut side' o ∨ ∃ p, fn.after side value = .wait side' p o) :
    False := by
  unfold Fn.after at h
  split at h
  · rcases h with h | ⟨p, h⟩ <;> cases h
  · rcases h with h | ⟨p, h⟩ <;> cases h

theorem step {a : Action} (h : NestedUncancelled s) (hs : Stepped s a s') :
    NestedUncancelled s' := by
  cases hs with
  | start fn pc =>
    refine ⟨h.nested, fun c hc side o hpos => ?_⟩
    rcases List.mem_append.mp hc with hold | hnew
    · exact h.known c hold side o hpos
    · rw [List.mem_singleton.mp hnew] at hpos
      rcases hpos with hpos | ⟨p, hpos⟩ <;> cases hpos
  | @ask t c side call position =>
    have hmoved : NestedUncancelled
        ((s.addObserver side.operation c.pc s.promises.length).setPosition
        t c (.wait side s.promises.length s.observers.length)) := by
      refine (h.add _ _ _).move _ fun side' o hpos => ?_
      rcases hpos with hpos | ⟨p, hpos⟩ <;> cases hpos
      refine ⟨⟨side.operation, c.pc, s.promises.length, false, false⟩, ?_, ?_⟩
      · simp [State.addObserver]
      · cases side <;> simp [Side.operation]
    exact hmoved.congr rfl rfl
  | ready call position hready => exact h.move _ fun side o hpos => (after _ _ _ hpos).elim
  | @cancel t c side o ob call position present =>
    obtain ⟨x, hx, hop⟩ := h.known c (List.mem_of_getElem? call) side o (.inl position)
    rw [present] at hx
    cases hx
    have hreplaced := h.replace present { ob with cancelled := true } rfl fun hnested =>
      absurd hnested hop
    exact hreplaced.move _ fun side o hpos => (after _ _ _ hpos).elim
  | leave call position =>
    refine h.move _ fun side o hpos => ?_
    rcases hpos with hpos | ⟨p, hpos⟩ <;> cases hpos
  | @timeout t c side p o call position =>
    refine h.move _ fun side' o' hpos => ?_
    rcases hpos with hpos | ⟨p, hpos⟩ <;> cases hpos
    exact h.known c (List.mem_of_getElem? call) side o (.inr ⟨p, position⟩)
  | ignore present undelivered => exact h.deliver present
  | @set o ob cb value present undelivered uncancelled =>
    obtain ⟨hcalls, hobservers, -⟩ := setValue_keeps (s := s.markDelivered o ob) ob.promise value
    exact (h.deliver present).congr hcalls hobservers
  | nest present undelivered uncancelled => exact (h.deliver present).add _ _ _
  | describe pc d => exact h.congr rfl rfl

end NestedUncancelled

theorem step_leave {s s' : State} {t : CallId} {c : Call} {answer : Option String}
    (call : s.calls[t]? = some c) (position : c.position = .leave answer)
    (h : step s (.proceed t) = some s') : s' = s.setPosition t c (.returned answer) := by
  simp only [step, call, Option.bind_some, State.proceed, position, Option.some.injEq] at h
  exact h.symm

theorem failure_after_return {s : State} {o : ObserverRef} {ob : SessionObserver}
    {promise : Promise} (present : s.observers[o]? = some ob) (hlive : ob.live = true)
    (hp : s.promises[ob.promise]? = some promise)
    (hreturned : s.hasReturned promise.owner = true) :
    ∃ s', step s (.deliver o .onFailure) = some s' ∧
      ∃ promise ∈ s'.promises, ∃ setting ∈ promise.settings, setting.late = true := by
  obtain ⟨hnew, huncancelled⟩ := live_iff.mp hlive
  have hset : (s.markDelivered o ob).callback ob .onFailure =
      (s.markDelivered o ob).setValue ob.promise none := by
    simp [State.callback, State.onFailure, huncancelled]
  have hpromises : ((s.markDelivered o ob).setValue ob.promise none).promises[ob.promise]? =
      some { promise with settings := promise.settings ++ [⟨none, true⟩] } := by
    have hlate : (s.markDelivered o ob).hasReturned promise.owner = true := hreturned
    rw [setValue_self (s := s.markDelivered o ob) hp, hlate]
  refine ⟨_, ?_, _, List.mem_of_getElem? hpromises, ⟨none, true⟩, by simp, rfl⟩
  simp [step, present, hnew, hset]

/-- The condition leaves out nothing else: a nested observer that outlives the
function may be called back next, and then it sets the promise too late. -/
theorem unsettled_return {s s' : State} {t : CallId} (h : Transition.Reachable step .initial s)
    (hs : step s (.proceed t) = some s') (hunsettled : nestedSettled s (.proceed t) = false) :
    ∃ o s'', step s' (.deliver o .onFailure) = some s'' ∧
      ∃ promise ∈ s''.promises, ∃ setting ∈ promise.settings, setting.late = true := by
  have hnested : NestedUncancelled s :=
    h.invariant NestedUncancelled .initial fun _ _ _ hi _ hs => hi.step (step_stepped hs)
  simp only [nestedSettled] at hunsettled
  split at hunsettled
  · rename_i answer hpos
    obtain ⟨c, call, position⟩ := Option.map_eq_some_iff.mp hpos
    obtain ⟨ob, hob, hcond⟩ := List.all_eq_false.mp hunsettled
    simp only [Bool.or_eq_true, decide_eq_true_eq, not_or, Bool.not_eq_true, not_not] at hcond
    obtain ⟨⟨hnew, hop⟩, howner⟩ := hcond
    obtain ⟨o, ho⟩ := List.getElem?_of_mem hob
    obtain ⟨promise, hp⟩ : ∃ promise, s.promises[ob.promise]? = some promise := by
      cases hfound : s.promises[ob.promise]? with
      | none => simp [hfound] at howner
      | some promise => exact ⟨promise, rfl⟩
    have ht : promise.owner = t := by simpa [hp] using howner
    have hlt : t < s.calls.length := (List.getElem?_eq_some_iff.mp call).1
    have hlive : ob.live = true := live_iff.mpr ⟨hnew, hnested.nested ob hob hop⟩
    rw [step_leave call position hs]
    refine ⟨o, failure_after_return (s := s.setPosition t c (.returned answer)) ho hlive hp ?_⟩
    simp [State.hasReturned, State.setPosition, ht, hlt, Position.over]
  · cases hunsettled

end WebrtcStreamer.Promises
