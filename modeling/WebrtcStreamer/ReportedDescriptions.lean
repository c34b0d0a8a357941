import WebrtcStreamer.DescriptionPromises

/-! One class of observer reports the end of `SetRemoteDescription` and of
`SetLocalDescription`, and passes on whichever description the connection has by then.

The calls are those of `Promises`. Here an observer also has the description it
was handed to WebRTC with. Setting that description and calling the observer
back are two steps, because WebRTC posts the callback. -/

set_option autoImplicit false

namespace WebrtcStreamer.Negotiation

open Promises (CallId PromiseId ObserverRef ConnectionId Fn Side SessionObserver Position Call
  Descriptions Held)

inductive Request where
  | createOffer
  | setAnswer (sdp : String)
  | getAnswer (sdpoffer : String)
  deriving DecidableEq, Repr

def Request.fn : Request → Fn
  | .createOffer => .createOffer
  | .setAnswer _ => .setAnswer
  | .getAnswer _ => .getAnswer

def Request.sessionDescription : Request → Option String
  | .createOffer => none
  | .setAnswer sdp | .getAnswer sdp => some sdp

structure Handed where
  -- none for a `CreateSessionDescriptionObserver`
  description : Option String
  -- it has been set, `OnSuccess` is posted
  applied : Bool
  deriving DecidableEq, Repr

structure State where
  base : Promises.State
  requests : List Request
  handed : ObserverRef → Handed

def State.initial (connections : ConnectionId → Descriptions) : State :=
  ⟨{ Promises.State.initial with connections }, [], fun _ => ⟨none, false⟩⟩

inductive Action where
  | start (request : Request) (pc : ConnectionId)
  | proceed (t : CallId)
  | timeout (t : CallId)
  -- `CreateOffer` or `CreateAnswer` ends with `desc`
  | create (o : ObserverRef) (desc : String)
  | apply (o : ObserverRef)
  | succeed (o : ObserverRef)
  | fail (o : ObserverRef)
  deriving DecidableEq, Repr

/-- What `SetRemoteDescription` and `SetLocalDescription` do to a connection. -/
def setDescription (operation : Promises.Operation) (sdp : Option String) (d : Descriptions) :
    Descriptions :=
  match operation with
  | .setRemote => { d with remoteDescription := sdp }
  | .setLocal => { d with localDescription := sdp }
  | .create => d

def descriptionOf (operation : Promises.Operation) (d : Descriptions) : Option String :=
  match operation with
  | .setRemote => d.remoteDescription
  | .setLocal => d.localDescription
  | .create => none

namespace State

def argument (s : State) (t : CallId) : Option String :=
  match s.base.calls[t]?.map Call.position with
  | some (.ask .remote) => s.requests[t]?.bind Request.sessionDescription
  | _ => none

def hand (s : State) (description : Option String) : State :=
  { s with handed := Function.update s.handed s.base.observers.length ⟨description, false⟩ }

def apply (s : State) (o : ObserverRef) (ob : SessionObserver) : State :=
  { s with
    base := { s.base with
      connections := Function.update s.base.connections ob.pc
        (setDescription ob.operation (s.handed o).description (s.base.connections ob.pc)) }
    handed := Function.update s.handed o { s.handed o with applied := true } }

end State

def step (s : State) : Action → Option State
  | .start request pc =>
    (Promises.step s.base (.start request.fn pc)).map fun base =>
      { s with base, requests := s.requests ++ [request] }
  | .proceed t =>
    (Promises.step s.base (.proceed t)).map fun base => { s.hand (s.argument t) with base }
  | .timeout t => (Promises.step s.base (.timeout t)).map fun base => { s with base }
  | .create o desc => s.base.observers[o]?.bind fun ob =>
      if ob.operation = .create then
        (Promises.step s.base (.deliver o .onSuccess)).map fun base =>
          { s.hand (some desc) with base }
      else none
  | .apply o => s.base.observers[o]?.bind fun ob =>
      if ob.operation = .create ∨ ob.delivered ∨ (s.handed o).applied then none
      else some (s.apply o ob)
  | .succeed o => s.base.observers[o]?.bind fun ob =>
      if ob.operation ≠ .create ∧ (s.handed o).applied then
        (Promises.step s.base (.deliver o .onSuccess)).map fun base => { s with base }
      else none
  | .fail o =>
    if (s.handed o).applied then none
    else (Promises.step s.base (.deliver o .onFailure)).map fun base => { s with base }

namespace State

/-- Each value that `OnSuccess` has put in a promise is the description whose
setting the observer of this promise reports. -/
def Reports (s : State) : Prop :=
  ∀ (o : ObserverRef) (ob : SessionObserver) (promise : Promises.Promise),
    s.base.observers[o]? = some ob → ob.operation ≠ .create →
    s.base.promises[ob.promise]? = some promise →
    ∀ setting ∈ promise.settings, ∀ sdp, setting.value = some sdp →
      (s.handed o).description = some sdp

def Answers (s : State) : Prop :=
  ∀ (t : CallId) (c : Call) (sdp reply : String), s.requests[t]? = some (.setAnswer sdp) →
    s.base.calls[t]? = some c → c.position = .returned (some reply) → reply = sdp

def unreported (s : State) (o : ObserverRef) (ob : SessionObserver) : Bool :=
  ob.live && (s.handed o).applied

/-- No other description waits to be reported that this one would replace. -/
def inTurn (s : State) (o : ObserverRef) (ob : SessionObserver) : Bool :=
  (List.range s.base.observers.length).all fun o' =>
    s.base.observers[o']?.all fun ob' =>
      !s.unreported o' ob' || decide (ob'.pc ≠ ob.pc) || decide (ob'.operation ≠ ob.operation) ||
        decide ((s.handed o').description = (s.handed o).description)

/-- A remote description is reported while the connection has no local one, or the same. -/
def unobstructed (s : State) (o : ObserverRef) (ob : SessionObserver) : Bool :=
  ob.cancelled || decide (ob.operation ≠ .setRemote) ||
    (s.base.connections ob.pc).localDescription.all fun sdp =>
      decide ((s.handed o).description = some sdp)

end State

def faithful (s : State) : Action → Bool
  | .apply o => s.base.observers[o]?.all (s.inTurn o)
  | .succeed o => s.base.observers[o]?.all (s.unobstructed o)
  | _ => true

def side : Position → Option Side
  | .ask side | .wait side _ _ | .timedOut side _ => some side
  | .leave _ | .returned _ => none

def result : Position → Option String
  | .leave answer | .returned answer => answer
  | _ => none

/-- Each promise has one observer that may set it to a description, and the
description set last on a side is the one still to be reported there. -/
structure Tracked (s : State) : Prop where
  requested : s.requests.map Request.fn = s.base.calls.map Call.fn
  sided : ∀ c ∈ s.base.calls, ∀ sd, side c.position = some sd → sd = c.fn.first ∨ c.fn = .getAnswer
  waits : ∀ (t : CallId) (c : Call) (sd : Side) (p : PromiseId) (o : ObserverRef),
    s.base.calls[t]? = some c → c.position = .wait sd p o →
      ∃ ob, s.base.observers[o]? = some ob ∧ ob.operation = sd.operation ∧ ob.promise = p ∧
        (sd = .remote → (s.handed o).description = s.requests[t]?.bind Request.sessionDescription)
  described : ∀ (o : ObserverRef) (ob : SessionObserver), s.base.observers[o]? = some ob →
    ob.operation ≠ .create → ∃ sdp, (s.handed o).description = some sdp
  alone : ∀ (o o' : ObserverRef) (ob ob' : SessionObserver), s.base.observers[o]? = some ob →
    s.base.observers[o']? = some ob' → ob.operation ≠ .create → ob.promise = ob'.promise →
      o' = o ∨ (ob'.operation = .create ∧ ob'.live = false)
  current : ∀ (o : ObserverRef) (ob : SessionObserver), s.base.observers[o]? = some ob →
    ob.operation ≠ .create → s.unreported o ob = true →
      descriptionOf ob.operation (s.base.connections ob.pc) = (s.handed o).description
  reports : s.Reports
  results : ∀ (t : CallId) (c : Call) (sdp reply : String),
    s.requests[t]? = some (.setAnswer sdp) → s.base.calls[t]? = some c →
      result c.position = some reply → reply = sdp

theorem request_of_call {s : State} (h : Tracked s) {t : CallId} {c : Call}
    (call : s.base.calls[t]? = some c) :
    ∃ request, s.requests[t]? = some request ∧ request.fn = c.fn := by
  have hfn : (s.requests.map Request.fn)[t]? = some c.fn := by
    rw [h.requested, List.getElem?_map, call, Option.map_some]
  rw [List.getElem?_map] at hfn
  exact Option.map_eq_some_iff.mp hfn

theorem descriptionOf_setDescription {operation : Promises.Operation} (h : operation ≠ .create)
    (sdp : Option String) (d : Descriptions) :
    descriptionOf operation (setDescription operation sdp d) = sdp := by
  cases operation with
  | create => exact absurd rfl h
  | setRemote | setLocal => rfl

theorem descriptionOf_other {operation other : Promises.Operation} (h : operation ≠ other)
    (sdp : Option String) (d : Descriptions) :
    descriptionOf operation (setDescription other sdp d) = descriptionOf operation d := by
  cases operation <;> cases other <;> first | rfl | exact absurd rfl h

def passedOn (d : Descriptions) : Option String := d.localDescription.or d.remoteDescription

theorem onSuccess_eq {s : Promises.State} {ob : SessionObserver} {sdp : String}
    (hset : ob.operation ≠ .create) (uncancelled : ob.cancelled = false)
    (h : passedOn (s.connections ob.pc) = some sdp) :
    s.onSuccess ob = s.setValue ob.promise (some sdp) := by
  cases hop : ob.operation with
  | create => exact absurd hop hset
  | setRemote | setLocal =>
    cases hown : (s.connections ob.pc).localDescription with
    | some own =>
      obtain rfl : own = sdp := by simpa [passedOn, hown] using h
      simp [Promises.State.onSuccess, uncancelled, hop, hown]
    | none =>
      have hremote : (s.connections ob.pc).remoteDescription = some sdp := by
        simpa [passedOn, hown] using h
      simp [Promises.State.onSuccess, uncancelled, hop, hown, hremote]

theorem passedOn_iff {operation : Promises.Operation} {d : Descriptions} {sdp : String}
    (hset : operation ≠ .create) (h : descriptionOf operation d = some sdp) :
    passedOn d = some sdp ↔
      (operation = .setRemote → ∀ own, d.localDescription = some own → own = sdp) := by
  obtain ⟨own, remote⟩ := d
  cases operation with
  | create => exact absurd rfl hset
  | setLocal =>
    obtain rfl : own = some sdp := h
    simp [passedOn]
  | setRemote =>
    obtain rfl : remote = some sdp := h
    cases own <;> simp [passedOn]

theorem inTurn_description {s : State} {o o' : ObserverRef} {ob ob' : SessionObserver}
    (hturn : s.inTurn o ob = true) (present : s.base.observers[o']? = some ob')
    (hunreported : s.unreported o' ob' = true) (hpc : ob'.pc = ob.pc)
    (hoperation : ob'.operation = ob.operation) :
    (s.handed o').description = (s.handed o).description := by
  have hlt : o' < s.base.observers.length := (List.getElem?_eq_some_iff.mp present).1
  have hall := List.all_eq_true.mp hturn o' (List.mem_range.mpr hlt)
  simpa [present, hunreported, hpc, hoperation] using hall

namespace Tracked

variable {s : State} {t : CallId} {c : Call} {o : ObserverRef} {ob : SessionObserver}

theorem initial (connections : ConnectionId → Descriptions) : Tracked (.initial connections) where
  requested := rfl
  sided c h := by simp [State.initial, Promises.State.initial] at h
  waits t c sd p o h := by simp [State.initial, Promises.State.initial] at h
  described o ob h := by simp [State.initial, Promises.State.initial] at h
  alone o o' ob ob' h := by simp [State.initial, Promises.State.initial] at h
  current o ob h := by simp [State.initial, Promises.State.initial] at h
  reports o ob promise h := by simp [State.initial, Promises.State.initial] at h
  results t c sdp reply _ h := by simp [State.initial, Promises.State.initial] at h

theorem handed_hand (description : Option String) (present : s.base.observers[o]? = some ob) :
    (s.hand description).handed o = s.handed o :=
  Function.update_of_ne (List.getElem?_eq_some_iff.mp present).1.ne _ _

theorem hand (h : Tracked s) (description : Option String) : Tracked (s.hand description) where
  requested := h.requested
  sided := h.sided
  waits t c sd p o call position := by
    obtain ⟨ob, present, hop, hp, hremote⟩ := h.waits t c sd p o call position
    exact ⟨ob, present, hop, hp, by rw [handed_hand (s := s) description present]; exact hremote⟩
  described o ob present hop := by
    rw [handed_hand (s := s) description present]
    exact h.described o ob present hop
  alone := h.alone
  current o ob present hop hunreported := by
    rw [State.unreported, handed_hand (s := s) description present] at hunreported
    rw [handed_hand (s := s) description present]
    exact h.current o ob present hop hunreported
  reports o ob promise present hop hp setting hsetting sdp hvalue := by
    rw [handed_hand (s := s) description present]
    exact h.reports o ob promise present hop hp setting hsetting sdp hvalue
  results := h.results

theorem start (h : Tracked s) (request : Request) (pc : ConnectionId) :
    Tracked { s with
      base := { s.base with
        calls := s.base.calls ++ [⟨request.fn, pc, .ask request.fn.first⟩] }
      requests := s.requests ++ [request] } := by
  have hlength : s.requests.length = s.base.calls.length := by
    simpa using congrArg List.length h.requested
  have hrequest : ∀ t c, s.base.calls[t]? = some c →
      (s.requests ++ [request])[t]? = s.requests[t]? := fun t c hc =>
    List.getElem?_append_left (hlength ▸ (List.getElem?_eq_some_iff.mp hc).1)
  refine ⟨by simp [h.requested], fun c hc sd hsd => ?_, fun t c sd p o hc hpos => ?_, h.described,
    h.alone, h.current, h.reports, fun t c sdp reply hrequested hc hresult => ?_⟩
  · rcases List.mem_append.mp hc with hold | hnew
    · exact h.sided c hold sd hsd
    · rw [List.mem_singleton.mp hnew] at hsd
      cases hsd
      exact .inl (by rw [List.mem_singleton.mp hnew])
  · rcases Transition.get_push hc with hold | ⟨-, rfl⟩
    · rw [hrequest t c hold]
      exact h.waits t c sd p o hold hpos
    · cases hpos
  · rcases Transition.get_push hc with hold | ⟨-, rfl⟩
    · rw [hrequest t c hold] at hrequested
      exact h.results t c sdp reply hrequested hold hresult
    · cases hresult

theorem move (h : Tracked s) (call : s.base.calls[t]? = some c) (position : Position)
    (hside : ∀ sd, side position = some sd → sd = c.fn.first ∨ c.fn = .getAnswer)
    (hwait : ∀ sd p o, position = .wait sd p o →
      ∃ ob, s.base.observers[o]? = some ob ∧ ob.operation = sd.operation ∧ ob.promise = p ∧
        (sd = .remote → (s.handed o).description = s.requests[t]?.bind Request.sessionDescription))
    (hresult : ∀ sdp reply, s.requests[t]? = some (.setAnswer sdp) →
      result position = some reply → reply = sdp) :
    Tracked { s with base := s.base.setPosition t c position } := by
  refine ⟨?_, fun c' hc sd hsd => ?_, fun t' c' sd p o hc hpos => ?_, h.described, h.alone,
    h.current, h.reports, fun t' c' sdp reply hrequested hc hreply => ?_⟩
  · obtain ⟨hlt, rfl⟩ := List.getElem?_eq_some_iff.mp call
    have hfn : (s.base.calls.map Call.fn).set t s.base.calls[t].fn = s.base.calls.map Call.fn := by
      rw [← List.getElem_map Call.fn (h := by simpa using hlt), List.set_getElem_self]
    rw [h.requested, Promises.State.setPosition, List.map_set, hfn]
  · rcases Transition.mem_set hc with rfl | hold
    · exact hside sd hsd
    · exact h.sided c' hold sd hsd
  · rcases Transition.get_set hc with ⟨rfl, rfl⟩ | ⟨-, hold⟩
    · exact hwait sd p o hpos
    · exact h.waits t' c' sd p o hold hpos
  · rcases Transition.get_set hc with ⟨rfl, rfl⟩ | ⟨-, hold⟩
    · exact hresult sdp reply hrequested hreply
    · exact h.results t' c' sdp reply hrequested hold hreply

theorem retire (h : Tracked s) (present : s.base.observers[o]? = some ob) (ob' : SessionObserver)
    (hoperation : ob'.operation = ob.operation) (hpromise : ob'.promise = ob.promise)
    (hdead : ob'.live = false) :
    Tracked { s with base := { s.base with observers := s.base.observers.set o ob' } } := by
  have hback : ∀ (o₁ : ObserverRef) (x : SessionObserver),
      (s.base.observers.set o ob')[o₁]? = some x →
        ∃ y, s.base.observers[o₁]? = some y ∧ x.operation = y.operation ∧
          x.promise = y.promise ∧ (x.live = true → x = y) := by
    intro o₁ x hx
    rcases Transition.get_set hx with ⟨rfl, rfl⟩ | ⟨-, hold⟩
    · exact ⟨ob, present, hoperation, hpromise, fun hlive => by simp [hdead] at hlive⟩
    · exact ⟨x, hold, rfl, rfl, fun _ => rfl⟩
  refine ⟨h.requested, h.sided, fun t c sd p o₁ hc hpos => ?_, fun o₁ x hx hop => ?_,
    fun o₁ o₂ x₁ x₂ hx₁ hx₂ hop hsame => ?_, fun o₁ x hx hop hunreported => ?_,
    fun o₁ x promise hx hop hp => ?_, h.results⟩
  · obtain ⟨x, hx, hxop, hxp, hremote⟩ := h.waits t c sd p o₁ hc hpos
    by_cases ho : o = o₁
    · subst ho
      have hlt : o < s.base.observers.length := (List.getElem?_eq_some_iff.mp present).1
      rw [present] at hx
      cases hx
      exact ⟨ob', List.getElem?_set_self hlt, hoperation.trans hxop, hpromise.trans hxp, hremote⟩
    · exact ⟨x, by rw [List.getElem?_set_ne ho, hx], hxop, hxp, hremote⟩
  · obtain ⟨y, hy, hyop, -, -⟩ := hback o₁ x hx
    exact h.described o₁ y hy (hyop ▸ hop)
  · obtain ⟨y₁, hy₁, hyop₁, hyp₁, -⟩ := hback o₁ x₁ hx₁
    obtain ⟨y₂, hy₂, hyop₂, hyp₂, hlive₂⟩ := hback o₂ x₂ hx₂
    rcases h.alone o₁ o₂ y₁ y₂ hy₁ hy₂ (hyop₁ ▸ hop) (by rw [← hyp₁, hsame, hyp₂]) with
      hsame | ⟨hcreate, hdead₂⟩
    · exact .inl hsame
    · refine .inr ⟨hyop₂.trans hcreate, Bool.eq_false_iff.mpr fun hlive => ?_⟩
      rw [hlive₂ hlive, hdead₂] at hlive
      cases hlive
  · obtain ⟨y, hy, -, -, hlive⟩ := hback o₁ x hx
    obtain rfl := hlive (Bool.and_eq_true _ _ ▸ hunreported).1
    exact h.current o₁ x hy hop hunreported
  · obtain ⟨y, hy, hyop, hyp, -⟩ := hback o₁ x hx
    rw [hyp] at hp
    exact h.reports o₁ y promise hy (hyop ▸ hop) hp

theorem push (h : Tracked s) (hheld : Held s.base) (t : CallId) :
    Tracked { s with base := { s.base with promises := s.base.promises ++ [⟨t, []⟩] } } := by
  refine ⟨h.requested, h.sided, h.waits, h.described, h.alone, h.current,
    fun o ob promise present hop hp setting hsetting => ?_, h.results⟩
  have hlt := hheld.known ob (List.mem_of_getElem? present)
  have hold : s.base.promises[ob.promise]? = some promise := by
    rwa [List.getElem?_append_left hlt] at hp
  exact h.reports o ob promise present hop hold setting hsetting

theorem add (h : Tracked s) (operation : Promises.Operation) (pc : ConnectionId) (p : PromiseId)
    (hnew : (s.handed s.base.observers.length).applied = false)
    (hdescribed : operation ≠ .create →
      ∃ sdp, (s.handed s.base.observers.length).description = some sdp)
    (hdead : ∀ ob ∈ s.base.observers, ob.promise = p → ob.operation = .create ∧ ob.live = false)
    (hroom : ∀ promise, s.base.promises[p]? = some promise → promise.settings = []) :
    Tracked { s with base := s.base.addObserver operation pc p } := by
  refine ⟨h.requested, h.sided, fun t c sd q o₁ hc hpos => ?_, fun o₁ x hx hop => ?_,
    fun o₁ o₂ x₁ x₂ hx₁ hx₂ hop hsame => ?_, fun o₁ x hx hop hunreported => ?_,
    fun o₁ x promise hx hop hp setting hsetting => ?_, h.results⟩
  · obtain ⟨x, hx, hrest⟩ := h.waits t c sd q o₁ hc hpos
    have hlt : o₁ < s.base.observers.length := (List.getElem?_eq_some_iff.mp hx).1
    exact ⟨x, by rw [Promises.State.addObserver, List.getElem?_append_left hlt, hx], hrest⟩
  · rcases Transition.get_push hx with hold | ⟨rfl, rfl⟩
    · exact h.described o₁ x hold hop
    · exact hdescribed hop
  · rcases Transition.get_push hx₁ with hold₁ | ⟨rfl, rfl⟩ <;>
      rcases Transition.get_push hx₂ with hold₂ | ⟨rfl, rfl⟩
    · exact h.alone o₁ o₂ x₁ x₂ hold₁ hold₂ hop hsame
    · exact absurd (hdead x₁ (List.mem_of_getElem? hold₁) hsame).1 hop
    · exact .inr (hdead x₂ (List.mem_of_getElem? hold₂) hsame.symm)
    · exact .inl rfl
  · rcases Transition.get_push hx with hold | ⟨rfl, rfl⟩
    · exact h.current o₁ x hold hop hunreported
    · simp [State.unreported, hnew] at hunreported
  · rcases Transition.get_push hx with hold | ⟨rfl, rfl⟩
    · exact h.reports o₁ x promise hold hop hp setting hsetting
    · simp [hroom promise hp] at hsetting

theorem put (h : Tracked s) (p : PromiseId) (value : Option String)
    (hvalue : ∀ sdp, value = some sdp → ∀ (o : ObserverRef) (ob : SessionObserver),
      s.base.observers[o]? = some ob → ob.operation ≠ .create → ob.promise = p →
        (s.handed o).description = some sdp) :
    Tracked { s with base := s.base.setValue p value } := by
  obtain ⟨hcalls, hobservers, -⟩ := Promises.setValue_keeps (s := s.base) p value
  have hconnections : (s.base.setValue p value).connections = s.base.connections := by
    unfold Promises.State.setValue
    split <;> rfl
  refine ⟨by simpa only [hcalls] using h.requested, by simpa only [hcalls] using h.sided,
    by simpa only [hcalls, hobservers] using h.waits,
    by simpa only [hobservers] using h.described, by simpa only [hobservers] using h.alone, ?_,
    fun o ob promise present hop hp setting hsetting sdp hsdp => ?_,
    by simpa only [hcalls] using h.results⟩
  · simpa only [hobservers, hconnections, State.unreported] using h.current
  · obtain ⟨before, hbefore, -, hsettings⟩ := Promises.setValue_lookup hp
    have hold : s.base.observers[o]? = some ob := hobservers ▸ present
    rw [hsettings] at hsetting
    rcases List.mem_append.mp hsetting with hmem | hlast
    · exact h.reports o ob before hold hop hbefore setting hmem sdp hsdp
    · split at hlast
      · rename_i hp'
        rw [List.mem_singleton.mp hlast] at hsdp
        exact hvalue sdp hsdp o ob hold hop hp'
      · cases hlast

theorem apply (h : Tracked s) (present : s.base.observers[o]? = some ob)
    (hset : ob.operation ≠ .create) (hturn : s.inTurn o ob = true) : Tracked (s.apply o ob) := by
  have hdescription : ∀ o', ((s.apply o ob).handed o').description =
      (s.handed o').description := by
    intro o'
    by_cases ho : o' = o
    · simp [State.apply, ho]
    · simp [State.apply, ho]
  refine ⟨h.requested, h.sided, fun t c sd p o₁ hc hpos => ?_, fun o₁ x hx hop => ?_,
    h.alone, fun o₁ x hx hop hunreported => ?_,
    fun o₁ x promise hx hop hp setting hsetting sdp hsdp => ?_, h.results⟩
  · rw [hdescription]
    exact h.waits t c sd p o₁ hc hpos
  · rw [hdescription]
    exact h.described o₁ x hx hop
  · rw [hdescription]
    by_cases ho : o₁ = o
    · subst ho
      obtain rfl : ob = x := Option.some.inj (present.symm.trans hx)
      simpa [State.apply] using descriptionOf_setDescription hset _ _
    · have hold : s.unreported o₁ x = true := by
        simpa [State.unreported, State.apply, ho] using hunreported
      by_cases hpc : x.pc = ob.pc
      · by_cases hsame : x.operation = ob.operation
        · simp only [State.apply, hpc, hsame, Function.update_self]
          rw [descriptionOf_setDescription hset, inTurn_description hturn hx hold hpc hsame]
        · simp only [State.apply, hpc, Function.update_self]
          rw [descriptionOf_other hsame, ← hpc]
          exact h.current o₁ x hx hop hold
      · simp only [State.apply, Function.update_of_ne hpc]
        exact h.current o₁ x hx hop hold
  · rw [hdescription]
    exact h.reports o₁ x promise hx hop hp setting hsetting sdp hsdp

theorem ask (h : Tracked s) (hheld : Held s.base) (call : s.base.calls[t]? = some c) {sd : Side}
    (position : c.position = .ask sd) :
    Tracked { s.hand (s.argument t) with base := s.base.ask t c sd } := by
  have hargument : sd = .remote →
      s.argument t = s.requests[t]?.bind Request.sessionDescription := by
    rintro rfl
    simp [State.argument, call, position]
  have hgiven : sd = .remote → ∃ sdp, s.argument t = some sdp := by
    intro hremote
    obtain ⟨request, hrequest, hfn⟩ := request_of_call h call
    have hsided := h.sided c (List.mem_of_getElem? call) sd (by simp [position, side])
    rw [hargument hremote, hrequest, Option.bind_some]
    rw [hremote, ← hfn] at hsided
    cases request with
    | createOffer => simp [Request.fn, Fn.first] at hsided
    | setAnswer sdp | getAnswer sdp => exact ⟨sdp, rfl⟩
  have hadded := ((h.hand (s.argument t)).push hheld t).add sd.operation c.pc
    s.base.promises.length (by simp [State.hand])
    (fun hop => by
      cases sd with
      | own => exact absurd rfl hop
      | remote => simpa [State.hand] using hgiven rfl)
    (fun ob hob hp => absurd hp (hheld.known ob hob).ne)
    fun promise hp => by
      rcases Transition.get_push hp with hold | ⟨-, rfl⟩
      · exact absurd (List.getElem?_eq_some_iff.mp hold).1 (lt_irrefl _)
      · rfl
  refine hadded.move (t := t) (c := c) call (.wait sd s.base.promises.length
    s.base.observers.length) (fun sd' hsd => ?_) (fun sd' p o hpos => ?_) fun _ _ _ hresult => ?_
  · cases hsd
    exact h.sided c (List.mem_of_getElem? call) sd (by simp [position, side])
  · cases hpos
    refine ⟨⟨sd.operation, c.pc, s.base.promises.length, false, false⟩, ?_, rfl, rfl, fun hr => ?_⟩
    · simp [Promises.State.addObserver, State.hand]
    · simpa [State.hand] using hargument hr
  · cases hresult

theorem ready (h : Tracked s) (call : s.base.calls[t]? = some c) {sd : Side} {p : PromiseId}
    {value : Option String} (position : c.position = .wait sd p o)
    (hfuture : s.base.future p = some value) {sdp reply : String}
    (hrequest : s.requests[t]? = some (.setAnswer sdp)) (hvalue : value = some reply) :
    reply = sdp := by
  obtain ⟨request, hrequest', hfn⟩ := request_of_call h call
  obtain rfl := Option.some.inj (hrequest.symm.trans hrequest')
  have hremote : sd = .remote := by
    simpa [← hfn, Request.fn, Fn.first] using
      h.sided c (List.mem_of_getElem? call) sd (by simp [position, side])
  obtain ⟨ob, present, hop, hp, hdescription⟩ := h.waits t c sd p o call position
  obtain ⟨promise, hpromise, hhead⟩ := Option.bind_eq_some_iff.mp hfuture
  obtain ⟨setting, hsetting, hset⟩ := Option.map_eq_some_iff.mp hhead
  have hreported := h.reports o ob promise present
    (by simp [hop, hremote, Side.operation]) (hp ▸ hpromise) setting
    (List.mem_of_head? hsetting) reply (hset.trans hvalue)
  rw [hdescription hremote, hrequest] at hreported
  exact (Option.some.inj hreported).symm

theorem goOn (h : Tracked s) (call : s.base.calls[t]? = some c) (sd : Side)
    (value : Option String) (hvalue : ∀ sdp reply, s.requests[t]? = some (.setAnswer sdp) →
      value = some reply → reply = sdp) :
    Tracked { s with base := s.base.setPosition t c (c.fn.after sd value) } := by
  have hnowait : ∀ sd' p o, c.fn.after sd value ≠ .wait sd' p o := fun _ _ _ hpos =>
    Promises.NestedUncancelled.after _ _ _ (.inr ⟨_, hpos⟩)
  refine h.move call _ (fun sd' hsd => ?_) (fun sd' p o hpos => absurd hpos (hnowait _ _ _))
    fun sdp reply hrequest hresult => ?_
  · unfold Fn.after at hsd
    split at hsd
    · rename_i hfn
      exact .inr hfn.1
    · cases hsd
  · unfold Fn.after at hresult
    split at hresult
    · cases hresult
    · exact hvalue sdp reply hrequest hresult

theorem proceed (h : Tracked s) (hheld : Held s.base) {base : Promises.State}
    (hs : Promises.Stepped s.base (.proceed t) base) :
    Tracked { s.hand (s.argument t) with base } := by
  have hhanded := h.hand (s.argument t)
  cases hs with
  | ask call position => exact h.ask hheld call position
  | @ready _ c sd p o value call position hfuture =>
    exact hhanded.goOn call sd value fun sdp reply hrequest hvalue =>
      h.ready call position hfuture hrequest hvalue
  | @cancel _ c sd o ob call position present =>
    have hretired := hhanded.retire present { ob with cancelled := true } rfl rfl
      (by simp [SessionObserver.live])
    exact hretired.goOn call sd none fun _ _ _ hvalue => by cases hvalue
  | @leave _ c answer call position =>
    refine hhanded.move call _ (fun sd hsd => by cases hsd) (fun sd p o hpos => by cases hpos)
      fun sdp reply hrequest hresult => ?_
    exact h.results t c sdp reply hrequest call (by rw [position]; exact hresult)

theorem timeout (h : Tracked s) {base : Promises.State}
    (hs : Promises.Stepped s.base (.timeout t) base) : Tracked { s with base } := by
  cases hs with
  | @timeout _ c sd p o call position =>
    refine h.move call _ (fun sd' hsd => ?_) (fun sd' p o hpos => by cases hpos)
      fun sdp reply hrequest hresult => by cases hresult
    cases hsd
    exact h.sided c (List.mem_of_getElem? call) sd (by simp [position, side])

theorem deliver (h : Tracked s) (present : s.base.observers[o]? = some ob) :
    Tracked { s with base := s.base.markDelivered o ob } :=
  h.retire present { ob with delivered := true } rfl rfl (by simp [SessionObserver.live])

theorem create (h : Tracked s) (hheld : Held s.base) (present : s.base.observers[o]? = some ob)
    (hcreate : ob.operation = .create) (undelivered : ob.delivered = false) (desc : String) :
    Tracked { s.hand (some desc) with
      base := (s.base.markDelivered o ob).callback ob .onSuccess } := by
  have hdelivered : Tracked { s.hand (some desc) with base := s.base.markDelivered o ob } :=
    (h.hand (some desc)).deliver present
  cases hcancel : ob.cancelled with
  | true => simpa [Promises.State.callback, Promises.State.onSuccess, hcancel] using hdelivered
  | false =>
    have hlive := Promises.live_iff.mpr ⟨undelivered, hcancel⟩
    obtain ⟨promise, hp⟩ : ∃ promise, s.base.promises[ob.promise]? = some promise :=
      ⟨_, List.getElem?_eq_getElem (hheld.known ob (List.mem_of_getElem? present))⟩
    have hroom := hheld.room present hlive hp
    have hdead : ∀ x ∈ (s.base.markDelivered o ob).observers, x.promise = ob.promise →
        x.operation = .create ∧ x.live = false := by
      intro x hx hsame
      have hnone : (s.base.markDelivered o ob).pending ob.promise = 0 := by omega
      refine ⟨?_, by simpa [hsame] using List.countP_eq_zero.mp hnone x hx⟩
      rcases Transition.mem_set hx with rfl | hold
      · exact hcreate
      · by_contra hset
        obtain ⟨o₁, hx₁⟩ := List.getElem?_of_mem hold
        rcases h.alone o₁ o x ob hx₁ present hset hsame with rfl | ⟨-, hdead⟩
        · rw [hx₁] at present
          exact hset (Option.some.inj present ▸ hcreate)
        · rw [hlive] at hdead
          cases hdead
    have hadded := hdelivered.add .setLocal ob.pc ob.promise
      (by simp [State.hand, Promises.State.markDelivered])
      (fun _ => ⟨desc, by simp [State.hand, Promises.State.markDelivered]⟩) hdead
      fun found hfound => by
        obtain rfl := Option.some.inj (hp.symm.trans hfound)
        exact List.length_eq_zero_iff.mp (by omega)
    simpa [Promises.State.callback, Promises.State.onSuccess, hcancel, hcreate] using hadded

theorem succeed (h : Tracked s) (present : s.base.observers[o]? = some ob)
    (hset : ob.operation ≠ .create) (happlied : (s.handed o).applied = true)
    (undelivered : ob.delivered = false) (hunobstructed : s.unobstructed o ob = true) :
    Tracked { s with base := (s.base.markDelivered o ob).callback ob .onSuccess } := by
  have hdelivered := h.deliver present
  cases hcancel : ob.cancelled with
  | true => simpa [Promises.State.callback, Promises.State.onSuccess, hcancel] using hdelivered
  | false =>
    have hlt : o < s.base.observers.length := (List.getElem?_eq_some_iff.mp present).1
    have hlive := Promises.live_iff.mpr ⟨undelivered, hcancel⟩
    obtain ⟨sdp, hsdp⟩ := h.described o ob present hset
    have hcurrent := h.current o ob present hset (by simp [State.unreported, hlive, happlied])
    have hpassed : passedOn (s.base.connections ob.pc) = some sdp := by
      refine (passedOn_iff hset (hcurrent.trans hsdp)).mpr fun hremote own hown => ?_
      simpa [State.unobstructed, hcancel, hremote, hown, hsdp, eq_comm] using hunobstructed
    rw [Promises.State.callback, onSuccess_eq (s := s.base.markDelivered o ob) hset hcancel hpassed]
    refine hdelivered.put ob.promise (some sdp) fun value hvalue o₁ x hx hop hp => ?_
    obtain rfl := Option.some.inj hvalue
    rcases hdelivered.alone o₁ o x _ hx (List.getElem?_set_self hlt) hop hp with rfl | ⟨hcreate, -⟩
    · exact hsdp
    · exact absurd hcreate hset

theorem fail (h : Tracked s) (present : s.base.observers[o]? = some ob) :
    Tracked { s with base := (s.base.markDelivered o ob).callback ob .onFailure } := by
  have hdelivered := h.deliver present
  cases hcancel : ob.cancelled with
  | true => simpa [Promises.State.callback, Promises.State.onFailure, hcancel] using hdelivered
  | false =>
    have hput := hdelivered.put ob.promise none fun _ hvalue => by cases hvalue
    simpa [Promises.State.callback, Promises.State.onFailure, hcancel] using hput

end Tracked

section Runs

variable {s s' : State} {a : Action} {o : ObserverRef}

theorem succeed_cases (h : step s (.succeed o) = some s') :
    ∃ ob, s.base.observers[o]? = some ob ∧ ob.operation ≠ .create ∧
      (s.handed o).applied = true ∧ ob.delivered = false ∧
      s' = { s with base := (s.base.markDelivered o ob).callback ob .onSuccess } := by
  obtain ⟨ob, present, hgo⟩ := Option.bind_eq_some_iff.mp h
  split at hgo
  · rename_i hcond
    obtain ⟨base, hbase, rfl⟩ := Option.map_eq_some_iff.mp hgo
    obtain ⟨x, hx, undelivered, rfl⟩ := Promises.deliver_cases hbase
    obtain rfl := Option.some.inj (present.symm.trans hx)
    exact ⟨ob, present, hcond.1, hcond.2, undelivered, rfl⟩
  · cases hgo

theorem step_refines (h : step s a = some s') : ∃ b, Promises.step s.base b = some s'.base := by
  cases a with
  | start request pc =>
    cases h
    exact ⟨.start request.fn pc, rfl⟩
  | proceed t | timeout t =>
    obtain ⟨base, hbase, rfl⟩ := Option.map_eq_some_iff.mp h
    exact ⟨_, hbase⟩
  | create o desc | succeed o =>
    obtain ⟨ob, -, hgo⟩ := Option.bind_eq_some_iff.mp h
    split at hgo
    · obtain ⟨base, hbase, rfl⟩ := Option.map_eq_some_iff.mp hgo
      exact ⟨_, hbase⟩
    · cases hgo
  | apply o =>
    obtain ⟨ob, -, hgo⟩ := Option.bind_eq_some_iff.mp h
    split at hgo
    · cases hgo
    · cases hgo
      exact ⟨.describe ob.pc _, rfl⟩
  | fail o =>
    simp only [step] at h
    split at h
    · cases h
    · obtain ⟨base, hbase, rfl⟩ := Option.map_eq_some_iff.mp h
      exact ⟨_, hbase⟩

theorem Tracked.step (h : Tracked s) (hheld : Held s.base) (hfaithful : faithful s a = true)
    (hs : step s a = some s') : Tracked s' := by
  cases a with
  | start request pc =>
    cases hs
    exact h.start request pc
  | proceed t =>
    obtain ⟨base, hbase, rfl⟩ := Option.map_eq_some_iff.mp hs
    exact h.proceed hheld (Promises.step_stepped hbase)
  | timeout t =>
    obtain ⟨base, hbase, rfl⟩ := Option.map_eq_some_iff.mp hs
    exact h.timeout (Promises.step_stepped hbase)
  | create o desc =>
    obtain ⟨ob, present, hgo⟩ := Option.bind_eq_some_iff.mp hs
    split at hgo
    · rename_i hcreate
      obtain ⟨base, hbase, rfl⟩ := Option.map_eq_some_iff.mp hgo
      obtain ⟨x, hx, undelivered, rfl⟩ := Promises.deliver_cases hbase
      obtain rfl := Option.some.inj (present.symm.trans hx)
      exact h.create hheld present hcreate undelivered desc
    · cases hgo
  | apply o =>
    obtain ⟨ob, present, hgo⟩ := Option.bind_eq_some_iff.mp hs
    split at hgo
    · cases hgo
    · rename_i hcond
      cases hgo
      exact h.apply present (fun hcreate => hcond (.inl hcreate))
        (by simpa [faithful, present] using hfaithful)
  | succeed o =>
    obtain ⟨ob, present, hset, happlied, undelivered, rfl⟩ := succeed_cases hs
    exact h.succeed present hset happlied undelivered
      (by simpa [faithful, present] using hfaithful)
  | fail o =>
    simp only [Negotiation.step] at hs
    split at hs
    · cases hs
    · obtain ⟨base, hbase, rfl⟩ := Option.map_eq_some_iff.mp hs
      obtain ⟨ob, present, -, rfl⟩ := Promises.deliver_cases hbase
      exact h.fail present

theorem held_tracked {connections : ConnectionId → Descriptions}
    (h : Transition.Reaches step (fun s a => faithful s a = true) (.initial connections) s) :
    Held s.base ∧ Tracked s := by
  have hinitial : Held (State.initial connections).base :=
    ⟨Held.initial.owner, Held.initial.known, Held.initial.once, Held.initial.awaited⟩
  refine h.invariant (fun s => Held s.base ∧ Tracked s) ⟨hinitial, .initial connections⟩
    fun _ _ _ hi hfaithful hs => ⟨?_, hi.2.step hi.1 hfaithful hs⟩
  obtain ⟨b, hb⟩ := step_refines hs
  exact hi.1.step (Promises.step_stepped hb)

end Runs

/-- Where no other local description hides a remote one and none is replaced
before it is reported, the observers pass on what was set. -/
theorem reported_descriptions {connections : ConnectionId → Descriptions} {s : State}
    (h : Transition.Reaches step (fun s a => faithful s a = true) (.initial connections) s) :
    s.Reports ∧ s.Answers := by
  have htracked := (held_tracked h).2
  refine ⟨htracked.reports, fun t c sdp reply hrequest call position => ?_⟩
  exact htracked.results t c sdp reply hrequest call (by simp [position, result])

/-- The offer of a camera, the answer to an offer, and an answer where no offer was made. -/
theorem reported_descriptions_run : ∃ s, Transition.Reaches step
    (fun s a => faithful s a = true) (.initial fun _ => ⟨none, none⟩) s ∧
    s.base.promises = [⟨0, [⟨some "offer", false⟩]⟩, ⟨1, [⟨some "their offer", false⟩]⟩,
      ⟨1, [⟨some "answer", false⟩]⟩, ⟨2, [⟨some "their answer", false⟩]⟩] ∧
    s.Reports ∧ s.Answers := by
  obtain ⟨s, hs, hp⟩ := Transition.exists_reaches_of_run step
    (fun s a => faithful s a = true) (.initial fun _ => ⟨none, none⟩) [
      .start .createOffer 0, .proceed 0, .create 0 "offer", .apply 1, .succeed 1, .proceed 0,
      .start (.getAnswer "their offer") 1, .proceed 1, .apply 2, .succeed 2, .proceed 1,
      .proceed 1, .create 3 "answer", .apply 4, .succeed 4, .proceed 1, .proceed 1,
      .start (.setAnswer "their answer") 2, .proceed 2, .apply 5, .succeed 5, .proceed 2,
      .proceed 2]
    (fun s => decide (s.base.promises = [⟨0, [⟨some "offer", false⟩]⟩,
      ⟨1, [⟨some "their offer", false⟩]⟩, ⟨1, [⟨some "answer", false⟩]⟩,
      ⟨2, [⟨some "their answer", false⟩]⟩])) (by decide)
  exact ⟨s, hs, of_decide_eq_true hp, reported_descriptions hs⟩

/-- The answer to an offer is applied, and the reply is that offer. -/
theorem offer_replied : ¬ ∀ (connections : ConnectionId → Descriptions) (s : State),
    Transition.Reachable step (.initial connections) s → s.Reports ∧ s.Answers := by
  intro halways
  obtain ⟨s, hs, hp⟩ := Transition.exists_reaches_of_run step (fun _ _ => True)
    (.initial fun _ => ⟨none, none⟩) [
      .start .createOffer 0, .proceed 0, .create 0 "offer", .apply 1, .succeed 1, .proceed 0,
      .proceed 0, .start (.setAnswer "answer") 0, .proceed 1, .apply 2, .succeed 2, .proceed 1,
      .proceed 1]
    (fun s => decide (s.requests[1]? = some (Request.setAnswer "answer") ∧
      s.base.calls[1]? = some (Call.mk .setAnswer 0 (.returned (some "offer"))))) (by decide)
  obtain ⟨hrequest, hcall⟩ := of_decide_eq_true hp
  have hreply := (halways _ s hs).2 1 _ "answer" "offer" hrequest hcall rfl
  exact absurd hreply (by decide)

theorem obstructed_report {connections : ConnectionId → Descriptions} {s s' : State}
    {o : ObserverRef}
    (h : Transition.Reaches step (fun s a => faithful s a = true) (.initial connections) s)
    (hs : step s (.succeed o) = some s') (hobstructed : faithful s (.succeed o) = false) :
    ¬ s'.Reports := by
  intro hreports
  obtain ⟨hheld, -⟩ := held_tracked h
  obtain ⟨ob, present, hset, -, undelivered, rfl⟩ := succeed_cases hs
  have hlt : o < s.base.observers.length := (List.getElem?_eq_some_iff.mp present).1
  have hfalse : s.unobstructed o ob = false := by simpa [faithful, present] using hobstructed
  simp only [State.unobstructed, Bool.or_eq_false_iff, decide_eq_false_iff_not, not_not] at hfalse
  obtain ⟨⟨hcancel, -⟩, hall⟩ := hfalse
  cases hown : (s.base.connections ob.pc).localDescription with
  | none => simp [hown] at hall
  | some own =>
    obtain ⟨promise, hp⟩ : ∃ promise, s.base.promises[ob.promise]? = some promise :=
      ⟨_, List.getElem?_eq_getElem (hheld.known ob (List.mem_of_getElem? present))⟩
    have hpassed : passedOn ((s.base.markDelivered o ob).connections ob.pc) = some own := by
      simp [passedOn, Promises.State.markDelivered, hown]
    have hput : (s.base.markDelivered o ob).callback ob .onSuccess =
        (s.base.markDelivered o ob).setValue ob.promise (some own) :=
      onSuccess_eq hset hcancel hpassed
    have hvalue := Promises.setValue_self (s := s.base.markDelivered o ob) hp (some own)
    rw [hput] at hreports
    have hreported := hreports o { ob with delivered := true } _
      (by rw [(Promises.setValue_keeps _ _).2.1]; exact List.getElem?_set_self hlt) hset hvalue
      _ (List.mem_append_right _ List.mem_cons_self) own rfl
    exact absurd hreported (by simpa [hown] using hall)

end WebrtcStreamer.Negotiation
