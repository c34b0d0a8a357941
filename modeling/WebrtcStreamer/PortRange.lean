import WebrtcStreamer.Ownership

/-! The port range of the peer connections, the option `-R`. `CreatePeerConnection`
reads its text anew for every connection. -/

set_option autoImplicit false

namespace WebrtcStreamer

/-- `minPort` and `maxPort`; none for an exception of `std::stoi`. -/
def portRange (webrtcPortRange : String) : Option (Int × Int) :=
  let first := getline (.ofString webrtcPortRange) ':'
  if first.1.fail then some (0, 65535)
  else
    (stoi (String.ofList first.2)).bind fun minPort =>
      let second := getline first.1 ':'
      if second.1.fail then some (minPort, 65535)
      else (stoi (String.ofList second.2)).map fun maxPort => (minPort, maxPort)

/-- The parts between the colons; nothing is extracted behind a colon at the end. -/
def portTexts (webrtcPortRange : String) : List String :=
  let parts := webrtcPortRange.toList.splitOn ':'
  (if parts.getLast? = some [] then parts.dropLast else parts).map String.ofList

def rangeOf : List String → Option (Int × Int)
  | [] => some (0, 65535)
  | [minText] => (stoi minText).map fun minPort => (minPort, 65535)
  | minText :: maxText :: _ =>
    (stoi minText).bind fun minPort => (stoi maxText).map fun maxPort => (minPort, maxPort)

theorem portRange_eq (text : String) : portRange text = rangeOf (portTexts text) := by
  unfold portRange portTexts
  rw [InputStream.ofString]
  by_cases hcolon : ':' ∈ text.toList
  · obtain ⟨x, rest, htext, hx⟩ := List.eq_append_cons_of_mem hcolon
    rw [htext, getline_delim hx, List.splitOn_append_cons_self_of_not_mem hx]
    by_cases hcolon' : ':' ∈ rest
    · obtain ⟨y, rest', rfl, hy⟩ := List.eq_append_cons_of_mem hcolon'
      obtain ⟨z, zs, hz⟩ := List.exists_cons_of_ne_nil (List.splitOn_ne_nil ':' rest')
      simp only [getline_delim hy, List.splitOn_append_cons_self_of_not_mem hy, hz,
        Bool.false_eq_true, if_false]
      split
      · cases zs <;> simp [rangeOf]
      · rfl
    · rw [List.splitOn_eq_singleton hcolon']
      simp only [getline_end hcolon', Bool.false_eq_true, if_false]
      cases rest with
      | nil => simp [rangeOf, Option.map_eq_bind]
      | cons c rest => simp [rangeOf]
  · rw [getline_end hcolon, List.splitOn_eq_singleton hcolon]
    cases htext : text.toList with
    | nil => simp [rangeOf]
    | cons c rest => simp [rangeOf, getline, Option.map_eq_bind]

theorem portRange_eq_none_iff (text : String) :
    portRange text = none ↔ ∃ part ∈ (portTexts text).take 2, stoi part = none := by
  rw [portRange_eq]
  generalize portTexts text = parts
  rcases parts with _ | ⟨minText, _ | ⟨maxText, rest⟩⟩
  · simp [rangeOf]
  · simp [rangeOf]
  · cases hmin : stoi minText <;> simp [rangeOf, hmin]

theorem portRange_toString {minPort maxPort : Nat} (hmin : minPort < 2 ^ 31)
    (hmax : maxPort < 2 ^ 31) :
    portRange (toString minPort ++ ":" ++ toString maxPort) = some (↑minPort, ↑maxPort) := by
  have hcolon : ∀ n : Nat, ':' ∉ (toString n).toList := fun n h =>
    absurd (isDigit_toString h) (by decide)
  have htext : (toString minPort ++ ":" ++ toString maxPort).toList =
      (toString minPort).toList ++ ':' :: (toString maxPort).toList := by simp
  have hlast : [(toString minPort).toList, (toString maxPort).toList].getLast? ≠ some [] := by
    rw [List.getLast?_cons_cons, List.getLast?_singleton]
    exact fun h => toString_ne_nil maxPort (Option.some.inj h)
  have hparts : portTexts (toString minPort ++ ":" ++ toString maxPort) =
      [toString minPort, toString maxPort] := by
    rw [portTexts, htext, List.splitOn_append_cons_self_of_not_mem (hcolon minPort),
      List.splitOn_eq_singleton (hcolon maxPort), if_neg hlast]
    simp only [List.map_cons, List.map_nil, String.ofList_toList]
  rw [portRange_eq, hparts, rangeOf, stoi_toString hmin, stoi_toString hmax]
  rfl

/-! ### A server that was started with a range -/

/-- The ports are read where a connection is constructed, before the factory is looked at. -/
def Pc.readsPorts : Pc → Bool
  | .construct _ => true
  | _ => false

def startedStep (webrtcPortRange : String) (cfg : Config) (s : State) (a : Action) : Option State :=
  match a with
  | .run t _ =>
    if (portRange webrtcPortRange).isNone && s.fault.isNone && s.threads[t]?.any Pc.readsPorts then
      some { s with fault := some .uncaughtException }
    else step cfg s a
  | _ => step cfg s a

def Pc.unserved : Pc → Bool
  | .accept _ | .oldest _ | .construct _ => true
  | .hangUp _ _ .enter | .hangUp _ _ .take | .hangUp _ _ (.answer false) => true
  | .done (.description none) | .done (.hungUp false) => true
  | _ => false

structure Unserved (s : State) : Prop where
  observers : s.shared.observers = []
  peers : ∀ p : PeerId, s.shared.peerConnectionObsMap[p]? = none
  streams : ∀ l : Label, s.shared.streamMap[l]? = none
  threads : ∀ pc ∈ s.threads, pc.unserved = true

section Steps

variable {cfg : Config} {e : Env} {sh sh' : Shared} {pc pc' : Pc}

theorem Executed.unserved (hx : Executed cfg e sh pc sh' pc') (hpc : pc.unserved = true)
    (hreads : pc.readsPorts = false) (hpeers : ∀ p : PeerId, sh.peerConnectionObsMap[p]? = none) :
    pc'.unserved = true ∧ SameOwners sh sh' ∧ sh'.streamMap = sh.streamMap := by
  cases hx with
  | accepted | refused => exact ⟨rfl, .refl sh, rfl⟩
  | room | evicting =>
    refine ⟨rfl, ?_, ?_⟩
    · split
      · exact .touchRegistered sh
      · exact .refl sh
    · split <;> simp
  | entered caller peerid =>
    exact ⟨rfl, (SameOwners.readMember caller sh).trans (.logPeerId caller cfg _),
      (logPeerId_streams caller cfg _).1.trans (readMember_streams caller sh).1⟩
  | unknown caller => exact ⟨rfl, .readMember caller sh, (readMember_streams caller sh).1⟩
  | took caller peerid o present => exact absurd ((hpeers _).symm.trans present) (by simp)
  | resumed caller peerid result =>
    have hfalse : result = false := by
      cases result with
      | true => cases hpc
      | false => rfl
    subst hfalse
    refine ⟨?_, .logPeerId caller cfg sh, (logPeerId_streams caller cfg sh).1⟩
    cases caller <;> rfl
  | constructed | unavailable => cases hreads
  | _ => cases hpc

theorem exec_unserved (hpc : pc.unserved = true) (hreads : pc.readsPorts = false) (f : Fault) :
    exec cfg e sh pc ≠ .fault f := by
  cases pc with
  | accept r => simp only [exec]; split <;> simp
  | oldest r => simp [exec]
  | hangUp caller peerid h =>
    cases h with
    | enter => simp [exec, execHangUp]
    | take => simp only [exec, execHangUp]; split <;> simp
    | answer => simp [exec, execHangUp]
    | _ => cases hpc
  | construct => cases hreads
  | done => simp [exec]
  | _ => cases hpc

end Steps

section Started

variable {cfg : Config} {webrtcPortRange : String} {s s' : State} {a : Action}

theorem startedStep_of_readable (h : portRange webrtcPortRange ≠ none) :
    startedStep webrtcPortRange cfg s a = step cfg s a := by
  have hsome : (portRange webrtcPortRange).isNone = false := by
    simpa [Option.isSome_iff_ne_none] using h
  cases a with
  | run t e => simp only [startedStep, hsome, Bool.false_and, Bool.false_eq_true, if_false]
  | _ => rfl

theorem Unserved.arrive (h : Unserved s) (hs : Stepped cfg s a s') (ha : ∀ t e, a ≠ .run t e) :
    Unserved s' := by
  have hspawn : ∀ {pc : Pc}, pc.unserved = true → Unserved (s.spawn pc) := by
    intro pc hpc
    refine ⟨h.observers, h.peers, h.streams, fun pcj hj => ?_⟩
    rcases List.mem_append.mp hj with hj | hj
    · exact h.threads pcj hj
    · exact List.mem_singleton.mp hj ▸ hpc
  cases hs with
  | request | hangUp => exact hspawn rfl
  | iceClosed o alive =>
    have hdead : (s.shared.obs o).alive = false := by simp [Shared.obs, h.observers]
    rw [hdead] at alive
    cases alive
  | look os registered =>
    have hos : os = [] := by
      refine List.eq_nil_iff_forall_not_mem.mpr fun o ho => ?_
      obtain ⟨p, hp⟩ := s.shared.mem_registered.mp (registered o ho)
      exact absurd ((h.peers p).symm.trans hp) (by simp)
    subst hos
    exact h
  | crash t e | run => exact absurd rfl (ha _ _)

theorem Unserved.step (h : Unserved s) (hnone : portRange webrtcPortRange = none)
    (hs : startedStep webrtcPortRange cfg s a = some s') : Unserved s' := by
  cases a with
  | run t e =>
    simp only [startedStep] at hs
    split at hs
    · cases hs
      exact ⟨h.observers, h.peers, h.streams, h.threads⟩
    · rename_i hreads
      obtain ⟨pc, hpos, hcases⟩ := step_run hs
      have hpc := h.threads pc (List.mem_of_getElem? hpos)
      have hfault : s.fault.isNone = true := by
        by_contra hfault
        have hsome : s.fault.isSome = true := by simpa [Option.isSome_iff_ne_none] using hfault
        simp [WebrtcStreamer.step, hsome] at hs
      have hnot : pc.readsPorts = false := by
        rw [hnone, hfault, hpos] at hreads
        simpa using hreads
      rcases hcases with ⟨f, hcrash, rfl⟩ | ⟨sh, pc', hx, rfl⟩
      · exact absurd hcrash (exec_unserved hpc hnot f)
      · obtain ⟨hpc', same, hstreams⟩ := hx.unserved hpc hnot h.peers
        refine ⟨?_, fun p => ?_, fun l => ?_, fun pcj hj => ?_⟩
        · rw [← List.length_eq_zero_iff, same.length, h.observers, List.length_nil]
        · rw [same.map, h.peers]
        · rw [hstreams, h.streams]
        · rcases Transition.mem_set hj with rfl | hj
          · exact hpc'
          · exact h.threads pcj hj
  | request | hangUp | lookup | list | iceClosed =>
    simp only [startedStep] at hs
    exact h.arrive (step_stepped hs) fun _ _ heq => by cases heq

/-- The text of `-R` decides once and for all. With a range that can be read the
server is the one without the option, and every connection gets the ports that
the user wrote. With any other range no connection is ever made and no stream
opened: nobody gets an answer but the refusal of an unreadable offer and a hangup
of nobody, and the first request that gets to its connection ends the process. -/
theorem port_range_decides (cfg : Config) (webrtcPortRange : String) :
    (portRange webrtcPortRange = none ↔
      ∃ part ∈ (portTexts webrtcPortRange).take 2, stoi part = none) ∧
    (∀ minPort maxPort : Nat, minPort < 2 ^ 31 → maxPort < 2 ^ 31 →
      webrtcPortRange = toString minPort ++ ":" ++ toString maxPort →
        portRange webrtcPortRange = some (↑minPort, ↑maxPort)) ∧
    (portRange webrtcPortRange ≠ none →
      ∀ s a, startedStep webrtcPortRange cfg s a = step cfg s a) ∧
    (portRange webrtcPortRange = none →
      ∀ s, Transition.Reachable (startedStep webrtcPortRange cfg) .initial s →
        s.shared.observers = [] ∧ (∀ l : Label, s.shared.streamMap[l]? = none) ∧
        (∀ reply, Pc.done reply ∈ s.threads →
          reply = .description none ∨ reply = .hungUp false) ∧
        ∀ t r e, s.fault = none → s.threads[t]? = some (.construct r) →
          startedStep webrtcPortRange cfg s (.run t e) =
            some { s with fault := some .uncaughtException }) := by
  refine ⟨portRange_eq_none_iff webrtcPortRange, ?_, ?_, ?_⟩
  · rintro minPort maxPort hmin hmax rfl
    exact portRange_toString hmin hmax
  · exact fun hsome s a => startedStep_of_readable hsome
  · intro hnone s hrun
    have hunserved : Unserved s := hrun.invariant Unserved
      ⟨rfl, fun p => by simp [State.initial, Shared.initial],
        fun l => by simp [State.initial, Shared.initial], fun pc h => by cases h⟩
      fun s₁ a s₂ hi _ hs => hi.step hnone hs
    refine ⟨hunserved.observers, hunserved.streams, fun reply hreply => ?_,
      fun t r e hfault hpos => ?_⟩
    · have hdone := hunserved.threads _ hreply
      cases reply with
      | description d =>
        cases d with
        | none => exact .inl rfl
        | some d => cases hdone
      | hungUp result =>
        cases result with
        | true => cases hdone
        | false => exact .inr rfl
    · simp [startedStep, hnone, hfault, hpos, Pc.readsPorts]

end Started

end WebrtcStreamer
