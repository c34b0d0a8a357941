import WebrtcStreamer.Histories
import WebrtcStreamer.SharedSources

/-! Every peer sends the streams of its own request. The run is recorded: which
request each observer was constructed for, and which pairs of sources were
opened for which request. -/

set_option autoImplicit false

namespace WebrtcStreamer

structure Served where
  -- the requests that the observers were constructed for, by `ObsId`
  constructed : List Request
  -- what `CreateVideoSource` and `CreateAudioSource` have returned
  opened : List (Request × AudioVideoPair)
  deriving DecidableEq, Repr

def Served.note (s : State) (a : Action) (s' : State) (served : Served) : Served :=
  match a with
  | .run t e =>
    match s.threads[t]? with
    | some (.construct r) =>
      if s.shared.observers.length < s'.shared.observers.length then
        { served with constructed := served.constructed ++ [r] }
      else served
    | some (.streams r _ .create) =>
      { served with opened := (r, e.videoSource, e.audioSource) :: served.opened }
    | _ => served
  | _ => served

abbrev Serves (cfg : Config) (s : State) (served : Served) : Prop :=
  Transition.Reachable (Histories.recorded (step cfg) Served.note) (.initial, ⟨[], []⟩) (s, served)

/-- The record goes with the run, and changes none. -/
theorem reachable_iff_serves {cfg : Config} {s : State} :
    Reachable cfg s ↔ ∃ served, Serves cfg s served :=
  ⟨fun h => Histories.exists_recorded h _, fun ⟨_, h⟩ => Histories.reachable_of_recorded h⟩

def Served.OpenedAs (cfg : Config) (served : Served) (l : Label) (pair : AudioVideoPair) : Prop :=
  ∃ r, (r, pair) ∈ served.opened ∧ r.label cfg = l

structure Served.Sends (cfg : Config) (served : Served) (r : Request) (x : Sender) : Prop where
  label : x.streamIds = [r.label cfg]
  source : ∃ pair, served.OpenedAs cfg (r.label cfg) pair ∧ sourceOf pair x.kind = some x.source

def Pc.toAdd : Pc → List Kind
  | .opened _ _ => [.video, .audio]
  | .register r _ => if r.api = .createOffer then [] else [.video, .audio]
  | .streams _ _ (.audio _ _) => [.audio]
  | .streams _ _ _ => [.video, .audio]
  | _ => []

def Pc.carries : Pc → Option (Request × AudioVideoPair)
  | .streams r _ (.store pair) | .streams r _ (.video pair) | .streams r _ (.audio pair _) =>
    some (r, pair)
  | _ => none

section Step

variable {cfg : Config} {e : Env} {sh sh' : Shared} {pc pc' : Pc}

theorem Executed.constructs (hx : Executed cfg e sh pc sh' pc') :
    (sh'.observers.length = sh.observers.length ∧
      ∀ x, pc'.creating = some x → pc.creating = some x) ∨
    ∃ r connected time, pc = .construct r ∧ pc' = .opened r sh.observers.length ∧
      sh' = sh.construct r.peerid connected time := by
  cases hx.effect (t := 0) with
  | keep same _ creating => exact .inl ⟨same.length, creating⟩
  | construct r connected time => exact .inr ⟨r, connected, time, rfl, rfl, rfl⟩
  | register r o _ creating => exact .inl ⟨rfl, fun x hx => creating.symm.trans hx⟩
  | take caller =>
    exact .inl ⟨(SameOwners.readMember caller sh).length, fun x hx => by cases hx⟩
  | delete o same _ _ creating =>
    refine .inl ⟨(Shared.deleteObserver_length _ o).trans same.length, fun x hx => ?_⟩
    rw [creating] at hx
    cases hx

theorem afterStreams_toAdd (r : Request) (o : ObsId) (ret : Bool) :
    (afterStreams r o ret).toAdd = [] := by
  obtain ⟨hnext, _⟩ | ⟨hnext, hoffer⟩ | ⟨hnext, _⟩ := afterStreams_cases r o ret
  · rw [hnext]
    rfl
  · rw [hnext]
    exact if_pos hoffer
  · rw [hnext]
    rfl

theorem Executed.toAdd_sublist (hx : Executed cfg e sh pc sh' pc') {r : Request} {o : ObsId}
    (h : pc.creating = some (r, o)) : pc'.toAdd.Sublist pc.toAdd := by
  cases hx with
  | registered r' o' =>
    by_cases hoffer : r'.api = .createOffer <;> simp [Pc.toAdd, hoffer]
  | audio r' o' pair ret ret' =>
    rw [afterStreams_toAdd]
    exact List.nil_sublist _
  | described r' o' => split <;> exact .refl _
  | resumed => cases h
  | answering r' o' answer => simp [Pc.toAdd, answer]
  | _ => first | cases h; done | simp [Pc.toAdd, Pc.failed]

theorem Shared.attachTrack_senders {o : ObsId} {l : Label} {kind : Kind} {source : Option Source}
    {track added ret : Bool} (h : sh.attachTrack o l kind source track added = .ok (sh', ret)) :
    (∀ o', sh'.senders o' = sh.senders o') ∨ ∃ src, source = some src ∧
      ∀ o', sh'.senders o' = sh.senders o' ++ if o' = o then [⟨[l], kind, src⟩] else [] := by
  rcases Shared.attachTrack_cases h with rfl | ⟨src, hsource, hsome, rfl⟩
  · exact .inl fun _ => rfl
  · exact .inr ⟨src, hsource, Shared.addSender_senders _ hsome⟩

theorem Executed.senders (hx : Executed cfg e sh pc sh' pc') :
    (∀ o, sh'.senders o = sh.senders o) ∨
      ∃ r o pair x, pc.attaching = some (r, o, pair) ∧ pc.toAdd = x.kind :: pc'.toAdd ∧
        x.streamIds = [r.label cfg] ∧ sourceOf pair x.kind = some x.source ∧
        ∀ o', sh'.senders o' = sh.senders o' ++ if o' = o then [x] else [] := by
  by_cases hattaching : pc.attaching = none
  · left
    cases hx.streamEffect (t := 0) with
    | keep _ senders => exact senders
    | store | erase => exact fun _ => rfl
    | attach _ _ _ _ position =>
      rw [hattaching] at position
      cases position
  · cases hx with
    | video r o pair ret attached =>
      refine (Shared.attachTrack_senders attached).imp id fun ⟨src, hsource, hsenders⟩ => ?_
      exact ⟨r, o, pair, ⟨[r.label cfg], .video, src⟩, rfl, rfl, rfl, hsource, hsenders⟩
    | audio r o pair ret ret' attached =>
      refine (Shared.attachTrack_senders attached).imp id fun ⟨src, hsource, hsenders⟩ => ?_
      refine ⟨r, o, pair, ⟨[r.label cfg], .audio, src⟩, rfl, ?_, rfl, hsource, hsenders⟩
      rw [afterStreams_toAdd]
      rfl
    | _ => exact absurd rfl hattaching

theorem Executed.carries (hx : Executed cfg e sh pc sh' pc') {r : Request} {pair : AudioVideoPair}
    (h : pc'.carries = some (r, pair)) :
    pc.carries = some (r, pair) ∨ sh.streamMap[r.label cfg]? = some pair ∨
      ∃ o, pc = .streams r o .create ∧ pair = (e.videoSource, e.audioSource) := by
  cases hx with
  | created r' o =>
    cases h
    exact .inr (.inr ⟨o, rfl, rfl⟩)
  | locked r' o pair' _ present =>
    cases h
    exact .inr (.inl present)
  | video => exact .inl h
  | registered r' o => split at h <;> cases h
  | audio r' o pair' ret ret' =>
    rw [apply_afterStreams Pc.carries r' o (ret || ret') rfl rfl rfl] at h
    cases h
  | described r' o => split at h <;> cases h
  | resumed caller => cases caller <;> cases h
  | _ => cases h

theorem Executed.streamMap (hx : Executed cfg e sh pc sh' pc') {l : Label} {pair : AudioVideoPair}
    (h : sh'.streamMap[l]? = some pair) :
    sh.streamMap[l]? = some pair ∨ ∃ r, pc.carries = some (r, pair) ∧ r.label cfg = l := by
  cases hx.streamEffect (t := 0) with
  | keep map => exact .inl (map ▸ h)
  | store r o pair' =>
    by_cases hmem : r.label cfg ∈ sh.streamMap
    · exact .inl ((congrFun (Shared.storeStream_old pair' hmem) l).symm.trans h)
    · have hnew := congrFun (Shared.storeStream_new pair' (by simpa using hmem)) l
      rw [h] at hnew
      by_cases hl : l = r.label cfg
      · subst hl
        rw [Function.update_self] at hnew
        cases hnew
        exact .inr ⟨r, rfl, rfl⟩
      · rw [Function.update_of_ne hl] at hnew
        exact .inl hnew.symm
  | attach _ _ _ _ _ _ _ map => exact .inl (map ▸ h)
  | erase caller peerid o l' rest =>
    have hupdate := congrFun (sh.eraseStream_update l') l
    rw [h] at hupdate
    by_cases hl : l = l'
    · subst hl
      rw [Function.update_self] at hupdate
      cases hupdate
    · rw [Function.update_of_ne hl] at hupdate
      exact .inl hupdate.symm

end Step

/-! ### The invariant -/

/-- The record agrees with the observers, with the threads and with the stream map. -/
structure Recorded (cfg : Config) (s : State) (served : Served) : Prop where
  length : served.constructed.length = s.shared.observers.length
  creating : ∀ pc ∈ s.threads, ∀ r o, pc.creating = some (r, o) → served.constructed[o]? = some r
  peerid : ∀ (o : Nat) r, served.constructed[o]? = some r → (s.shared.obs o).peerid = r.peerid
  carried : ∀ pc ∈ s.threads, ∀ r pair, pc.carries = some (r, pair) →
    served.OpenedAs cfg (r.label cfg) pair
  mapped : ∀ (l : Label) pair, s.shared.streamMap[l]? = some pair → served.OpenedAs cfg l pair

structure OwnSenders (cfg : Config) (s : State) (served : Served) : Prop where
  sends : ∀ (o : Nat) r, served.constructed[o]? = some r → ∀ x ∈ s.shared.senders o,
    served.Sends cfg r x
  kinds : ∀ o, ((s.shared.senders o).map Sender.kind).Sublist [.video, .audio]
  room : ∀ pc ∈ s.threads, ∀ r o, pc.creating = some (r, o) →
    ((s.shared.senders o).map Sender.kind ++ pc.toAdd).Sublist [.video, .audio]

section Runs

variable {cfg : Config} {s s' : State} {served : Served}

theorem Served.OpenedAs.mono {served' : Served} {l : Label} {pair : AudioVideoPair}
    (h : served.OpenedAs cfg l pair) (hle : ∀ p ∈ served.opened, p ∈ served'.opened) :
    served'.OpenedAs cfg l pair := by
  obtain ⟨r, hmem, hlabel⟩ := h
  exact ⟨r, hle _ hmem, hlabel⟩

theorem Served.Sends.mono {served' : Served} {r : Request} {x : Sender}
    (h : served.Sends cfg r x) (hle : ∀ p ∈ served.opened, p ∈ served'.opened) :
    served'.Sends cfg r x := by
  obtain ⟨pair, hopened, hsource⟩ := h.source
  exact ⟨h.label, pair, hopened.mono hle, hsource⟩

theorem Served.note_opened (served : Served) (s' : State) {t : Nat} (e : Env) {pc : Pc}
    (hpos : s.threads[t]? = some pc) :
    (∀ p ∈ served.opened, p ∈ (served.note s (.run t e) s').opened) ∧
      ∀ r o, pc = .streams r o .create →
        (r, e.videoSource, e.audioSource) ∈ (served.note s (.run t e) s').opened := by
  simp only [note, hpos]
  constructor
  · intro p hp
    split
    · split <;> exact hp
    · exact List.mem_cons_of_mem _ hp
    · exact hp
  · rintro r o rfl
    exact List.mem_cons_self

theorem Served.note_constructed (served : Served) {t : Nat} {e : Env} {pc pc' : Pc}
    (hpos : s.threads[t]? = some pc) (hx : Executed cfg e s.shared pc s'.shared pc') :
    (s'.shared.observers.length = s.shared.observers.length ∧
      (served.note s (.run t e) s').constructed = served.constructed ∧
      ∀ x, pc'.creating = some x → pc.creating = some x) ∨
    ∃ r connected time, pc = .construct r ∧ pc' = .opened r s.shared.observers.length ∧
      s'.shared = s.shared.construct r.peerid connected time ∧
      (served.note s (.run t e) s').constructed = served.constructed ++ [r] := by
  simp only [note, hpos]
  rcases hx.constructs with ⟨hlength, hcreating⟩ | ⟨r, connected, time, rfl, hpc, hshared⟩
  · refine .inl ⟨hlength, ?_, hcreating⟩
    split
    · rw [if_neg (by omega)]
    · rfl
    · rfl
  · exact .inr ⟨r, connected, time, rfl, hpc, hshared, by simp [hshared]⟩

theorem Recorded.run {t : Nat} {e : Env} {pc pc' : Pc} (h : Recorded cfg s served)
    (hpos : s.threads[t]? = some pc) (hx : Executed cfg e s.shared pc s'.shared pc')
    (hthreads : s'.threads = s.threads.set t pc') :
    Recorded cfg s' (served.note s (.run t e) s') := by
  have hpc := List.mem_of_getElem? hpos
  obtain ⟨hmono, hcreated⟩ := served.note_opened s' e hpos
  have hcases := served.note_constructed hpos hx
  generalize served.note s (.run t e) s' = served' at *
  refine ⟨?_, fun pcj hj r o hcreating => ?_, fun o r hr => ?_, fun pcj hj r pair hcarries => ?_,
    fun l pair hl => ?_⟩
  · rcases hcases with ⟨hlength, hsame, _⟩ | ⟨r, _, _, _, _, hshared, hnew⟩
    · rw [hsame, hlength]
      exact h.length
    · simp [hnew, hshared, h.length]
  · rw [hthreads] at hj
    rcases hcases with ⟨_, hsame, hback⟩ | ⟨r', _, _, _, rfl, _, hnew⟩
    · rw [hsame]
      rcases Transition.mem_set hj with rfl | hj
      · exact h.creating pc hpc r o (hback _ hcreating)
      · exact h.creating pcj hj r o hcreating
    · rw [hnew]
      rcases Transition.mem_set hj with rfl | hj
      · cases hcreating
        simp [← h.length]
      · have hold := h.creating pcj hj r o hcreating
        exact (List.getElem?_append_left (List.getElem?_eq_some_iff.mp hold).1).trans hold
  · have hold : ∀ r', served.constructed[o]? = some r' → (s'.shared.obs o).peerid = r'.peerid := by
      intro r' hr'
      have hlt := (List.getElem?_eq_some_iff.mp hr').1
      rw [h.length] at hlt
      exact ((hx.effect (t := 0)).peerid hlt).trans (h.peerid o r' hr')
    rcases hcases with ⟨_, hsame, _⟩ | ⟨r', _, _, _, _, hshared, hnew⟩
    · exact hold r (hsame ▸ hr)
    · rw [hnew] at hr
      rcases Transition.get_push hr with hr | ⟨rfl, rfl⟩
      · exact hold r hr
      · simp [hshared, h.length]
  · rw [hthreads] at hj
    rcases Transition.mem_set hj with rfl | hj
    · rcases hx.carries hcarries with hold | hfound | ⟨o, rfl, rfl⟩
      · exact (h.carried pc hpc r pair hold).mono hmono
      · exact (h.mapped _ pair hfound).mono hmono
      · exact ⟨r, hcreated r o rfl, rfl⟩
    · exact (h.carried pcj hj r pair hcarries).mono hmono
  · rcases hx.streamMap hl with hold | ⟨r, hcarries, rfl⟩
    · exact (h.mapped l pair hold).mono hmono
    · exact (h.carried pc hpc r pair hcarries).mono hmono

theorem Pc.attaching_creating {pc : Pc} {r : Request} {o : ObsId} {pair : AudioVideoPair}
    (h : pc.attaching = some (r, o, pair)) :
    pc.creating = some (r, o) ∧ pc.carries = some (r, pair) := by
  cases pc with
  | streams r' o' a =>
    cases a with
    | video | audio =>
      cases h
      exact ⟨rfl, rfl⟩
    | _ => cases h
  | _ => cases h

theorem senders_fresh {sh : Shared} {o : Nat} (h : sh.observers.length ≤ o) :
    sh.senders o = [] := by
  have hnone : sh.observers[o]? = none := List.getElem?_eq_none h
  simp [Shared.senders, Shared.obs, List.getD_eq_getElem?_getD, hnone]

theorem Served.note_back {served : Served} {t : Nat} {e : Env} {pc pc' : Pc} {o : Nat}
    {r : Request} (hrecorded : Recorded cfg s served) (hpos : s.threads[t]? = some pc)
    (hx : Executed cfg e s.shared pc s'.shared pc')
    (hr : (served.note s (.run t e) s').constructed[o]? = some r) :
    served.constructed[o]? = some r ∨ s.shared.observers.length ≤ o := by
  rcases served.note_constructed hpos hx with ⟨_, hsame, _⟩ | ⟨r', _, _, _, _, _, hnew⟩
  · exact .inl (hsame ▸ hr)
  · rw [hnew] at hr
    rcases Transition.get_push hr with hr | ⟨rfl, _⟩
    · exact .inl hr
    · exact .inr (Nat.le_of_eq hrecorded.length.symm)

theorem OwnSenders.run {t : Nat} {e : Env} {pc pc' : Pc} (h : OwnSenders cfg s served)
    (hrecorded : Recorded cfg s served) (howned : Owned s.shared s.threads)
    (hpos : s.threads[t]? = some pc) (hx : Executed cfg e s.shared pc s'.shared pc')
    (hthreads : s'.threads = s.threads.set t pc') :
    OwnSenders cfg s' (served.note s (.run t e) s') := by
  have hpc := List.mem_of_getElem? hpos
  obtain ⟨hmono, _⟩ := served.note_opened s' e hpos
  have hcases := served.note_constructed hpos hx
  have hback := fun o r => served.note_back (o := o) (r := r) hrecorded hpos hx
  generalize served.note s (.run t e) s' = served' at *
  rcases hx.senders with hsame | ⟨r, o, pair, x, hattaching, hadd, hlabel, hsource, hsenders⟩
  · refine ⟨fun o r hr x hmem => ?_, fun o => ?_, fun pcj hj r o hcreating => ?_⟩
    · rw [hsame] at hmem
      rcases hback o r hr with hold | hnew
      · exact (h.sends o r hold x hmem).mono hmono
      · rw [senders_fresh hnew] at hmem
        cases hmem
    · rw [hsame]
      exact h.kinds o
    · rw [hsame]
      rw [hthreads] at hj
      rcases Transition.mem_set hj with rfl | hj
      · rcases hcases with ⟨_, _, hbefore⟩ | ⟨r', _, _, _, rfl, _, _⟩
        · have hold := hbefore _ hcreating
          exact (List.Sublist.append_left (hx.toAdd_sublist hold) _).trans (h.room pc hpc r o hold)
        · cases hcreating
          rw [senders_fresh (Nat.le_refl _)]
          exact .refl _
      · exact h.room pcj hj r o hcreating
  · obtain ⟨hcreating, hcarries⟩ := Pc.attaching_creating hattaching
    have hroom := h.room pc hpc r o hcreating
    rw [hadd] at hroom
    refine ⟨fun o' r' hr' y hmem => ?_, fun o' => ?_, fun pcj hj r' o' hcreating' => ?_⟩
    · rw [hsenders] at hmem
      rcases List.mem_append.mp hmem with hmem | hmem
      · rcases hback o' r' hr' with hold | hnew
        · exact (h.sends o' r' hold y hmem).mono hmono
        · rw [senders_fresh hnew] at hmem
          cases hmem
      · obtain ⟨rfl, rfl⟩ : o' = o ∧ y = x := by
          split at hmem
          · exact ⟨‹_›, List.mem_singleton.mp hmem⟩
          · cases hmem
        obtain rfl : r' = r := by
          have hmine := hrecorded.creating pc hpc r o' hcreating
          rcases hback o' r' hr' with hold | hnew
          · exact Option.some.inj (hold.symm.trans hmine)
          · have hlt := (List.getElem?_eq_some_iff.mp hmine).1
            rw [hrecorded.length] at hlt
            omega
        exact ⟨hlabel, pair, (hrecorded.carried pc hpc r' pair hcarries).mono hmono, hsource⟩
    · rw [hsenders]
      by_cases ho : o' = o
      · subst ho
        rw [if_pos rfl, List.map_append]
        exact (List.Sublist.append_left (by simp) _).trans hroom
      · rw [if_neg ho, List.append_nil]
        exact h.kinds o'
    · rw [hsenders]
      rw [hthreads] at hj
      obtain ⟨j, hj⟩ := List.mem_iff_getElem?.mp hj
      rcases Transition.get_set hj with ⟨rfl, rfl⟩ | ⟨hne, hj⟩
      · rcases hcases with ⟨_, _, hbefore⟩ | ⟨_, _, _, rfl, _⟩
        · cases hcreating.symm.trans (hbefore _ hcreating')
          rw [if_pos rfl, List.map_append, List.append_assoc]
          exact hroom
        · cases hcreating
      · have ho : o' ≠ o := by
          rintro rfl
          exact hne (howned.creator j t pcj pc r' r o' hj hpos hcreating' hcreating)
        rw [if_neg ho, List.append_nil]
        exact h.room pcj (List.mem_of_getElem? hj) r' o' hcreating'

theorem Served.note_fault (served : Served) {t : Nat} {e : Env} {pc : Pc} {f : Fault}
    (hpos : s.threads[t]? = some pc) (hfault : exec cfg e s.shared pc = .fault f) :
    served.note s (.run t e) { s with fault := some f } = served := by
  simp only [note, hpos]
  split
  · simp
  · rename_i hcreate
    cases hcreate
    cases hfault
  · rfl

theorem Recorded.of_spawn {pc : Pc} (h : Recorded cfg s served) (hcreating : pc.creating = none)
    (hcarries : pc.carries = none) : Recorded cfg (s.spawn pc) served := by
  refine ⟨h.length, fun pcj hj r o hr => ?_, h.peerid, fun pcj hj r pair hr => ?_, h.mapped⟩
  all_goals rcases List.mem_append.mp hj with hj | hj
  · exact h.creating pcj hj r o hr
  · rw [List.mem_singleton.mp hj, hcreating] at hr
    cases hr
  · exact h.carried pcj hj r pair hr
  · rw [List.mem_singleton.mp hj, hcarries] at hr
    cases hr

theorem OwnSenders.of_spawn {pc : Pc} (h : OwnSenders cfg s served)
    (hcreating : pc.creating = none) : OwnSenders cfg (s.spawn pc) served := by
  refine ⟨h.sends, h.kinds, fun pcj hj r o hr => ?_⟩
  rcases List.mem_append.mp hj with hj | hj
  · exact h.room pcj hj r o hr
  · rw [List.mem_singleton.mp hj, hcreating] at hr
    cases hr

structure Own (cfg : Config) (x : State × Served) : Prop where
  owned : Owned x.1.shared x.1.threads
  recorded : Recorded cfg x.1 x.2
  senders : OwnSenders cfg x.1 x.2

theorem Own.initial : Own cfg (.initial, ⟨[], []⟩) where
  owned := .initial
  recorded := ⟨rfl, fun _ h => (by cases h), fun _ _ h => (by cases h), fun _ h => (by cases h),
    fun l pair h => by simp [State.initial, Shared.initial] at h⟩
  senders := ⟨fun _ _ h => (by cases h), fun o => by simp [State.initial, Shared.initial,
    Shared.senders, Shared.obs], fun _ h => (by cases h)⟩

theorem Own.step {x x' : State × Served} {a : Action} (h : Own cfg x)
    (hs : Histories.recorded (WebrtcStreamer.step cfg) Served.note x a = some x') :
    Own cfg x' := by
  obtain ⟨s, served⟩ := x
  obtain ⟨s', served'⟩ := x'
  obtain ⟨hstep, hnote⟩ := Histories.recorded_step hs
  obtain rfl : served' = served.note s a s' := hnote
  have howned := h.owned.step hstep
  cases a with
  | run t e =>
    obtain ⟨pc, hpos, ⟨f, hfault, rfl⟩ | ⟨sh, pc', hx, rfl⟩⟩ := step_run hstep
    · rw [served.note_fault hpos hfault]
      exact ⟨h.owned, ⟨h.recorded.length, h.recorded.creating, h.recorded.peerid,
        h.recorded.carried, h.recorded.mapped⟩, ⟨h.senders.sends, h.senders.kinds, h.senders.room⟩⟩
    · exact ⟨howned, h.recorded.run hpos hx rfl, h.senders.run h.recorded h.owned hpos hx rfl⟩
  | request | hangUp | iceClosed | lookup | list =>
    cases step_stepped hstep with
    | look os hos =>
      simp only [h.owned.look hos]
      exact h
    | _ => exact ⟨howned, h.recorded.of_spawn rfl rfl, h.senders.of_spawn rfl⟩

end Runs

/-- Every peer sends the streams of its own request and of no other. In every run
a sender of the observer constructed for a request carries the label of this
request only, its source was opened for a request with this label, and there is
at most one video track, before at most one audio track. -/
theorem own_streams {cfg : Config} {s : State} {served : Served} (h : Serves cfg s served) :
    served.constructed.length = s.shared.observers.length ∧
    ∀ (o : Nat) r, served.constructed[o]? = some r →
      (s.shared.obs o).peerid = r.peerid ∧
      (∀ x ∈ s.shared.senders o, x.streamIds = [r.label cfg] ∧
        ∃ r' pair, (r', pair) ∈ served.opened ∧ r'.label cfg = r.label cfg ∧
          sourceOf pair x.kind = some x.source) ∧
      ((s.shared.senders o).map Sender.kind).Sublist [.video, .audio] := by
  have hown : Own cfg (s, served) := h.invariant (Own cfg) .initial fun _ _ _ hi _ hs => hi.step hs
  refine ⟨hown.recorded.length, fun o r hr => ⟨hown.recorded.peerid o r hr, fun x hx => ?_,
    hown.senders.kinds o⟩⟩
  obtain ⟨hlabel, pair, ⟨r', hopened, hsame⟩, hsource⟩ := hown.senders.sends o r hr x hx
  exact ⟨hlabel, r', pair, hopened, hsame, hsource⟩

theorem own_streams_shared : ∃ s served, Serves (.plain 0) s served ∧
    ∃ r x, served.constructed[1]? = some r ∧ r.peerid = "b" ∧ x ∈ s.shared.senders 1 ∧
      x.streamIds = [r.label (.plain 0)] ∧
      ∃ r' pair, (r', pair) ∈ served.opened ∧ r'.label (.plain 0) = r.label (.plain 0) ∧
        sourceOf pair x.kind = some x.source := by
  obtain ⟨⟨s, served⟩, hrun, hp⟩ := Transition.exists_reaches_of_run
    (Histories.recorded (step (.plain 0)) Served.note) (fun _ _ => True) (.initial, ⟨[], []⟩)
    ([Action.request (.plain .call "a" "rtsp://cam"), .request (.plain .call "b" "rtsp://cam")] ++
      runs 0 14 (.fine 7) ++ runs 1 12 (.fine 8))
    (fun x => (x.2.constructed[1]?.map Request.peerid = some "b") &&
      !(x.1.shared.senders 1).isEmpty)
    (by decide +kernel)
  simp only [Bool.and_eq_true, decide_eq_true_eq, Bool.not_eq_true',
    List.isEmpty_eq_false_iff_exists_mem] at hp
  obtain ⟨hpeer, x, hx⟩ := hp
  obtain ⟨r, hr, hid⟩ := Option.map_eq_some_iff.mp hpeer
  obtain ⟨hlabel, hsource⟩ := ((own_streams hrun).2 1 r hr).2.1 x hx
  exact ⟨s, served, hrun, r, x, hr, hid, hx, hlabel, hsource⟩

end WebrtcStreamer
