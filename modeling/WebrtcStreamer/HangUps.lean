import WebrtcStreamer.Completion
import WebrtcStreamer.Sharing
import WebrtcStreamer.StreamEntries

/-! Hang-ups that run at the same time. Each of them tests and erases the labels of its
own peer one by one, between the sections of the others; together they release exactly
what the peers that went were the last to use. -/

set_option autoImplicit false

namespace WebrtcStreamer

open Sharing (Table)

def Shared.view (sh : Shared) : Table PeerId Label where
  uses p := {l | ∃ o, sh.peerConnectionObsMap[p]? = some o ∧ sh.sends l o = true}
  kept := {l | l ∈ sh.streamMap}

/-- The labels that a hang-up has still to test or to erase. -/
def Pc.unreleased (sh : Shared) : Pc → List Label
  | .hangUp _ _ (.senders o) => (sh.senders o).filterMap fun sender => sender.streamIds.head?
  | .hangUp _ _ (.scan _ rest) => rest.filterMap List.head?
  | .hangUp _ _ (.close _ l rest) => l :: rest.filterMap List.head?
  | _ => []

def Action.isRequest : Action → Bool
  | .request _ => true
  | _ => false

/-- Finished, or a hang-up that no request waits for. -/
def Pc.leaving : Pc → Bool
  | .done _ => true
  | .hangUp (.evict _) _ _ => false
  | .hangUp _ _ _ => true
  | _ => false

structure Releases (sh sh' : Shared) (pc pc' : Pc) : Prop where
  leaving : pc'.leaving = true
  senders : ∀ o, sh'.senders o = sh.senders o
  alive : ∀ o, (sh'.obs o).alive = true → (sh.obs o).alive = true
  peers : ∀ (p : PeerId) (o : ObsId), sh'.peerConnectionObsMap[p]? = some o →
    sh.peerConnectionObsMap[p]? = some o
  taken : ∀ (p : PeerId) (o : ObsId), sh.peerConnectionObsMap[p]? = some o →
    sh'.peerConnectionObsMap[p]? = some o ∨
      pc'.holds = some o ∧ ∀ l, sh.sends l o = true → l ∈ pc'.unreleased sh'
  entries : ∀ (l : Label) (pair : AudioVideoPair), sh'.streamMap[l]? = some pair →
    sh.streamMap[l]? = some pair
  erased : ∀ l : Label, sh.streamMap[l]? ≠ none → sh'.streamMap[l]? ≠ none ∨ pc.closing = some l
  found : ∀ l ∈ pc'.unreleased sh', l ∈ pc.unreleased sh ∨ Used sh l
  tested : ∀ l ∈ pc.unreleased sh, l ∈ pc'.unreleased sh' ∨ Used sh' l ∨ sh'.streamMap[l]? = none
  unused : ∀ l, pc'.closing = some l → ¬ Used sh' l
  held : ∀ o, pc.holds = some o → pc'.holds = some o ∨ (sh'.obs o).alive = false

section Sections

variable {cfg : Config} {e : Env} {sh sh' : Shared} {pc pc' : Pc}

theorem Releases.of_same (hleaving : pc'.leaving = true) (hsame : SamePeers sh sh')
    (halive : ∀ o, (sh'.obs o).alive = (sh.obs o).alive) (hstreams : sh'.streamMap = sh.streamMap)
    (hfound : ∀ l ∈ pc'.unreleased sh', l ∈ pc.unreleased sh ∨ Used sh l)
    (htested : ∀ l ∈ pc.unreleased sh, l ∈ pc'.unreleased sh' ∨ Used sh l)
    (hunused : ∀ l, pc'.closing = some l → ¬ Used sh l)
    (hheld : ∀ o, pc.holds = some o → pc'.holds = some o) : Releases sh sh' pc pc' := by
  have hused (l : Label) : Used sh' l ↔ Used sh l := by
    simp only [Used, hsame.map, hsame.sends]
  exact {
    leaving := hleaving
    senders := fun o => by simp only [Shared.senders, hsame.pc]
    alive := fun o h => halive o ▸ h
    peers := fun p o h => hsame.map ▸ h
    taken := fun p o h => .inl (hsame.map.symm ▸ h)
    entries := fun l pair h => hstreams ▸ h
    erased := fun l h => .inl (hstreams.symm ▸ h)
    found := hfound
    tested := fun l h => (htested l h).imp_right fun h => .inl ((hused l).mpr h)
    unused := fun l h hl => hunused l h ((hused l).mp hl)
    held := fun o h => .inl (hheld o h) }

theorem streamStillUsed_iff {l : Label} {stillUsed : Bool}
    (h : sh.streamStillUsed l = .ok stillUsed) : stillUsed = true ↔ Used sh l := by
  rw [sh.streamStillUsed_ok h, used_iff]

theorem Pc.leaving_next {caller : Caller} {given peerid : PeerId} {h : HangPc}
    (hpc : (Pc.hangUp caller given h).leaving = true) (h' : HangPc) :
    (Pc.hangUp caller peerid h').leaving = true := by
  cases caller with
  | evict r => cases hpc
  | client => rfl
  | detached o => rfl

theorem took_releases {caller : Caller} {given peerid : PeerId} {o : ObsId}
    (hpc : (Pc.hangUp caller given .take).leaving = true)
    (present : sh.peerConnectionObsMap[peerid]? = some o) :
    Releases sh ((caller.readMember sh).erasePeer peerid) (.hangUp caller given .take)
      (.hangUp caller peerid (.senders o)) := by
  have hsame := SamePeers.readMember caller sh
  have hstreams := (readMember_streams caller sh).1
  have hobs := (readMember_streams caller sh).2
  generalize caller.readMember sh = sh₁ at *
  have hmap (q : PeerId) : (sh₁.erasePeer peerid).peerConnectionObsMap[q]? =
      if q = peerid then none else sh.peerConnectionObsMap[q]? := by
    rw [Shared.erasePeer, hsame.map, Std.TreeMap.getElem?_erase]
    by_cases hq : q = peerid <;> simp [hq, Ne.symm]
  have hsends : ∀ l, sh.sends l o = true →
      l ∈ (Pc.hangUp caller peerid (.senders o)).unreleased (sh₁.erasePeer peerid) := by
    intro l hl
    rw [Shared.sends, List.any_eq_true] at hl
    obtain ⟨sender, hsender, hhead⟩ := hl
    refine List.mem_filterMap.mpr ⟨sender, ?_, of_decide_eq_true hhead⟩
    simpa [Shared.senders, hobs] using hsender
  exact {
    leaving := Pc.leaving_next hpc _
    senders := fun o' => by simp [Shared.senders, hobs]
    alive := fun o' h => by simpa [hobs] using h
    peers := fun p o' h => by
      rw [hmap] at h
      split at h
      · cases h
      · exact h
    taken := fun p o' h => by
      by_cases hp : p = peerid
      · subst hp
        obtain rfl : o = o' := Option.some.inj (present.symm.trans h)
        exact .inr ⟨rfl, hsends⟩
      · exact .inl (by rw [hmap, if_neg hp]; exact h)
    entries := fun l pair h => hstreams ▸ h
    erased := fun l h => .inl (by rw [Shared.erasePeer, hstreams]; exact h)
    found := fun l hl => by
      obtain ⟨sender, hsender, hhead⟩ := List.mem_filterMap.mp hl
      refine .inr ⟨peerid, o, present, List.any_eq_true.mpr ⟨sender, ?_, decide_eq_true hhead⟩⟩
      simpa [Shared.senders, hobs] using hsender
    tested := fun l hl => by cases hl
    unused := fun l hl => by cases hl
    held := fun o' ho' => by cases ho' }

theorem closed_releases {caller : Caller} {peerid : PeerId} {o : ObsId} {l : Label}
    {rest : List (List Label)} (hpc : (Pc.hangUp caller peerid (.close o l rest)).leaving = true) :
    Releases sh (sh.eraseStream l) (.hangUp caller peerid (.close o l rest))
      (.hangUp caller peerid (.scan o rest)) := by
  have hstreams (l' : Label) : (sh.eraseStream l).streamMap[l']? =
      if l' = l then none else sh.streamMap[l']? := by
    rw [Shared.eraseStream, Std.TreeMap.getElem?_erase]
    by_cases hl : l' = l <;> simp [hl, Ne.symm]
  exact {
    leaving := Pc.leaving_next hpc _
    senders := fun _ => rfl
    alive := fun _ h => h
    peers := fun _ _ h => h
    taken := fun _ _ h => .inl h
    entries := fun l' pair h => by
      rw [hstreams] at h
      split at h
      · cases h
      · exact h
    erased := fun l' h => by
      by_cases hl : l' = l
      · exact .inr (congrArg some hl.symm)
      · exact .inl (by rw [hstreams, if_neg hl]; exact h)
    found := fun l' hl' => .inl (List.mem_cons_of_mem _ hl')
    tested := fun l' hl' => by
      rcases List.mem_cons.mp hl' with rfl | hl'
      · exact .inr (.inr (by rw [hstreams, if_pos rfl]))
      · exact .inl hl'
    unused := fun _ hl => by cases hl
    held := fun _ ho => .inl ho }

theorem destroyed_releases {caller : Caller} {peerid : PeerId} {o : ObsId}
    (hpc : (Pc.hangUp caller peerid (.destroy o)).leaving = true) :
    Releases sh (sh.deleteObserver o) (.hangUp caller peerid (.destroy o))
      (.hangUp caller peerid (.answer true)) := by
  have hsame := SamePeers.deleteObserver sh o
  have hstreams : (sh.deleteObserver o).streamMap = sh.streamMap := by
    simp [Shared.deleteObserver, Shared.modifyObs]
  exact {
    leaving := Pc.leaving_next hpc _
    senders := fun o' => by simp only [Shared.senders, hsame.pc]
    alive := fun o' h => by
      rw [Shared.deleteObserver_obs] at h
      split at h
      · cases h
      · exact h
    peers := fun p o' h => hsame.map ▸ h
    taken := fun p o' h => .inl (hsame.map.symm ▸ h)
    entries := fun _ _ h => hstreams ▸ h
    erased := fun _ h => .inl (hstreams.symm ▸ h)
    found := fun _ hl => by cases hl
    tested := fun _ hl => by cases hl
    unused := fun _ hl => by cases hl
    held := fun o' ho' => by
      cases ho'
      exact .inr (by simp) }

theorem Executed.releases (hx : Executed cfg e sh pc sh' pc') (hpc : pc.leaving = true) :
    Releases sh sh' pc pc' := by
  cases hx with
  | entered caller peerid =>
    have hsame := (SamePeers.readMember caller sh).trans (.logPeerId caller cfg _)
    refine .of_same (Pc.leaving_next hpc _) hsame (fun o => ?_) ?_ ?_ ?_ ?_ ?_
    · rw [(logPeerId_streams _ _ _).2, (readMember_streams _ _).2]
    · rw [(logPeerId_streams _ _ _).1, (readMember_streams _ _).1]
    all_goals simp [Pc.unreleased, Pc.closing, Pc.holds]
  | unknown caller peerid absent =>
    refine .of_same (Pc.leaving_next hpc _) (.readMember caller sh) (fun o => ?_)
      (readMember_streams _ _).1 ?_ ?_ ?_ ?_
    · rw [(readMember_streams _ _).2]
    all_goals simp [Pc.unreleased, Pc.closing, Pc.holds]
  | took caller peerid o present => exact took_releases hpc present
  | listed caller peerid o localstreams connected =>
    have hsenders : sh.senders o = localstreams := by
      rw [Shared.senders, connected]
      rfl
    have hunreleased :
        (Pc.hangUp caller peerid (.scan o (localstreams.map Sender.streamIds))).unreleased
          (sh.touch o) = (Pc.hangUp caller peerid (.senders o)).unreleased sh := by
      rw [Pc.unreleased, Pc.unreleased, List.filterMap_map, hsenders]
      rfl
    refine .of_same (Pc.leaving_next hpc _) (.touch sh o) (fun o' => by simp) (by simp) ?_ ?_ ?_ ?_
    · exact fun l hl => .inl (hunreleased ▸ hl)
    · exact fun l hl => .inl (hunreleased ▸ hl)
    all_goals simp [Pc.closing, Pc.holds]
  | scanned caller peerid o =>
    refine .of_same (Pc.leaving_next hpc _) (.refl sh) (fun _ => rfl) rfl ?_ ?_ ?_ ?_
    all_goals simp [Pc.unreleased, Pc.closing, Pc.holds]
  | unlabelled caller peerid o rest =>
    have hunreleased : (Pc.hangUp caller peerid (.scan o ([] :: rest))).unreleased sh =
        (Pc.hangUp caller peerid (.scan o rest)).unreleased sh := rfl
    refine .of_same (Pc.leaving_next hpc _) (.refl sh) (fun _ => rfl) rfl ?_ ?_ ?_ ?_
    · exact fun l hl => .inl (hunreleased ▸ hl)
    · exact fun l hl => .inl (hunreleased ▸ hl)
    all_goals simp [Pc.closing, Pc.holds]
  | inUse caller peerid o l ls rest used =>
    have hused := (streamStillUsed_iff used).mp rfl
    have hunreleased : (Pc.hangUp caller peerid (.scan o ((l :: ls) :: rest))).unreleased sh =
        l :: (Pc.hangUp caller peerid (.scan o rest)).unreleased sh := by simp [Pc.unreleased]
    refine .of_same (Pc.leaving_next hpc _) (.touchRegistered sh) (fun _ => by simp) (by simp)
      ?_ ?_ ?_ ?_
    · intro l' hl'
      rw [hunreleased]
      exact .inl (List.mem_cons_of_mem _ hl')
    · intro l' hl'
      rw [hunreleased, List.mem_cons] at hl'
      rcases hl' with rfl | hl'
      · exact .inr hused
      · exact .inl hl'
    all_goals simp [Pc.closing, Pc.holds]
  | unused caller peerid o l ls rest free =>
    have hfree : ¬ Used sh l := fun hused =>
      absurd ((streamStillUsed_iff free).mpr hused) Bool.false_ne_true
    have hunreleased : (Pc.hangUp caller peerid (.scan o ((l :: ls) :: rest))).unreleased sh =
        (Pc.hangUp caller peerid (.close o l rest)).unreleased sh := by simp [Pc.unreleased]
    refine .of_same (Pc.leaving_next hpc _) (.touchRegistered sh) (fun _ => by simp) (by simp)
      ?_ ?_ ?_ ?_
    · exact fun l' hl' => .inl (hunreleased ▸ hl')
    · exact fun l' hl' => .inl (hunreleased ▸ hl')
    · intro l' hl'
      cases hl'
      exact hfree
    · simp [Pc.holds]
  | closed caller peerid o l rest unlocked => exact closed_releases hpc
  | destroyed caller peerid o => exact destroyed_releases hpc
  | resumed caller peerid result =>
    cases caller with
    | evict r => cases hpc
    | client | detached o' =>
      refine .of_same rfl (.logPeerId _ cfg sh) (fun o => ?_) (logPeerId_streams _ _ _).1
        ?_ ?_ ?_ ?_
      · rw [(logPeerId_streams _ _ _).2]
      all_goals simp [Pc.unreleased, Pc.closing, Pc.holds, Caller.resume]
  | _ => cases hpc

theorem Used.of_releases {l : Label} (h : Releases sh sh' pc pc') (hused : Used sh' l) :
    Used sh l := by
  obtain ⟨p, o, hp, hsends⟩ := hused
  refine ⟨p, o, h.peers p o hp, ?_⟩
  rwa [Shared.sends, h.senders] at hsends

theorem Pc.unreleased_congr (h : ∀ o, sh'.senders o = sh.senders o) :
    pc.unreleased sh' = pc.unreleased sh := by
  unfold unreleased
  split <;> simp [h]

end Sections

/-- What holds of hang-ups that started together in `sh₀`, at any moment. -/
structure Leaving (sh₀ sh : Shared) (threads : List Pc) : Prop where
  leaving : ∀ pc ∈ threads, pc.leaving = true
  senders : ∀ o, sh.senders o = sh₀.senders o
  peers : ∀ (p : PeerId) (o : ObsId), sh.peerConnectionObsMap[p]? = some o →
    sh₀.peerConnectionObsMap[p]? = some o
  entries : ∀ (l : Label) (pair : AudioVideoPair), sh.streamMap[l]? = some pair →
    sh₀.streamMap[l]? = some pair
  -- a stream is only closed when its last peer has gone
  kept : ∀ l : Label, sh₀.streamMap[l]? ≠ none → Used sh l ∨ ¬ Used sh₀ l → sh.streamMap[l]? ≠ none
  unreleased : ∀ pc ∈ threads, ∀ l ∈ pc.unreleased sh₀, Used sh₀ l
  unused : ∀ pc ∈ threads, ∀ l, pc.closing = some l → ¬ Used sh l
  -- no stream is forgotten on the way
  covered : ∀ l : Label, sh.streamMap[l]? ≠ none →
    Used sh l ∨ ¬ Used sh₀ l ∨ ∃ pc ∈ threads, l ∈ pc.unreleased sh₀
  observers : ∀ (p : PeerId) (o : ObsId), sh₀.peerConnectionObsMap[p]? = some o →
    sh.peerConnectionObsMap[p]? = some o ∨ (∃ pc ∈ threads, pc.holds = some o) ∨
      (sh.obs o).alive = false

namespace Leaving

variable {sh₀ sh sh' : Shared} {threads : List Pc} {pc pc' : Pc} {cfg : Config} {s s' : State}

theorem unreleased_closing {l : Label} (h : pc.closing = some l) (sh : Shared) :
    l ∈ pc.unreleased sh := by
  unfold Pc.closing at h
  split at h
  · cases h
    exact List.mem_cons_self
  · cases h

theorem start (sh : Shared) (hdone : ∀ pc ∈ threads, pc.finished = true) :
    Leaving sh sh threads := by
  have hpc : ∀ pc ∈ threads, pc.leaving = true ∧ pc.unreleased sh = [] ∧ pc.closing = none := by
    intro pc hmem
    have hfinished := hdone pc hmem
    unfold Pc.finished at hfinished
    split at hfinished
    · exact ⟨rfl, rfl, rfl⟩
    · cases hfinished
  exact {
    leaving := fun pc hmem => (hpc pc hmem).1
    senders := fun _ => rfl
    peers := fun _ _ h => h
    entries := fun _ _ h => h
    kept := fun _ h _ => h
    unreleased := fun pc hmem l hl => by
      rw [(hpc pc hmem).2.1] at hl
      cases hl
    unused := fun pc hmem l hl => by
      rw [(hpc pc hmem).2.2] at hl
      cases hl
    covered := fun l _ => (em (Used sh l)).imp_right .inl
    observers := fun _ _ h => .inl h }

theorem spawn (h : Leaving sh₀ sh threads) {caller : Caller} {peerid : PeerId}
    (hpc : (Pc.hangUp caller peerid .enter).leaving = true) :
    Leaving sh₀ sh (threads ++ [.hangUp caller peerid .enter]) := by
  have hmem : ∀ pc ∈ threads ++ [Pc.hangUp caller peerid .enter],
      pc ∈ threads ∨ pc = .hangUp caller peerid .enter := by simp
  exact {
    leaving := fun pc hpc' => (hmem pc hpc').elim (h.leaving pc) fun heq => heq ▸ hpc
    senders := h.senders
    peers := h.peers
    entries := h.entries
    kept := h.kept
    unreleased := fun pc hpc' l hl => by
      rcases hmem pc hpc' with hpc' | rfl
      · exact h.unreleased pc hpc' l hl
      · cases hl
    unused := fun pc hpc' l hl => by
      rcases hmem pc hpc' with hpc' | rfl
      · exact h.unused pc hpc' l hl
      · cases hl
    covered := fun l hl => (h.covered l hl).imp_right fun hrest => hrest.imp_right
      fun ⟨pc, hpc', hl⟩ => ⟨pc, List.mem_append_left _ hpc', hl⟩
    observers := fun p o hp => (h.observers p o hp).imp_right fun hrest => hrest.imp_left
      fun ⟨pc, hpc', ho⟩ => ⟨pc, List.mem_append_left _ hpc', ho⟩ }

theorem used_start (h : Leaving sh₀ sh threads) {l : Label} (hused : Used sh l) : Used sh₀ l := by
  obtain ⟨p, o, hp, hsends⟩ := hused
  refine ⟨p, o, h.peers p o hp, ?_⟩
  rwa [Shared.sends, h.senders] at hsends

theorem mem_set {t : Nat} (hpos : threads[t]? = some pc) (pc' : Pc) {x : Pc}
    (hx : x ∈ threads) : x = pc ∨ x ∈ threads.set t pc' := by
  obtain ⟨j, hj⟩ := List.mem_iff_getElem?.mp hx
  by_cases hjt : j = t
  · subst hjt
    exact .inl (Option.some.inj (hj.symm.trans hpos))
  · exact .inr (List.mem_iff_getElem?.mpr ⟨j, by rw [List.getElem?_set_ne (Ne.symm hjt), hj]⟩)

theorem self_mem_set {t : Nat} (hpos : threads[t]? = some pc) : pc' ∈ threads.set t pc' :=
  List.mem_set (List.getElem?_eq_some_iff.mp hpos).1 pc'

theorem run (h : Leaving sh₀ sh threads) {t : Nat} (hpos : threads[t]? = some pc)
    (hsection : Releases sh sh' pc pc') : Leaving sh₀ sh' (threads.set t pc') := by
  have hmem := List.mem_of_getElem? hpos
  have hnew : pc' ∈ threads.set t pc' := self_mem_set hpos
  have hsenders (o : ObsId) : sh'.senders o = sh₀.senders o :=
    (hsection.senders o).trans (h.senders o)
  have hunreleased : pc.unreleased sh = pc.unreleased sh₀ := Pc.unreleased_congr h.senders
  have hunreleased' : pc'.unreleased sh' = pc'.unreleased sh₀ := Pc.unreleased_congr hsenders
  refine {
    leaving := fun x hx => ?_
    senders := hsenders
    peers := fun p o hp => h.peers p o (hsection.peers p o hp)
    entries := fun l pair hl => h.entries l pair (hsection.entries l pair hl)
    kept := fun l hl₀ hcase => ?_
    unreleased := fun x hx l hl => ?_
    unused := fun x hx l hl => ?_
    covered := fun l hl => ?_
    observers := fun p o hp => ?_ }
  · rcases Transition.mem_set hx with rfl | hx
    · exact hsection.leaving
    · exact h.leaving x hx
  · have hbefore := h.kept l hl₀ (hcase.imp_left fun hused => hused.of_releases hsection)
    refine (hsection.erased l hbefore).resolve_right fun hclosing => ?_
    -- the label that is erased had a peer, and has none any more
    rcases hcase with hused | hfree
    · exact h.unused pc hmem l hclosing (hused.of_releases hsection)
    · exact hfree (h.unreleased pc hmem l (unreleased_closing hclosing sh₀))
  · rcases Transition.mem_set hx with rfl | hx
    · rcases hsection.found l (hunreleased' ▸ hl) with hold | hused
      · exact h.unreleased pc hmem l (hunreleased ▸ hold)
      · exact h.used_start hused
    · exact h.unreleased x hx l hl
  · rcases Transition.mem_set hx with rfl | hx
    · exact hsection.unused l hl
    · exact fun hused => h.unused x hx l hl (hused.of_releases hsection)
  · obtain ⟨pair, hpair⟩ := Option.ne_none_iff_exists'.mp hl
    have hbefore : sh.streamMap[l]? ≠ none := by
      rw [hsection.entries l pair hpair]
      exact Option.some_ne_none pair
    rcases h.covered l hbefore with ⟨p, o, hp, hsends⟩ | hfree | ⟨x, hx, hl'⟩
    · rcases hsection.taken p o hp with hp' | ⟨_, htodo⟩
      · exact .inl ⟨p, o, hp', by rwa [Shared.sends, hsection.senders]⟩
      · exact .inr (.inr ⟨pc', hnew, hunreleased' ▸ htodo l hsends⟩)
    · exact .inr (.inl hfree)
    · rcases mem_set hpos pc' hx with rfl | hx
      · rcases hsection.tested l (hunreleased.symm ▸ hl') with htodo | hused | hgone
        · exact .inr (.inr ⟨pc', hnew, hunreleased' ▸ htodo⟩)
        · exact .inl hused
        · exact absurd hgone hl
      · exact .inr (.inr ⟨x, hx, hl'⟩)
  · rcases h.observers p o hp with hp' | ⟨x, hx, ho⟩ | hdead
    · exact (hsection.taken p o hp').imp_right fun hheld => .inl ⟨pc', hnew, hheld.1⟩
    · rcases mem_set hpos pc' hx with rfl | hx
      · exact .inr ((hsection.held o ho).imp_left fun ho' => ⟨pc', hnew, ho'⟩)
      · exact .inr (.inl ⟨x, hx, ho⟩)
    · refine .inr (.inr (Bool.eq_false_iff.mpr fun halive => ?_))
      exact Bool.eq_false_iff.mp hdead (hsection.alive o halive)

theorem look (h : Leaving sh₀ sh threads) (os : List ObsId) :
    Leaving sh₀ (os.foldl Shared.touch sh) threads := by
  obtain ⟨hmap, hstreams, _, hobservers⟩ := Shared.foldl_touch os sh
  have hobs (o : ObsId) : (os.foldl Shared.touch sh).obs o = sh.obs o := by
    rw [Shared.obs, Shared.obs, hobservers]
  generalize os.foldl Shared.touch sh = sh' at *
  have hsends (l : Label) (o : ObsId) : sh'.sends l o = sh.sends l o := by
    rw [Shared.sends, Shared.sends, Shared.senders, Shared.senders, hobs]
  have hused (l : Label) : Used sh' l ↔ Used sh l := by
    simp only [Used, hmap, hsends]
  exact {
    leaving := h.leaving
    senders := fun o => by rw [← h.senders, Shared.senders, Shared.senders, hobs]
    peers := hmap ▸ h.peers
    entries := hstreams ▸ h.entries
    kept := fun l hl hcase => hstreams ▸ h.kept l hl (hcase.imp_left (hused l).mp)
    unreleased := h.unreleased
    unused := fun pc hpc l hl hused' => h.unused pc hpc l hl ((hused l).mp hused')
    covered := fun l hl => (h.covered l (hstreams ▸ hl)).imp_left (hused l).mpr
    observers := fun p o hp => by
      rw [hmap, hobs]
      exact h.observers p o hp }

theorem step {a : Action} (h : Leaving sh₀ s.shared s.threads) (ha : a.isRequest = false)
    (hs : WebrtcStreamer.step cfg s a = some s') : Leaving sh₀ s'.shared s'.threads := by
  cases step_stepped hs with
  | request r => cases ha
  | hangUp peerid => exact h.spawn rfl
  | iceClosed o alive connected => exact h.spawn rfl
  | look os registered => exact h.look os
  | crash t e f => exact h
  | run position executed =>
    exact h.run position (executed.releases (h.leaving _ (List.mem_of_getElem? position)))

theorem reaches (h : Transition.Reaches (WebrtcStreamer.step cfg) (fun _ a => a.isRequest = false)
    s s') (hcalm : ∀ pc ∈ s.threads, pc.finished = true) :
    Leaving s.shared s'.shared s'.threads :=
  h.invariant (fun s₁ => Leaving s.shared s₁.shared s₁.threads) (start s.shared hcalm)
    fun _ _ _ h ha hs => h.step ha hs

/-- Once all of them have come to their end, the table is the one that is left when the
peers that went let go of their streams at once. -/
theorem view_eq (h : Leaving sh₀ sh threads) (hdone : ∀ pc ∈ threads, pc.finished = true) :
    sh.view = sh₀.view.release {p | p ∉ sh.peerConnectionObsMap} := by
  have huses (p : PeerId) (l : Label) : l ∈ sh.view.uses p ↔
      p ∈ sh.peerConnectionObsMap ∧ l ∈ sh₀.view.uses p := by
    constructor
    · rintro ⟨o, hp, hsends⟩
      refine ⟨Std.TreeMap.mem_iff_isSome_getElem?.mpr (by rw [hp]; rfl), o, h.peers p o hp, ?_⟩
      rwa [Shared.sends, h.senders] at hsends
    · rintro ⟨hmem, o, hp₀, hsends⟩
      obtain ⟨o', hp⟩ := Option.isSome_iff_exists.mp (Std.TreeMap.mem_iff_isSome_getElem?.mp hmem)
      obtain rfl : o' = o := Option.some.inj ((h.peers p o' hp).symm.trans hp₀)
      exact ⟨o', hp, by rwa [Shared.sends, h.senders]⟩
  have hused (l : Label) : Used sh l ↔
      ∃ p ∉ {p : PeerId | p ∉ sh.peerConnectionObsMap}, l ∈ sh₀.view.uses p := by
    refine exists_congr fun p => (huses p l).trans (and_congr_left fun _ => ?_)
    exact not_not.symm
  have hnone : ∀ pc ∈ threads, pc.unreleased sh₀ = [] := by
    intro pc hpc
    have hfinished := hdone pc hpc
    unfold Pc.finished at hfinished
    split at hfinished
    · rfl
    · cases hfinished
  refine Table.ext (funext fun p => Set.ext fun l => ?_) (Set.ext fun l => ?_)
  · exact (huses p l).trans (and_congr_left fun _ => not_not.symm)
  · refine mem_streamMap.trans (Iff.trans ?_ (and_congr_left fun _ => mem_streamMap.symm))
    rw [← hused]
    constructor
    · intro hl
      obtain ⟨pair, hpair⟩ := Option.ne_none_iff_exists'.mp hl
      refine ⟨by rw [h.entries l pair hpair]; exact Option.some_ne_none pair, ?_⟩
      rcases h.covered l hl with hstill | hfree | ⟨pc, hpc, htodo⟩
      · exact .inl hstill
      · exact .inr hfree
      · rw [hnone pc hpc] at htodo
        cases htodo
    · rintro ⟨hl, hcase⟩
      exact h.kept l hl hcase

theorem deleted (h : Leaving sh₀ sh threads) (hdone : ∀ pc ∈ threads, pc.finished = true)
    {p : PeerId} {o : ObsId} (hp : sh₀.peerConnectionObsMap[p]? = some o)
    (hgone : p ∉ sh.peerConnectionObsMap) : (sh.obs o).alive = false := by
  rcases h.observers p o hp with hp' | ⟨pc, hpc, ho⟩ | hdead
  · exact absurd (Std.TreeMap.mem_iff_isSome_getElem?.mpr (by rw [hp']; rfl)) hgone
  · have hfinished := hdone pc hpc
    unfold Pc.finished at hfinished
    split at hfinished
    · cases ho
    · cases hfinished
  · exact hdead

end Leaving

section Functions

variable {cfg : Config} {caller : Caller} {peerid : PeerId} {sh sh' : Shared} {result : Bool}

theorem closedBy_iff {l : Label} : sh.closedBy peerid l = true ↔
    l ∈ sh.view.uses peerid ∧ ¬ ∃ p ∉ ({peerid} : Set PeerId), l ∈ sh.view.uses p := by
  have hothers : Used (sh.erasePeer peerid) l ↔
      ∃ p ∉ ({peerid} : Set PeerId), l ∈ sh.view.uses p := by
    constructor
    · rintro ⟨p, o, hp, hsends⟩
      obtain ⟨hne, hp⟩ := Shared.erasePeer_lookup hp
      exact ⟨p, hne, o, hp, hsends⟩
    · rintro ⟨p, hne, o, hp, hsends⟩
      have hupdate := congrFun (sh.erasePeer_update peerid) p
      rw [Function.update_of_ne hne] at hupdate
      exact ⟨p, o, hupdate.trans hp, hsends⟩
  have hsends : (sh.erasePeer peerid).sends l = sh.sends l := rfl
  rw [← hothers, ← used_iff, Bool.not_eq_true, hsends]
  cases hp : sh.peerConnectionObsMap[peerid]? with
  | none => simp [Shared.closedBy, Shared.view, hp]
  | some o => simp [Shared.closedBy, Shared.view, hp]

theorem hangUp_view (h : hangUp cfg caller peerid sh = .ok (sh', result)) :
    sh'.view = sh.view.release {peerid} := by
  obtain ⟨hmap, _, hpc, hstreams⟩ := hangUp_spec h
  have hsends (l : Label) (o : ObsId) : sh'.sends l o = sh.sends l o := by
    simp only [Shared.sends, Shared.senders, hpc o]
  refine Table.ext (funext fun p => Set.ext fun l => ?_) (Set.ext fun l => ?_)
  · simp only [Shared.view, Table.release, Set.mem_ofPred_eq, Set.mem_singleton_iff, hmap, hsends]
    by_cases hp : p = peerid <;> simp [hp]
  · have hkept : l ∈ sh'.streamMap ↔ l ∈ sh.streamMap ∧ ¬ sh.closedBy peerid l = true := by
      rw [mem_streamMap, mem_streamMap, hstreams]
      by_cases hclosed : sh.closedBy peerid l = true <;> simp [hclosed]
    refine hkept.trans (and_congr_right fun _ => ?_)
    rw [closedBy_iff, not_and_or, not_not, or_comm]
    refine ⟨fun hcase => ?_, fun hcase => ?_⟩
    · by_cases hstill : ∃ p ∉ ({peerid} : Set PeerId), l ∈ sh.view.uses p
      · exact .inl hstill
      · refine .inr ?_
        rintro ⟨p, hl⟩
        by_cases hp : p = peerid
        · exact hcase.resolve_left hstill (hp ▸ hl)
        · exact hstill ⟨p, hp, hl⟩
    · exact hcase.imp_right fun hfree hl => hfree ⟨peerid, hl⟩

def hangUpAll (cfg : Config) : List PeerId → Shared → Except Fault Shared
  | [], sh => .ok sh
  | peerid :: rest, sh => do
    let (sh, _) ← hangUp cfg .client peerid sh
    hangUpAll cfg rest sh

theorem hangUpAll_view {peerids : List PeerId} (h : hangUpAll cfg peerids sh = .ok sh') :
    sh'.view = sh.view.release {p | p ∈ peerids} := by
  induction peerids generalizing sh with
  | nil =>
    cases h
    have hnone : {p : PeerId | p ∈ ([] : List PeerId)} = ∅ := by
      ext p
      simp
    rw [hnone, Table.release_empty]
  | cons peerid rest ih =>
    obtain ⟨⟨sh₁, result⟩, hfirst, hrest⟩ := bind_ok h
    have hunion : {p | p ∈ peerid :: rest} = ({peerid} : Set PeerId) ∪ {p | p ∈ rest} := by
      ext p
      simp
    rw [ih hrest, hangUp_view hfirst, Table.release_release, hunion]

end Functions

/-- However the sections of hang-ups interleave, they end as if the peers that went had let go
of their streams at once, and so as hanging them up one after another in any order: no
stream that is still used is closed, none that is not is left, no source is replaced, and
every observer is deleted. When everybody has gone and no entry was without a peer
before, no stream is left. -/
theorem hang_ups_release (cfg : Config) (s s' : State)
    (hcalm : ∀ pc ∈ s.threads, pc.finished = true)
    (h : Transition.Reaches (step cfg) (fun _ a => a.isRequest = false) s s')
    (hdone : ∀ pc ∈ s'.threads, pc.finished = true) :
    s'.shared.view = s.shared.view.release {p | p ∉ s'.shared.peerConnectionObsMap} ∧
    (∀ (l : Label) (pair : AudioVideoPair), s'.shared.streamMap[l]? = some pair →
      s.shared.streamMap[l]? = some pair) ∧
    (∀ (p : PeerId) (o : ObsId), s.shared.peerConnectionObsMap[p]? = some o →
      p ∉ s'.shared.peerConnectionObsMap → (s'.shared.obs o).alive = false) ∧
    (∀ (peerids : List PeerId) (sh : Shared), hangUpAll cfg peerids s.shared = .ok sh →
      (∀ p ∈ s.shared.peerConnectionObsMap,
        p ∈ peerids ↔ p ∉ s'.shared.peerConnectionObsMap) → sh.view = s'.shared.view) ∧
    ((∀ p, p ∉ s'.shared.peerConnectionObsMap) → NoOrphan s.shared →
      ∀ l, l ∉ s'.shared.streamMap) := by
  have hleaving := Leaving.reaches h hcalm
  have hview := hleaving.view_eq hdone
  refine ⟨hview, hleaving.entries, fun p o hp hgone => hleaving.deleted hdone hp hgone,
    fun peerids sh hall hsame => ?_, fun hempty horphan l hl => ?_⟩
  · rw [hview, hangUpAll_view hall]
    refine Table.release_congr fun p ⟨l, o, hp, _⟩ => hsame p ?_
    exact Std.TreeMap.mem_iff_isSome_getElem?.mpr (by rw [hp]; rfl)
  · have hkept : l ∈ s'.shared.view.kept := hl
    have hall : ∀ p ∉ {p : PeerId | p ∉ s'.shared.peerConnectionObsMap},
        s.shared.view.uses p = ∅ := fun p hp => absurd (hempty p) hp
    rw [hview, Table.kept_release_all hall] at hkept
    exact hkept.2 (horphan l hkept.1)

theorem hang_ups_release_pair :
    let s := (Transition.run (step (.plain 0)) (fun _ _ => True) .initial
      ([Action.request (.plain .call "a" "rtsp://cam")] ++ runs 0 14 (.fine 7) ++
        [Action.request (.plain .call "b" "rtsp://cam")] ++ runs 1 12 (.fine 8))).getD .initial
    s.shared.streamMap.size = 1 ∧ ∃ s' : State, s'.shared.peerConnectionObsMap.size = 0 ∧
      s'.shared.view = s.shared.view.release {p | p ∉ s'.shared.peerConnectionObsMap} := by
  intro s
  obtain ⟨s', hs, hp⟩ := Transition.exists_reaches_of_run (step (.plain 0))
    (fun _ a => a.isRequest = false) s
    ([Action.hangUp "a", .hangUp "b"] ++ runs 2 3 (.fine 7) ++ runs 3 4 (.fine 7) ++
      runs 2 5 (.fine 7) ++ runs 3 4 (.fine 7))
    (fun s => s.threads.all Pc.finished && decide (s.shared.peerConnectionObsMap.size = 0))
    (by decide +kernel)
  simp only [Bool.and_eq_true, decide_eq_true_eq, List.all_eq_true] at hp
  have hcalm : ∀ pc ∈ s.threads, pc.finished = true :=
    List.all_eq_true.mp (by decide +kernel : s.threads.all Pc.finished = true)
  exact ⟨by decide +kernel, s', hp.2, (hang_ups_release (.plain 0) s s' hcalm hs hp.1).1⟩

end WebrtcStreamer
