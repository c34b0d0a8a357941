import WebrtcStreamer.ApiSafety
import WebrtcStreamer.Isolation

/-! Which peer `CreatePeerConnection` takes out when there is no room. -/

set_option autoImplicit false

namespace WebrtcStreamer

structure WellRegistered (sh : Shared) : Prop where
  peerid : ∀ (p : PeerId) (o : ObsId), sh.peerConnectionObsMap[p]? = some o → (sh.obs o).peerid = p
  connected : ConnectedPeers sh

theorem wellRegistered_run {cfg : Config} {sh : Shared} (e : Env)
    (h : Transition.Reachable (perform cfg) .initial sh) : WellRegistered sh := by
  have hinitial : Reachable cfg .initial := .refl
  have hcalm : Calm .initial := ⟨rfl, rfl⟩
  obtain ⟨s, hs, _, rfl⟩ := perform_reachable hinitial hcalm h e
  exact ⟨fun p o hp => (hs.owned.registered p o hp).2, connectedPeers_run h⟩

/-! ### The search -/

namespace Shared

variable {sh : Shared} {entries : List (PeerId × ObsId)}

def created (sh : Shared) (o : ObsId) : Nat := (sh.obs o).creationTime.toNat

/-- A round of the search, with the time and the peerid found so far. -/
def older (sh : Shared) (oldest : UInt64 × PeerId) (o : ObsId) : UInt64 × PeerId :=
  if (sh.obs o).creationTime < oldest.1 then ((sh.obs o).creationTime, (sh.obs o).peerid)
  else oldest

def dated (sh : Shared) (entries : List (PeerId × ObsId)) : List (PeerId × ObsId) :=
  entries.filter fun x => sh.created x.2 < 2 ^ 64 - 1

def firstOldest (sh : Shared) (entries : List (PeerId × ObsId)) : Option (PeerId × ObsId) :=
  (sh.dated entries).argmin fun x => sh.created x.2

def found (sh : Shared) : Option (PeerId × ObsId) → UInt64 × PeerId
  | none => (18446744073709551615, "")
  | some x => ((sh.obs x.2).creationTime, x.1)

theorem older_found_none {p : PeerId} {o : ObsId} (hp : (sh.obs o).peerid = p) :
    sh.older (sh.found none) o = if sh.created o < 2 ^ 64 - 1 then sh.found (some (p, o))
      else sh.found none := by
  simp only [older, found, UInt64.lt_iff_toNat_lt, hp]
  rfl

theorem older_found_some {p q : PeerId} {o o' : ObsId} (hp : (sh.obs o).peerid = p) :
    sh.older (sh.found (some (q, o'))) o = if sh.created o < sh.created o' then
      sh.found (some (p, o)) else sh.found (some (q, o')) := by
  simp only [older, found, UInt64.lt_iff_toNat_lt, hp]
  rfl

theorem mem_dated {x : PeerId × ObsId} :
    x ∈ sh.dated entries ↔ x ∈ entries ∧ sh.created x.2 < 2 ^ 64 - 1 := by
  simp [dated]

theorem firstOldest_mem {x : PeerId × ObsId} (h : sh.firstOldest entries = some x) :
    x ∈ entries ∧ sh.created x.2 < 2 ^ 64 - 1 :=
  mem_dated.mp (List.argmin_mem h)

theorem firstOldest_concat (sh : Shared) (entries : List (PeerId × ObsId)) (x : PeerId × ObsId) :
    sh.firstOldest (entries ++ [x]) =
      if sh.created x.2 < 2 ^ 64 - 1 then
        match sh.firstOldest entries with
        | none => some x
        | some y => if sh.created x.2 < sh.created y.2 then some x else some y
      else sh.firstOldest entries := by
  rw [firstOldest, firstOldest, dated, List.filter_append, ← dated]
  by_cases hdated : sh.created x.2 < 2 ^ 64 - 1
  · simp only [hdated, List.filter_singleton, decide_true, cond_true, if_true, List.argmin_concat]
    cases (sh.dated entries).argmin fun y => sh.created y.2 <;> rfl
  · simp only [hdated, List.filter_singleton, decide_false, cond_false, if_false, List.append_nil]

theorem firstOldest_le {x : PeerId × ObsId} (h : sh.firstOldest entries = some x) :
    ∀ y ∈ entries, sh.created x.2 ≤ sh.created y.2 := by
  intro y hy
  have hdated := (firstOldest_mem h).2
  by_cases hy' : sh.created y.2 < 2 ^ 64 - 1
  · exact (List.argmin_eq_some_iff.mp h).2.1 y (mem_dated.mpr ⟨hy, hy'⟩)
  · omega

theorem firstOldest_head {x y : PeerId × ObsId} {rest : List (PeerId × ObsId)}
    (h : sh.firstOldest entries = some x) (hhead : sh.dated entries = y :: rest)
    (hle : sh.created y.2 ≤ sh.created x.2) : x = y := by
  rw [firstOldest, hhead, List.argmin_cons] at h
  cases hrest : rest.argmin fun z => sh.created z.2 with
  | none =>
    rw [hrest] at h
    exact (Option.some.inj h).symm
  | some z =>
    rw [hrest] at h
    dsimp only at h
    split at h
    · cases h
      omega
    · exact (Option.some.inj h).symm

/-- The search finds the first of the oldest entries, by induction from the last one. -/
theorem foldl_older (h : ∀ x ∈ entries, (sh.obs x.2).peerid = x.1) :
    (entries.map Prod.snd).foldl sh.older (18446744073709551615, "") =
      sh.found (sh.firstOldest entries) := by
  induction entries using List.reverseRecOn with
  | nil => rfl
  | append_singleton entries x ih =>
    have hrest := ih fun y hy => h y (List.mem_append_left _ hy)
    have hlast : (sh.obs x.2).peerid = x.1 := h x (by simp)
    rw [List.map_append, List.foldl_append, hrest, List.map_singleton, List.foldl_cons,
      List.foldl_nil, firstOldest_concat]
    cases hfirst : sh.firstOldest entries with
    | none =>
      rw [older_found_none hlast]
      split <;> rfl
    | some y =>
      have hdated := (firstOldest_mem hfirst).2
      rw [older_found_some hlast]
      dsimp only
      split_ifs <;> first | rfl | omega

end Shared

/-! ### The eviction -/

/-- With a full map exactly one entry goes, none of the others is older, and
they stay; else all entries stay. -/
def EvictsOldest (cfg : Config) (r : Request) (sh : Shared) : Prop :=
  ∃ sh', evictOldest cfg r sh = .ok sh' ∧
    if sh.peersFull cfg then
      ∃ (p : PeerId) (o : ObsId), sh.peerConnectionObsMap[p]? = some o ∧
        (∀ (q : PeerId) (o' : ObsId), sh.peerConnectionObsMap[q]? = some o' →
          sh.created o ≤ sh.created o') ∧
        ∀ q : PeerId, sh'.peerConnectionObsMap[q]? =
          if q = p then none else sh.peerConnectionObsMap[q]?
    else ∀ q : PeerId, sh'.peerConnectionObsMap[q]? = sh.peerConnectionObsMap[q]?

/-- Some peer with a name was created before the end of time, and before the
peer without a name. -/
def NamedOldest (sh : Shared) : Prop :=
  ∃ (p : PeerId) (o : ObsId), p ≠ "" ∧ sh.peerConnectionObsMap[p]? = some o ∧
    sh.created o < 2 ^ 64 - 1 ∧
    ∀ o', sh.peerConnectionObsMap[""]? = some o' → sh.created o < sh.created o'

section Evict

variable {cfg : Config} {r : Request} {sh : Shared}

theorem empty_head {entries : List (PeerId × ObsId)} {o : ObsId}
    (h : entries.Pairwise fun x y => compare x.1 y.1 = .lt) (ho : ("", o) ∈ entries) :
    ∃ rest, entries = ("", o) :: rest := by
  cases entries with
  | nil => cases ho
  | cons x entries =>
    rcases List.mem_cons.mp ho with rfl | hin
    · exact ⟨entries, rfl⟩
    · have hlt := (List.pairwise_cons.mp h).1 ("", o) hin
      rw [compare_lt_iff_lt, String.lt_iff_toList_lt] at hlt
      simp at hlt

theorem WellRegistered.oldest_cases (h : WellRegistered sh) (hfull : sh.peersFull cfg = true) :
    (sh.getOldestPeerCannection cfg = "" ∧ ¬ NamedOldest sh) ∨
    (sh.getOldestPeerCannection cfg ≠ "" ∧ NamedOldest sh ∧
      ∃ o, sh.peerConnectionObsMap[sh.getOldestPeerCannection cfg]? = some o ∧
        ∀ (q : PeerId) (o' : ObsId), sh.peerConnectionObsMap[q]? = some o' →
          sh.created o ≤ sh.created o') := by
  have hmem : ∀ {p : PeerId} {o : ObsId}, (p, o) ∈ sh.peerConnectionObsMap.toList ↔
      sh.peerConnectionObsMap[p]? = some o := Std.TreeMap.mem_toList_iff_getElem?_eq_some
  have hpeerid : ∀ x ∈ sh.peerConnectionObsMap.toList, (sh.obs x.2).peerid = x.1 :=
    fun x hx => h.peerid x.1 x.2 (hmem.mp hx)
  have hsorted := sh.peerConnectionObsMap.ordered_keys_toList
  have holdest : sh.getOldestPeerCannection cfg =
      (sh.registered.foldl sh.older (18446744073709551615, "")).2 := by
    rw [Shared.getOldestPeerCannection, if_pos hfull]
    rfl
  rw [holdest, Shared.registered, Shared.foldl_older hpeerid]
  cases hfirst : sh.firstOldest sh.peerConnectionObsMap.toList with
  | none =>
    refine .inl ⟨rfl, ?_⟩
    rintro ⟨p, o, _, hp, hlt, _⟩
    rw [Shared.firstOldest, List.argmin_eq_none] at hfirst
    have hdated := Shared.mem_dated.mpr ⟨hmem.mpr hp, hlt⟩
    rw [hfirst] at hdated
    cases hdated
  | some x =>
    obtain ⟨p, o⟩ := x
    obtain ⟨hp, hlt⟩ := Shared.firstOldest_mem hfirst
    have hleast := Shared.firstOldest_le hfirst
    by_cases hempty : p = ""
    · refine .inl ⟨hempty, ?_⟩
      rintro ⟨q, o', _, hq, _, hyounger⟩
      have hlt' : sh.created o' < sh.created o := hyounger o (hempty ▸ hmem.mp hp)
      have hle : sh.created o ≤ sh.created o' := hleast (q, o') (hmem.mpr hq)
      omega
    · refine .inr ⟨hempty, ⟨p, o, hempty, hmem.mp hp, hlt, fun o' ho' => ?_⟩, o, hmem.mp hp,
        fun q o' hq => hleast (q, o') (hmem.mpr hq)⟩
      -- an entry of the same age with the empty key would have been found first
      by_contra hle
      have hle := Nat.le_of_not_lt hle
      have hdated : ("", o') ∈ sh.dated sh.peerConnectionObsMap.toList :=
        Shared.mem_dated.mpr ⟨hmem.mpr ho', lt_of_le_of_lt hle hlt⟩
      obtain ⟨rest, hhead⟩ := empty_head (hsorted.sublist List.filter_sublist) hdated
      have hsame := Shared.firstOldest_head hfirst hhead hle
      exact hempty (congrArg Prod.fst hsame)

/-- The peer taken out when there is no room is the only one and an oldest one
exactly when such a peer has a name and was created before the end of time. -/
theorem evicts_oldest_iff (h : WellRegistered sh) (cfg : Config) (r : Request) :
    EvictsOldest cfg r sh ↔ (sh.peersFull cfg = true → NamedOldest sh) := by
  obtain ⟨sh', hevict⟩ := h.connected.evictOldest cfg r
  obtain ⟨hmap, _⟩ := evictOldest_spec hevict
  cases hfull : sh.peersFull cfg with
  | false =>
    simp only [Bool.false_eq_true, false_implies, iff_true]
    have hempty : sh.getOldestPeerCannection cfg = "" := by
      rw [Shared.getOldestPeerCannection, hfull]
      rfl
    refine ⟨sh', hevict, ?_⟩
    rw [hfull]
    intro q
    simpa [Shared.evicts, hempty] using hmap q
  | true =>
    rcases h.oldest_cases hfull with ⟨hempty, hnot⟩ | ⟨hnamed, holdest, o, ho, hleast⟩
    · refine ⟨fun hevicts => ?_, fun holdest => absurd (holdest rfl) hnot⟩
      obtain ⟨sh'', hevict', hentry⟩ := hevicts
      rw [hevict'] at hevict
      cases hevict
      rw [hfull, if_pos rfl] at hentry
      obtain ⟨p, o, hp, _, hgone⟩ := hentry
      have hgone := hgone p
      have hstays : sh.evicts cfg p = false := by
        by_cases hp' : p = ""
        · simp [Shared.evicts, hp']
        · simp [Shared.evicts, hempty, Ne.symm hp']
      rw [hmap p, hstays, hp, if_pos rfl] at hgone
      cases hgone
    · refine ⟨fun _ _ => holdest, fun _ => ⟨sh', hevict, ?_⟩⟩
      have hevicts : ∀ q, sh.evicts cfg q = true ↔ q = sh.getOldestPeerCannection cfg := by
        intro q
        simp only [Shared.evicts, Bool.and_eq_true, decide_eq_true_eq]
        constructor
        · exact fun hq => hq.1.symm
        · rintro rfl
          exact ⟨rfl, hnamed⟩
      rw [hfull, if_pos rfl]
      refine ⟨_, o, ho, hleast, fun q => ?_⟩
      rw [hmap]
      simp only [hevicts]

def onePeer (p : PeerId) (time : UInt64) : Shared :=
  (Shared.initial.construct p true time).registerPeer p 0

theorem onePeer_lookup {p q : PeerId} {time : UInt64} {o : ObsId} :
    (onePeer p time).peerConnectionObsMap[q]? = some o ↔ q = p ∧ o = 0 := by
  have hempty : p ∉ (∅ : Std.TreeMap PeerId ObsId) := Std.TreeMap.not_mem_emptyc
  simp only [onePeer, Shared.registerPeer, Shared.construct, Shared.initial,
    Std.TreeMap.getElem?_insertIfNew, hempty, not_false_eq_true, and_true, compare_eq_iff_eq]
  by_cases hp : p = q
  · simp [hp, eq_comm]
  · simp [hp, Ne.symm hp]

theorem onePeer_registered (p : PeerId) (time : UInt64) : WellRegistered (onePeer p time) := by
  refine ⟨fun q o hq => ?_, fun q o hq => ?_⟩
  all_goals
    obtain ⟨rfl, rfl⟩ := onePeer_lookup.mp hq
    rfl

theorem onePeer_full (p : PeerId) (time : UInt64) :
    (onePeer p time).peersFull (.plain 1) = true := by
  have hsize : (onePeer p time).peerConnectionObsMap.size = 1 := rfl
  simp [Shared.peersFull, hsize, Config.plain]

def plainRequest : Request := ⟨⟨"rtsp://cam", "", "", false⟩, .call, "b"⟩

/-- Three peers, of which the second has the oldest time. -/
theorem evicts_oldest_named : ∃ sh : Shared, sh.peerConnectionObsMap.toList =
      [("a", 0), ("b", 1), ("c", 2)] ∧ [0, 1, 2].map sh.created = [7, 5, 9] ∧
    sh.peersFull (.plain 3) = true ∧ EvictsOldest (.plain 3) plainRequest sh := by
  obtain ⟨sh, hrun, hp⟩ := Transition.exists_reaches_of_run (perform (.plain 3))
    (fun _ _ => True) .initial
    [.request { Env.fine 7 with time := 7 } (.plain .call "a" "rtsp://cam"),
      .request { Env.fine 8 with time := 5 } (.plain .call "b" "rtsp://cam"),
      .request { Env.fine 9 with time := 9 } (.plain .call "c" "rtsp://cam")]
    (fun sh => decide (sh.peerConnectionObsMap.toList = [("a", 0), ("b", 1), ("c", 2)]) &&
      decide ([0, 1, 2].map sh.created = [7, 5, 9]) && sh.peersFull (.plain 3) &&
      decide (sh.peerConnectionObsMap["b"]? = some 1) &&
      decide (sh.peerConnectionObsMap[""]? = none))
    (by decide +kernel)
  simp only [Bool.and_eq_true, decide_eq_true_eq] at hp
  obtain ⟨⟨⟨⟨hpeers, htimes⟩, hfull⟩, hb⟩, hnameless⟩ := hp
  have hdated : sh.created 1 < 2 ^ 64 - 1 := by
    have htime : some (sh.created 1) = some 5 := congrArg (·[1]?) htimes
    rw [Option.some.inj htime]
    decide
  refine ⟨sh, hpeers, htimes, hfull, (evicts_oldest_iff (wellRegistered_run (.fine 7) hrun)
    (.plain 3) plainRequest).mpr fun _ => ⟨"b", 1, by decide, hb, hdated, fun o ho => ?_⟩⟩
  rw [hnameless] at ho
  cases ho

/-- A peer without a name stays, though it is the only one. -/
theorem nameless_stays :
    ¬ ∀ (cfg : Config) (r : Request) (sh : Shared), WellRegistered sh → EvictsOldest cfg r sh := by
  intro halways
  obtain ⟨sh', hevict, hentry⟩ :=
    halways (.plain 1) plainRequest (onePeer "" 5) (onePeer_registered "" 5)
  rw [onePeer_full, if_pos rfl] at hentry
  obtain ⟨p, o, hp, _, hgone⟩ := hentry
  have hgone := hgone p
  have hevict' : evictOldest (.plain 1) plainRequest (onePeer "" 5) = .ok (onePeer "" 5) := rfl
  rw [hevict'] at hevict
  cases hevict
  rw [if_pos rfl, hp] at hgone
  cases hgone

end Evict

end WebrtcStreamer
