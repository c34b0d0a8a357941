import WebrtcStreamer.Histories
import WebrtcStreamer.Json
import WebrtcStreamer.StdText

/-! The statistics of a peer connection, and the totals of bytes between which the
bandwidth is computed. -/

set_option autoImplicit false

namespace WebrtcStreamer

/-- `webrtc::Attribute`, with the text that `ToString` gives. -/
structure Attribute where
  name : String
  text : String
  hasValue : Bool
  deriving DecidableEq, Repr

structure RTCStats where
  id : String
  type : String
  attributes : List Attribute
  deriving DecidableEq, Repr

structure ByteTotals where
  bytesSent : UInt64
  bytesReceived : UInt64
  deriving DecidableEq, Repr

structure PeerConnectionStatsCollectorCallback where
  report : Std.TreeMap String Json.Value
  bytesSent : UInt64
  bytesReceived : UInt64
  bwSentBps : UInt64
  bwRecvBps : UInt64
  prevBytesSent : UInt64
  prevBytesReceived : UInt64
  prevTimestampUs : Int

inductive StatsEvent where
  | clearReport
  | delivered (report : List RTCStats) (nowUs : Int)
  deriving DecidableEq, Repr

def RTCStats.isTransport (stats : RTCStats) : Bool := stats.type = "transport"

def RTCStats.members (stats : RTCStats) : Json.Value :=
  if stats.attributes = [] then .null
  else
    let members := stats.attributes.foldl (fun m a => m.insert a.name a.text)
      (∅ : Std.TreeMap String String)
    .object (members.toList.map fun x => (x.1, .string x.2))

/-- An exception of `std::stoull` leaves the totals as they are. -/
def ByteTotals.addAttribute (x : ByteTotals) (a : Attribute) : ByteTotals :=
  if a.hasValue then
    if a.name = "bytesSent" then { x with bytesSent := x.bytesSent + (stoull a.text).getD 0 }
    else if a.name = "bytesReceived" then
      { x with bytesReceived := x.bytesReceived + (stoull a.text).getD 0 }
    else x
  else x

def ByteTotals.addStats (x : ByteTotals) (stats : RTCStats) : ByteTotals :=
  if stats.isTransport then stats.attributes.foldl ByteTotals.addAttribute x else x

def ByteTotals.ofReport (report : List RTCStats) : ByteTotals :=
  report.foldl ByteTotals.addStats ⟨0, 0⟩

namespace PeerConnectionStatsCollectorCallback

def initial : PeerConnectionStatsCollectorCallback := ⟨∅, 0, 0, 0, 0, 0, 0, 0⟩

def clearReport (s : PeerConnectionStatsCollectorCallback) :
    PeerConnectionStatsCollectorCallback :=
  { s with
    report := ∅, bytesSent := 0, bytesReceived := 0, bwSentBps := 0, bwRecvBps := 0
    prevBytesSent := 0, prevBytesReceived := 0, prevTimestampUs := 0 }

def hasPeriod (s : PeerConnectionStatsCollectorCallback) (nowUs : Int) : Bool :=
  0 < s.prevTimestampUs && 0 < nowUs - s.prevTimestampUs

variable (perSecond : UInt64 → Int → UInt64)

/-- `perSecond bits dtUs` stands for the division by `dtSec` in floating point. -/
def onStatsDelivered (s : PeerConnectionStatsCollectorCallback) (report : List RTCStats)
    (nowUs : Int) : PeerConnectionStatsCollectorCallback :=
  let x := ByteTotals.ofReport report
  let dtUs := nowUs - s.prevTimestampUs
  { report := report.foldl (fun m stats => m.insert stats.id stats.members) s.report
    bytesSent := x.bytesSent
    bytesReceived := x.bytesReceived
    bwSentBps := if s.hasPeriod nowUs then perSecond ((x.bytesSent - s.prevBytesSent) * 8) dtUs
      else s.bwSentBps
    bwRecvBps := if s.hasPeriod nowUs then
        perSecond ((x.bytesReceived - s.prevBytesReceived) * 8) dtUs
      else s.bwRecvBps
    prevBytesSent := x.bytesSent
    prevBytesReceived := x.bytesReceived
    prevTimestampUs := nowUs }

def step (s : PeerConnectionStatsCollectorCallback) :
    StatsEvent → PeerConnectionStatsCollectorCallback
  | .clearReport => s.clearReport
  | .delivered report nowUs => s.onStatsDelivered perSecond report nowUs

def run (events : List StatsEvent) : PeerConnectionStatsCollectorCallback :=
  events.foldl (step perSecond) initial

end PeerConnectionStatsCollectorCallback

/-- A difference of two totals that is not negative and leaves room for the factor 8,
and the product that the code computes. -/
structure ExactDifference (now before : UInt64) : Prop where
  nonneg : 0 ≤ (now.toNat : Int) - before.toNat
  lt : 8 * ((now.toNat : Int) - before.toNat) < 2 ^ 64
  product : (((now - before) * 8).toNat : Int) = 8 * ((now.toNat : Int) - before.toNat)

/-- If the bandwidth is computed behind these events, both differences are exact. -/
def ExactBehind (perSecond : UInt64 → Int → UInt64) (earlier : List StatsEvent) :
    StatsEvent → Prop
  | .clearReport => True
  | .delivered report nowUs =>
    let s := PeerConnectionStatsCollectorCallback.run perSecond earlier
    s.hasPeriod nowUs = true →
      ExactDifference (ByteTotals.ofReport report).bytesSent s.prevBytesSent ∧
      ExactDifference (ByteTotals.ofReport report).bytesReceived s.prevBytesReceived

def NeverWraps (perSecond : UInt64 → Int → UInt64) (events : List StatsEvent) : Prop :=
  ∀ earlier event later, events = earlier ++ event :: later → ExactBehind perSecond earlier event

def Attribute.counter? (name : String) (a : Attribute) : Option Nat :=
  if a.hasValue && a.name = name then (stoull a.text).map UInt64.toNat else none

def counters (name : String) (report : List RTCStats) : List Nat :=
  (report.filter RTCStats.isTransport).flatMap fun stats =>
    stats.attributes.filterMap (Attribute.counter? name)

def transportTotal (name : String) (report : List RTCStats) : Nat :=
  (counters name report).sum % 2 ^ 64

/-- Of two reports one after the other, the second has no smaller total and none
that is larger by 2 ^ 61 bytes, if the clock was above 0 and has gone on. -/
def Follows : StatsEvent → StatsEvent → Prop
  | .delivered report nowUs, .delivered report' nowUs' => 0 < nowUs → nowUs < nowUs' →
    ∀ name ∈ ["bytesSent", "bytesReceived"],
      transportTotal name report ≤ transportTotal name report' ∧
      transportTotal name report' < transportTotal name report + 2 ^ 61
  | _, _ => True

section Totals

theorem exactDifference_iff (now before : UInt64) : ExactDifference now before ↔
    before.toNat ≤ now.toNat ∧ now.toNat < before.toNat + 2 ^ 61 := by
  constructor
  · rintro ⟨hnonneg, hlt, -⟩
    omega
  · rintro ⟨hle, hlt⟩
    have hsub : (now - before).toNat = now.toNat - before.toNat :=
      UInt64.toNat_sub_of_le _ _ (UInt64.le_iff_toNat_le.mpr hle)
    have hproduct : ((now - before) * 8).toNat = (now.toNat - before.toNat) * 8 := by
      rw [UInt64.toNat_mul, hsub]
      exact Nat.mod_eq_of_lt (by simp; omega)
    exact ⟨by omega, by omega, by omega⟩

structure Counts (x : ByteTotals) (m n : Nat) : Prop where
  sent : x.bytesSent.toNat = m % 2 ^ 64
  received : x.bytesReceived.toNat = n % 2 ^ 64

variable {x : ByteTotals} {m n : Nat}

theorem toNat_add_getD (total : UInt64) (counter : Option UInt64)
    (h : total.toNat = m % 2 ^ 64) :
    (total + counter.getD 0).toNat = (m + (counter.map UInt64.toNat).getD 0) % 2 ^ 64 := by
  cases counter with
  | none => simpa using h
  | some k =>
    rw [Option.getD_some, UInt64.toNat_add, h, Option.map_some, Option.getD_some, Nat.mod_add_mod]

theorem Counts.addAttribute (h : Counts x m n) (a : Attribute) :
    Counts (x.addAttribute a) (m + (a.counter? "bytesSent").getD 0)
      (n + (a.counter? "bytesReceived").getD 0) := by
  unfold ByteTotals.addAttribute Attribute.counter?
  cases a.hasValue with
  | false => simpa using h
  | true =>
    by_cases hsent : a.name = "bytesSent"
    · simp only [hsent, if_true]
      exact ⟨toNat_add_getD _ _ h.sent, by simpa using h.received⟩
    · by_cases hreceived : a.name = "bytesReceived"
      · simp only [hreceived, if_true]
        exact ⟨by simpa using h.sent, toNat_add_getD _ _ h.received⟩
      · simpa [hsent, hreceived] using h

theorem sum_filterMap_cons {α : Type} (f : α → Option Nat) (a : α) (l : List α) :
    ((a :: l).filterMap f).sum = (f a).getD 0 + (l.filterMap f).sum := by
  rw [List.filterMap_cons]
  cases f a <;> simp

theorem Counts.addAttributes (attributes : List Attribute) (h : Counts x m n) :
    Counts (attributes.foldl ByteTotals.addAttribute x)
      (m + (attributes.filterMap (Attribute.counter? "bytesSent")).sum)
      (n + (attributes.filterMap (Attribute.counter? "bytesReceived")).sum) := by
  induction attributes generalizing x m n with
  | nil => exact h
  | cons a attributes ih =>
    rw [List.foldl_cons, sum_filterMap_cons, sum_filterMap_cons, ← Nat.add_assoc, ← Nat.add_assoc]
    exact ih (h.addAttribute a)

theorem Counts.addReport (report : List RTCStats) (h : Counts x m n) :
    Counts (report.foldl ByteTotals.addStats x) (m + (counters "bytesSent" report).sum)
      (n + (counters "bytesReceived" report).sum) := by
  induction report generalizing x m n with
  | nil => exact h
  | cons stats report ih =>
    rw [List.foldl_cons, ByteTotals.addStats, counters, counters]
    cases htransport : stats.isTransport with
    | false =>
      rw [List.filter_cons_of_neg (by simp [htransport])]
      exact ih h
    | true =>
      rw [List.filter_cons_of_pos htransport, List.flatMap_cons, List.flatMap_cons,
        List.sum_append, List.sum_append, ← Nat.add_assoc, ← Nat.add_assoc]
      exact ih (h.addAttributes stats.attributes)

theorem ofReport_counts (report : List RTCStats) : Counts (ByteTotals.ofReport report)
    (counters "bytesSent" report).sum (counters "bytesReceived" report).sum := by
  have hcounts := Counts.addReport (x := ⟨0, 0⟩) (m := 0) (n := 0) report ⟨rfl, rfl⟩
  rwa [Nat.zero_add, Nat.zero_add] at hcounts

end Totals

section Runs

variable {perSecond : UInt64 → Int → UInt64}

theorem run_concat (events : List StatsEvent) (event : StatsEvent) :
    PeerConnectionStatsCollectorCallback.run perSecond (events ++ [event]) =
      (PeerConnectionStatsCollectorCallback.run perSecond events).step perSecond event := by
  simp [PeerConnectionStatsCollectorCallback.run]

theorem exact_delivered_iff (s : PeerConnectionStatsCollectorCallback)
    (report report' : List RTCStats) (nowUs nowUs' : Int) :
    ((s.onStatsDelivered perSecond report nowUs).hasPeriod nowUs' = true →
      ExactDifference (ByteTotals.ofReport report').bytesSent
        (ByteTotals.ofReport report).bytesSent ∧
      ExactDifference (ByteTotals.ofReport report').bytesReceived
        (ByteTotals.ofReport report).bytesReceived) ↔
    Follows (.delivered report nowUs) (.delivered report' nowUs') := by
  have hperiod : (s.onStatsDelivered perSecond report nowUs).hasPeriod nowUs' = true ↔
      0 < nowUs ∧ nowUs < nowUs' := by
    simp [PeerConnectionStatsCollectorCallback.hasPeriod,
      PeerConnectionStatsCollectorCallback.onStatsDelivered]
  rw [hperiod, and_imp]
  simp only [Follows, exactDifference_iff, (ofReport_counts _).sent, (ofReport_counts _).received,
    List.forall_mem_cons, List.not_mem_nil, false_imp_iff, implies_true, and_true, transportTotal]

/-- Only a report that comes right behind another one is compared with anything. -/
theorem exactBehind_iff (events : List StatsEvent) (event : StatsEvent) :
    ExactBehind perSecond events event ↔ ∀ last ∈ events.getLast?, Follows last event := by
  cases event with
  | clearReport => exact iff_of_true trivial fun last _ => by cases last <;> trivial
  | delivered report' nowUs' =>
    cases events using List.reverseRecOn with
    | nil => exact iff_of_true (fun hperiod => by cases hperiod) fun last hlast => by cases hlast
    | append_singleton events last =>
      rw [ExactBehind, run_concat, List.getLast?_concat]
      simp only [Option.mem_some_iff, forall_eq']
      cases last with
      | clearReport => exact iff_of_true (fun hperiod => by cases hperiod) trivial
      | delivered report nowUs => exact exact_delivered_iff _ report report' nowUs nowUs'

/-- A report that has lost its transports is compared with one that had them. -/
theorem lost_transports_wrap {report report' : List RTCStats} {nowUs nowUs' : Int} (name : String)
    (hname : name ∈ ["bytesSent", "bytesReceived"]) (htotal : 0 < transportTotal name report)
    (hlost : ∀ stats ∈ report', stats.isTransport = false) (hstarted : 0 < nowUs)
    (hclock : nowUs < nowUs') (earlier : List StatsEvent) :
    ¬ ExactBehind perSecond (earlier ++ [.delivered report nowUs]) (.delivered report' nowUs') := by
  have hnone : report'.filter RTCStats.isTransport = [] :=
    List.filter_eq_nil_iff.mpr fun stats hstats => by simp [hlost stats hstats]
  have hzero : transportTotal name report' = 0 := by
    rw [transportTotal, counters, hnone]
    rfl
  rw [exactBehind_iff, List.getLast?_concat]
  intro hfollows
  have hle := (hfollows _ rfl hstarted hclock name hname).1
  omega

theorem follows_of_growing {report report' : List RTCStats} (nowUs nowUs' : Int)
    (h : ∀ name ∈ ["bytesSent", "bytesReceived"],
      List.Forall₂ (· ≤ ·) (counters name report) (counters name report') ∧
        (counters name report').sum < 2 ^ 61) :
    Follows (.delivered report nowUs) (.delivered report' nowUs') := by
  intro _ _ name hname
  obtain ⟨hgrown, hsmall⟩ := h name hname
  have hle := hgrown.sum_le_sum
  rw [transportTotal, transportTotal, Nat.mod_eq_of_lt (by omega), Nat.mod_eq_of_lt (by omega)]
  omega

/-- The bandwidth is computed from exact differences, in every history, exactly when
each report follows the one right before it. -/
theorem bandwidth_exact_iff (perSecond : UInt64 → Int → UInt64) (events : List StatsEvent) :
    NeverWraps perSecond events ↔ events.IsChain Follows := by
  induction events using List.reverseRecOn with
  | nil => simp [NeverWraps]
  | append_singleton events event ih =>
    rw [NeverWraps, Histories.forall_split_concat, ← NeverWraps, ih, List.isChain_append,
      exactBehind_iff]
    simp

end Runs

def RTCStats.transport (bytesSent bytesReceived : String) : RTCStats :=
  ⟨"T01", "transport", [⟨"bytesSent", bytesSent, true⟩, ⟨"bytesReceived", bytesReceived, true⟩]⟩

/-- A transport that goes on, and one that is lost behind a `clearReport`. -/
theorem bandwidth_exact_camera : NeverWraps (fun bits dtUs => bits * 1000000 / dtUs.toNat.toUInt64)
    [.delivered [.transport "1000" "500"] 1000000, .delivered [.transport "9000" "700"] 2000000,
      .clearReport, .delivered [] 3000000] := by
  have hgrown : Follows (.delivered [.transport "1000" "500"] 1000000)
      (.delivered [.transport "9000" "700"] 2000000) :=
    follows_of_growing _ _ (by decide)
  refine (bandwidth_exact_iff _ _).mpr ?_
  exact .cons_cons hgrown (.cons_cons trivial (.cons_cons trivial (.singleton _)))

def StatsEvent.nowUs? : StatsEvent → Option Int
  | .clearReport => none
  | .delivered _ nowUs => some nowUs

/-- The second report has no transport. -/
theorem bandwidth_wraps : ¬ ∀ (perSecond : UInt64 → Int → UInt64) (events : List StatsEvent),
    (events.filterMap StatsEvent.nowUs?).Pairwise (· ≤ ·) → NeverWraps perSecond events := by
  intro halways
  have hexact := halways (fun bits dtUs => bits * 1000000 / dtUs.toNat.toUInt64)
    [.delivered [.transport "1000" "500"] 1000000, .delivered [] 2000000] (by decide)
  exact lost_transports_wrap "bytesSent" (by decide) (by decide) (by decide) (by decide) (by decide)
    [] (hexact _ _ [] rfl)

end WebrtcStreamer
