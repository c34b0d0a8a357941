import WebrtcStreamer.Api
import WebrtcStreamer.TextParts

/-! The candidates that an observer gathers, with the copies for the extra host. -/

set_option autoImplicit false

namespace WebrtcStreamer

open TextParts
open Json (Value)

inductive IceConnectionState where
  | new | checking | connected | completed | failed | disconnected | closed
  deriving DecidableEq, Repr

/-- The tokens that `iss >> token` extracts one after the other. Every round
consumes a character. -/
def extractTokens : Nat → List Char → List (List Char)
  | 0, _ => []
  | fuel + 1, text =>
    let text := text.dropWhile isspace
    if text = [] then []
    else text.takeWhile (fun c => !isspace c) ::
      extractTokens fuel (text.dropWhile fun c => !isspace c)

def readTokens (sdp : String) : List (List Char) := extractTokens (sdp.length + 1) sdp.toList

def joinTokens (tokens : List (List Char)) : String := String.ofList ([' '].intercalate tokens)

namespace PeerConnectionObserver

def candidateMessage (candidate : IceCandidate) (sdp : String) : Value :=
  .object [("candidate", .string sdp), ("sdpMLineIndex", .number (toString candidate.mlineIndex)),
    ("sdpMid", .string candidate.mid)]

def onIceCandidate (extraHost : String) (candidate : IceCandidate)
    (iceCandidateList : List Value) : List Value :=
  let iceCandidateList := iceCandidateList ++ [candidateMessage candidate candidate.sdp]
  if extraHost ≠ "" && contains "typ host" candidate.sdp then
    let tokens := readTokens candidate.sdp
    if 7 ≤ tokens.length then
      iceCandidateList ++ [candidateMessage candidate (joinTokens (tokens.set 4 extraHost.toList))]
    else iceCandidateList
  else iceCandidateList

def onIceConnectionChange (state : IceConnectionState) (iceCandidateList : List Value) :
    List Value :=
  if state = .failed || state = .closed then [] else iceCandidateList

end PeerConnectionObserver

/-! ### Candidates of WebRTC -/

structure CandidateText where
  mid : String
  mlineIndex : Int
  tokens : List (List Char)
  word : ∀ token ∈ tokens, token ≠ [] ∧ ∀ c ∈ token, isspace c = false
  length : 8 ≤ tokens.length
  typ : tokens[6]? = some "typ".toList
  type : ∃ type ∈ ["host", "srflx", "prflx", "relay"], tokens[7]? = some type.toList
  /-- no other token ends in `typ` -/
  only : ∀ y ∈ tokens.zipIdx, "typ".toList <:+ y.1 → y.2 = 6

namespace CandidateText

def toIceCandidate (x : CandidateText) : IceCandidate := ⟨x.mid, x.mlineIndex, joinTokens x.tokens⟩

def withAddress (x : CandidateText) (address : String) : String :=
  joinTokens (x.tokens.set 4 address.toList)

/-- The candidate, and behind one of a host the copy for the extra host. -/
def entries (extraHost : String) (x : CandidateText) : List Value :=
  PeerConnectionObserver.candidateMessage x.toIceCandidate (joinTokens x.tokens) ::
    if extraHost ≠ "" ∧ x.tokens[7]? = some "host".toList then
      [PeerConnectionObserver.candidateMessage x.toIceCandidate (x.withAddress extraHost)]
    else []

end CandidateText

inductive IceEvent where
  | candidate (x : CandidateText)
  | connectionChange (state : IceConnectionState)

namespace IceEvent

def observe (extraHost : String) (iceCandidateList : List Value) : IceEvent → List Value
  | candidate x =>
    PeerConnectionObserver.onIceCandidate extraHost x.toIceCandidate iceCandidateList
  | connectionChange state =>
    PeerConnectionObserver.onIceConnectionChange state iceCandidateList

def ends : IceEvent → Bool
  | connectionChange .failed => true
  | connectionChange .closed => true
  | _ => false

def candidate? : IceEvent → Option CandidateText
  | candidate x => some x
  | _ => none

/-- The candidates since the connection has failed or was closed for the last time. -/
def gathered (events : List IceEvent) : List CandidateText :=
  (events.reverse.takeWhile fun event => !event.ends).reverse.filterMap candidate?

end IceEvent

/-! ### Tokens -/

section Tokens

variable {tokens : List (List Char)} {token : List Char}

theorem extractTokens_join (h : ∀ token ∈ tokens, token ≠ [] ∧ ∀ c ∈ token, isspace c = false)
    {fuel : Nat} (hfuel : tokens.length < fuel) :
    extractTokens fuel ([' '].intercalate tokens) = tokens := by
  have hskip : ∀ (fuel : Nat) (text : List Char),
      extractTokens fuel (' ' :: text) = extractTokens fuel text := by
    intro fuel text
    cases fuel <;> rfl
  induction tokens generalizing fuel with
  | nil =>
    cases fuel <;> rfl
  | cons token tokens ih =>
    obtain ⟨fuel, rfl⟩ := Nat.exists_eq_add_of_le' (by omega : 1 ≤ fuel)
    obtain ⟨hne, hword⟩ := h token List.mem_cons_self
    have hrest : extractTokens fuel ([' '].intercalate tokens) = tokens :=
      ih (fun t ht => h t (List.mem_cons_of_mem _ ht)) (by simpa using hfuel)
    have hword' : ∀ c ∈ token, (!isspace c) = true := fun c hc => by simp [hword c hc]
    obtain ⟨c, token', rfl⟩ := List.exists_cons_of_ne_nil hne
    have hhead : isspace c = false := hword c List.mem_cons_self
    cases tokens with
    | nil =>
      rw [List.intercalate_singleton, extractTokens, List.dropWhile_cons_of_neg (by simp [hhead])]
      rw [List.intercalate_nil] at hrest
      simp only [List.cons_ne_nil, if_false]
      rw [List.takeWhile_eq_self_iff.mpr hword', List.dropWhile_eq_nil_iff.mpr hword', hrest]
    | cons next tokens =>
      rw [List.intercalate_cons_cons, List.append_assoc, List.singleton_append, extractTokens,
        List.cons_append, List.dropWhile_cons_of_neg (by simp [hhead])]
      simp only [List.cons_ne_nil, if_false]
      rw [← List.cons_append, List.takeWhile_append_of_pos hword',
        List.dropWhile_append_of_pos hword', List.takeWhile_cons_of_neg (by decide),
        List.dropWhile_cons_of_neg (by decide), hskip, hrest, List.append_nil]

theorem length_le_intercalate (h : ∀ token ∈ tokens, token ≠ []) :
    tokens.length ≤ ([' '].intercalate tokens).length := by
  induction tokens with
  | nil => exact Nat.zero_le _
  | cons token tokens ih =>
    have htoken := List.length_pos_iff.mpr (h token List.mem_cons_self)
    have hrest := ih fun t ht => h t (List.mem_cons_of_mem _ ht)
    cases tokens with
    | nil =>
      rw [List.intercalate_singleton]
      exact htoken
    | cons next tokens =>
      rw [List.intercalate_cons_cons, List.length_append, List.length_append, List.length_cons]
      omega

theorem readTokens_joinTokens
    (h : ∀ token ∈ tokens, token ≠ [] ∧ ∀ c ∈ token, isspace c = false) :
    readTokens (joinTokens tokens) = tokens := by
  have hlength := length_le_intercalate fun token htoken => (h token htoken).1
  rw [readTokens, joinTokens, String.toList_ofList, String.length_ofList,
    extractTokens_join h (by omega)]

end Tokens

/-! ### One event -/

section Event

variable {x : CandidateText} {extraHost : String} {l : List Value}

theorem CandidateText.contains_host (x : CandidateText) :
    contains "typ host" (joinTokens x.tokens) = true ↔ x.tokens[7]? = some "host".toList := by
  have htext : "typ host".toList = "typ".toList ++ ' ' :: "host".toList := by decide
  have hspace : ∀ token ∈ x.tokens, ' ' ∉ token := fun token htoken hmem =>
    absurd ((x.word token htoken).2 ' ' hmem) (by decide)
  have hjoined : (joinTokens x.tokens).toList = [' '].intercalate x.tokens := String.toList_ofList
  rw [contains, decide_eq_true_eq, htext, hjoined,
    infix_intercalate (by decide) (by decide) hspace]
  constructor
  · rintro ⟨pre, a, b, post, htokens, htyp, hhost⟩
    have ha : x.tokens[pre.length]? = some a := by simp [htokens]
    have hb : x.tokens[pre.length + 1]? = some b := by simp [htokens]
    have hindex : pre.length = 6 :=
      x.only (a, pre.length) (List.mem_zipIdx_iff_getElem?.mpr ha) htyp
    obtain ⟨type, htype, hseven⟩ := x.type
    rw [hindex, hseven, Option.some.injEq] at hb
    rw [← hb] at hhost
    rw [hseven]
    simp only [List.mem_cons, List.not_mem_nil, or_false] at htype
    rcases htype with rfl | rfl | rfl | rfl
    · rfl
    all_goals exact absurd hhost (by decide)
  · intro hseven
    obtain ⟨hsix', hsix⟩ := List.getElem?_eq_some_iff.mp x.typ
    obtain ⟨hseven', hseven⟩ := List.getElem?_eq_some_iff.mp hseven
    refine ⟨x.tokens.take 6, "typ".toList, "host".toList, x.tokens.drop 8, ?_, List.suffix_rfl,
      List.prefix_rfl⟩
    rw [← hsix, ← hseven, ← List.drop_eq_getElem_cons, ← List.drop_eq_getElem_cons,
      List.take_append_drop]

theorem onIceCandidate_entries (x : CandidateText) (extraHost : String) (l : List Value) :
    PeerConnectionObserver.onIceCandidate extraHost x.toIceCandidate l =
      l ++ x.entries extraHost := by
  have htokens : readTokens (joinTokens x.tokens) = x.tokens := readTokens_joinTokens x.word
  have hlength : 7 ≤ x.tokens.length := by
    have := x.length
    omega
  have hhost := x.contains_host
  simp only [PeerConnectionObserver.onIceCandidate, CandidateText.toIceCandidate, htokens, hlength,
    if_true, CandidateText.entries, CandidateText.withAddress, Bool.and_eq_true, hhost]
  by_cases h : extraHost ≠ "" ∧ x.tokens[7]? = some "host".toList
  · rw [if_pos (by simpa using h), if_pos h, List.append_assoc]
    rfl
  · rw [if_neg (by simpa using h), if_neg h]

theorem readTokens_withAddress (hne : extraHost ≠ "")
    (h : ∀ c ∈ extraHost.toList, isspace c = false) (x : CandidateText) :
    readTokens (x.withAddress extraHost) = x.tokens.set 4 extraHost.toList := by
  refine readTokens_joinTokens fun token htoken => ?_
  rcases List.mem_or_eq_of_mem_set htoken with hold | rfl
  · exact x.word token hold
  · exact ⟨by simpa using hne, h⟩

end Event

/-! ### All events -/

section Run

variable {extraHost : String} {events : List IceEvent}

theorem IceEvent.gathered_concat (events : List IceEvent) (event : IceEvent) :
    gathered (events ++ [event]) =
      if event.ends then [] else gathered events ++ event.candidate?.toList := by
  rw [gathered, List.reverse_append, List.reverse_singleton, List.singleton_append,
    List.takeWhile_cons]
  cases event.ends with
  | true => rfl
  | false =>
    simp only [Bool.not_false, if_true, List.reverse_cons, List.filterMap_append]
    cases h : event.candidate? <;> simp [gathered, h]

/-- The list has the candidates since the last end, with one copy for each of a
host, by induction on the events. -/
theorem gathered_candidates (events : List IceEvent)
    (h : ∀ c ∈ extraHost.toList, isspace c = false) :
    events.foldl (IceEvent.observe extraHost) [] =
      (IceEvent.gathered events).flatMap (CandidateText.entries extraHost) ∧
    (extraHost ≠ "" → ∀ x : CandidateText,
      readTokens (x.withAddress extraHost) = x.tokens.set 4 extraHost.toList) := by
  refine ⟨?_, fun hne x => readTokens_withAddress hne h x⟩
  induction events using List.reverseRecOn with
  | nil => rfl
  | append_singleton events event ih =>
    rw [List.foldl_append, IceEvent.gathered_concat, ih]
    cases event with
    | candidate x => simp [IceEvent.observe, IceEvent.ends, IceEvent.candidate?,
        onIceCandidate_entries]
    | connectionChange state =>
      cases state <;> simp [IceEvent.observe, IceEvent.ends, IceEvent.candidate?,
        PeerConnectionObserver.onIceConnectionChange]

end Run

def CandidateText.camera : CandidateText where
  mid := "0"
  mlineIndex := 0
  tokens := ["candidate:1".toList, "1".toList, "udp".toList, "2122".toList, "10.0.0.2".toList,
    "5000".toList, "typ".toList, "host".toList]
  word := by simp [isspace]
  length := by decide
  typ := by decide
  type := ⟨"host", by decide, by decide⟩
  only := by decide

theorem gathered_candidates_camera :
    [IceEvent.candidate .camera, .connectionChange .failed, .candidate .camera].foldl
        (IceEvent.observe "203.0.113.7") [] =
      CandidateText.camera.entries "203.0.113.7" ∧
    CandidateText.camera.withAddress "203.0.113.7" =
      "candidate:1 1 udp 2122 203.0.113.7 5000 typ host" := by
  refine ⟨(gathered_candidates [.candidate .camera, .connectionChange .failed,
    .candidate .camera] (by simp [isspace])).1.trans ?_, by decide +kernel⟩
  simp [IceEvent.gathered, IceEvent.ends, IceEvent.candidate?]

end WebrtcStreamer
