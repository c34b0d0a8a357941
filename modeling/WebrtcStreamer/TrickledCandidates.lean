import WebrtcStreamer.WhepStatus

/-! The candidates of a WHEP PATCH: which lines are given to the peer connection,
with which media section. -/

set_option autoImplicit false

namespace WebrtcStreamer

open Json (Value)

def beginsWith (part : String) (line : List Char) : Bool := part.toList.isPrefixOf line

structure BodyLine where
  text : List Char
  crlf : Bool
  deriving DecidableEq, Repr

namespace BodyLine

def ended (line : BodyLine) : List Char :=
  line.text ++ if line.crlf then ['\r', '\n'] else ['\n']

structure WellFormed (line : BodyLine) : Prop where
  lf : '\n' ∉ line.text
  cr : '\r' ∉ line.text
  attributes : ∀ name ∈ ["a=mid:", "a=candidate", "a=end-of-candidates"],
    name.toList <:+: line.text → beginsWith name line.text = true

end BodyLine

def bodyText (body : List BodyLine) : String := String.ofList (body.flatMap BodyLine.ended)

/-- The mid of the last line with one; empty without such a line. -/
def nearestMid (preceding : List (List Char)) : String :=
  ((preceding.reverse.find? (beginsWith "a=mid:")).map fun line =>
    String.ofList (line.drop 6)).getD ""

/-- The candidate lines without `a=`, each with the nearest mid in front of it. -/
def candidateLines (ls : List (List Char)) : List IceCandidate :=
  ls.zipIdx.filterMap fun (line, i) =>
    if beginsWith "a=candidate" line then
      some ⟨nearestMid (ls.take i), 0, String.ofList (line.drop 2)⟩
    else none

/-- The peer connection accepts one of these, after those in front of it. -/
def SomeAccepted (e : ApiEnv) (submitted : List IceCandidate) : Prop :=
  ∃ before candidate behind, submitted = before ++ candidate :: behind ∧
    e.acceptIceCandidate before candidate = true

/-! ### Lines -/

section Lines

variable {line rest : List Char} {name : String}

theorem lines_append (h : '\n' ∉ line) : lines (line ++ '\n' :: rest) = line :: lines rest := by
  rw [lines_getline, getline_delim h]
  rfl

theorem eraseCr_of_not_mem (h : '\r' ∉ line) : eraseCr line = line :=
  List.filter_eq_self.mpr fun _ hc => decide_eq_true fun heq => h (heq ▸ hc)

theorem lines_bodyText {body : List BodyLine} (h : ∀ line ∈ body, line.WellFormed) :
    (lines (bodyText body).toList).map eraseCr = body.map BodyLine.text := by
  rw [bodyText, String.toList_ofList]
  induction body with
  | nil => rfl
  | cons line body ih =>
    have hline := h line List.mem_cons_self
    have hrest := ih fun l hl => h l (List.mem_cons_of_mem _ hl)
    rw [List.flatMap_cons, List.map_cons, BodyLine.ended]
    cases hcrlf : line.crlf with
    | true =>
      have hlf : '\n' ∉ line.text ++ ['\r'] := by simp [hline.lf]
      have hended : line.text ++ (if true = true then ['\r', '\n'] else ['\n']) ++
          body.flatMap BodyLine.ended =
          line.text ++ ['\r'] ++ '\n' :: body.flatMap BodyLine.ended := by
        simp
      have herase : eraseCr (line.text ++ ['\r']) = line.text := by
        rw [eraseCr, List.filter_append, ← eraseCr, eraseCr_of_not_mem hline.cr]
        simp
      rw [hended, lines_append hlf, List.map_cons, herase, hrest]
    | false =>
      have hended : line.text ++ (if false = true then ['\r', '\n'] else ['\n']) ++
          body.flatMap BodyLine.ended = line.text ++ '\n' :: body.flatMap BodyLine.ended := by
        simp
      rw [hended, lines_append hline.lf, List.map_cons, eraseCr_of_not_mem hline.cr, hrest]

theorem lineHas_eq_beginsWith (hnul : '\x00' ∉ name.toList)
    (h : name.toList <:+: line → beginsWith name line = true) :
    lineHas line name = beginsWith name line := by
  have hall : ∀ c ∈ name.toList, decide (c ≠ '\x00') = true := fun c hc =>
    decide_eq_true fun heq => hnul (heq ▸ hc)
  rw [Bool.eq_iff_iff, lineHas, isSome_strstr, cString]
  constructor
  · intro hpart
    exact h (hpart.trans (List.takeWhile_prefix _).isInfix)
  · intro hbegins
    obtain ⟨tail, rfl⟩ := List.isPrefixOf_iff_prefix.mp hbegins
    rw [List.takeWhile_append_of_pos hall]
    exact (List.prefix_append _ _).isInfix

theorem beginsWith_disjoint (name' : String) (h : beginsWith name line = true)
    (hname : ¬ name.toList <+: name'.toList) (hname' : ¬ name'.toList <+: name.toList) :
    beginsWith name' line = false := by
  rw [← Bool.not_eq_true]
  intro h'
  rcases List.prefix_or_prefix_of_prefix (List.isPrefixOf_iff_prefix.mp h)
    (List.isPrefixOf_iff_prefix.mp h') with hpre | hpre
  · exact hname hpre
  · exact hname' hpre

end Lines

/-! ### One more line -/

section Snoc

variable {ls : List (List Char)} {line : List Char}

theorem nearestMid_concat (ls : List (List Char)) (line : List Char) :
    nearestMid (ls ++ [line]) =
      if beginsWith "a=mid:" line then String.ofList (line.drop 6) else nearestMid ls := by
  rw [nearestMid, List.reverse_append, List.reverse_singleton, List.singleton_append,
    List.find?_cons]
  cases beginsWith "a=mid:" line <;> rfl

theorem candidateLines_concat (ls : List (List Char)) (line : List Char) :
    candidateLines (ls ++ [line]) = candidateLines ls ++
      if beginsWith "a=candidate" line then
        [⟨nearestMid ls, 0, String.ofList (line.drop 2)⟩]
      else [] := by
  have hold : ∀ x ∈ ls.zipIdx, (if beginsWith "a=candidate" x.1 then
        some (IceCandidate.mk (nearestMid ((ls ++ [line]).take x.2)) 0
          (String.ofList (x.1.drop 2))) else none) =
      if beginsWith "a=candidate" x.1 then
        some ⟨nearestMid (ls.take x.2), 0, String.ofList (x.1.drop 2)⟩ else none := by
    intro x hx
    have hlt : x.2 < ls.length := (List.mem_zipIdx' hx).1
    rw [List.take_append_of_le_length (by omega)]
  rw [candidateLines, List.zipIdx_append, List.filterMap_append, List.filterMap_congr hold]
  congr 1
  cases hline : beginsWith "a=candidate" line <;> simp [hline]

theorem someAccepted_concat {e : ApiEnv} {submitted : List IceCandidate}
    {candidate : IceCandidate} : SomeAccepted e (submitted ++ [candidate]) ↔
      SomeAccepted e submitted ∨ e.acceptIceCandidate submitted candidate = true := by
  constructor
  · rintro ⟨before, c, behind, heq, haccept⟩
    rcases List.eq_nil_or_concat behind with rfl | ⟨behind', last, rfl⟩
    · obtain ⟨rfl, hc⟩ := List.append_inj' heq rfl
      cases hc
      exact .inr haccept
    · rw [List.concat_eq_append, ← List.cons_append, ← List.append_assoc] at heq
      exact .inl ⟨before, c, behind', (List.append_inj' heq rfl).1, haccept⟩
  · rintro (⟨before, c, behind, rfl, haccept⟩ | haccept)
    · exact ⟨before, c, behind ++ [candidate], by simp, haccept⟩
    · exact ⟨submitted, candidate, [], rfl, haccept⟩

end Snoc

/-! ### The loop -/

section Loop

variable {srv : Server} {e : ApiEnv} {ls : List (List Char)} {x : Trickle} {line : BodyLine}
  {body : List BodyLine} {o : ObsId}

structure Trickled (e : ApiEnv) (ls : List (List Char)) (x : Trickle) : Prop where
  mid : x.mid = nearestMid ls
  submitted : x.submitted = (candidateLines ls).filter e.createIceCandidate
  httpcode : x.httpcode = 200 ↔ SomeAccepted e x.submitted ∨
    ∃ l ∈ ls, beginsWith "a=end-of-candidates" l = true

theorem Trickled.initial (e : ApiEnv) : Trickled e [] ⟨"", 501, []⟩ where
  mid := rfl
  submitted := rfl
  httpcode := by
    refine iff_of_false (by decide) ?_
    rintro (⟨before, candidate, behind, hnil, _⟩ | ⟨_, hmem, _⟩)
    · simp at hnil
    · cases hmem

theorem BodyLine.WellFormed.trickleLine_eq (h : line.WellFormed) (x : Trickle) :
    PeerConnectionManager.trickleLine e (some o) x line.text =
      if beginsWith "a=mid:" line.text then { x with mid := String.ofList (line.text.drop 6) }
      else if beginsWith "a=candidate" line.text then
        let candidate : IceCandidate := ⟨x.mid, 0, String.ofList (line.text.drop 2)⟩
        if e.createIceCandidate candidate then
          { x with
            httpcode := if e.acceptIceCandidate x.submitted candidate then 200 else x.httpcode
            submitted := x.submitted ++ [candidate] }
        else x
      else if beginsWith "a=end-of-candidates" line.text then { x with httpcode := 200 }
      else x := by
  rw [PeerConnectionManager.trickleLine, eraseCr_of_not_mem h.cr,
    lineHas_eq_beginsWith (by decide) (h.attributes _ (by simp)),
    lineHas_eq_beginsWith (by decide) (h.attributes _ (by simp)),
    lineHas_eq_beginsWith (by decide) (h.attributes _ (by simp))]
  simp

theorem Trickled.snoc (h : Trickled e ls x) (hline : line.WellFormed) :
    Trickled e (ls ++ [line.text])
      (PeerConnectionManager.trickleLine e (some o) x line.text) := by
  have hend : (∃ l ∈ ls ++ [line.text], beginsWith "a=end-of-candidates" l = true) ↔
      (∃ l ∈ ls, beginsWith "a=end-of-candidates" l = true) ∨
        beginsWith "a=end-of-candidates" line.text = true := by
    simp [or_and_right, exists_or]
  rw [hline.trickleLine_eq]
  cases hmid : beginsWith "a=mid:" line.text with
  | true =>
    have hcandidate := beginsWith_disjoint "a=candidate" hmid (by decide) (by decide)
    have hnoend := beginsWith_disjoint "a=end-of-candidates" hmid (by decide) (by decide)
    refine ⟨?_, ?_, ?_⟩
    · rw [nearestMid_concat, hmid]
      rfl
    · rw [candidateLines_concat, hcandidate]
      simpa using h.submitted
    · rw [hend, hnoend]
      simpa using h.httpcode
  | false =>
    have hkeep : x.mid = nearestMid (ls ++ [line.text]) := by
      rw [nearestMid_concat, hmid]
      exact h.mid
    cases hcandidate : beginsWith "a=candidate" line.text with
    | true =>
      have hnoend := beginsWith_disjoint "a=end-of-candidates" hcandidate (by decide) (by decide)
      have hnew : candidateLines (ls ++ [line.text]) =
          candidateLines ls ++ [⟨x.mid, 0, String.ofList (line.text.drop 2)⟩] := by
        rw [candidateLines_concat, hcandidate, h.mid]
        rfl
      simp only [Bool.false_eq_true, if_false, if_true]
      cases hparsed : e.createIceCandidate ⟨x.mid, 0, String.ofList (line.text.drop 2)⟩ with
      | true =>
        refine ⟨hkeep, ?_, ?_⟩
        · rw [hnew, List.filter_append, ← h.submitted]
          simp [hparsed]
        · rw [hend, hnoend]
          have hhttpcode := h.httpcode
          simp only [if_true, someAccepted_concat]
          cases e.acceptIceCandidate x.submitted
              ⟨x.mid, 0, String.ofList (line.text.drop 2)⟩ <;> simp_all
      | false =>
        refine ⟨hkeep, ?_, ?_⟩
        · rw [hnew, List.filter_append]
          simpa [hparsed] using h.submitted
        · rw [hend, hnoend]
          simpa using h.httpcode
    | false =>
      refine ⟨?_, ?_, ?_⟩
      · cases beginsWith "a=end-of-candidates" line.text <;> exact hkeep
      · rw [candidateLines_concat, hcandidate]
        have hsubmitted := h.submitted
        cases beginsWith "a=end-of-candidates" line.text <;> simpa using hsubmitted
      · rw [hend]
        have hhttpcode := h.httpcode
        cases beginsWith "a=end-of-candidates" line.text <;> simp_all

theorem trickled_body (h : ∀ line ∈ body, line.WellFormed) :
    Trickled e (body.map BodyLine.text)
      (PeerConnectionManager.trickle e (some o) (bodyText body)) := by
  have herase : ∀ (x : Trickle) (l : List Char),
      PeerConnectionManager.trickleLine e (some o) x (eraseCr l) =
        PeerConnectionManager.trickleLine e (some o) x l := by
    intro x l
    have hidem : eraseCr (eraseCr l) = eraseCr l := by simp [eraseCr]
    rw [PeerConnectionManager.trickleLine, hidem]
    rfl
  have hfold : PeerConnectionManager.trickle e (some o) (bodyText body) =
      (body.map BodyLine.text).foldl (PeerConnectionManager.trickleLine e (some o))
        ⟨"", 501, []⟩ := by
    rw [PeerConnectionManager.trickle, ← lines_bodyText h, List.foldl_map]
    simp only [herase]
  rw [hfold]
  clear hfold
  induction body using List.reverseRecOn with
  | nil => exact .initial e
  | append_singleton body line ih =>
    rw [List.map_append, List.foldl_append]
    exact (ih fun l hl => h l (List.mem_append_left _ hl)).snoc (h line (by simp))

/-- The candidates that are submitted and the status, for a registered peer of any run. -/
theorem trickled_candidates {sh : Shared} {peerid : PeerId} {input : Value} (url : String)
    (r : StreamRequest) (hrun : Transition.Reachable (perform srv.cfg) .initial sh)
    (hpeer : PeerConnectionManager.sessionPeerId e peerid ∈ sh.peerConnectionObsMap)
    (h : ∀ line ∈ body, line.WellFormed) (hinput : input.asString = .ok (bodyText body)) :
    let peerConnection := sh.getPeerConnection (PeerConnectionManager.sessionPeerId e peerid)
    let candidates := (candidateLines (body.map BodyLine.text)).filter e.createIceCandidate
    peerConnection.isSome = true ∧
    (PeerConnectionManager.trickle e peerConnection (bodyText body)).submitted = candidates ∧
    ∃ out, PeerConnectionManager.whep srv e "PATCH" url peerid r input sh = .ok (sh, out) ∧
      (out.code = 200 ↔ SomeAccepted e candidates ∨
        ∃ line ∈ body, beginsWith "a=end-of-candidates" line.text = true) := by
  intro peerConnection candidates
  obtain ⟨o, ho⟩ := Option.isSome_iff_exists.mp
    (Std.TreeMap.mem_iff_isSome_getElem?.mp hpeer)
  have hconnection : peerConnection = some o := by
    simp only [peerConnection, Shared.getPeerConnection, ho, Option.filter_some,
      connectedPeers_run hrun _ _ ho, if_true]
  have htrickled := trickled_body (e := e) (o := o) h
  rw [hconnection]
  refine ⟨rfl, htrickled.submitted, ⟨(PeerConnectionManager.trickle e (some o)
    (bodyText body)).httpcode, [], .string ""⟩, ?_, ?_⟩
  · rw [PeerConnectionManager.whep, if_neg (by decide), if_pos rfl, hinput, ← hconnection]
    rfl
  · have hcode := htrickled.httpcode
    rw [htrickled.submitted] at hcode
    simpa using hcode

end Loop

theorem trickled_candidates_sections : ∃ sh,
    (PeerConnectionManager.trickle .fine (Shared.getPeerConnection sh "a")
      "a=mid:0\r\na=mid:1\na=candidate:7 1 udp\n").submitted = [⟨"1", 0, "candidate:7 1 udp"⟩] := by
  obtain ⟨sh, hperform⟩ := Option.isSome_iff_exists.mp
    (by decide : (perform (.plain 0) .initial
      (.request (.fine 7) (.plain .call "a" "rtsp://cam"))).isSome = true)
  have hpeer : "a" ∈ sh.peerConnectionObsMap := by
    have hmem : (perform (.plain 0) .initial
        (.request (.fine 7) (.plain .call "a" "rtsp://cam"))).any
          (fun sh => decide ("a" ∈ sh.peerConnectionObsMap)) = true := by decide
    rw [hperform] at hmem
    simpa using hmem
  have hsubmitted := (@trickled_candidates .plain .fine
    [⟨"a=mid:0".toList, true⟩, ⟨"a=mid:1".toList, false⟩, ⟨"a=candidate:7 1 udp".toList, false⟩]
    sh "a" (.string "a=mid:0\r\na=mid:1\na=candidate:7 1 udp\n") "/api/whep" ⟨"", "", "", false⟩
    (.single trivial hperform) hpeer ?_ (by decide)).2.1
  · exact ⟨sh, hsubmitted.trans (by decide)⟩
  · intro line hline
    simp only [List.mem_cons, List.not_mem_nil, or_false] at hline
    rcases hline with rfl | rfl | rfl <;> exact ⟨by decide, by decide, by decide⟩

end WebrtcStreamer
