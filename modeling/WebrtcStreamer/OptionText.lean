import WebrtcStreamer.CodecChoice

/-! Option texts: pairs that are written as a text and read again by `AddStreams`. -/

set_option autoImplicit false

namespace WebrtcStreamer

def pairText (p : String × String) : List Char := p.1.toList ++ '=' :: p.2.toList

def pairsText : List (String × String) → List Char
  | [] => []
  | [p] => pairText p
  | p :: q :: pairs => pairText p ++ '&' :: pairsText (q :: pairs)

def optionText (pairs : List (String × String)) : String := String.ofList (pairsText pairs)

/-- Keys that differ and can be told from what surrounds them, values that end at a `&`. -/
structure WellFormed (pairs : List (String × String)) : Prop where
  distinct : (pairs.map Prod.fst).Nodup
  keys : ∀ p ∈ pairs, p.1 ≠ "" ∧ '=' ∉ p.1.toList ∧ '&' ∉ p.1.toList
  values : ∀ p ∈ pairs, '&' ∉ p.2.toList

/-- The pairs that the loop stores: not the last one if its value is empty. -/
def storedPairs : List (String × String) → List (String × String)
  | [] => []
  | [p] => if p.2 = "" then [] else [p]
  | p :: q :: pairs => p :: storedPairs (q :: pairs)

def RoundTrips (pairs : List (String × String)) : Prop :=
  ∀ key : String, (parseOptions (optionText pairs))[key]? = pairs.lookup key

/-! ### The loop -/

section Loop

variable {p q : String × String} {pairs : List (String × String)} {fuel : Nat}

theorem readPairs_eof (fuel : Nat) (rest : List Char) (fail : Bool) :
    readPairs fuel ⟨rest, true, fail⟩ = [] := by
  cases fuel with
  | zero => rfl
  | succ fuel => simp [readPairs, getline]

theorem readPairs_pair (hkey : '=' ∉ p.1.toList) (hvalue : '&' ∉ p.2.toList) (rest : List Char) :
    readPairs (fuel + 1) ⟨pairText p ++ '&' :: rest, false, false⟩ =
      p :: readPairs fuel ⟨rest, false, false⟩ := by
  rw [readPairs, pairText, List.append_assoc, List.cons_append]
  simp [getline_delim hkey, getline_delim hvalue]

/-- The last round: an empty value at the end of the text sets `failbit`. -/
theorem readPairs_last (hkey : '=' ∉ p.1.toList) (hvalue : '&' ∉ p.2.toList) :
    readPairs (fuel + 1) ⟨pairText p, false, false⟩ = storedPairs [p] := by
  have hempty : p.2.toList.isEmpty = decide (p.2 = "") := by
    rw [Bool.eq_iff_iff, List.isEmpty_iff, decide_eq_true_eq, String.toList_eq_nil_iff]
  rw [readPairs, pairText, storedPairs]
  simp only [getline_delim hkey, getline_end hvalue, hempty, decide_eq_true_eq, readPairs_eof,
    String.ofList_toList]

theorem readPairs_pairsText (hkeys : ∀ p ∈ pairs, '=' ∉ p.1.toList)
    (hvalues : ∀ p ∈ pairs, '&' ∉ p.2.toList) (hfuel : pairs.length < fuel) :
    readPairs fuel ⟨pairsText pairs, false, false⟩ = storedPairs pairs := by
  induction pairs generalizing fuel with
  | nil =>
    obtain ⟨fuel, rfl⟩ := Nat.exists_eq_succ_of_ne_zero (by omega : fuel ≠ 0)
    rfl
  | cons p pairs ih =>
    obtain ⟨fuel, rfl⟩ := Nat.exists_eq_succ_of_ne_zero (by omega : fuel ≠ 0)
    obtain ⟨hkey, hkeys⟩ := List.forall_mem_cons.mp hkeys
    obtain ⟨hvalue, hvalues⟩ := List.forall_mem_cons.mp hvalues
    cases pairs with
    | nil => exact readPairs_last hkey hvalue
    | cons q pairs =>
      have hrest := ih hkeys hvalues (by simpa using hfuel)
      rw [pairsText, storedPairs, Nat.succ_eq_add_one, readPairs_pair hkey hvalue, hrest]

theorem length_le_pairsText (pairs : List (String × String)) :
    pairs.length ≤ (pairsText pairs).length := by
  induction pairs with
  | nil => exact le_refl _
  | cons p pairs ih =>
    cases pairs with
    | nil =>
      simp only [pairsText, pairText, List.length_append, List.length_cons, List.length_nil]
      omega
    | cons q pairs =>
      simp only [pairsText, pairText, List.length_append, List.length_cons] at ih ⊢
      omega

theorem optionValues_optionText (h : WellFormed pairs) (key : String) :
    optionValues (optionText pairs) key = valuesOf key (storedPairs pairs) := by
  have hlength := length_le_pairsText pairs
  have hkeys : ∀ p ∈ pairs, '=' ∉ p.1.toList := fun p hp => (h.keys p hp).2.1
  rw [optionValues, optionText, InputStream.ofString, String.toList_ofList, String.length_ofList,
    readPairs_pairsText hkeys h.values (by omega)]

end Loop

/-! ### The map -/

section Map

variable {pairs : List (String × String)}

theorem lookup_eq_none {key : String} (h : key ∉ pairs.map Prod.fst) : pairs.lookup key = none := by
  induction pairs with
  | nil => rfl
  | cons p pairs ih =>
    rw [List.map_cons, List.mem_cons, not_or] at h
    have hne : (key == p.1) = false := by simpa using h.1
    rw [List.lookup_cons, hne]
    exact ih h.2

theorem valuesOf_eq (h : (pairs.map Prod.fst).Nodup) (key : String) :
    valuesOf key pairs = (pairs.lookup key).toList := by
  induction pairs with
  | nil => rfl
  | cons p pairs ih =>
    rw [List.map_cons, List.nodup_cons] at h
    have hrest := ih h.2
    rw [valuesOf_cons, List.lookup_cons]
    by_cases hp : p.1 = key
    · rw [lookup_eq_none (hp ▸ h.1)] at hrest
      simp [hp, hrest]
    · have hne : (key == p.1) = false := by simpa using Ne.symm hp
      rw [if_neg hp, hne, hrest]

theorem getLast?_valuesOf (h : (pairs.map Prod.fst).Nodup) (key : String) :
    (valuesOf key pairs).getLast? = pairs.lookup key := by
  rw [valuesOf_eq h]
  cases pairs.lookup key <;> rfl

theorem head?_valuesOf (h : (pairs.map Prod.fst).Nodup) (key : String) :
    (valuesOf key pairs).head? = pairs.lookup key := by
  rw [valuesOf_eq h]
  cases pairs.lookup key <;> rfl

theorem storedPairs_eq (h : ∀ p, pairs.getLast? = some p → p.2 ≠ "") :
    storedPairs pairs = pairs := by
  induction pairs with
  | nil => rfl
  | cons p pairs ih =>
    cases pairs with
    | nil => simp [storedPairs, h p rfl]
    | cons q pairs => rw [storedPairs, ih fun p' hp' => h p' (by simpa using hp')]

theorem storedPairs_concat {p : String × String} (h : p.2 = "") :
    storedPairs (pairs ++ [p]) = pairs := by
  induction pairs with
  | nil => simp [storedPairs, h]
  | cons q pairs ih =>
    cases pairs with
    | nil => simp [storedPairs, h]
    | cons q' pairs =>
      rw [List.cons_append, List.cons_append, storedPairs, ← List.cons_append, ih]

/-- The pairs are read back exactly when the text does not end in an empty value. -/
theorem options_round_trip_iff (h : WellFormed pairs) :
    RoundTrips pairs ↔ ∀ p, pairs.getLast? = some p → p.2 ≠ "" := by
  unfold RoundTrips
  simp only [parseOptions_getElem?, optionValues_optionText h]
  constructor
  · intro htrips p hlast hempty
    obtain ⟨init, rfl⟩ := List.getLast?_eq_some_iff.mp hlast
    have hdistinct := h.distinct
    rw [List.map_append, List.map_singleton, List.nodup_append] at hdistinct
    obtain ⟨hinit, _, hnew⟩ := hdistinct
    have hlost : init.lookup p.1 = none :=
      lookup_eq_none fun hmem => hnew _ hmem _ List.mem_cons_self rfl
    have htrip := htrips p.1
    have hself : [p].lookup p.1 = some p.2 := List.lookup_cons_self
    rw [storedPairs_concat hempty, getLast?_valuesOf hinit, hlost, List.lookup_append, hlost, hself]
      at htrip
    cases htrip
  · intro hlast key
    rw [storedPairs_eq hlast, getLast?_valuesOf h.distinct]

theorem getOptionValue_optionText (h : WellFormed pairs) (key : String) :
    getOptionValue (optionText pairs) key = (pairs.lookup key).getD "" := by
  rw [getOptionValue_eq, optionValues_optionText h]
  by_cases hlast : ∀ p, pairs.getLast? = some p → p.2 ≠ ""
  · rw [storedPairs_eq hlast, head?_valuesOf h.distinct]
  · obtain ⟨p, hlast, hempty⟩ : ∃ p, pairs.getLast? = some p ∧ p.2 = "" := by simpa using hlast
    obtain ⟨init, rfl⟩ := List.getLast?_eq_some_iff.mp hlast
    have hdistinct := h.distinct
    rw [List.map_append, List.nodup_append] at hdistinct
    rw [storedPairs_concat hempty, head?_valuesOf hdistinct.1, List.lookup_append]
    cases init.lookup key with
    | some value => rfl
    | none =>
      rw [List.lookup_cons]
      cases key == p.1 <;> simp [hempty]

end Map

/-- An empty value in the middle and a `=` in the last one. -/
theorem options_round_trip_timeout : WellFormed [("rtptransport", ""), ("timeout", "a=60")] ∧
    RoundTrips [("rtptransport", ""), ("timeout", "a=60")] := by
  have hformed : WellFormed [("rtptransport", ""), ("timeout", "a=60")] :=
    ⟨by decide, by decide, by decide⟩
  exact ⟨hformed, (options_round_trip_iff hformed).mpr (by simp)⟩

/-- `width=` is an empty option, at the end of a text it is none. -/
theorem empty_value_lost :
    ¬ ∀ pairs : List (String × String), WellFormed pairs → RoundTrips pairs := by
  intro halways
  have htrip := halways [("width", "")] ⟨by decide, by decide, by decide⟩ "width"
  revert htrip
  decide +kernel

/-! ### Options that a request appends to those of an alias -/

/-- Pairs that no text between them can be mistaken for, with values. -/
structure Joinable (pairs : List (String × String)) : Prop where
  keys : ∀ p ∈ pairs, '=' ∉ p.1.toList ∧ '&' ∉ p.1.toList
  values : ∀ p ∈ pairs, p.2 ≠ "" ∧ '&' ∉ p.2.toList

def optionMap (pairs : List (String × String)) : Options :=
  pairs.foldl (fun opts p => opts.insert p.1 p.2) ∅

def aliasOptions (config : AliasConfig) (q : StreamRequest) : String :=
  ((config.find q.videourl).map (Json.Value.memberText · "options")).getD ""

/-- The option map of the request is the map of `u`, overridden by the map of `r`. -/
def Extends (config : AliasConfig) (q : StreamRequest) (u r : List (String × String)) : Prop :=
  ∀ key : String,
    (streamOptions config q)[key]? = (optionMap r)[key]?.or (optionMap u)[key]?

section Appended

variable {u r pairs : List (String × String)} {fuel : Nat}

theorem optionMap_getElem? (pairs : List (String × String)) (key : String) :
    (optionMap pairs)[key]? = (valuesOf key pairs).getLast? := by
  rw [optionMap, getElem?_foldl_insert]
  simp

theorem readPairs_append (h : Joinable pairs) (hne : pairs ≠ []) (rest : List Char) :
    readPairs (fuel + pairs.length) ⟨pairsText pairs ++ '&' :: rest, false, false⟩ =
      pairs ++ readPairs fuel ⟨rest, false, false⟩ := by
  induction pairs with
  | nil => exact absurd rfl hne
  | cons p pairs ih =>
    have hkey := (h.keys p List.mem_cons_self).1
    have hvalue := (h.values p List.mem_cons_self).2
    cases pairs with
    | nil => exact readPairs_pair hkey hvalue rest
    | cons q pairs =>
      have hjoin : Joinable (q :: pairs) :=
        ⟨fun p' hp' => h.keys p' (List.mem_cons_of_mem _ hp'),
          fun p' hp' => h.values p' (List.mem_cons_of_mem _ hp')⟩
      have hlength : fuel + (p :: q :: pairs).length = (fuel + (q :: pairs).length) + 1 := rfl
      rw [hlength, pairsText, List.append_assoc, List.cons_append, readPairs_pair hkey hvalue,
        ih hjoin (List.cons_ne_nil _ _)]
      rfl

theorem Joinable.readPairs (h : Joinable pairs) (hfuel : pairs.length < fuel) :
    readPairs fuel ⟨pairsText pairs, false, false⟩ = pairs := by
  rw [readPairs_pairsText (fun p hp => (h.keys p hp).1) (fun p hp => (h.values p hp).2) hfuel]
  exact storedPairs_eq fun p hp => (h.values p (List.mem_of_getLast? hp)).1

theorem optionValues_appended (hu : Joinable u) (hr : Joinable r) (hne : u ≠ []) (key : String) :
    optionValues (optionText u ++ ("&" ++ optionText r)) key = valuesOf key (u ++ r) := by
  have htext : (optionText u ++ ("&" ++ optionText r)).toList =
      pairsText u ++ '&' :: pairsText r := by
    simp [optionText]
  have hlength := congrArg List.length htext
  rw [String.length_toList, List.length_append, List.length_cons] at hlength
  have hu' := length_le_pairsText u
  have hr' := length_le_pairsText r
  obtain ⟨fuel, hfuel⟩ := Nat.exists_eq_add_of_le' (by omega :
    u.length ≤ (optionText u ++ ("&" ++ optionText r)).length + 1)
  rw [optionValues, InputStream.ofString, htext, hfuel, readPairs_append hu hne,
    hr.readPairs (by omega)]

/-- Without such options the separator becomes part of the first key. -/
theorem optionValues_separator {p : String × String} (hr : Joinable (p :: r)) (key : String) :
    optionValues ("" ++ ("&" ++ optionText (p :: r))) key =
      valuesOf key (("&" ++ p.1, p.2) :: r) := by
  have hjoin : ∀ x ∈ ("&" ++ p.1, p.2) :: r, '=' ∉ x.1.toList ∧ x.2 ≠ "" ∧ '&' ∉ x.2.toList := by
    intro x hx
    rcases List.mem_cons.mp hx with rfl | hx
    · have hkey := (hr.keys p List.mem_cons_self).1
      exact ⟨by simpa using hkey, hr.values p List.mem_cons_self⟩
    · exact ⟨(hr.keys x (List.mem_cons_of_mem _ hx)).1, hr.values x (List.mem_cons_of_mem _ hx)⟩
  have htext : ("" ++ ("&" ++ optionText (p :: r))).toList =
      pairsText (("&" ++ p.1, p.2) :: r) := by
    cases r <;> simp [optionText, pairsText, pairText]
  have hlength := congrArg List.length htext
  rw [String.length_toList] at hlength
  have hfuel := length_le_pairsText (("&" ++ p.1, p.2) :: r)
  rw [optionValues, InputStream.ofString, htext, readPairs_pairsText (fun x hx => (hjoin x hx).1)
    (fun x hx => (hjoin x hx).2.2) (by omega)]
  rw [storedPairs_eq fun x hx => (hjoin x (List.mem_of_getLast? hx)).2.1]

theorem optstring_appended {config : AliasConfig} {q : StreamRequest}
    (htext : aliasOptions config q = optionText u)
    (happended : q.options = "&" ++ optionText r) :
    optstring config q = optionText u ++ ("&" ++ optionText r) := by
  have hne : q.options ≠ "" := by
    rw [happended]
    simp
  have hstarts : startsWith "&" q.options = true := by
    rw [happended]
    simp [startsWith]
  rw [← htext, ← happended, optstring, aliasOptions]
  cases config.find q.videourl with
  | none => simp
  | some named => simp [hne, hstarts]

/-- Appended options extend those of the alias exactly when it has some, or
nothing is appended. -/
theorem appended_options_iff {config : AliasConfig} {q : StreamRequest}
    (htext : aliasOptions config q = optionText u) (happended : q.options = "&" ++ optionText r)
    (hu : Joinable u) (hr : Joinable r) :
    Extends config q u r ↔ u ≠ [] ∨ r = [] := by
  simp only [Extends, streamOptions, parseOptions_getElem?, optionMap_getElem?]
  rw [optstring_appended htext happended]
  by_cases hne : u = []
  · subst hne
    cases r with
    | nil =>
      refine iff_of_true (fun key => ?_) (.inr rfl)
      have hnone : optionValues (optionText [] ++ ("&" ++ optionText [])) key = [] := rfl
      rw [hnone]
      rfl
    | cons p r =>
      refine iff_of_false (fun hextends => ?_) (by simp)
      have hkey := hextends ("&" ++ p.1)
      have hempty : optionText [] = "" := rfl
      have hother : valuesOf ("&" ++ p.1) (p :: r) = [] := by
        refine List.map_eq_nil_iff.mpr (List.filter_eq_nil_iff.mpr fun x hx => ?_)
        have hno := (hr.keys x hx).2
        have hx' : x.1 ≠ "&" ++ p.1 := fun heq => hno (by simp [heq])
        simpa using hx'
      rw [hempty, optionValues_separator hr, hother, valuesOf_cons, if_pos rfl] at hkey
      simp [valuesOf, List.getLast?_cons] at hkey
  · refine iff_of_true (fun key => ?_) (.inl hne)
    rw [optionValues_appended hu hr hne, valuesOf, List.filter_append, List.map_append,
      List.getLast?_append]
    rfl

end Appended

theorem appended_options_camera : Extends
    (.object [("cam", .object [("video", .string "rtsp://cam"),
      ("options", .string "width=320&timeout=60")])])
    ⟨"cam", "", "&width=640", false⟩ [("width", "320"), ("timeout", "60")]
    [("width", "640")] := by
  have hu : Joinable [("width", "320"), ("timeout", "60")] := ⟨by decide, by decide⟩
  have hr : Joinable [("width", "640")] := ⟨by decide, by decide⟩
  exact (appended_options_iff (by decide) (by decide) hu hr).mpr (.inl (by decide))

/-- Behind an alias without options the option is `&width`. -/
theorem appended_separator : ¬ ∀ (config : AliasConfig) (q : StreamRequest)
    (u r : List (String × String)), aliasOptions config q = optionText u →
    q.options = "&" ++ optionText r → Joinable u → Joinable r → Extends config q u r := by
  intro halways
  have hextends := halways (.object [("cam", .object [("video", .string "rtsp://cam")])])
    ⟨"cam", "", "&width=640", false⟩ [] [("width", "640")] (by decide) (by decide)
    ⟨by decide, by decide⟩ ⟨by decide, by decide⟩ "width"
  revert hextends
  decide +kernel

end WebrtcStreamer
