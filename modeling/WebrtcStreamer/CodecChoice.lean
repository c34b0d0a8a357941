import WebrtcStreamer.ApiSafety

/-! Which codec path a request takes at its entry point, against the option map that
`AddStreams` computes for it. -/

set_option autoImplicit false

namespace WebrtcStreamer

/-! ### The values of an option -/

def readPairs : Nat → InputStream → List (String × String)
  | 0, _ => []
  | fuel + 1, is =>
    let (is, key) := getline is '='
    let (is, value) := getline is '&'
    if is.fail then []
    else (String.ofList key, String.ofList value) :: readPairs fuel is

def valuesOf (key : String) (pairs : List (String × String)) : List String :=
  (pairs.filter fun p => p.1 = key).map Prod.snd

def optionValues (text key : String) : List String :=
  valuesOf key (readPairs (text.length + 1) (.ofString text))

theorem valuesOf_cons (key : String) (p : String × String) (pairs : List (String × String)) :
    valuesOf key (p :: pairs) = if p.1 = key then p.2 :: valuesOf key pairs
      else valuesOf key pairs := by
  by_cases hp : p.1 = key <;> simp [valuesOf, hp]

theorem findOption_eq (key : String) (fuel : Nat) (is : InputStream) :
    findOption key fuel is = (valuesOf key (readPairs fuel is)).head?.getD "" := by
  induction fuel generalizing is with
  | zero => rfl
  | succ fuel ih =>
    simp only [findOption, readPairs]
    split
    · rfl
    · rw [valuesOf_cons]
      split
      · rfl
      · exact ih _

theorem readOptions_eq (fuel : Nat) (is : InputStream) (opts : Options) :
    readOptions fuel is opts =
      (readPairs fuel is).foldl (fun opts p => opts.insert p.1 p.2) opts := by
  induction fuel generalizing is opts with
  | zero => rfl
  | succ fuel ih =>
    simp only [readOptions, readPairs]
    split
    · rfl
    · exact ih _ _

theorem getElem?_foldl_insert (key : String) (pairs : List (String × String)) (opts : Options) :
    (pairs.foldl (fun opts p => opts.insert p.1 p.2) opts)[key]? =
      (valuesOf key pairs).getLast?.or opts[key]? := by
  induction pairs generalizing opts with
  | nil => rfl
  | cons p pairs ih =>
    rw [List.foldl_cons, ih, Std.TreeMap.getElem?_insert, valuesOf_cons]
    by_cases hp : p.1 = key
    · simp only [hp, Std.LawfulEqCmp.compare_eq_iff_eq, if_true, List.getLast?_cons]
      cases (valuesOf key pairs).getLast? <;> rfl
    · simp [hp]

theorem getOptionValue_eq (options key : String) :
    getOptionValue options key = (optionValues options key).head?.getD "" :=
  findOption_eq key _ _

theorem parseOptions_getElem? (text key : String) :
    (parseOptions text)[key]? = (optionValues text key).getLast? := by
  rw [parseOptions, readOptions_eq, getElem?_foldl_insert]
  simp [optionValues]

/-! ### The three entry points -/

section Choice

variable (srv : Server) (lib : Library) (info : RequestInfo)

def codecChoice : Api → Bool
  | .call | .whep => info.nullCodec lib srv
  | .createOffer => srv.useNullCodec

theorem api_codecChoice (e : ApiEnv) (input : Json.Value) (sh : Shared) :
    api srv lib e .call info input sh = (fun out => (out.1, ⟨200, [], out.2⟩)) <$>
      PeerConnectionManager.call srv lib e (info.streamRequest lib (codecChoice srv lib info .call))
        (info.param lib "peerid") input sh ∧
    api srv lib e .whep info input sh = (do
      let url ← info.fullUrl
      PeerConnectionManager.whep srv e info.requestMethod url (info.param lib "peerid")
        (info.streamRequest lib (codecChoice srv lib info .whep)) input sh) ∧
    api srv lib e .createOffer info input sh = (fun out => (out.1, ⟨200, [], out.2⟩)) <$>
      PeerConnectionManager.createOffer srv e
        (info.streamRequest lib (codecChoice srv lib info .createOffer))
        (info.param lib "peerid") sh :=
  ⟨rfl, rfl, rfl⟩

def effectiveText : String := optstring srv.cfg.aliases (info.streamRequest lib false)

/-- The null codec is used exactly when the flag is set or the option map says so. -/
def FollowsOptions (entry : Api) : Prop :=
  codecChoice srv lib info entry = true ↔ srv.useNullCodec = true ∨
    (streamOptions srv.cfg.aliases
      (info.streamRequest lib (codecChoice srv lib info entry)))["nullcodec"]? = some "1"

/-- The flag is set; or the last `nullcodec` of the effective text is not 1, for
`call` and `whep` unless the first one in the request is. -/
def CodecAgrees (entry : Api) : Prop :=
  srv.useNullCodec = true ∨
    match entry with
    | .createOffer => (optionValues (effectiveText srv lib info) "nullcodec").getLast? ≠ some "1"
    | .call | .whep =>
      (optionValues (info.param lib "options") "nullcodec").head? = some "1" ↔
        (optionValues (effectiveText srv lib info) "nullcodec").getLast? = some "1"

variable {srv lib info}

theorem nullCodec_iff (hflag : srv.useNullCodec = false) : info.nullCodec lib srv = true ↔
    (optionValues (info.param lib "options") "nullcodec").head? = some "1" := by
  rw [RequestInfo.nullCodec, hflag, Bool.false_or, decide_eq_true_eq, getOptionValue_eq]
  cases (optionValues (info.param lib "options") "nullcodec").head? with
  | none => simp
  | some value => simp

theorem followsOptions_iff (entry : Api) : FollowsOptions srv lib info entry ↔
    (codecChoice srv lib info entry = true ↔ srv.useNullCodec = true ∨
      (optionValues (effectiveText srv lib info) "nullcodec").getLast? = some "1") := by
  have htext : optstring srv.cfg.aliases (info.streamRequest lib (codecChoice srv lib info entry)) =
      effectiveText srv lib info := rfl
  rw [FollowsOptions, streamOptions, htext, parseOptions_getElem?]

/-- When an entry point follows the option map. A URL that is no alias, with
`nullcodec` at most once among its options, is served as it says by `call` and `whep`. -/
theorem codec_choice_iff (srv : Server) (lib : Library) (info : RequestInfo) (entry : Api) :
    (FollowsOptions srv lib info entry ↔ CodecAgrees srv lib info entry) ∧
    (entry ≠ .createOffer → srv.cfg.aliases.find (info.param lib "url") = none →
      (optionValues (info.param lib "options") "nullcodec").length ≤ 1 →
      FollowsOptions srv lib info entry) := by
  have hiff : FollowsOptions srv lib info entry ↔ CodecAgrees srv lib info entry := by
    rw [followsOptions_iff]
    unfold CodecAgrees
    cases hflag : srv.useNullCodec with
    | true =>
      have hchoice : codecChoice srv lib info entry = true := by
        cases entry <;> simp [codecChoice, RequestInfo.nullCodec, hflag]
      simp [hchoice]
    | false =>
      simp only [Bool.false_eq_true, false_or]
      cases entry with
      | createOffer => simp [codecChoice, hflag]
      | call => rw [codecChoice, nullCodec_iff hflag]
      | whep => rw [codecChoice, nullCodec_iff hflag]
  refine ⟨hiff, fun hentry halias hsingle => hiff.mpr (.inr ?_)⟩
  have htext : effectiveText srv lib info = info.param lib "options" := by
    simp only [effectiveText, optstring, RequestInfo.streamRequest, halias]
  have hsame : ∀ values : List String, values.length ≤ 1 → values.head? = values.getLast? := by
    intro values hvalues
    cases values with
    | nil => rfl
    | cons value rest =>
      have hrest : rest = [] := List.eq_nil_of_length_eq_zero (by
        rw [List.length_cons] at hvalues
        omega)
      rw [hrest]
      rfl
  rw [htext, hsame _ hsingle]
  cases entry with
  | createOffer => exact absurd rfl hentry
  | call => exact Iff.rfl
  | whep => exact Iff.rfl

end Choice

def Library.query : Library where
  __ := Library.plain
  getParam queryString paramName :=
    if queryString ≠ "url=cam&options=nullcodec%3D1" then ""
    else if paramName = "url" then "cam"
    else if paramName = "options" then "nullcodec=1"
    else ""

/-- `api/createOffer` does not look at its options. -/
theorem codec_choice_ignored : ¬ ∀ (srv : Server) (lib : Library) (info : RequestInfo)
    (entry : Api), FollowsOptions srv lib info entry := by
  intro halways
  have hfollows := (halways .plain .query
    ⟨"GET", "/api/createOffer", some "url=cam&options=nullcodec%3D1"⟩ .createOffer).mpr
    (.inr (by decide))
  exact absurd hfollows (by decide)

end WebrtcStreamer
