import WebrtcStreamer.Json
import WebrtcStreamer.StdText
import WebrtcStreamer.TextParts

/-! What `AddStreams` computes before it touches shared state: the effective
options, the aliased URLs and the label under which sources are shared. -/

set_option autoImplicit false

namespace WebrtcStreamer

structure StreamRequest where
  videourl : String
  audiourl : String
  options : String
  useNullCodec : Bool
  deriving DecidableEq, Repr

abbrev AliasConfig := Json.Value

abbrev Options := Std.TreeMap String String

/-- The loop `while (getline(getline(is, key, '='), value, '&')) opts[key] = value`.
Every round consumes a character, so the length of the text is enough fuel. -/
def readOptions : Nat → InputStream → Options → Options
  | 0, _, opts => opts
  | fuel + 1, is, opts =>
    let (is, key) := getline is '='
    let (is, value) := getline is '&'
    if is.fail then opts
    else readOptions fuel is (opts.insert (String.ofList key) (String.ofList value))

def parseOptions (optstring : String) : Options :=
  readOptions (optstring.length + 1) (.ofString optstring) ∅

/-- `m_config[name][field].asString()` -/
def configText (config : AliasConfig) (name field : String) : Except Json.LogicError String := do
  let named ← config.get name .null
  let value ← named.get field .null
  value.asString

def readOptstring (config : AliasConfig) (r : StreamRequest) : Except Json.LogicError String := do
  if ← config.isMember r.videourl then
    let urlopts ← configText config r.videourl "options"
    if r.options = "" then .ok urlopts
    else if startsWith "&" r.options then .ok (urlopts ++ r.options)
    else .ok r.options
  else .ok r.options

def readUrl (config : AliasConfig) (url field : String) : Except Json.LogicError String := do
  if ← config.isMember url then configText config url field else .ok url

def readConfig (config : AliasConfig) (r : StreamRequest) :
    Except Json.LogicError (String × String × String) := do
  let optstring ← readOptstring config r
  let video ← readUrl config r.videourl "video"
  let audio ← readUrl config r.audiourl "audio"
  .ok (optstring, video, audio)

/-! The same texts one by one, where none of the accesses throws. -/

/-- The request options, extended or replaced by those of the alias. -/
def optstring (config : AliasConfig) (r : StreamRequest) : String :=
  match config.find r.videourl with
  | none => r.options
  | some named =>
    let urlopts := named.memberText "options"
    if r.options = "" then urlopts
    else if startsWith "&" r.options then urlopts ++ r.options
    else r.options

def streamOptions (config : AliasConfig) (r : StreamRequest) : Options :=
  parseOptions (optstring config r)

/-- The video URL that is opened: the one the alias stands for, if it is an alias. -/
def videoOf (config : AliasConfig) (r : StreamRequest) : String :=
  ((config.find r.videourl).map (Json.Value.memberText · "video")).getD r.videourl

def audioOf (config : AliasConfig) (r : StreamRequest) : String :=
  ((config.find r.audiourl).map (Json.Value.memberText · "audio")).getD r.audiourl

/-- The capturer options that take part in the label, RTSP sources only. -/
def optcapturer (config : AliasConfig) (r : StreamRequest) : String :=
  let opts := streamOptions config r
  if startsWith "rtsp://" (videoOf config r) || startsWith "rtsp://" (audioOf config r) then
    opts.getD "rtptransport" "" ++ opts.getD "timeout" "" ++ opts.getD "width" "" ++
      opts.getD "height" ""
  else ""

def ignoreInLabel (c : Char) : Bool := c = ' ' || c = ':' || c = '.' || c = '/' || c = '&'

def eraseIgnored (text : String) : String :=
  String.ofList (text.toList.filter fun c => !ignoreInLabel c)

/-- Texts with an RTSP URL are replaced by their hash. -/
def sanitizeLabel (hash : String → UInt64) (label : String) : String :=
  if contains "rtsp:" label then toString (hash label).toNat else eraseIgnored label

def codecName (useNullCodec : Bool) : String := if useNullCodec then "nullcoder" else "builtin"

def labelText (config : AliasConfig) (r : StreamRequest) : String :=
  r.videourl ++ "|" ++ r.audiourl ++ "|" ++ optcapturer config r ++ "|" ++
    codecName r.useNullCodec

def streamLabel (hash : String → UInt64) (config : AliasConfig) (r : StreamRequest) : String :=
  sanitizeLabel hash (labelText config r)

/-! ### What can be read of the configuration -/

section Readable

variable {config : AliasConfig} {r : StreamRequest} {name url field : String}

/-- If the name is a member, it is one with members, and the field is no container. -/
def ReadsText (config : AliasConfig) (name field : String) : Prop :=
  ∀ named, config.find name = some named →
    named.isObjectOrNull = true ∧ (named.member field .null).isContainer = false

/-- The configuration has a text wherever these URLs make `AddStreams` look for one. -/
structure ConfigReadable (config : AliasConfig) (videourl audiourl : String) : Prop where
  object : config.isObjectOrNull = true
  options : ReadsText config videourl "options"
  video : ReadsText config videourl "video"
  audio : ReadsText config audiourl "audio"

theorem configReadable_null (videourl audiourl : String) :
    ConfigReadable .null videourl audiourl := ⟨rfl, nofun, nofun, nofun⟩

theorem configText_ok_iff {named : Json.Value} {text : String}
    (hobject : config.isObjectOrNull = true) (hfind : config.find name = some named) :
    configText config name field = .ok text ↔ (named.isObjectOrNull = true ∧
      (named.member field .null).isContainer = false) ∧ text = named.memberText field := by
  have hget : config.get name .null = .ok named := by
    rw [Json.Value.get_of_object hobject, Json.Value.member_of_find hfind]
  have htext : configText config name field =
      named.get field .null >>= fun value => value.asString := by
    simp only [configText, hget]
    rfl
  rw [htext]
  cases hnamed : named.isObjectOrNull with
  | false =>
    rw [Json.Value.get_of_other hnamed]
    exact iff_of_false (fun h => by cases h) fun h => Bool.false_ne_true h.1.1
  | true =>
    rw [Json.Value.get_of_object hnamed]
    change (named.member field .null).asString = .ok text ↔ _
    cases hvalue : (named.member field .null).isContainer with
    | true =>
      rw [Json.Value.asString_of_container hvalue]
      exact iff_of_false (fun h => by cases h) fun h => Bool.false_ne_true h.1.2.symm
    | false =>
      rw [Json.Value.asString_of_text hvalue, Json.Value.memberText]
      simp [eq_comm]

theorem configText_reads (hobject : config.isObjectOrNull = true) {named : Json.Value}
    (hfind : config.find name = some named) {text : String}
    (h : configText config name field = .ok text) : ReadsText config name field := by
  intro named' hfind'
  cases hfind.symm.trans hfind'
  exact ((configText_ok_iff hobject hfind).mp h).1

theorem readUrl_of_reads (hobject : config.isObjectOrNull = true)
    (h : ReadsText config url field) : readUrl config url field =
      .ok (((config.find url).map (Json.Value.memberText · field)).getD url) := by
  rw [readUrl, Json.Value.isMember_of_object hobject]
  cases hfind : config.find url with
  | none => rfl
  | some named => exact (configText_ok_iff hobject hfind).mpr ⟨h named hfind, rfl⟩

theorem reads_of_readUrl (hobject : config.isObjectOrNull = true) {text : String}
    (h : readUrl config url field = .ok text) : ReadsText config url field := by
  rw [readUrl, Json.Value.isMember_of_object hobject] at h
  cases hfind : config.find url with
  | none =>
    intro named hnamed
    cases hfind.symm.trans hnamed
  | some named =>
    rw [hfind] at h
    exact configText_reads hobject hfind h

theorem readOptstring_of_reads (hobject : config.isObjectOrNull = true)
    (h : ReadsText config r.videourl "options") :
    readOptstring config r = .ok (optstring config r) := by
  rw [readOptstring, optstring, Json.Value.isMember_of_object hobject]
  cases hfind : config.find r.videourl with
  | none => rfl
  | some named =>
    have htext : configText config r.videourl "options" = .ok (named.memberText "options") :=
      (configText_ok_iff hobject hfind).mpr ⟨h named hfind, rfl⟩
    change (configText config r.videourl "options" >>= fun urlopts => _) = _
    rw [htext]
    change (if r.options = "" then _ else if startsWith "&" r.options = true then _ else _) = _
    split
    · rfl
    · split <;> rfl

theorem reads_of_readOptstring (hobject : config.isObjectOrNull = true) {text : String}
    (h : readOptstring config r = .ok text) : ReadsText config r.videourl "options" := by
  rw [readOptstring, Json.Value.isMember_of_object hobject] at h
  cases hfind : config.find r.videourl with
  | none =>
    intro named hnamed
    cases hfind.symm.trans hnamed
  | some named =>
    rw [hfind] at h
    cases htext : configText config r.videourl "options" with
    | ok urlopts => exact configText_reads hobject hfind htext
    | error a =>
      change (configText config r.videourl "options" >>= fun urlopts => _) = _ at h
      rw [htext] at h
      cases h

theorem readConfig_of_readable (h : ConfigReadable config r.videourl r.audiourl) :
    readConfig config r = .ok (optstring config r, videoOf config r, audioOf config r) := by
  rw [readConfig, readOptstring_of_reads h.object h.options, readUrl_of_reads h.object h.video,
    readUrl_of_reads h.object h.audio]
  rfl

theorem readConfig_ok_iff :
    (∃ x, readConfig config r = .ok x) ↔ ConfigReadable config r.videourl r.audiourl := by
  refine ⟨fun ⟨x, hx⟩ => ?_, fun h => ⟨_, readConfig_of_readable h⟩⟩
  rw [readConfig] at hx
  cases hobject : config.isObjectOrNull with
  | false =>
    rw [readOptstring, Json.Value.isMember_of_other hobject] at hx
    cases hx
  | true =>
    cases hopts : readOptstring config r with
    | error a =>
      rw [hopts] at hx
      cases hx
    | ok opts =>
      cases hvideo : readUrl config r.videourl "video" with
      | error a =>
        rw [hopts, hvideo] at hx
        cases hx
      | ok video =>
        cases haudio : readUrl config r.audiourl "audio" with
        | error a =>
          rw [hopts, hvideo, haudio] at hx
          cases hx
        | ok audio =>
          exact ⟨hobject, reads_of_readOptstring hobject hopts, reads_of_readUrl hobject hvideo,
            reads_of_readUrl hobject haudio⟩

end Readable

theorem eraseIgnored_append (s t : String) :
    eraseIgnored (s ++ t) = eraseIgnored s ++ eraseIgnored t := by
  simp [eraseIgnored, String.ofList_append]

/-- The separators make a label text contain `rtsp:` only where a part does. -/
theorem contains_labelText (config : AliasConfig) (r : StreamRequest) :
    contains "rtsp:" (labelText config r) =
      (contains "rtsp:" r.videourl || contains "rtsp:" r.audiourl ||
        contains "rtsp:" (optcapturer config r)) := by
  have hsep : '|' ∉ "rtsp:".toList := by decide
  have hcodec : ¬ "rtsp:".toList <:+: (codecName r.useNullCodec).toList := by
    cases r.useNullCodec <;> decide
  have htext : (labelText config r).toList = r.videourl.toList ++ '|' :: (r.audiourl.toList ++
      '|' :: ((optcapturer config r).toList ++ '|' :: (codecName r.useNullCodec).toList)) := by
    simp [labelText]
  simp only [contains]
  rw [htext, Bool.eq_iff_iff]
  simp only [decide_eq_true_eq, Bool.or_eq_true, TextParts.infix_separated hsep, hcodec, or_false,
    or_assoc]

section Collision

variable (hash : String → UInt64) (config : AliasConfig) (r r' : StreamRequest)

/-- With equal option and codec parts the labels of texts without `rtsp:` are
as different as the URL texts are after the ignored characters are gone; the
others are as different as their hashes. -/
theorem streamLabel_ne_iff (hv : contains "rtsp:" r.videourl = false)
    (ha : contains "rtsp:" r.audiourl = false) (hv' : contains "rtsp:" r'.videourl = false)
    (ha' : contains "rtsp:" r'.audiourl = false)
    (hopt : optcapturer config r = optcapturer config r')
    (hcodec : r.useNullCodec = r'.useNullCodec) :
    (contains "rtsp:" (optcapturer config r) = false →
      (streamLabel hash config r ≠ streamLabel hash config r' ↔
        eraseIgnored (r.videourl ++ "|" ++ r.audiourl) ≠
          eraseIgnored (r'.videourl ++ "|" ++ r'.audiourl))) ∧
    (contains "rtsp:" (optcapturer config r) = true →
      (streamLabel hash config r ≠ streamLabel hash config r' ↔
        hash (labelText config r) ≠ hash (labelText config r'))) := by
  have htext : contains "rtsp:" (labelText config r) = contains "rtsp:" (optcapturer config r) := by
    simp [contains_labelText, hv, ha]
  have htext' : contains "rtsp:" (labelText config r') =
      contains "rtsp:" (optcapturer config r) := by
    simp [contains_labelText, hv', ha', hopt]
  refine ⟨fun hplain => not_congr ?_, fun hrtsp => not_congr ?_⟩
  · have hlabel : streamLabel hash config r = eraseIgnored (labelText config r) := by
      simp [streamLabel, sanitizeLabel, htext, hplain]
    have hlabel' : streamLabel hash config r' = eraseIgnored (labelText config r') := by
      simp [streamLabel, sanitizeLabel, htext', hplain]
    rw [hlabel, hlabel']
    simp only [labelText, eraseIgnored_append, hopt, hcodec]
    constructor
    · intro h
      simpa [String.append_right_inj, String.append_left_inj] using h
    · intro h
      rw [h]
  · rw [hrtsp] at htext htext'
    simp only [streamLabel, sanitizeLabel, htext, htext', if_true]
    constructor
    · intro h
      exact UInt64.toNat_inj.mp (Nat.repr_injective h)
    · intro h
      rw [h]

/-- Without a `|` in the video URLs the two URLs count separately. -/
theorem eraseIgnored_pair (hv : '|' ∉ r.videourl.toList) (hv' : '|' ∉ r'.videourl.toList) :
    eraseIgnored (r.videourl ++ "|" ++ r.audiourl) =
      eraseIgnored (r'.videourl ++ "|" ++ r'.audiourl) ↔
      eraseIgnored r.videourl = eraseIgnored r'.videourl ∧
        eraseIgnored r.audiourl = eraseIgnored r'.audiourl := by
  have hlist : ∀ u a : String, (u ++ "|" ++ a).toList.filter (fun c => !ignoreInLabel c) =
      u.toList.filter (fun c => !ignoreInLabel c) ++
        '|' :: a.toList.filter (fun c => !ignoreInLabel c) := by
    intro u a
    simp [ignoreInLabel]
  simp only [eraseIgnored, hlist, String.ofList_inj]
  exact TextParts.append_cons_inj (fun h => hv (List.mem_of_mem_filter h))
    (fun h => hv' (List.mem_of_mem_filter h))

end Collision

theorem streamLabel_ne_iff_files : ∃ (config : AliasConfig) (r r' : StreamRequest),
    optcapturer config r = optcapturer config r' ∧
    streamLabel (fun _ => 0) config r ≠ streamLabel (fun _ => 0) config r' := by
  let r : StreamRequest := ⟨"file://a.mkv", "", "", false⟩
  let r' : StreamRequest := ⟨"file://b.mkv", "", "", false⟩
  refine ⟨.null, r, r', by decide, ?_⟩
  exact ((streamLabel_ne_iff (fun _ => 0) .null r r' (by decide) (by decide) (by decide) (by decide)
    (by decide) (by decide)).1 (by decide)).mpr (by decide)

/-- Two files whose names differ in an ignored character only. -/
theorem streamLabel_collision : ¬ ∀ (hash : String → UInt64) (config : AliasConfig)
    (r r' : StreamRequest), (r.videourl, r.audiourl) ≠ (r'.videourl, r'.audiourl) →
    contains "rtsp:" r.videourl = false → contains "rtsp:" r.audiourl = false →
    contains "rtsp:" r'.videourl = false → contains "rtsp:" r'.audiourl = false →
    optcapturer config r = optcapturer config r' → r.useNullCodec = r'.useNullCodec →
    streamLabel hash config r ≠ streamLabel hash config r' := by
  intro halways
  exact halways (fun _ => 0) .null ⟨"file:///a.b", "", "", false⟩ ⟨"file:///ab", "", "", false⟩
    (by decide) (by decide) (by decide) (by decide) (by decide) (by decide) rfl (by decide)

end WebrtcStreamer
