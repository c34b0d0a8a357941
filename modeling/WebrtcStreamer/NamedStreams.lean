import WebrtcStreamer.Api
import WebrtcStreamer.MediaList

/-! The streams that are registered by name: from the command line and the
configuration file through the media list to what a request for them opens. -/

set_option autoImplicit false

namespace WebrtcStreamer

open Json (Value LogicError)

open PeerConnectionManager (replaceMember shown deviceMedia getMediaList)

structure CommandLine where
  -- the file given with `-C`
  config : Value
  name : Option String
  video : Option String
  audio : Option String
  urls : List String

/-- `config["urls"][name][key] = url` -/
def setUrl (name key url : String) (config : Value) : Except LogicError Value := do
  let urls ← config.get "urls" .null
  let named ← urls.get name .null
  let named ← named.set key (.string url)
  let urls ← urls.set name named
  config.set "urls" urls

def urlOf (config : Value) (name key : String) : Option Value :=
  ((config.find "urls").bind (·.find name)).bind (·.find key)

namespace CommandLine

variable (cl : CommandLine)

def streamName : String := cl.name.getD ""

/-- One of `-u` and `-U`, without effect unless the stream has a name. -/
def setNamed (key : String) (url : Option String) (config : Value) : Except LogicError Value :=
  match url with
  | none => .ok config
  | some url => if cl.streamName = "" then .ok config else setUrl cl.streamName key url config

def register : Except LogicError Value := do
  let config ← cl.setNamed "video" cl.video cl.config
  let config ← cl.setNamed "audio" cl.audio config
  cl.urls.foldlM (fun config url => setUrl url "video" url config) config

/-- `config["urls"]`, which becomes `m_config`. -/
def aliases : Except LogicError AliasConfig := do
  let config ← cl.register
  config.get "urls" .null

/-- What the user asked for: a URL stands for itself, the options go before the file. -/
def given (name key : String) : Option Value :=
  if key = "video" ∧ name ∈ cl.urls then some (.string name)
  else if key = "audio" ∧ name = cl.streamName ∧ name ≠ "" ∧ cl.audio ≠ none then
    cl.audio.map .string
  else if key = "video" ∧ name = cl.streamName ∧ name ≠ "" ∧ cl.video ≠ none then
    cl.video.map .string
  else urlOf cl.config name key

/-- The options, the video URL and the audio URL that are asked for under a name. Options
come with a video URL only. -/
def asked (name : String) : Except LogicError (String × String × String) := do
  let options ← ((cl.given name "video").bind fun _ => cl.given name "options").getD .null
    |>.asString
  let video ← ((cl.given name "video").getD .null).asString
  let audio ← ((cl.given name "audio").getD .null).asString
  .ok (options, video, audio)

end CommandLine

/-- The request of a client for an entry of the media list, without options of its own. -/
def mediaRequest (media : Value) (useNullCodec : Bool) : StreamRequest :=
  ⟨media.memberText "video", media.memberText "audio", "", useNullCodec⟩

/-! ### What is registered -/

section Register

variable {config config' : Value} {cl : CommandLine} {name name' key key' url : String}

theorem urlOf_setUrl (h : setUrl name key url config = .ok config') :
    urlOf config' name' key' =
      if key' = key ∧ name' = name then some (.string url) else urlOf config name' key' := by
  obtain ⟨urls, hurls, h⟩ := bind_ok h
  obtain ⟨named, hnamed, h⟩ := bind_ok h
  obtain ⟨named', hset, h⟩ := bind_ok h
  obtain ⟨urls', hset', h⟩ := bind_ok h
  have hold (name' : String) : (config.find "urls").bind (·.find name') = urls.find name' := by
    rw [Value.eq_of_get hurls]
    cases config.find "urls" <;> rfl
  have hentry (key' : String) : named.find key' = (urls.find name).bind (·.find key') := by
    rw [Value.eq_of_get hnamed]
    cases urls.find name <;> rfl
  rw [urlOf, urlOf, Value.find_set h, if_pos rfl, Option.bind_some, hold, Value.find_set hset']
  by_cases hname : name' = name
  · subst hname
    rw [if_pos rfl, Option.bind_some, Value.find_set hset, hentry]
    simp
  · rw [if_neg hname, if_neg fun hboth => hname hboth.2]

theorem CommandLine.urlOf_setNamed {url : Option String}
    (h : cl.setNamed key url config = .ok config') : urlOf config' name' key' =
      if key' = key ∧ name' = cl.streamName ∧ name' ≠ "" ∧ url ≠ none then url.map .string
      else urlOf config name' key' := by
  cases url with
  | none =>
    cases h
    simp
  | some url =>
    rw [setNamed] at h
    split at h
    · rename_i hunnamed
      cases h
      rw [if_neg]
      rintro ⟨_, hname, hsome, _⟩
      exact hsome (hname.trans hunnamed)
    · rename_i hnamed
      rw [urlOf_setUrl h]
      by_cases hname : name' = cl.streamName <;> simp [hname, hnamed]

/-- Induction on the positional URLs; a URL that comes twice registers itself again. -/
theorem urlOf_foldlM_setUrl {urls : List String}
    (h : urls.foldlM (fun config url => setUrl url "video" url config) config = .ok config') :
    urlOf config' name key =
      if key = "video" ∧ name ∈ urls then some (.string name) else urlOf config name key := by
  induction urls generalizing config with
  | nil =>
    cases h
    simp
  | cons url rest ih =>
    rw [List.foldlM_cons] at h
    obtain ⟨config₁, hset, h⟩ := bind_ok h
    rw [ih h, urlOf_setUrl hset]
    by_cases hkey : key = "video" <;> by_cases hname : name = url <;>
      by_cases hrest : name ∈ rest <;> simp [hkey, hname, hrest]

theorem CommandLine.given_eq {aliases : AliasConfig} (h : cl.aliases = .ok aliases) :
    cl.given name key = (aliases.find name).bind (·.find key) := by
  obtain ⟨config, hregister, hget⟩ := bind_ok h
  obtain ⟨config₁, hvideo, hregister⟩ := bind_ok hregister
  obtain ⟨config₂, haudio, hregister⟩ := bind_ok hregister
  have hfind : (config.find "urls").bind (·.find name) = aliases.find name := by
    rw [Value.eq_of_get hget]
    cases config.find "urls" <;> rfl
  rw [← hfind, ← urlOf, urlOf_foldlM_setUrl hregister, urlOf_setNamed haudio, urlOf_setNamed hvideo]
  rfl

end Register

/-! ### What is listed and opened -/

section Listed

variable {config : AliasConfig} {media media' named : Value} {name key key' : String}

theorem find_replaceMember (key' : String) (h : replaceMember name key media = .ok media') :
    media.isObjectOrNull = true ∧ media'.find key' =
      if key' = key ∧ (media.find key).isSome then some (.string name) else media.find key' := by
  obtain ⟨present, hmember, h⟩ := bind_ok h
  obtain ⟨hobject, rfl⟩ := Value.isObjectOrNull_of_isMember hmember
  refine ⟨hobject, ?_⟩
  split at h
  · rename_i hpresent
    rw [Value.find_set h]
    simp [hpresent]
  · rename_i habsent
    cases h
    rw [if_neg fun hboth => habsent hboth.2]

theorem find_shown (key : String) (h : shown (name, named) = .ok media) :
    named.isObjectOrNull = true ∧ media.find key =
      if (key = "video" ∨ key = "audio") ∧ (named.find key).isSome then some (.string name)
      else named.find key := by
  obtain ⟨media₁, hvideo, haudio⟩ := bind_ok h
  obtain ⟨hobject, -⟩ := find_replaceMember key hvideo
  refine ⟨hobject, ?_⟩
  simp only [(find_replaceMember _ haudio).2, (find_replaceMember _ hvideo).2]
  by_cases hkey : key = "video"
  · subst hkey
    simp
  · by_cases hkey' : key = "audio"
    · subst hkey'
      simp
    · simp [hkey, hkey']

theorem memberText_shown (h : shown (name, named) = .ok media)
    (hkey : key = "video" ∨ key = "audio") :
    media.memberText key = if (named.find key).isSome then name else "" := by
  rw [Value.memberText, Value.member_eq, (find_shown key h).2]
  cases hfind : named.find key with
  | none => simp [Value.text, Value.asString, Except.toOption]
  | some value => simp [hkey, Value.text, Value.asString, Except.toOption]

theorem exists_of_mapM_ok {ε α β : Type} {f : α → Except ε β} {l : List α} {l' : List β}
    (h : l.mapM f = .ok l') {a : α} (ha : a ∈ l) : ∃ b ∈ l', f a = .ok b := by
  induction l generalizing l' with
  | nil => cases ha
  | cons x rest ih =>
    rw [List.mapM_cons] at h
    obtain ⟨b, hb, h⟩ := bind_ok h
    obtain ⟨bs, hbs, h⟩ := bind_ok h
    cases h
    rcases List.mem_cons.mp ha with rfl | ha
    · exact ⟨b, List.mem_cons_self, hb⟩
    · obtain ⟨b', hmem, hb'⟩ := ih hbs ha
      exact ⟨b', List.mem_cons_of_mem b hmem, hb'⟩

theorem configText_eq (hfind : config.find name = some named)
    (hobject : named.isObjectOrNull = true) :
    configText config name key = ((named.find key).getD .null).asString := by
  rw [configText, Value.get_of_object (Value.isObjectOrNull_of_find hfind),
    Value.member_of_find hfind, ← Value.member_eq]
  change (named.get key .null >>= fun value => value.asString) = _
  rw [Value.get_of_object hobject]
  rfl

theorem readUrl_registered (hfind : config.find name = some named)
    (hobject : named.isObjectOrNull = true) :
    readUrl config name key = ((named.find key).getD .null).asString := by
  rw [readUrl, Value.isMember_of_object (Value.isObjectOrNull_of_find hfind), hfind,
    ← configText_eq hfind hobject]
  rfl

theorem readUrl_unregistered (hobject : config.isObjectOrNull = true)
    (hfind : config.find name = none) : readUrl config name key = .ok name := by
  rw [readUrl, Value.isMember_of_object hobject, hfind]
  rfl

theorem readUrl_shown (hfind : config.find name = some named)
    (hobject : named.isObjectOrNull = true)
    (hempty : (named.find key).isSome = true ∨ config.find "" = none) :
    readUrl config (if (named.find key).isSome then name else "") key =
      ((named.find key).getD .null).asString := by
  cases hkey : (named.find key).isSome with
  | true => exact readUrl_registered hfind hobject
  | false =>
    have hnone := hempty.resolve_left (by simp [hkey])
    rw [Option.isSome_eq_false_iff, Option.isNone_iff_eq_none] at hkey
    rw [hkey]
    exact readUrl_unregistered (Value.isObjectOrNull_of_find hfind) hnone

theorem readOptstring_shown {r : StreamRequest} (hfind : config.find name = some named)
    (hobject : named.isObjectOrNull = true) (hoptions : r.options = "")
    (hvideo : r.videourl = if (named.find "video").isSome then name else "")
    (hempty : (named.find "video").isSome = true ∨ config.find "" = none) :
    readOptstring config r =
      (((named.find "video").bind fun _ => named.find "options").getD .null).asString := by
  have hconfig := Value.isObjectOrNull_of_find hfind
  rw [readOptstring, hvideo, hoptions]
  cases hmember : named.find "video" with
  | none =>
    have hnone := hempty.resolve_left (by simp [hmember])
    rw [Option.isSome_none, if_neg Bool.false_ne_true, Value.isMember_of_object hconfig, hnone]
    rfl
  | some video =>
    rw [Option.isSome_some, if_pos rfl, Value.isMember_of_object hconfig, hfind,
      configText_eq hfind hobject, Option.bind_some]
    change (((named.find "options").getD .null).asString >>= fun urlopts => _) = _
    cases ((named.find "options").getD .null).asString <;> rfl

theorem readConfig_shown (hfind : config.find name = some named)
    (h : shown (name, named) = .ok media)
    (hempty : ((named.find "video").isSome = true ∧ (named.find "audio").isSome = true) ∨
      config.find "" = none) (useNullCodec : Bool) :
    readConfig config (mediaRequest media useNullCodec) = (do
      let options ← (((named.find "video").bind fun _ => named.find "options").getD .null).asString
      let video ← ((named.find "video").getD .null).asString
      let audio ← ((named.find "audio").getD .null).asString
      .ok (options, video, audio)) := by
  have hobject := (find_shown "" h).1
  have hvideo : (mediaRequest media useNullCodec).videourl =
      if (named.find "video").isSome then name else "" := memberText_shown h (.inl rfl)
  have haudio : (mediaRequest media useNullCodec).audiourl =
      if (named.find "audio").isSome then name else "" := memberText_shown h (.inr rfl)
  rw [readConfig, readOptstring_shown hfind hobject rfl hvideo (hempty.imp_left And.left), hvideo,
    haudio, readUrl_shown hfind hobject (hempty.imp_left And.left),
    readUrl_shown hfind hobject (hempty.imp_left And.right)]

theorem find_deviceMedia (videoaudiomap : Std.TreeMap String String) (url : String) :
    (deviceMedia videoaudiomap url).find "video" = some (.string url) := by
  rw [deviceMedia]
  cases videoaudiomap[url]? with
  | none => simp [Value.find]
  | some audio => simp [Value.find, List.lookup_cons]

end Listed

/-- Every stream is listed with its name in place of its URLs, and a client that asks for
the entry makes `AddStreams` read what the user has given under this name; a device of
the list that is not registered as a stream is captured itself. A stream without one of
the URLs needs that the empty text names no stream. -/
theorem listed_streams_open (build : Build) (publishFilter : String → Bool) (d : MediaDevices)
    (hd : d.Named) (videoaudiomap : Std.TreeMap String String) (cl : CommandLine)
    (useNullCodec : Bool) {config : AliasConfig} (hconfig : cl.aliases = .ok config)
    {list : List Value} (hlist : getMediaList
      (CapturerFactory.getVideoCaptureDeviceList build publishFilter d useNullCodec)
      (CapturerFactory.getVideoSourceList build publishFilter d useNullCodec)
      videoaudiomap config = .ok list) :
    (∀ name, cl.given name "video" ≠ none ∨ cl.given name "audio" ≠ none →
      ∃ media ∈ list,
        media.find "video" = (cl.given name "video").map (fun _ => .string name) ∧
        media.find "audio" = (cl.given name "audio").map (fun _ => .string name) ∧
        ((cl.given name "video" ≠ none ∧ cl.given name "audio" ≠ none) ∨
            config.find "" = none →
          readConfig config (mediaRequest media useNullCodec) = cl.asked name)) ∧
    ∀ url, url ∈ CapturerFactory.getVideoCaptureDeviceList build publishFilter d useNullCodec ∨
        url ∈ CapturerFactory.getVideoSourceList build publishFilter d useNullCodec →
      config.isMember url = .ok false →
      ∃ media ∈ list, media.find "video" = some (.string url) ∧
        readUrl config (mediaRequest media useNullCodec).videourl "video" = .ok url ∧
        ∃ m, (CapturerFactory.listedSources build publishFilter d useNullCodec).lookup url =
          some m ∧ CapturerFactory.captured build publishFilter d url = some m := by
  obtain ⟨named, hnamed, hlist⟩ := bind_ok hlist
  cases hlist
  constructor
  · intro name hgiven
    simp only [CommandLine.asked, CommandLine.given_eq hconfig, ne_eq] at hgiven ⊢
    cases hfind : config.find name with
    | none => simp [hfind] at hgiven
    | some entry =>
      simp only [Option.bind_some]
      obtain ⟨media, hmem, hshown⟩ := exists_of_mapM_ok hnamed (Value.mem_entries_of_find hfind)
      refine ⟨media, List.mem_append_right _ hmem, ?_, ?_, fun hempty => ?_⟩
      · rw [(find_shown _ hshown).2]
        cases entry.find "video" <;> simp
      · rw [(find_shown _ hshown).2]
        cases entry.find "audio" <;> simp
      · simp only [← Option.isSome_iff_ne_none] at hempty
        exact readConfig_shown hfind hshown hempty useNullCodec
  · intro url hurl hfree
    obtain ⟨hobject, hnone⟩ := Value.isObjectOrNull_of_isMember hfree
    obtain ⟨media, hmem, hvideo⟩ : ∃ media ∈
        (CapturerFactory.getVideoCaptureDeviceList build publishFilter d useNullCodec).map
          (deviceMedia videoaudiomap) ++
        (CapturerFactory.getVideoSourceList build publishFilter d useNullCodec).map
          (deviceMedia ∅), media.find "video" = some (.string url) := by
      rcases hurl with hurl | hurl
      · exact ⟨_, List.mem_append_left _ (List.mem_map_of_mem hurl), find_deviceMedia _ url⟩
      · exact ⟨_, List.mem_append_right _ (List.mem_map_of_mem hurl), find_deviceMedia _ url⟩
    obtain ⟨m, hlookup⟩ := CapturerFactory.lookup_of_listed hurl
    refine ⟨media, List.mem_append_left _ hmem, hvideo, ?_, m, hlookup,
      CapturerFactory.captured_of_lookup hd hlookup⟩
    have htext : (mediaRequest media useNullCodec).videourl = url := by
      rw [mediaRequest, Value.memberText, Value.member_eq, hvideo]
      rfl
    rw [htext]
    exact readUrl_unregistered hobject (by simpa using hnone.symm)

/-- A camera at the door with the options of the file, a radio of the file, and a clip
that is registered by its URL. -/
def CommandLine.door : CommandLine where
  config := .object [("urls", .object [("door", .object [("options", .string "width=640")]),
    ("radio", .object [("audio", .string "rtsp://radio")])])]
  name := some "door"
  video := some "rtsp://door"
  audio := none
  urls := ["file://clip"]

/-- The camera is listed by its name, and what a client gets for the name is its URL. -/
theorem listed_streams_open_door : ∃ config list media, CommandLine.door.aliases = .ok config ∧
    getMediaList
      (CapturerFactory.getVideoCaptureDeviceList ⟨true, true, true, true⟩ (fun _ => true)
        .desk true)
      (CapturerFactory.getVideoSourceList ⟨true, true, true, true⟩ (fun _ => true) .desk true)
      ∅ config = .ok list ∧ media ∈ list ∧ media.find "video" = some (.string "door") ∧
    readConfig config (mediaRequest media true) = .ok ("width=640", "rtsp://door", "") := by
  obtain ⟨config, list, hconfig, hlist, hempty⟩ : ∃ config list,
      CommandLine.door.aliases = .ok config ∧ getMediaList
        (CapturerFactory.getVideoCaptureDeviceList ⟨true, true, true, true⟩ (fun _ => true)
          .desk true)
        (CapturerFactory.getVideoSourceList ⟨true, true, true, true⟩ (fun _ => true) .desk true)
        ∅ config = .ok list ∧ config.find "" = none := ⟨_, _, rfl, rfl, by decide⟩
  have hvideo : CommandLine.door.given "door" "video" = some (.string "rtsp://door") := rfl
  have hasked : CommandLine.door.asked "door" = .ok ("width=640", "rtsp://door", "") := rfl
  obtain ⟨media, hmem, hshown, -, hread⟩ := (listed_streams_open ⟨true, true, true, true⟩
    (fun _ => true) .desk MediaDevices.desk_named ∅ .door true hconfig hlist).1 "door"
    (.inl (by simp [hvideo]))
  rw [hvideo] at hshown
  exact ⟨config, list, media, hconfig, hlist, hmem, hshown, (hread (.inr hempty)).trans hasked⟩

end WebrtcStreamer
