import WebrtcStreamer.CodecChoice
import WebrtcStreamer.SourceUrls

/-! Which sound card is given to a capture device: the maps of the video nodes and of
the sound cards by the ids of their devices. -/

set_option autoImplicit false

namespace WebrtcStreamer

structure DirEntry where
  filename : String
  device : Option String
  deriving DecidableEq, Repr

namespace V4l2AlsaMap

def getDeviceId : Option String → String
  | none => ""
  | some filename => String.ofList (getline (.ofString filename) ':').2

def scanNode (capture : Nat → Bool) (x : Std.TreeMap Int Nat × Nat) (devId : Nat) :
    Std.TreeMap Int Nat × Nat :=
  if capture devId then (x.1.insert devId x.2, x.2 + 1) else x

/-- `videoDev2Idx`; `capture` says which nodes can be opened and are capable of capture. -/
def videoDev2Idx (capture : Nat → Bool) : Std.TreeMap Int Nat :=
  ((List.range 64).foldl (scanNode capture) (∅, 0)).1

def videocap (index : Nat) : String := "videocap://" ++ toString index

/-! `overflow` is what `atoi` gives for a number that is no `int`. -/

section DeviceMaps

variable (overflow : String → Int)

def addVideoDevice (x : Std.TreeMap Int Nat × Std.TreeMap String String) (entry : DirEntry) :
    Std.TreeMap Int Nat × Std.TreeMap String String :=
  let deviceid := getDeviceId entry.device
  if startsWith "video" entry.filename && deviceid ≠ "" then
    let number := deviceNumber (overflow entry.filename) "video" entry.filename
    -- the subscript inserts 0 where the map has no index
    let dev2Idx := x.1.insertIfNew number 0
    (dev2Idx, x.2.insert (videocap (dev2Idx.getD number 0)) deviceid)
  else x

def getVideoDevices (capture : Nat → Bool) (video4linux : List DirEntry) :
    Std.TreeMap String String :=
  (video4linux.foldl (addVideoDevice overflow) (videoDev2Idx capture, ∅)).2

def addAudioDevice (audiodevices : Std.TreeMap String String) (entry : DirEntry) :
    Std.TreeMap String String :=
  let deviceid := getDeviceId entry.device
  if startsWith "card" entry.filename && deviceid ≠ "" then
    audiodevices.insert deviceid
      ("audiocap://" ++ toString (deviceNumber (overflow entry.filename) "card" entry.filename))
  else audiodevices

def getAudioDevices (sound : List DirEntry) : Std.TreeMap String String :=
  sound.foldl (addAudioDevice overflow) ∅

def getV4l2AlsaMap (capture : Nat → Bool) (video4linux sound : List DirEntry) :
    Std.TreeMap String String :=
  (getVideoDevices overflow capture video4linux).toList.foldl (fun videoaudiomap id =>
    match (getAudioDevices overflow sound)[id.2]? with
    | some audioDevice => videoaudiomap.insert id.1 audioDevice
    | none => videoaudiomap) ∅

end DeviceMaps

end V4l2AlsaMap

/-! ### Video nodes -/

structure VideoNode where
  number : Nat
  capture : Bool
  device : Option String
  deriving DecidableEq, Repr

namespace VideoNode

open V4l2AlsaMap

def deviceId (n : VideoNode) : String := getDeviceId n.device

def entry (n : VideoNode) : DirEntry := ⟨"video" ++ toString n.number, n.device⟩

/-- The nodes in the order in which the directory has them, among other entries. -/
structure Listing (nodes : List VideoNode) (video4linux : List DirEntry) : Prop where
  entries : video4linux.filter (fun x => startsWith "video" x.filename) = nodes.map entry
  numbers : (nodes.map number).Nodup
  bound : ∀ n ∈ nodes, n.number < 64

variable (overflow : String → Int) (nodes : List VideoNode) (video4linux sound : List DirEntry)

def canCapture (devId : Nat) : Bool := nodes.any fun n => n.number = devId && n.capture

def index (n : VideoNode) : Nat := Nat.count (fun devId => canCapture nodes devId = true) n.number

/-- The video devices are the capture devices with their own ids, and they are
given sound cards of the same id only. -/
structure Paired : Prop where
  devices : ∀ key id : String,
    (getVideoDevices overflow (canCapture nodes) video4linux)[key]? = some id ↔
    ∃ n ∈ nodes, n.capture = true ∧ key = videocap (index nodes n) ∧ id = n.deviceId ∧ id ≠ ""
  cards : ∀ key audio : String,
    (getV4l2AlsaMap overflow (canCapture nodes) video4linux sound)[key]? = some audio →
    ∃ n ∈ nodes, ∃ card ∈ sound, n.capture = true ∧ key = videocap (index nodes n) ∧
      startsWith "card" card.filename = true ∧ getDeviceId card.device = n.deviceId ∧
      audio = "audiocap://" ++ toString (deviceNumber (overflow card.filename) "card" card.filename)

/-- The nodes for which `videocap://0` is written. -/
def firstWriters : List VideoNode :=
  nodes.filter fun n => n.deviceId ≠ "" && (!n.capture || index nodes n = 0)

def LastWriterFits : Prop :=
  ∀ n, (firstWriters nodes).getLast? = some n →
    ∃ first ∈ nodes, first.capture = true ∧ index nodes first = 0 ∧ first.deviceId = n.deviceId

section Maps

variable {overflow : String → Int} {nodes : List VideoNode} {video4linux sound : List DirEntry}

theorem videocap_inj {i j : Nat} : videocap i = videocap j ↔ i = j := by
  rw [videocap, videocap, String.append_right_inj]
  exact Nat.repr_inj

theorem scanNode_range (capture : Nat → Bool) (m : Nat) :
    ((List.range m).foldl (scanNode capture) (∅, 0)).2 = Nat.count (fun d => capture d = true) m ∧
    ∀ d : Nat, ((List.range m).foldl (scanNode capture) (∅, 0)).1[(d : Int)]? =
      if d < m ∧ capture d = true then some (Nat.count (fun d => capture d = true) d)
      else none := by
  induction m with
  | zero => simp
  | succ m ih =>
    obtain ⟨hcount, hmap⟩ := ih
    rw [List.range_succ, List.foldl_append, List.foldl_cons, List.foldl_nil]
    generalize (List.range m).foldl (scanNode capture) (∅, 0) = x at hcount hmap
    rw [scanNode, Nat.count_succ]
    cases hm : capture m with
    | false =>
      refine ⟨by simpa using hcount, fun d => ?_⟩
      simp only [Bool.false_eq_true, if_false, hmap d]
      by_cases hd : d = m
      · simp [hd, hm]
      · have hlt : d < m + 1 ↔ d < m := by omega
        simp only [hlt]
    | true =>
      refine ⟨by simp [hcount], fun d => ?_⟩
      simp only [if_true, Std.TreeMap.getElem?_insert, Std.LawfulEqCmp.compare_eq_iff_eq,
        Nat.cast_inj]
      by_cases hd : m = d
      · subst hd
        simp [hm, hcount]
      · have hlt : d < m + 1 ↔ d < m := by omega
        simp only [if_neg hd, hmap d, hlt]

/-- The subscript gives 0 for a node that is not in the map, also later. -/
theorem foldl_addVideoDevice (dev2Idx x : Std.TreeMap Int Nat) (m : Std.TreeMap String String)
    (h : ∀ d : Int, x.getD d 0 = dev2Idx.getD d 0) (entries : List DirEntry) :
    (entries.foldl (addVideoDevice overflow) (x, m)).2 =
      (((entries.filter fun e => startsWith "video" e.filename).filter
        fun e => getDeviceId e.device ≠ "").map fun e =>
          (videocap (dev2Idx.getD (deviceNumber (overflow e.filename) "video" e.filename) 0),
            getDeviceId e.device)).foldl
        (fun m p => m.insert p.1 p.2) m := by
  induction entries generalizing x m with
  | nil => rfl
  | cons e entries ih =>
    rw [List.foldl_cons, addVideoDevice]
    by_cases hvideo : startsWith "video" e.filename = true
    · by_cases hid : getDeviceId e.device = ""
      · simpa [hvideo, hid] using ih x m h
      · have hzero : ∀ number d : Int, (x.insertIfNew number 0).getD d 0 = dev2Idx.getD d 0 := by
          intro number d
          simp only [Std.TreeMap.getD_insertIfNew, Std.LawfulEqCmp.compare_eq_iff_eq, ← h d]
          split
          · rename_i hnew
            rw [← hnew.1, Std.TreeMap.getD_eq_fallback hnew.2]
          · rfl
        have hrest := ih _ (m.insert
          (videocap ((x.insertIfNew (deviceNumber (overflow e.filename) "video" e.filename) 0).getD
            (deviceNumber (overflow e.filename) "video" e.filename) 0)) (getDeviceId e.device))
          (hzero (deviceNumber (overflow e.filename) "video" e.filename))
        simpa [hvideo, hid, hzero] using hrest
    · simpa [hvideo] using ih x m h

def slot (nodes : List VideoNode) (n : VideoNode) : Nat := if n.capture then index nodes n else 0

theorem filter_slot_zero : (nodes.filter fun n => n.deviceId ≠ "" && slot nodes n = 0) =
    firstWriters nodes := by
  refine List.filter_congr fun n _ => ?_
  cases hcapture : n.capture <;> simp [slot, hcapture]

theorem capture_of_slot {n : VideoNode} {k : Nat} (hk : k ≠ 0) (h : slot nodes n = k) :
    n.capture = true ∧ index nodes n = k := by
  rw [slot] at h
  split at h
  · rename_i hcapture
    exact ⟨hcapture, h⟩
  · exact absurd h.symm hk

theorem deviceNumber_entry {number : Nat} (h : number < 64) (overflow : Int) :
    deviceNumber overflow "video" ("video" ++ toString number) = (number : Int) := by
  rw [deviceNumber, afterScheme_append, atoi_of_stoi (stoi_toString (by omega))]

theorem exists_of_foldl_insert {α : Type} {f : α → Option (String × String)}
    {step : Std.TreeMap String String → α → Std.TreeMap String String}
    (hstep : ∀ m x, step m x = ((f x).map fun p => m.insert p.1 p.2).getD m) {key value : String}
    (l : List α) (h : (l.foldl step ∅)[key]? = some value) : ∃ x ∈ l, f x = some (key, value) := by
  induction l using List.reverseRecOn with
  | nil => simp at h
  | append_singleton l x ih =>
    rw [List.foldl_append, List.foldl_cons, List.foldl_nil, hstep] at h
    cases hx : f x with
    | none =>
      rw [hx] at h
      obtain ⟨y, hy, hfound⟩ := ih h
      exact ⟨y, List.mem_append_left _ hy, hfound⟩
    | some p =>
      rw [hx, Option.map_some, Option.getD_some, Std.TreeMap.getElem?_insert] at h
      split at h
      · rename_i hkey
        rw [Std.LawfulEqCmp.compare_eq_iff_eq] at hkey
        cases h
        exact ⟨x, by simp, by rw [hx, ← hkey]⟩
      · obtain ⟨y, hy, hfound⟩ := ih h
        exact ⟨y, List.mem_append_left _ hy, hfound⟩

theorem exists_card {id audio : String}
    (hfound : (getAudioDevices overflow sound)[id]? = some audio) :
    ∃ card ∈ sound, startsWith "card" card.filename = true ∧ getDeviceId card.device = id ∧
      audio = "audiocap://" ++
        toString (deviceNumber (overflow card.filename) "card" card.filename) := by
  obtain ⟨card, hcard, hentry⟩ := exists_of_foldl_insert
    (f := fun entry => if startsWith "card" entry.filename && getDeviceId entry.device ≠ "" then
      some (getDeviceId entry.device,
        "audiocap://" ++
          toString (deviceNumber (overflow entry.filename) "card" entry.filename)) else none)
    (fun m entry => by rw [addAudioDevice]; split <;> rfl) sound hfound
  rw [Option.ite_none_right_eq_some, Bool.and_eq_true] at hentry
  obtain ⟨⟨hname, -⟩, hpair⟩ := hentry
  cases hpair
  exact ⟨card, hcard, hname, rfl, rfl⟩

theorem exists_pair {capture : Nat → Bool} {key audio : String}
    (hfound : (getV4l2AlsaMap overflow capture video4linux sound)[key]? = some audio) :
    ∃ id, (getVideoDevices overflow capture video4linux)[key]? = some id ∧
      (getAudioDevices overflow sound)[id]? = some audio := by
  obtain ⟨⟨key', id⟩, hmem, hentry⟩ := exists_of_foldl_insert
    (f := fun x =>
      ((getAudioDevices overflow sound)[x.2]?).map fun audioDevice => (x.1, audioDevice))
    (fun m x => by cases (getAudioDevices overflow sound)[x.2]? <;> rfl) _ hfound
  rw [Option.map_eq_some_iff] at hentry
  obtain ⟨audioDevice, haudio, hpair⟩ := hentry
  cases hpair
  exact ⟨id, Std.TreeMap.mem_toList_iff_getElem?_eq_some.mp hmem, haudio⟩

variable (h : Listing nodes video4linux)

include h

theorem Listing.eq_of_number {n n' : VideoNode} (hn : n ∈ nodes) (hn' : n' ∈ nodes)
    (heq : n.number = n'.number) : n = n' :=
  List.inj_on_of_nodup_map h.numbers hn hn' heq

theorem Listing.canCapture_number {n : VideoNode} (hn : n ∈ nodes) :
    canCapture nodes n.number = n.capture := by
  rw [Bool.eq_iff_iff, canCapture, List.any_eq_true]
  constructor
  · rintro ⟨n', hn', hboth⟩
    rw [Bool.and_eq_true, decide_eq_true_eq] at hboth
    rw [← h.eq_of_number hn' hn hboth.1]
    exact hboth.2
  · intro hcapture
    exact ⟨n, hn, by simp [hcapture]⟩

theorem Listing.videoDev2Idx_number {n : VideoNode} (hn : n ∈ nodes) :
    (videoDev2Idx (canCapture nodes)).getD (n.number : Int) 0 = slot nodes n := by
  have hlookup := (scanNode_range (canCapture nodes) 64).2 n.number
  rw [h.canCapture_number hn] at hlookup
  rw [Std.TreeMap.getD_eq_getD_getElem?, videoDev2Idx, hlookup, slot]
  cases n.capture <;> simp [h.bound n hn, index]

theorem Listing.index_inj {n n' : VideoNode} (hn : n ∈ nodes) (hn' : n' ∈ nodes)
    (hcapture : n.capture = true) (hcapture' : n'.capture = true)
    (heq : index nodes n = index nodes n') : n = n' :=
  h.eq_of_number hn hn' (Nat.count_injective (by rw [h.canCapture_number hn, hcapture])
    (by rw [h.canCapture_number hn', hcapture']) heq)

theorem Listing.videoDevices_getElem? (key : String) :
    (getVideoDevices overflow (canCapture nodes) video4linux)[key]? =
      ((nodes.filter fun n => n.deviceId ≠ "" && videocap (slot nodes n) = key).getLast?).map
        deviceId := by
  have hpairs : ∀ n ∈ nodes.filter (fun n => n.deviceId ≠ ""),
      (videocap ((videoDev2Idx (canCapture nodes)).getD
        (deviceNumber (overflow n.entry.filename) "video" n.entry.filename) 0),
        getDeviceId n.entry.device) =
      (videocap (slot nodes n), n.deviceId) := by
    intro n hn
    have hmem := List.mem_of_mem_filter hn
    have hnumber : deviceNumber (overflow n.entry.filename) "video" n.entry.filename =
        (n.number : Int) := deviceNumber_entry (h.bound n hmem) _
    rw [hnumber, h.videoDev2Idx_number hmem]
    rfl
  have hids : (nodes.map entry).filter (fun e => getDeviceId e.device ≠ "") =
      (nodes.filter fun n => n.deviceId ≠ "").map entry := List.filter_map
  rw [getVideoDevices, foldl_addVideoDevice (videoDev2Idx (canCapture nodes)) _ _ fun _ => rfl,
    h.entries, hids, List.map_map]
  simp only [Function.comp_def]
  rw [List.map_congr_left hpairs, getElem?_foldl_insert, valuesOf, List.filter_map, List.map_map,
    List.filter_filter, List.getLast?_map]
  simp [Function.comp_def, Bool.and_comm]

theorem Listing.videoDevices_videocap (k : Nat) :
    (getVideoDevices overflow (canCapture nodes) video4linux)[videocap k]? =
      ((nodes.filter fun n => n.deviceId ≠ "" && slot nodes n = k).getLast?).map deviceId := by
  rw [h.videoDevices_getElem?]
  simp only [videocap_inj]

theorem Listing.exists_videocap {key id : String}
    (hid : (getVideoDevices overflow (canCapture nodes) video4linux)[key]? = some id) :
    ∃ k, key = videocap k := by
  rw [h.videoDevices_getElem?, Option.map_eq_some_iff] at hid
  obtain ⟨n, hlast, -⟩ := hid
  have hn := (List.mem_filter.mp (List.mem_of_getLast? hlast)).2
  rw [Bool.and_eq_true, decide_eq_true_eq] at hn
  exact ⟨slot nodes n, (of_decide_eq_true hn.2).symm⟩

/-- A URL is sent where it should be exactly when the last writer has the id of
the capture device with this index. -/
theorem Listing.videocap_iff (overflow : String → Int) (k : Nat) :
    (∀ id, (getVideoDevices overflow (canCapture nodes) video4linux)[videocap k]? = some id ↔
      ∃ n ∈ nodes, n.capture = true ∧ index nodes n = k ∧ id = n.deviceId ∧ id ≠ "") ↔
    ∀ n, (nodes.filter fun n => n.deviceId ≠ "" && slot nodes n = k).getLast? = some n →
      ∃ c ∈ nodes, c.capture = true ∧ index nodes c = k ∧ c.deviceId = n.deviceId := by
  rw [h.videoDevices_videocap]
  constructor
  · intro hall n hlast
    obtain ⟨c, hc, hcapture, hindex, hid, -⟩ := (hall n.deviceId).mp (by rw [hlast]; rfl)
    exact ⟨c, hc, hcapture, hindex, hid.symm⟩
  · intro hall id
    rw [Option.map_eq_some_iff]
    constructor
    · rintro ⟨n, hlast, rfl⟩
      obtain ⟨c, hc, hcapture, hindex, hid⟩ := hall n hlast
      have hn := (List.mem_filter.mp (List.mem_of_getLast? hlast)).2
      rw [Bool.and_eq_true, decide_eq_true_eq] at hn
      exact ⟨c, hc, hcapture, hindex, hid.symm, hn.1⟩
    · rintro ⟨n, hn, hcapture, hindex, rfl, hne⟩
      have hwriter : n ∈ nodes.filter fun n => n.deviceId ≠ "" && slot nodes n = k := by
        refine List.mem_filter.mpr ⟨hn, ?_⟩
        simp [hne, slot, hcapture, hindex]
      obtain ⟨last, hlast⟩ := Option.ne_none_iff_exists'.mp
        (mt List.getLast?_eq_none_iff.mp (List.ne_nil_of_mem hwriter))
      obtain ⟨c, hc, hcapture', hindex', hid⟩ := hall last hlast
      have hsame := h.index_inj hc hn hcapture' hcapture (hindex'.trans hindex.symm)
      exact ⟨last, hlast, by rw [← hid, hsame]⟩

theorem Listing.devices_of_videocap
    (hall : ∀ k id,
      (getVideoDevices overflow (canCapture nodes) video4linux)[videocap k]? = some id ↔
      ∃ n ∈ nodes, n.capture = true ∧ index nodes n = k ∧ id = n.deviceId ∧ id ≠ "")
    (key id : String) : (getVideoDevices overflow (canCapture nodes) video4linux)[key]? = some id ↔
      ∃ n ∈ nodes, n.capture = true ∧ key = videocap (index nodes n) ∧ id = n.deviceId ∧
        id ≠ "" := by
  constructor
  · intro hid
    obtain ⟨k, rfl⟩ := h.exists_videocap hid
    obtain ⟨n, hn, hcapture, hindex, hrest⟩ := (hall k id).mp hid
    exact ⟨n, hn, hcapture, by rw [hindex], hrest⟩
  · rintro ⟨n, hn, hcapture, rfl, hrest⟩
    exact (hall _ id).mpr ⟨n, hn, hcapture, rfl, hrest⟩

/-- Capture devices are paired with their own microphones exactly when the last
node that is written under `videocap://0` belongs to the first capture device. -/
theorem paired_iff (sound : List DirEntry) :
    Paired overflow nodes video4linux sound ↔ LastWriterFits nodes := by
  constructor
  · intro hpaired
    have hfirst := (h.videocap_iff overflow 0).mp fun id => by
      rw [hpaired.devices]
      simp only [videocap_inj, eq_comm (a := 0)]
    rwa [filter_slot_zero] at hfirst
  · intro hfits
    have hdevices := h.devices_of_videocap fun k =>
      (h.videocap_iff overflow k).mpr fun n hlast => by
        by_cases hk : k = 0
        · subst hk
          rw [filter_slot_zero] at hlast
          exact hfits n hlast
        · -- no other node is written under a URL with an index above 0
          obtain ⟨hn, hboth⟩ := List.mem_filter.mp (List.mem_of_getLast? hlast)
          rw [Bool.and_eq_true, decide_eq_true_eq, decide_eq_true_eq] at hboth
          obtain ⟨hcapture, hindex⟩ := capture_of_slot hk hboth.2
          exact ⟨n, hn, hcapture, hindex, rfl⟩
    refine ⟨hdevices, fun key audio hfound => ?_⟩
    obtain ⟨id, hid, haudio⟩ := exists_pair hfound
    obtain ⟨n, hn, hcapture, hkey, rfl, -⟩ := (hdevices key id).mp hid
    obtain ⟨card, hcard, hname, hdevice, haudio⟩ := exists_card haudio
    exact ⟨n, hn, card, hcard, hcapture, hkey, hname, hdevice, haudio⟩

end Maps

def cameras : List VideoNode :=
  [⟨0, true, some "1-1:1.0"⟩, ⟨1, false, some "1-1:1.0"⟩, ⟨2, true, some "1-2:1.0"⟩,
    ⟨3, false, some "1-2:1.0"⟩]

theorem cameras_listing {nodes : List VideoNode} (h : nodes.Perm cameras) :
    Listing nodes (nodes.map entry) where
  entries := by
    refine List.filter_eq_self.mpr fun e he => ?_
    obtain ⟨n, hn, rfl⟩ := List.mem_map.mp he
    have hall : ∀ n ∈ cameras, startsWith "video" (entry n).filename = true := by decide +kernel
    exact hall n (h.mem_iff.mp hn)
  numbers := by
    rw [(h.map number).nodup_iff]
    decide
  bound n hn := by
    have hall : ∀ n ∈ cameras, n.number < 64 := by decide
    exact hall n (h.mem_iff.mp hn)

theorem paired_reverse : Paired (fun _ => 0) cameras.reverse (cameras.reverse.map entry)
    [⟨"card1", some "1-2:1.1"⟩] :=
  (paired_iff (cameras_listing cameras.reverse_perm) _).mpr (by
    have hlast : (firstWriters cameras.reverse).getLast? = some ⟨0, true, some "1-1:1.0"⟩ := by
      decide +kernel
    intro n hn
    rw [hlast, Option.some.injEq] at hn
    subst hn
    exact ⟨_, by decide, rfl, by decide +kernel, rfl⟩)

/-- In the other order the first camera gets the microphone of the second one. -/
theorem cameras_mispaired : ¬ ∀ (overflow : String → Int) (nodes : List VideoNode)
    (video4linux sound : List DirEntry), Listing nodes video4linux →
    Paired overflow nodes video4linux sound := by
  intro halways
  have hpaired := halways (fun _ => 0) cameras (cameras.map entry) [⟨"card1", some "1-2:1.1"⟩]
    (cameras_listing (.refl _))
  obtain ⟨n, hn, card, hcard, hcapture, hkey, -, hid, -⟩ :=
    hpaired.cards (videocap 0) "audiocap://1" (by decide +kernel)
  have hwrong : ∀ n ∈ cameras, n.capture = true → videocap 0 = videocap (index cameras n) →
      getDeviceId (some "1-2:1.1") ≠ n.deviceId := by decide +kernel
  rw [List.mem_singleton] at hcard
  subst hcard
  exact hwrong n hn hcapture hkey hid

end VideoNode

end WebrtcStreamer
