import WebrtcStreamer.HttpStream
import WebrtcStreamer.WhepLocation

/-! What `RequestHandler` writes on a connection that is kept alive, and what a
client reads there. -/

set_option autoImplicit false

namespace WebrtcStreamer

open HttpStream (Bytes Message IsField colon lf utf8)
open Json (Value)

namespace HttpReply

variable (reply : HttpReply)

/-- What the calls of `mg_printf` and `mg_write` put on the connection. -/
def wire : Bytes :=
  utf8 ("HTTP/1.1 " ++ toString reply.code ++ " OK\r\n") ++
    reply.headers.flatMap (fun header => utf8 (header.1 ++ ": " ++ header.2 ++ "\r\n")) ++
    utf8 "\r\n" ++ utf8 reply.answer

def message : Message where
  code := reply.code.toNat
  reason := utf8 "OK"
  fields := reply.headers.map fun header => (utf8 header.1, utf8 header.2)
  content := utf8 reply.answer

variable {reply}

theorem wire_eq_render (h : 0 ≤ reply.code) : reply.wire = reply.message.render := by
  obtain ⟨n, hn⟩ := Int.eq_ofNat_of_zero_le h
  have hversion : utf8 "HTTP/1.1 " = HttpStream.version ++ [HttpStream.space] := by decide
  have hreason : utf8 " OK\r\n" = HttpStream.space :: utf8 "OK" ++ HttpStream.crlf := by decide
  have hcrlf : utf8 "\r\n" = HttpStream.crlf := by decide
  have hcolon : utf8 ": " = [colon, HttpStream.space] := by decide
  have hcode : toString (n : Int) = toString n := rfl
  rw [wire, Message.render, message, HttpStream.renderStatus, List.flatMap_map, hn]
  simp only [HttpStream.utf8_append, hversion, hreason, hcrlf, hcolon, hcode,
    HttpStream.renderField, Int.toNat_natCast, List.append_assoc, List.cons_append, List.nil_append]

end HttpReply

def IsWord (text : String) : Prop := ∀ c ∈ text.toList, isspace c = false

instance (text : String) : Decidable (IsWord text) :=
  decidable_of_iff (text.toList.all (fun c => !isspace c) = true) (by simp [IsWord])

structure RequestInfo.OneLine (info : RequestInfo) : Prop where
  uri : IsWord info.requestUri
  query : ∀ queryString ∈ info.queryString, IsWord queryString

structure Response.Clean (out : Response) : Prop where
  code : out.code = 200 ∨ out.code = 201 ∨ out.code = 501
  headers : ∀ header ∈ out.headers,
    header.1 ∈ ["Access-Control-Expose-Headers", "Content-Type", "Location"] ∧ IsWord header.2

section Replies

variable {srv : Server} {lib : Library} {e : ApiEnv} {path : ApiPath} {info : RequestInfo}
  {input : Value} {sh sh' : Shared} {out : Response}

theorem IsWord.not_blank {text : String} (h : IsWord text) {b : UInt8} (hb : b ∈ utf8 text) :
    HttpStream.isBlank b = false ∧ b ≠ lf := by
  have hspace (c : Char) (hc : isspace c = true) (hval : c.val.toNat < 128) :
      b.toNat ≠ c.val.toNat := by
    intro heq
    obtain ⟨c', hmem, hval'⟩ := HttpStream.exists_of_mem_utf8 hb (heq.trans_lt hval)
    obtain rfl := Char.ext (UInt32.toNat_inj.mp (hval'.trans heq))
    exact absurd hc (Bool.eq_false_iff.mp (h c' hmem))
  refine ⟨?_, ?_⟩
  · by_contra hblank
    rw [Bool.not_eq_false, HttpStream.isBlank, Bool.or_eq_true, decide_eq_true_eq,
      decide_eq_true_eq] at hblank
    rcases hblank with rfl | rfl
    · exact hspace ' ' (by decide) (by decide) rfl
    · exact hspace '\t' (by decide) (by decide) rfl
  · rintro rfl
    exact hspace '\n' (by decide) (by decide) rfl

theorem IsWord.isField {name text : String} (h : IsWord text) (hne : utf8 name ≠ [])
    (hcolon : colon ∉ utf8 name) (hline : lf ∉ utf8 name) : IsField (utf8 name, utf8 text) where
  name_ne_nil := hne
  name_colon := hcolon
  name_line := hline
  value_line hmem := (h.not_blank hmem).2 rfl
  value_trim := HttpStream.trim_of_not_blank fun _ hb => (h.not_blank hb).1

theorem fillOut_headers : (fillOut lib out).headers = [("Access-Control-Allow-Origin", "*"),
    ("Content-Type", "text/plain"),
    ("Content-Length", toString (fillOut lib out).answer.utf8ByteSize)] ++ out.headers := by
  unfold fillOut
  cases out.body <;> rfl

theorem fillOut_code (h : out.Clean) :
    (fillOut lib out).code ∈ ([200, 201, 500, 501] : List Int) := by
  have hcode : out.code ∈ ([200, 201, 500, 501] : List Int) := by
    rcases h.code with hcode | hcode | hcode <;> rw [hcode] <;> decide
  unfold fillOut
  cases out.body with
  | null => exact (by decide : (500 : Int) ∈ ([200, 201, 500, 501] : List Int))
  | _ => exact hcode

def headerNames : List String :=
  ["Access-Control-Allow-Origin", "Content-Type", "Content-Length",
    "Access-Control-Expose-Headers", "Location"]

theorem headerNames_fields : ∀ name ∈ headerNames, utf8 name ≠ [] ∧ colon ∉ utf8 name ∧
    lf ∉ utf8 name ∧ HttpStream.sameName (utf8 name) (utf8 "Transfer-Encoding") = false := by
  decide

theorem Response.Clean.header (h : out.Clean) :
    ∀ header ∈ (fillOut lib out).headers, header.1 ∈ headerNames ∧ IsWord header.2 := by
  intro header hmem
  rw [fillOut_headers, List.mem_append] at hmem
  rcases hmem with hmem | hmem
  · have hlength : IsWord (toString (fillOut lib out).answer.utf8ByteSize) := fun c hc =>
      (not_blank_of_isDigit (isDigit_toString hc)).1
    simp only [List.mem_cons, List.not_mem_nil, or_false] at hmem
    rcases hmem with rfl | rfl | rfl
    · exact ⟨by decide, by decide⟩
    · exact ⟨by decide, by decide⟩
    · exact ⟨(by decide : "Content-Length" ∈ headerNames), hlength⟩
  · have hname := (h.headers header hmem).1
    refine ⟨?_, (h.headers header hmem).2⟩
    simp only [List.mem_cons, List.not_mem_nil, or_false] at hname
    rcases hname with hname | hname | hname <;> rw [hname] <;> decide

theorem Response.Clean.framed (h : out.Clean) : (fillOut lib out).message.Framed where
  reason_line := (by decide : lf ∉ utf8 "OK")
  fields := by
    intro field hmem
    obtain ⟨header, hheader, rfl⟩ := List.mem_map.mp hmem
    obtain ⟨hname, hword⟩ := h.header header hheader
    obtain ⟨hne, hcolon, hline, -⟩ := headerNames_fields _ hname
    exact hword.isField hne hcolon hline
  plain := by
    intro field hmem
    obtain ⟨header, hheader, rfl⟩ := List.mem_map.mp hmem
    exact (headerNames_fields _ (h.header header hheader).1).2.2.2
  announced := by
    have hothers : out.headers.filter (fun header =>
        HttpStream.sameName (utf8 header.1) (utf8 "Content-Length")) = [] := by
      rw [List.filter_eq_nil_iff]
      intro header hmem
      have hname := (h.headers header hmem).1
      simp only [List.mem_cons, List.not_mem_nil, or_false] at hname
      rcases hname with hname | hname | hname <;> rw [hname] <;> decide
    have hfields : (fillOut lib out).message.fields.filter (fun field =>
        HttpStream.sameName field.1 (utf8 "Content-Length")) =
          [(utf8 "Content-Length", utf8 (toString (fillOut lib out).answer.utf8ByteSize))] := by
      rw [HttpReply.message, fillOut_headers, List.filter_map, List.filter_append,
        Function.comp_def, hothers]
      have hcontent : HttpStream.sameName (utf8 "Access-Control-Allow-Origin")
          (utf8 "Content-Length") = false ∧ HttpStream.sameName (utf8 "Content-Type")
          (utf8 "Content-Length") = false ∧ HttpStream.sameName (utf8 "Content-Length")
          (utf8 "Content-Length") = true := by decide
      simp only [List.filter_cons, hcontent, List.filter_nil, Bool.false_eq_true, if_false, if_true,
        List.append_nil, List.map_cons, List.map_nil]
    rw [HttpStream.contentLength, hfields]
    dsimp only
    rw [List.all_nil, if_pos rfl, HttpStream.readNat_toString, ← HttpStream.length_utf8]
    rfl
  content := by
    intro hbodyless
    have hcode : (fillOut lib out).code ∈ ([200, 201, 500, 501] : List Int) := fillOut_code h
    simp only [List.mem_cons, List.not_mem_nil, or_false] at hcode
    dsimp only [HttpReply.message] at hbodyless
    rcases hcode with hcode | hcode | hcode | hcode <;> rw [hcode] at hbodyless <;>
      exact absurd hbodyless (by decide)

theorem IsWord.append {s t : String} (hs : IsWord s) (ht : IsWord t) : IsWord (s ++ t) := by
  intro c hc
  rw [String.toList_append, List.mem_append] at hc
  exact hc.elim (hs c) (ht c)

theorem isWord_randomString (rand : Nat → Nat) (length : Nat) :
    IsWord (randomString rand length) := by
  intro c hc
  have hcharset : charset.all (fun c => !isspace c) = true := by decide
  have hc' := List.all_eq_true.mp hcharset c (randomString_charset rand length c hc)
  rwa [Bool.not_eq_true'] at hc'

theorem isWord_fullUrl (h : info.OneLine) {url : String} (hurl : info.fullUrl = .ok url) :
    IsWord url := by
  unfold RequestInfo.fullUrl at hurl
  split at hurl
  · cases hurl
  · rename_i queryString hquery
    cases hurl
    exact (h.uri.append (by decide)).append (h.query queryString hquery)

theorem isWord_locationUrl {url : String} (hurl : IsWord url) {rand : Nat → Nat} {length : Nat}
    (hrandom : e.random = randomString rand length) (peerid : PeerId) :
    IsWord (PeerConnectionManager.locationUrl e url peerid) := by
  unfold PeerConnectionManager.locationUrl
  split
  · rw [hrandom]
    exact ((hurl.append (by decide)).append (by decide)).append (isWord_randomString rand length)
  · exact hurl

theorem whep_clean {method url : String} {peerid : PeerId} {r : StreamRequest}
    (hurl : IsWord url) {rand : Nat → Nat} {length : Nat}
    (hrandom : e.random = randomString rand length)
    (h : PeerConnectionManager.whep srv e method url peerid r input sh = .ok (sh', out)) :
    out.Clean := by
  by_cases hdelete : method = "DELETE"
  · subst hdelete
    unfold PeerConnectionManager.whep at h
    rw [if_pos rfl] at h
    obtain ⟨_, _, hlast⟩ := bind_ok h
    cases hlast
    exact ⟨.inr (.inr rfl), fun header hmem => by cases hmem⟩
  · by_cases hpatch : method = "PATCH"
    · subst hpatch
      have hcode := (whep_patch h).2
      unfold PeerConnectionManager.whep at h
      rw [if_neg (by decide), if_pos rfl] at h
      obtain ⟨_, _, hlast⟩ := bind_ok h
      cases hlast
      refine ⟨?_, fun header hmem => by cases hmem⟩
      rw [hcode]
      split
      · exact .inl rfl
      · exact .inr (.inr rfl)
    · unfold PeerConnectionManager.whep at h
      rw [if_neg hdelete, if_neg hpatch] at h
      obtain ⟨_, _, h⟩ := bind_ok h
      obtain ⟨⟨_, reply⟩, _, hlast⟩ := bind_ok h
      cases reply with
      | none =>
        cases hlast
        exact ⟨.inr (.inr rfl), fun header hmem => by cases hmem⟩
      | some desc =>
        cases hlast
        refine ⟨.inr (.inl rfl), fun header hmem => ?_⟩
        simp only [List.mem_cons, List.not_mem_nil, or_false] at hmem
        rcases hmem with rfl | rfl | rfl
        · exact ⟨by decide, by decide⟩
        · exact ⟨by decide, by decide⟩
        · exact ⟨(by decide : "Location" ∈ ["Access-Control-Expose-Headers", "Content-Type",
            "Location"]), isWord_locationUrl hurl hrandom peerid⟩

theorem ok_clean {x : Except Abort (Shared × Value)}
    (h : (fun answer : Shared × Value => (answer.1, Response.mk 200 [] answer.2)) <$> x =
      .ok (sh', out)) : out.Clean := by
  cases x with
  | error abort => cases h
  | ok answer =>
    cases h
    exact ⟨.inl rfl, fun header hmem => by cases hmem⟩

theorem api_clean (hinfo : info.OneLine) {rand : Nat → Nat} {length : Nat}
    (hrandom : e.random = randomString rand length)
    (h : api srv lib e path info input sh = .ok (sh', out)) : out.Clean := by
  cases path with
  | whep =>
    obtain ⟨url, hurl, hwhep⟩ := bind_ok h
    exact whep_clean (isWord_fullUrl hinfo hurl) hrandom hwhep
  | call => exact ok_clean h
  | hangup => exact ok_clean h
  | createOffer => exact ok_clean h
  | getMediaList => exact ok_clean h
  | _ =>
    cases h
    exact ⟨.inl rfl, fun header hmem => by cases hmem⟩

theorem handle_clean {q : HttpRequest} {reply : HttpReply} (hinfo : q.OneLine)
    {rand : Nat → Nat} {length : Nat} (hrandom : e.random = randomString rand length)
    (h : handle srv lib e path q sh = .ok (sh', reply)) :
    ∃ out : Response, out.Clean ∧ reply = fillOut lib out := by
  obtain ⟨input, _, h⟩ := bind_ok h
  obtain ⟨⟨_, out⟩, hout, hlast⟩ := bind_ok h
  cases hlast
  exact ⟨out, api_clean hinfo hrandom hout, rfl⟩

end Replies

/-- A connection carries the replies of its requests one behind the other, and the client
takes them apart as they were meant: however the requests change the state in between
and whatever the answers say, every reply is read with its status, header lines and answer. -/
theorem replies_read_back (srv : Server) (lib : Library) (replies : List HttpReply)
    (h : ∀ reply ∈ replies, ∃ (e : ApiEnv) (path : ApiPath) (q : HttpRequest) (sh sh' : Shared)
      (rand : Nat → Nat), q.OneLine ∧ e.random = randomString rand 32 ∧
        handle srv lib e path q sh = .ok (sh', reply)) :
    HttpStream.receiveStream (replies.flatMap HttpReply.wire) =
      some (replies.map HttpReply.message) := by
  have hframed : ∀ reply ∈ replies, 0 ≤ reply.code ∧ reply.message.Framed := by
    intro reply hmem
    obtain ⟨e, path, q, sh, sh', rand, hinfo, hrandom, hhandle⟩ := h reply hmem
    obtain ⟨out, hclean, rfl⟩ := handle_clean hinfo hrandom hhandle
    refine ⟨?_, hclean.framed⟩
    have hcode : (fillOut lib out).code ∈ ([200, 201, 500, 501] : List Int) := fillOut_code hclean
    simp only [List.mem_cons, List.not_mem_nil, or_false] at hcode
    omega
  have hwire : replies.flatMap HttpReply.wire = (replies.map HttpReply.message).flatMap
      Message.render := by
    rw [List.flatMap_map]
    exact List.flatMap_congr fun reply hmem => HttpReply.wire_eq_render (hframed reply hmem).1
  rw [hwire]
  refine HttpStream.receiveStream_render fun m hmem => ?_
  obtain ⟨reply, hreply, rfl⟩ := List.mem_map.mp hmem
  exact (hframed reply hreply).2

def Library.listing : Library := { Library.plain with writeString := fun _ => "[\"büro\"]" }

/-- A list whose name has a character of two bytes, then a session that there is not. -/
theorem replies_read_back_pair :
    let list : HttpReply := ⟨200, [("Access-Control-Allow-Origin", "*"),
      ("Content-Type", "text/plain"), ("Content-Length", "9")], "[\"büro\"]"⟩
    let gone : HttpReply := ⟨501, [("Access-Control-Allow-Origin", "*"),
      ("Content-Type", "text/plain"), ("Content-Length", "0")], ""⟩
    HttpStream.receiveStream (list.wire ++ gone.wire) = some [list.message, gone.message] := by
  let e : ApiEnv := { ApiEnv.fine with random := randomString (fun _ => 0) 32 }
  intro list gone
  have hlist : fillOut .listing ⟨200, [], .array []⟩ = ⟨200, [("Access-Control-Allow-Origin", "*"),
      ("Content-Type", "text/plain"), ("Content-Length", "9")], "[\"büro\"]"⟩ := by decide
  have hread := replies_read_back .plain .listing [list, gone] (by
    intro reply hmem
    rw [List.mem_cons, List.mem_singleton] at hmem
    rcases hmem with rfl | rfl
    · exact ⟨e, .getMediaList, ⟨⟨"GET", "/api/getMediaList", none⟩, 0, ""⟩, .initial, .initial,
        fun _ => 0, ⟨by decide, fun queryString hquery => by cases hquery⟩, rfl,
        congrArg (fun reply => Except.ok (Shared.initial, reply)) hlist⟩
    · exact ⟨e, .whep, ⟨⟨"DELETE", "/api/whep", some "peerid=x"⟩, 0, ""⟩, .initial, .initial,
        fun _ => 0, ⟨by decide, fun queryString hquery => by cases hquery; decide⟩, rfl, rfl⟩)
  simpa using hread

end WebrtcStreamer
