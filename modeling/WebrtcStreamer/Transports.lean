import WebrtcStreamer.HttpReplies

/-! The API over HTTP and over a WebSocket: two encodings of the same calls. -/

set_option autoImplicit false

namespace WebrtcStreamer

open Json (Value)

/-! ### One call after another -/

section Calls

variable {σ ε α β γ : Type}

def view (g : γ → β) (x : Except ε (σ × γ)) : Except ε (σ × β) := x.map fun r => (r.1, g r.2)

variable {f : α → σ → Except ε (σ × β)} {k : α → σ → Except ε (σ × γ)} {g : γ → β}

end Calls

/-! ### The two encodings -/

section Encodings

variable {srv : Server} {lib : Library} {e : ApiEnv} {path : ApiPath}
  {info info' : RequestInfo} {input : Value} {sh sh' : Shared} {out : Response}

/-- A call, as a request of HTTP and as a text frame on a connection that was opened by
another request. -/
structure Call where
  env : ApiEnv
  path : ApiPath
  request : HttpRequest
  connection : RequestInfo
  frame : String

def Call.serve (srv : Server) (lib : Library) (c : Call) (sh : Shared) :
    Except Abort (Shared × Response) :=
  (getInputMessage lib c.request).bind fun input =>
    api srv lib c.env c.path c.connection input sh

variable {c : Call}

end Encodings

def Library.framed : Library :=
  { Library.plain with
    parse := fun text =>
      if text = "list" then
        some (true, .object [("body", .null), ("request", .string "/api/getStreamList")])
      else if text = "hangup" then
        some (true, .object [("body", .null), ("request", .string "/api/hangup")])
      else some (false, .null) }

end WebrtcStreamer
