import Symphony.Http.Head
import Symphony.Lib.Prog
/-!
# The two pumps of an HTTP/1 connection

`rewrite_request_stream` (client to upstream) and `forward_response_stream`
(upstream to client) as programs. Their operations are what reaches outside: the
socket reads and writes, the queue of request metadata, the tunnel verdicts, and
the `carry` buffer each pump owns. Loops take fuel; running out of it is `spin`.
-/

namespace Symphony.Http

open Lib (Prog position)

def MAX_HEADER_SIZE : Nat := 64 * 1024
def MAX_CHUNK_LINE : Nat := 1024

/-- `RequestMeta`; the verdict sender is the number of its oneshot channel. -/
structure RequestMeta where
  head_only : Bool
  connect : Bool
  upgrade : Bool
  verdict : Option Nat
  deriving DecidableEq, Repr

/-- Which call writes: a message head, a framed body, or bytes passed through as they are. -/
inductive Site where
  | head
  | body
  | raw
  deriving DecidableEq, Repr

inductive Op where
  | get_carry
  | set_carry (carry : Bytes)
  | read (max : Nat)
  | write_all (site : Site) (buf : Bytes)
  | oneshot
  | send (block : Bytes) (m : RequestMeta)
  | verdict (id : Nat)
  | recv (head : Bytes)
  | send_verdict (id : Nat) (accepted : Bool)

/-- Answers. A read of no bytes is the end of the stream; `verdict` is `none` when
the sender is gone; `send` is `false` when the receiver is. The request a `send` and
the response a `recv` is for are labels: the queue does not look at them. -/
def Op.Ans : Op → Type
  | .get_carry => Bytes
  | .set_carry _ => Unit
  | .read _ => Except IoError Bytes
  | .write_all _ _ => Except IoError Unit
  | .oneshot => Nat
  | .send _ _ => Bool
  | .verdict _ => Option Bool
  | .recv _ => Option RequestMeta
  | .send_verdict _ _ => Unit

/-- Why a pump stops early: an I/O error, or the model's fuel. -/
inductive Stop where
  | io (e : IoError)
  | spin
  deriving DecidableEq, Repr

abbrev Pump (α : Type) := Prog Op Op.Ans Stop α

/-- `Err(e)?`. -/
def throw {α : Type} (e : IoError) : Pump α := .fail (.io e)

/-- `?` on a computed result. -/
def lift {α : Type} : Except IoError α → Pump α
  | .ok a => pure a
  | .error e => throw e

def get_carry : Pump Bytes := .perform Op.get_carry
def set_carry (carry : Bytes) : Pump Unit := .perform (Op.set_carry carry)
def oneshot : Pump Nat := .perform Op.oneshot
def send (block : Bytes) (m : RequestMeta) : Pump Bool := .perform (Op.send block m)
def verdict (id : Nat) : Pump (Option Bool) := .perform (Op.verdict id)
def recv (head : Bytes) : Pump (Option RequestMeta) := .perform (Op.recv head)
def send_verdict (id : Nat) (accepted : Bool) : Pump Unit := .perform (Op.send_verdict id accepted)

/-- `reader.read(&mut buf[..max]).await?`. -/
def read (max : Nat) : Pump Bytes := do
  let r : Except IoError Bytes ← .perform (Op.read max)
  lift r

/-- `writer.write_all(buf).await?`. -/
def write_all (site : Site) (buf : Bytes) : Pump Unit := do
  let r : Except IoError Unit ← .perform (Op.write_all site buf)
  lift r

def closed_mid_header : IoError := ⟨.UnexpectedEof, "closed mid-header"⟩
def closed_mid_chunk : IoError := ⟨.UnexpectedEof, "closed mid-chunk"⟩
def closed_mid_body : IoError := ⟨.UnexpectedEof, "closed mid-body"⟩
def headers_too_long : IoError := bad "HTTP headers exceed 64 KB limit"
def line_too_long : IoError := bad "chunked framing line exceeds limit"

/-! ## Reading and copying -/

/-- What a bounded read looks for, how far, and what the end of the stream means. -/
structure Until where
  pat : Bytes
  limit : Nat
  buf : Nat
  too_long : IoError
  at_eof : Bytes → Except IoError (Option Nat)

/-- Read into `carry` until it holds the pattern; the offset just past it. Bytes
before `scanned` cannot begin a match. -/
def read_until (u : Until) : Nat → Nat → Pump (Option Nat)
  | 0, _ => .fail .spin
  | fuel + 1, scanned => do
    let carry ← get_carry
    match position u.pat (carry.drop scanned) with
    | some rel => pure (some (scanned + rel + u.pat.length))
    | none =>
      if carry.length > u.limit then throw u.too_long
      else
        let tmp ← read u.buf
        if tmp = [] then lift (u.at_eof carry)
        else
          set_carry (carry ++ tmp)
          read_until u fuel (carry.length - (u.pat.length - 1))

def header_end : Until where
  pat := CRLFCRLF
  limit := MAX_HEADER_SIZE
  buf := 4096
  too_long := headers_too_long
  at_eof carry := if carry = [] then .ok none else .error closed_mid_header

def read_header_block (fuel : Nat) : Pump (Option Nat) := read_until header_end fuel 0

def line_end : Until where
  pat := CRLF
  limit := MAX_CHUNK_LINE
  buf := 256
  too_long := line_too_long
  at_eof _ := .error closed_mid_chunk

/-- The line with its CRLF, taken off `carry`. -/
def read_control_line (fuel : Nat) : Pump Bytes := do
  match ← read_until line_end fuel 0 with
  | none => throw closed_mid_chunk
  | some «end» =>
    let carry ← get_carry
    set_carry (carry.drop «end»)
    pure (carry.take «end»)

def copy_exact : Nat → Nat → Pump Unit
  | 0, _ => .fail .spin
  | fuel + 1, remaining =>
    if remaining = 0 then pure ()
    else do
      let buf ← read (min remaining 8192)
      if buf = [] then throw closed_mid_body
      else
        write_all .body buf
        copy_exact fuel (remaining - buf.length)

def copy_body (fuel n : Nat) : Pump Unit := do
  let carry ← get_carry
  let buffered := min carry.length n
  write_all .body (carry.take buffered)
  set_carry (carry.drop buffered)
  let remaining := n - buffered
  if remaining > 0 then copy_exact fuel remaining else pure ()

/-- The size a chunk-size line states. -/
def chunk_size (line : Bytes) : Except IoError Nat :=
  let size_field := (split_on 59 (line.take (line.length - 2))).headD []
  match from_utf8 size_field with
  | none => .error (bad "malformed chunk size")
  | some text =>
    match from_str_radix 16 U64_MAX (trim text) with
    | none => .error (bad "malformed chunk size")
    | some size => .ok size

/-- The trailer section: lines until a blank one closes the body. -/
def copy_trailers (inner : Nat) : Nat → Pump Unit
  | 0 => .fail .spin
  | fuel + 1 => do
    let trailer ← read_control_line inner
    write_all .body trailer
    if trailer = CRLF then pure () else copy_trailers inner fuel

def copy_chunked_body (inner : Nat) : Nat → Pump Unit
  | 0 => .fail .spin
  | fuel + 1 => do
    let line ← read_control_line inner
    let size ← lift (chunk_size line)
    write_all .body line
    if size = 0 then copy_trailers inner inner
    else
      copy_body inner size
      let crlf ← read_control_line inner
      if crlf ≠ CRLF then throw (bad "missing CRLF after chunk data")
      else
        write_all .body crlf
        copy_chunked_body inner fuel

/-- `tokio::io::copy`. -/
def copy : Nat → Pump Unit
  | 0 => .fail .spin
  | fuel + 1 => do
    let buf ← read 8192
    if buf = [] then pure ()
    else
      write_all .raw buf
      copy fuel

/-- Everything from here on is passed through. -/
def pass_through (fuel : Nat) : Pump Unit := do
  write_all .raw (← get_carry)
  set_carry []
  copy fuel

/-! ## The request pump -/

def is_connect (block : Bytes) : Bool := eq_ignore_ascii_case (request_method block) (bytes "CONNECT")

def is_tunnel_candidate (block : Bytes) : Bool := is_connect block || is_upgrade block

/-- The metadata of the request in `block`, with its oneshot channel if it has one. -/
def meta_of (block : Bytes) (verdict : Option Nat) : RequestMeta where
  head_only := eq_ignore_ascii_case (request_method block) (bytes "HEAD")
  connect := is_connect block
  upgrade := is_tunnel_candidate block && !is_connect block
  verdict := verdict

/-- CONNECT has no body by definition; an Upgrade request still uses normal framing. -/
def framed_body (block : Bytes) : Except IoError RequestBody :=
  if is_connect block then .ok .None else request_body block

/-- A tunnel candidate gets a channel for its verdict. -/
def verdict_channel (candidate : Bool) : Pump (Option Nat) :=
  if candidate then do
    let id ← oneshot
    pure (some id)
  else pure none

def copy_request_body (inner : Nat) : RequestBody → Pump Unit
  | .None => pure ()
  | .Length n => copy_body inner n
  | .Chunked => copy_chunked_body inner inner

def rewrite_request_stream (rewrites : List HeaderRewrite) (inner : Nat) : Nat → Pump Unit
  | 0 => .fail .spin
  | fuel + 1 => do
    match ← read_header_block inner with
    | none => pure ()
    | some «end» =>
      let block := (← get_carry).take «end»
      let head ← lift (rewrite_request_head block rewrites)
      let body ← lift (framed_body block)
      let verdict_rx ← verdict_channel (is_tunnel_candidate block)
      let sent ← send block (meta_of block verdict_rx)
      if !sent then pure ()
      else
        write_all .head head
        set_carry ((← get_carry).drop «end»)
        copy_request_body inner body
        match verdict_rx with
        | none => rewrite_request_stream rewrites inner fuel
        | some id =>
          match ← verdict id with
          | some true => pass_through inner
          | some false => rewrite_request_stream rewrites inner fuel
          | none => pure ()

/-! ## The response pump -/

def is_interim (status : Nat) : Bool := 100 ≤ status && status < 200 && status != 101

def tunnel_established (m : RequestMeta) (status : Nat) : Bool :=
  (m.upgrade && status == 101) || (m.connect && 200 ≤ status && status < 300)

/-- Report to the request pump whether the upstream accepted; only an Upgrade request may be answered with 101. -/
def report_verdict (m : RequestMeta) (status : Nat) : Pump Unit :=
  match m.verdict with
  | some id => send_verdict id (tunnel_established m status)
  | none => if status = 101 then throw (bad "unsolicited 101 response") else pure ()

def forward_response_stream (inner : Nat) : Nat → Pump Unit
  | 0 => .fail .spin
  | fuel + 1 => do
    match ← read_header_block inner with
    | none => pure ()
    | some «end» =>
      let head := (← get_carry).take «end»
      match parse_status head with
      | none => throw (bad "malformed response status line")
      | some status =>
        if is_interim status then
          write_all .head head
          set_carry ((← get_carry).drop «end»)
          forward_response_stream inner fuel
        else
          match ← recv head with
          | none => throw (bad "upstream response with no corresponding request")
          | some m =>
            report_verdict m status
            let framing := response_body head status m.head_only
            write_all .head head
            set_carry ((← get_carry).drop «end»)
            if tunnel_established m status then pass_through inner
            else match framing with
              | .None => forward_response_stream inner fuel
              | .Length n => do
                copy_body inner n
                forward_response_stream inner fuel
              | .Chunked => do
                copy_chunked_body inner inner
                forward_response_stream inner fuel
              | .ReadToEnd => pass_through inner

end Symphony.Http
