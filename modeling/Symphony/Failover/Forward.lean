import Symphony.Lib.Prog
import Symphony.Router.Route
import Symphony.Sni.Hello
import Symphony.Upstream.ProxyV2
/-!
# Forwarding a connection to a peer

`forward_to_peers` as a program over the operations it performs: the clocks, the
peers' shared cooldown words and counters, and the sockets. What the operations
answer is left open. `forward_opaque` writes no connection prefix and rewrites no
header, so it is one operation: the copy both ways.
-/

namespace Symphony.Failover

open Lib (Prog)
open Router (FailoverPeer)
open Sni (PeekInfo)
open Upstream (write_proxy_v2_header)

/-! ## The program -/

inductive ForwardMode where
  | Down
  | Drain
  | Spill (peer : Nat)
  deriving DecidableEq, Repr

inductive PeerFailureKind where
  | Refused
  | Timeout
  | ZeroByteClose
  | Error
  deriving DecidableEq, Repr

/-- The `ErrorKind`s a forward can end with. -/
inductive ErrorKind where
  | UpstreamConnect
  | IdleTimeout
  | HalfClosed
  | PeerTimeout
  | Stream
  deriving DecidableEq, Repr

inductive Forwarded where
  | Done (result : Except ErrorKind Unit)
  | ServeLocally (handshake : Duration)

/-- Why `TcpStream::connect` failed. -/
inductive ConnectError where
  | ConnectionRefused
  | Other
  deriving DecidableEq, Repr

/-- The counters a forward adds one to. -/
inductive Counter where
  | exhausted
  | local_fallbacks
  | replays
  | forwarded (peer : FailoverPeer)
  | spilled (peer : FailoverPeer)
  deriving DecidableEq, Repr

/-- The operations. A connection to a peer is named by a number. -/
inductive Op where
  /-- `Instant::now`. -/
  | instant
  | now_ns
  | fetch_add (counter : Counter)
  /-- `cursor.fetch_add(1)`. -/
  | next_cursor
  /-- The peer's cooldown word. -/
  | cooldown (peer : FailoverPeer)
  | clear_cooldown (peer : FailoverPeer)
  | record_failure (peer : FailoverPeer) (kind : PeerFailureKind) (min_ns max_ns now : Nat)
  /-- `client.peek` into a buffer of `len` bytes, up to the deadline. -/
  | peek_client (len : Nat)
  /-- `TcpStream::connect`, which starts an attempt of at most `share`. -/
  | connect (addr : SocketAddr) (share : Duration)
  | write_all (stream : Nat) (buf : Bytes)
  /-- `stream.peek` into a buffer of one byte. -/
  | peek (stream : Nat)
  /-- `client.read_exact` into a buffer of `len` bytes. -/
  | read_exact (len : Nat)
  /-- `forward_opaque` between the client and a peer. -/
  | forward_opaque_stream (stream : Nat)
  deriving DecidableEq, Repr

/-- The answers. In an attempt, `none` is the end of its share. -/
abbrev Op.Ans : Op → Type
  | .instant => Nat
  | .now_ns => Nat
  | .fetch_add _ => Unit
  | .next_cursor => Nat
  | .cooldown _ => Nat
  | .clear_cooldown _ => Unit
  | .record_failure .. => Unit
  | .peek_client _ => Option Bytes
  | .connect .. => Option (Except ConnectError Nat)
  | .write_all .. => Option (Except Unit Unit)
  | .peek _ => Option (Except Unit Nat)
  | .read_exact _ => Except Unit Unit
  | .forward_opaque_stream _ => Except ErrorKind Unit

abbrev Forward (α : Type) := Prog Op Op.Ans Empty α

def instant : Forward Nat := .perform Op.instant
def now_ns : Forward Nat := .perform Op.now_ns
def fetch_add (counter : Counter) : Forward Unit := .perform (Op.fetch_add counter)
def next_cursor : Forward Nat := .perform Op.next_cursor
def cooldown (peer : FailoverPeer) : Forward Nat := .perform (Op.cooldown peer)
def clear_cooldown (peer : FailoverPeer) : Forward Unit := .perform (Op.clear_cooldown peer)
def record_failure (peer : FailoverPeer) (kind : PeerFailureKind) (min_ns max_ns now : Nat) : Forward Unit :=
  .perform (Op.record_failure peer kind min_ns max_ns now)
def peek_client (len : Nat) : Forward (Option Bytes) := .perform (Op.peek_client len)
def connect (addr : SocketAddr) (share : Duration) : Forward (Option (Except ConnectError Nat)) :=
  .perform (Op.connect addr share)
def write_all (stream : Nat) (buf : Bytes) : Forward (Option (Except Unit Unit)) := .perform (Op.write_all stream buf)
def peek (stream : Nat) : Forward (Option (Except Unit Nat)) := .perform (Op.peek stream)
def read_exact (len : Nat) : Forward (Except Unit Unit) := .perform (Op.read_exact len)
def forward_opaque_stream (stream : Nat) : Forward (Except ErrorKind Unit) := .perform (Op.forward_opaque_stream stream)

def COOLDOWN_STREAK_SHIFT : Nat := 56
def COOLDOWN_UNTIL_MASK : Nat := 2 ^ COOLDOWN_STREAK_SHIFT - 1
def DRAIN_BUDGET : Duration := 2 * 1000000000
def SPILL_BUDGET : Duration := 1000000000

/-- `cooldown_until`, of the cooldown word. -/
def cooldown_until (word : Nat) : Nat := word &&& COOLDOWN_UNTIL_MASK

def cooling_down (peer : FailoverPeer) (now : Nat) : Forward Bool := do
  return min now COOLDOWN_UNTIL_MASK < cooldown_until (← cooldown peer)

/-- `peers.iter().filter(|p| !p.cooling_down(now)).count()`. -/
def count_ready (now : Nat) : List FailoverPeer → Forward Nat
  | [] => return 0
  | peer :: peers => do
    let cooling ← cooling_down peer now
    let ready ← count_ready now peers
    return if cooling then ready else ready + 1

/-- `peers.iter().min_by_key(|p| p.cooldown_until())`, given the best so far: the
first of the least. -/
def earliest_cooldown : Option (FailoverPeer × Nat) → List FailoverPeer → Forward (Option FailoverPeer)
  | best, [] => return best.map (·.1)
  | best, peer :: peers => do
    let until_ := cooldown_until (← cooldown peer)
    match best with
    | some (p, least) => earliest_cooldown (some (if until_ < least then (peer, until_) else (p, least))) peers
    | none => earliest_cooldown (some (peer, until_)) peers

/-- What the candidate iterator has yet to yield: a peer that it passes over if it
is cooling down when its turn comes, or one that it yields as it is. -/
inductive Candidate where
  | ready (peer : FailoverPeer) (now : Nat)
  | always (peer : FailoverPeer)
  deriving DecidableEq, Repr

def Candidate.peer : Candidate → FailoverPeer
  | .ready peer _ => peer
  | .always peer => peer

/-- Where the rotation over `count` peers starts. -/
def rotation_start (count : Nat) : Forward Nat :=
  if count = 1 then pure 0
  else do return (← next_cursor) % count

/-- The peer to fall back on when none is ready. -/
def fallback (peers : List FailoverPeer) (wait_for_cooldown : Bool) (ready : Nat) : Forward (Option FailoverPeer) :=
  if ready = 0 && wait_for_cooldown then earliest_cooldown none peers else pure none

def candidates (peers : List FailoverPeer) (now : Nat) (wait_for_cooldown : Bool) :
    Forward (Nat × List Candidate) := do
  let start ← rotation_start peers.length
  let ready ← count_ready now peers
  let earliest ← fallback peers wait_for_cooldown ready
  let rotation := (List.range peers.length).filterMap fun i => peers[(start + i) % peers.length]?
  return (max ready earliest.toList.length, rotation.map (.ready · now) ++ earliest.toList.map .always)

def candidates_for (failover : Router.Failover) (mode : ForwardMode) (now : Nat) : Forward (Nat × List Candidate) :=
  match mode with
  | .Spill i =>
    match failover.peers[i]? with
    | none => return (0, [])
    | some peer => do
      if ← cooling_down peer now then return (0, [])
      return (1, [.always peer])
  | .Down => candidates failover.peers now true
  | .Drain => candidates failover.peers now false

/-- The closure `give_up`. -/
def give_up (mode : ForwardMode) (handshake started : Nat) : Forward Forwarded :=
  match mode with
  | .Down => do
    fetch_add .exhausted
    return .Done (.error .UpstreamConnect)
  | .Drain | .Spill _ => do
    fetch_add .local_fallbacks
    return .ServeLocally (handshake - ((← instant) - started))

/-- How long all attempts together may take. -/
def budget (mode : ForwardMode) (handshake : Duration) : Duration :=
  match mode with
  | .Down => handshake
  | .Drain => min (handshake / 2) DRAIN_BUDGET
  | .Spill _ => min (handshake / 2) SPILL_BUDGET

/-- `Ok` once the peer has sent a byte, which is only peeked. The share ends the
attempt wherever it is. -/
def attempt_peer (addr : SocketAddr) (pre : Bytes) (share : Duration) : Forward (Except PeerFailureKind Nat) := do
  match ← connect addr share with
  | none => return .error .Timeout
  | some (.error .ConnectionRefused) => return .error .Refused
  | some (.error .Other) => return .error .Error
  | some (.ok stream) =>
    match ← write_all stream pre with
    | none => return .error .Timeout
    | some (.error _) => return .error .ZeroByteClose
    | some (.ok _) =>
      match ← peek stream with
      | none => return .error .Timeout
      | some (.error _) => return .error .ZeroByteClose
      | some (.ok 0) => return .error .ZeroByteClose
      | some (.ok _) => return .ok stream

/-- The counter of the connections handed to a peer. -/
def handed (mode : ForwardMode) (peer : FailoverPeer) : Counter :=
  match mode with
  | .Spill _ => .spilled peer
  | .Down | .Drain => .forwarded peer

/-- What follows once a peer has answered: the hello is consumed, and the rest is copied. -/
def commit (mode : ForwardMode) (hello_len : Nat) (peer : FailoverPeer) (stream : Nat) : Forward Forwarded := do
  clear_cooldown peer
  fetch_add (handed mode peer)
  match ← read_exact hello_len with
  | .error _ => return .Done (.error .Stream)
  | .ok _ => return .Done (← forward_opaque_stream stream)

/-- What does not change from one attempt to the next. -/
structure Attempts where
  failover : Router.Failover
  mode : ForwardMode
  handshake : Duration
  started : Nat
  deadline : Nat
  candidate_count : Nat
  hello_len : Nat
  /-- The header and the peeked hello. -/
  pre : Bytes

/-- The peer of a candidate whose turn it is, unless it is passed over. -/
def Candidate.yielded : Candidate → Forward (Option FailoverPeer)
  | .ready peer now => do return if ← cooling_down peer now then none else some peer
  | .always peer => return some peer

/-- Every attempt after the first is a replay. -/
def count_replay (attempt : Nat) : Forward Unit := if attempt > 0 then fetch_add .replays else pure ()

/-- The loop over the candidates. -/
def try_candidates (a : Attempts) : Nat → List Candidate → Forward Forwarded
  | _, [] => give_up a.mode a.handshake a.started
  | attempt, candidate :: rest => do
    match ← candidate.yielded with
    | none => try_candidates a attempt rest
    | some peer =>
      let remaining := a.deadline - (← instant)
      if remaining = 0 then give_up a.mode a.handshake a.started
      else
        count_replay attempt
        -- A fair share of what is left.
        let share := remaining / max (a.candidate_count - attempt) 1
        match ← attempt_peer peer.addr a.pre share with
        | .ok stream => commit a.mode a.hello_len peer stream
        | .error kind =>
          record_failure peer kind a.failover.cooldown_min_ns a.failover.cooldown_max_ns (← now_ns)
          try_candidates a (attempt + 1) rest

def forward_to_peers (peek : PeekInfo) (failover : Router.Failover) (mode : ForwardMode) (handshake : Duration)
    (peer_addr : SocketAddr) (local_addr : Option SocketAddr) : Forward Forwarded := do
  let started ← instant
  if !peek.complete || peek.hello_len = 0 then
    match mode with
    | .Down => return .Done (.error .UpstreamConnect)
    | _ => give_up mode handshake started
  else
    let (candidate_count, candidates) ← candidates_for failover mode (← now_ns)
    if candidate_count = 0 then give_up mode handshake started
    else
      match write_proxy_v2_header peer_addr local_addr [] with
      | .error _ => give_up mode handshake started
      | .ok header =>
        match ← peek_client peek.hello_len with
        | none => give_up mode handshake started
        | some hello =>
          if hello.length = peek.hello_len then
            let deadline := started + budget mode handshake
            try_candidates ⟨failover, mode, handshake, started, deadline, candidate_count, peek.hello_len,
              header ++ hello⟩ 0 candidates
          else give_up mode handshake started

end Symphony.Failover
