import Symphony.Failover.HandOver
import Symphony.Ingress.Header
import Symphony.Protection.State
/-!
# Handling a connection

`handle` as a program over what it asks its surroundings: the header and the hello of
the client, the protection checks, the live table, health and spill state, the local
upstreams, the TLS handshake, and, for a forward, the operations of `forward_to_peers`.
What these answer is left open, so a statement about the program is one about every
route, every state of health and cooldowns, every hello and every outcome of a connect.

Active counts, events to JavaScript and log lines are left out, and so is what is
written to an upstream once it is connected: `proxy_via_tls` and `proxy_raw` are one
operation each. A timeout that ends an operation is one of its answers.
-/

namespace Symphony.Proxy

open Lib Lib.Prog
open Failover (Duration ForwardMode Forwarded Forward forward_to_peers)
open Ingress (Header HeaderReject)
open Router (Route Destination ServerConfig SourceAllowlist RouteTokenBucket SlotHealth Spill SourceAddressMode
  ForwardFingerprint RouteProtocol)
open Sni (PeekInfo)

/-! ## What is counted and decided -/

inductive ErrorKind where
  | NoRoute
  | RouteRateLimited
  | LocallyDown
  | SuspendUnresolved
  | TlsHandshake
  | TlsMissingCert
  /-- The kinds a forward or a copy ends with. -/
  | Forward (kind : Failover.ErrorKind)
  deriving DecidableEq, Repr

inductive BlockKind where
  | UntrustedSource
  | SourceNotAllowed
  /-- Of a rejected header. -/
  | Header (reject : HeaderReject)
  /-- Of a protection check. -/
  | Protection (reason : Protection.BlockReason)
  deriving DecidableEq, Repr

inductive Decision where
  | Refuse
  | Forward (mode : ForwardMode)
  | Local
  deriving DecidableEq, Repr

/-- What `resolveConnection` returned for a suspended connection. -/
structure ResolvedRoute where
  destination : Destination
  tls_config : Option ServerConfig
  terminate_tls : Bool
  source_address_mode : SourceAddressMode
  forward_fingerprint : ForwardFingerprint
  protocol : RouteProtocol
  allowed_sources : Option SourceAllowlist
  deriving DecidableEq, Repr

structure EffectiveRoute where
  destination : Destination
  destination_h2 : Option Destination
  tls_config : Option ServerConfig
  terminate_tls : Bool
  source_address_mode : SourceAddressMode
  forward_fingerprint : ForwardFingerprint
  protocol : RouteProtocol
  deriving DecidableEq, Repr

namespace EffectiveRoute

/-- The connection goes to the destination for h2. -/
def takes_h2 (r : EffectiveRoute) (h2 : Bool) : Bool := h2 && r.destination_h2.isSome

def destination_for (r : EffectiveRoute) (h2 : Bool) : Destination :=
  match r.destination_h2 with
  | some dest => if h2 then dest else r.destination
  | none => r.destination

end EffectiveRoute

/-! ## The operations -/

/-- An upstream connection is named by a number. -/
inductive Op where
  /-- `ingress.trusts`. -/
  | trusts (peer : IpAddr)
  | read_proxy_v2 (limit : Duration)
  | answer_load_query (names : List (Option Bytes)) (limit : Duration)
  | inc_blocked (kind : BlockKind)
  | inc_error (kind : ErrorKind)
  /-- `sni::peek`. -/
  | peek
  /-- `protection.check`. -/
  | check (peer : IpAddr) (info : PeekInfo)
  /-- The live table, and the route it resolves the name to. -/
  | resolve_with (sni : Option Bytes) (allow_default : Bool)
  | try_acquire (limiter : RouteTokenBucket)
  | locally_down (failover : Router.Failover) (destination : Destination) (destination_h2 : Option Destination)
  | spill_target (failover : Router.Failover) (spill : Spill) (client : SocketAddr)
  /-- One of the operations of `forward_to_peers`. -/
  | forwarding (o : Failover.Op)
  /-- Registered as suspended, until resolved, rejected or timed out. -/
  | await_resolution (timeout : Duration)
  /-- `Instant::now`. -/
  | instant
  /-- `upstream::connect`. -/
  | connect (destination : Destination) (peer : IpAddr) (timeout : Duration) (tcp_health : Option SlotHealth)
  /-- The handshake, up to the timeout. -/
  | tls_accept (config : ServerConfig) (timeout : Duration)
  | closed (upstream : Nat)
  | proxy_via_tls (upstream : Nat) (route : EffectiveRoute) (peer_addr : SocketAddr) (local_addr : Option SocketAddr)
  | proxy_raw (upstream : Nat) (route : EffectiveRoute) (peer_addr : SocketAddr) (local_addr : Option SocketAddr)

/-- The answers. A finished handshake has the protocol it negotiated, if any. -/
abbrev Op.Ans : Op → Type
  | .trusts _ => Bool
  | .read_proxy_v2 _ => Except HeaderReject Header
  | .answer_load_query .. => Unit
  | .inc_blocked _ => Unit
  | .inc_error _ => Unit
  | .peek => PeekInfo
  | .check .. => Protection.Decision
  | .resolve_with .. => Option Route
  | .try_acquire _ => Bool
  | .locally_down .. => Bool
  | .spill_target .. => Option Nat
  | .forwarding o => o.Ans
  | .await_resolution _ => Option ResolvedRoute
  | .instant => Nat
  | .connect .. => Option Nat
  | .tls_accept .. => Option (Option Bytes)
  | .closed _ => Bool
  | .proxy_via_tls .. => Except Failover.ErrorKind Unit
  | .proxy_raw .. => Except Failover.ErrorKind Unit

abbrev Handle (α : Type) := Prog Op Op.Ans Empty α

def trusts (peer : IpAddr) : Handle Bool := .perform (Op.trusts peer)
def read_proxy_v2 (limit : Duration) : Handle (Except HeaderReject Header) := .perform (Op.read_proxy_v2 limit)
def answer_load_query (names : List (Option Bytes)) (limit : Duration) : Handle Unit :=
  .perform (Op.answer_load_query names limit)
def inc_blocked (kind : BlockKind) : Handle Unit := .perform (Op.inc_blocked kind)
def inc_error (kind : ErrorKind) : Handle Unit := .perform (Op.inc_error kind)
def peek : Handle PeekInfo := .perform Op.peek
def check (peer : IpAddr) (info : PeekInfo) : Handle Protection.Decision := .perform (Op.check peer info)
def resolve_with (sni : Option Bytes) (allow_default : Bool) : Handle (Option Route) :=
  .perform (Op.resolve_with sni allow_default)
def try_acquire (limiter : RouteTokenBucket) : Handle Bool := .perform (Op.try_acquire limiter)
def locally_down (failover : Router.Failover) (destination : Destination) (destination_h2 : Option Destination) :
    Handle Bool :=
  .perform (Op.locally_down failover destination destination_h2)
def await_resolution (timeout : Duration) : Handle (Option ResolvedRoute) := .perform (Op.await_resolution timeout)
def instant : Handle Nat := .perform Op.instant
def connect (destination : Destination) (peer : IpAddr) (timeout : Duration) (tcp_health : Option SlotHealth) :
    Handle (Option Nat) :=
  .perform (Op.connect destination peer timeout tcp_health)
def tls_accept (config : ServerConfig) (timeout : Duration) : Handle (Option (Option Bytes)) :=
  .perform (Op.tls_accept config timeout)
def closed (upstream : Nat) : Handle Bool := .perform (Op.closed upstream)
def proxy_via_tls (upstream : Nat) (route : EffectiveRoute) (peer_addr : SocketAddr) (local_addr : Option SocketAddr) :
    Handle (Except Failover.ErrorKind Unit) :=
  .perform (Op.proxy_via_tls upstream route peer_addr local_addr)
def proxy_raw (upstream : Nat) (route : EffectiveRoute) (peer_addr : SocketAddr) (local_addr : Option SocketAddr) :
    Handle (Except Failover.ErrorKind Unit) :=
  .perform (Op.proxy_raw upstream route peer_addr local_addr)

/-- A forward, as a part of handling the connection. -/
def forwarding {α : Type} (p : Forward α) : Handle α := p.embed Op.forwarding fun _ a => a

/-! ## The handler -/

/-- The part of `ConnContext` that decides how a connection is handled: it was accepted
on a failover ingress listener, there is protection, and the timeouts. -/
structure ConnContext where
  ingress : Bool
  protection : Bool
  handshake_timeout : Duration
  upstream_connect_timeout : Duration
  deriving DecidableEq, Repr

/-- Count a refusal, and be done. -/
def blocked {α : Type} (kind : BlockKind) : Handle (Option α) := do
  inc_blocked kind
  return none

/-- Count an error, and be done. -/
def failed {α : Type} (kind : ErrorKind) : Handle (Option α) := do
  inc_error kind
  return none

/-- The ingress header: the address of the client, unless the connection ends here. -/
def read_source (ctx : ConnContext) (peer_addr : SocketAddr) : Handle (Option SocketAddr) :=
  if !ctx.ingress then return some peer_addr
  else do
    let trusted ← trusts peer_addr.ip
    if !trusted then blocked .UntrustedSource
    else
      match ← read_proxy_v2 ctx.handshake_timeout with
      | .ok (.Proxy source) => return some source
      | .ok (.LoadQuery names) => do
        answer_load_query names ctx.handshake_timeout
        return none
      | .error reject => blocked (.Header reject)

def protect (ctx : ConnContext) (peer_ip : IpAddr) (peek_info : PeekInfo) : Handle (Option Unit) :=
  if !ctx.protection then return some ()
  else do
    match ← check peer_ip peek_info with
    | .Block reason => blocked (.Protection reason)
    | .AllowBypassed => return some ()
    | .Allow _ => return some ()

/-- The address is not on the list, if there is one. -/
def refused (allowed_sources : Option SourceAllowlist) (peer_ip : IpAddr) : Bool :=
  allowed_sources.any fun allowed => !allowed.permits peer_ip

/-- A token of the route's limiter, if it has one. -/
def take_token (route : Route) : Handle (Option Route) :=
  match route.rate_limiter with
  | none => return some route
  | some rl => do
    let token ← try_acquire rl
    if token then return some route else failed .RouteRateLimited

/-- The route, past its source list and its limiter. -/
def admit_route (peer_ip : IpAddr) : Option Route → Handle (Option Route)
  | none => failed .NoRoute
  | some route => if refused route.allowed_sources peer_ip then blocked .SourceNotAllowed else take_token route

/-- `decide`; the spill is consulted only where it counts. -/
def decide (ingress suspended locally_down drain : Bool) (spill : Handle (Option Nat)) : Handle Decision :=
  if ingress then return if locally_down || drain then .Refuse else .Local
  else if suspended then return .Local
  else if locally_down then return .Forward .Down
  else if drain then return .Forward .Drain
  else do
    match ← spill with
    | none => return .Local
    | some peer => return .Forward (.Spill peer)

def spill_target (failover : Router.Failover) (client : SocketAddr) : Handle (Option Nat) :=
  match failover.spill with
  | none => return none
  | some spill => .perform (Op.spill_target failover spill client)

/-- What is left of the handshake timeout, if the connection is served here. -/
def fail_over (ctx : ConnContext) (route : Route) (peek_info : PeekInfo) (peer_addr : SocketAddr)
    (local_addr : Option SocketAddr) : Handle (Option Duration) :=
  match route.failover with
  | none => return some ctx.handshake_timeout
  | some failover => do
    let down ← locally_down failover route.destination route.destination_h2
    match ← decide ctx.ingress route.suspended down failover.drain (spill_target failover peer_addr) with
    | .Refuse => failed .LocallyDown
    | .Local => return some ctx.handshake_timeout
    | .Forward mode =>
      match ← forwarding (forward_to_peers peek_info failover mode ctx.handshake_timeout peer_addr local_addr) with
      | .Done (.ok _) => return none
      | .Done (.error kind) => failed (.Forward kind)
      | .ServeLocally left => return some left

/-- The destination and the rest of the route, once resolved if it is suspended. -/
def effective_route (route : Route) (peer_ip : IpAddr) : Handle (Option EffectiveRoute) :=
  if route.suspended then do
    match ← await_resolution route.suspend_timeout with
    | none => failed .SuspendUnresolved
    | some resolved =>
      if refused resolved.allowed_sources peer_ip then blocked .SourceNotAllowed
      else
        return some ⟨resolved.destination, none, resolved.tls_config, resolved.terminate_tls,
          resolved.source_address_mode, resolved.forward_fingerprint, resolved.protocol⟩
  else
    return some ⟨route.destination, route.destination_h2, route.tls_config, route.terminate_tls,
      route.source_address_mode, route.forward_fingerprint, route.protocol⟩

/-- What the rest of the connection knows of the client and the route. -/
structure Serving where
  ctx : ConnContext
  peek_info : PeekInfo
  peer_addr : SocketAddr
  local_addr : Option SocketAddr
  tcp_health : Option SlotHealth
  route : EffectiveRoute

/-- The peers a failed connect goes on to, with the deadline. -/
abbrev Peers := Option (Router.Failover × Nat)

/-- The local upstream, unless the connection is finished. -/
def connect_or_forward (s : Serving) (destination : Destination) (peers : Peers) (hs_timeout : Duration) :
    Handle (Option Nat) := do
  let connect_timeout := match peers with
    | some _ => min s.ctx.upstream_connect_timeout (hs_timeout / 2)
    | none => s.ctx.upstream_connect_timeout
  match ← connect destination s.peer_addr.ip connect_timeout s.tcp_health with
  | some upstream => return some upstream
  | none =>
    inc_error (.Forward .UpstreamConnect)
    match peers with
    | none => return none
    | some (failover, deadline) =>
      let now ← instant
      match ← forwarding (forward_to_peers s.peek_info failover .Down (deadline - now) s.peer_addr s.local_addr) with
      | .Done (.error .UpstreamConnect) => return none
      | .Done (.error kind) => failed (.Forward kind)
      | .Done (.ok _) => return none
      | .ServeLocally _ => return none

def predicts_h2 (config : ServerConfig) (offers_h2 : Bool) : Bool :=
  offers_h2 && config.alpn_protocols.head? = some (bytes "h2")

/-- The upstream that is connected before the handshake, with what is left of the
timeout; `none` if the connection is finished. -/
def connect_early (s : Serving) (predicted_h2 : Bool) (hs_timeout : Duration) :
    Peers → Handle (Option (Option Nat × Duration))
  | none => return some (none, hs_timeout)
  | some peers => do
    match ← connect_or_forward s (s.route.destination_for predicted_h2) (some peers) hs_timeout with
    | none => return none
    | some upstream =>
      let now ← instant
      return some (some upstream, peers.2 - now)

/-- An early upstream that is still the one to use after the handshake. -/
def keep_upstream (same_destination : Bool) : Option Nat → Handle (Option Nat)
  | none => return none
  | some upstream =>
    if !same_destination then return none
    else do
      let gone ← closed upstream
      return if gone then none else some upstream

/-- The upstream to proxy to after the handshake. -/
def upstream_for (s : Serving) (predicted_h2 negotiated_h2 : Bool) (early : Option Nat) : Handle (Option Nat) := do
  match ← keep_upstream (s.route.takes_h2 predicted_h2 == s.route.takes_h2 negotiated_h2) early with
  | some upstream => return some upstream
  | none => connect (s.route.destination_for negotiated_h2) s.peer_addr.ip s.ctx.upstream_connect_timeout s.tcp_health

/-- Count how the connection ended. -/
def finish : Except Failover.ErrorKind Unit → Handle Unit
  | .ok _ => return ()
  | .error kind => inc_error (.Forward kind)

def serve_tls (s : Serving) (config : ServerConfig) (peers : Peers) (requires_client_cert : Bool)
    (hs_timeout : Duration) :
    Handle Unit := do
  let predicted_h2 := predicts_h2 config s.peek_info.offers_h2
  let peers := if s.peek_info.complete && !requires_client_cert then peers else none
  match ← connect_early s predicted_h2 hs_timeout peers with
  | none => return ()
  | some early =>
    match ← tls_accept config early.2 with
    | none => inc_error .TlsHandshake
    | some alpn =>
      match ← upstream_for s predicted_h2 (alpn == some (bytes "h2")) early.1 with
      | none => finish (.error .UpstreamConnect)
      | some upstream =>
        let result ← proxy_via_tls upstream s.route s.peer_addr s.local_addr
        finish result

def serve_raw (s : Serving) (peers : Peers) (hs_timeout : Duration) : Handle Unit := do
  match ← connect_or_forward s s.route.destination peers hs_timeout with
  | none => return ()
  | some upstream =>
    let result ← proxy_raw upstream s.route s.peer_addr s.local_addr
    finish result

def serve (s : Serving) (peers : Peers) (requires_client_cert : Bool) (hs_timeout : Duration) : Handle Unit :=
  if s.route.terminate_tls then
    match s.route.tls_config with
    | some config => serve_tls s config peers requires_client_cert hs_timeout
    | none => inc_error .TlsMissingCert
  else serve_raw s peers hs_timeout

/-- The failover whose health the connects mark: none while the route is suspended. -/
def tracked (route : Route) : Option Router.Failover := route.failover.filter fun _ => !route.suspended

/-- The peers of the connection, with the deadline. An ingress connection has none. -/
def peers_of (ctx : ConnContext) (route : Route) (hs_timeout : Duration) : Handle Peers :=
  match if ctx.ingress then none else tracked route with
  | none => return none
  | some failover => do
    let now ← instant
    return some (failover, now + hs_timeout)

/-- The route is known: fail over, or serve. -/
def handle_route (ctx : ConnContext) (route : Route) (peek_info : PeekInfo) (peer_addr : SocketAddr)
    (local_addr : Option SocketAddr) : Handle Unit := do
  match ← fail_over ctx route peek_info peer_addr local_addr with
  | none => return ()
  | some hs_timeout =>
    match ← effective_route route peer_addr.ip with
    | none => return ()
    | some effective =>
      let peers ← peers_of ctx route hs_timeout
      serve ⟨ctx, peek_info, peer_addr, local_addr, (tracked route).bind (·.tcp_health), effective⟩ peers
        route.requires_client_cert hs_timeout

def handle (ctx : ConnContext) (peer_addr : SocketAddr) (local_addr : Option SocketAddr) : Handle Unit := do
  match ← read_source ctx peer_addr with
  | none => return ()
  | some peer_addr =>
    let peek_info ← peek
    match ← protect ctx peer_addr.ip peek_info with
    | none => return ()
    | some _ =>
      let resolved ← resolve_with peek_info.sni (!ctx.ingress)
      match ← admit_route peer_addr.ip resolved with
      | none => return ()
      | some route => handle_route ctx route peek_info peer_addr local_addr

end Symphony.Proxy
