import Symphony.Protection.State
import Symphony.Router.Spec
/-!
# Reading a configuration

The objects that come from JavaScript and the functions that turn them into route specs,
protection configs and trusted lists. A string is its UTF-8 text. An error is its text, and
where the text ends with a number, the number is kept as it is.
-/

namespace Symphony

/-- `as u64`: truncation, saturating at both ends, and 0 for NaN. -/
def F64.as_u64 : F64 → Nat
  | .finite q => min ⌊q⌋₊ U64_MAX
  | .infinite false => U64_MAX
  | .infinite true => 0
  | .nan => 0

namespace Proxy

open Failover (FailoverSpec SpillSpec)
open Protection (ProtectionConfig hex_to_bytes16)
open Router (Crates ForwardFingerprint RouteProtocol RouteSpec SourceAddressMode SourceAllowlist UpstreamSpec
  parse_source_network)
open Sni (decimal)

/-- A `napi::Error`: the text of its reason, and the number the text ends with, if any. -/
structure Error where
  reason : Bytes
  got : Option F64 := none
  deriving DecidableEq, Repr

/-! ## Routes -/

structure JsUpstream where
  kind : Bytes
  host : Option Bytes := none
  port : Option Nat := none
  path : Option Bytes := none
  ip_affinity : Option Bool := none
  ip_affinity_ttl_ms : Option F64 := none
  pid : Option Nat := none
  tid : Option Nat := none
  protocol : Option Bytes := none
  deriving DecidableEq, Repr

/-- `Either<String, Buffer>`. -/
inductive JsPem where
  | string (text : Bytes)
  | buffer (data : Bytes)
  deriving DecidableEq, Repr

def pem_bytes : JsPem → Bytes
  | .string text => text
  | .buffer data => data

structure JsCertConfig where
  cert_chain : JsPem
  private_key : JsPem
  deriving DecidableEq, Repr

structure JsMtlsConfig where
  client_ca_cert : JsPem
  require_client_cert : Option Bool := none
  deriving DecidableEq, Repr

structure JsPeerCooldown where
  min : F64
  max : F64
  deriving DecidableEq, Repr

structure JsSpillConfig where
  high_water : Option F64 := none
  margin : Option F64 := none
  step : Option F64 := none
  max_fraction : Option F64 := none
  max_peer_rtt_ms : Option F64 := none
  deriving DecidableEq, Repr

structure JsFailoverPeer where
  host : Bytes
  port : Nat
  deriving DecidableEq, Repr

structure JsFailoverConfig where
  peers : List JsFailoverPeer
  drain : Option Bool := none
  probe_interval_ms : Option F64 := none
  peer_cooldown_ms : Option JsPeerCooldown := none
  spill : Option JsSpillConfig := none
  deriving DecidableEq, Repr

/-- `Either<String, Vec<String>>`. -/
inductive JsFingerprint where
  | one (kind : Bytes)
  | list (kinds : List Bytes)
  deriving DecidableEq, Repr

structure JsRouteConfig where
  sni : Bytes
  metrics_group : Option Bytes := none
  upstreams : List JsUpstream := []
  terminate_tls : Bool := false
  cert : Option JsCertConfig := none
  mtls : Option JsMtlsConfig := none
  suspended : Option Bool := none
  suspend_timeout_ms : Option F64 := none
  max_connections_per_second : Option F64 := none
  burst : Option F64 := none
  source_address_header : Option Bytes := none
  forward_fingerprint : Option JsFingerprint := none
  http2 : Option Bool := none
  protocol : Option Bytes := none
  allowed_sources : Option (List Bytes) := none
  failover : Option JsFailoverConfig := none
  deriving DecidableEq, Repr

def MAX_METRICS_GROUP_BYTES : Nat := 128
def MAX_ROUTE_METRIC_LABEL_BYTES : Nat := 255

/-- `s.chars().any(char::is_control)`: U+0000 to U+001F and U+007F to U+009F, in UTF-8. -/
def any_control : Bytes → Bool
  | [] => false
  | [b] => b < 32 || b = 127
  | b :: c :: rest => b < 32 || b = 127 || (b = 0xc2 && 0x80 ≤ c && c ≤ 0x9f) || any_control (c :: rest)

def validate_route_metric_label (sni : Bytes) : Except Error Unit :=
  if sni.length > MAX_ROUTE_METRIC_LABEL_BYTES then
    .error ⟨bytes "route SNI exceeds " ++ decimal MAX_ROUTE_METRIC_LABEL_BYTES ++ bytes " UTF-8 bytes", none⟩
  else if any_control sni then .error ⟨bytes "route SNI must not contain control characters", none⟩
  else .ok ()

def parse_metrics_group (group : Option Bytes) (sni : Bytes) : Except Error Bytes :=
  let group := group.getD []
  if group.length > MAX_METRICS_GROUP_BYTES then
    .error ⟨bytes "route '" ++ sni ++ bytes "': metricsGroup exceeds " ++ decimal MAX_METRICS_GROUP_BYTES ++
      bytes " UTF-8 bytes", none⟩
  else if any_control group then
    .error ⟨bytes "route '" ++ sni ++ bytes "': metricsGroup must not contain control characters", none⟩
  else .ok group

def parse_tcp_upstream (u : JsUpstream) (sni : Bytes) : Except Error UpstreamSpec :=
  match u.host, u.port with
  | none, _ => .error ⟨bytes "tcp upstream for '" ++ sni ++ bytes "' missing host", none⟩
  | some _, none => .error ⟨bytes "tcp upstream for '" ++ sni ++ bytes "' missing port", none⟩
  | some host, some port =>
    if u.protocol.isSome then
      .error ⟨bytes "tcp upstream for '" ++ sni ++ bytes "': 'protocol' is only supported on uds upstreams", none⟩
    else .ok (.Tcp host port)

def parse_uds_upstream (u : JsUpstream) (sni : Bytes) : Except Error UpstreamSpec :=
  match u.path with
  | none => .error ⟨bytes "uds upstream for '" ++ sni ++ bytes "' missing path", none⟩
  | some path =>
    match u.protocol.filter fun p => p ≠ bytes "h2" && p ≠ bytes "http/1.1" with
    | some p =>
      .error ⟨bytes "uds upstream for '" ++ sni ++ bytes "': unknown protocol '" ++ p ++
        bytes "' (expected 'h2' or 'http/1.1')", none⟩
    | none =>
      .ok (.Uds [path] [u.pid] [u.tid] (u.ip_affinity.getD false) (u.ip_affinity_ttl_ms.getD (.finite 300000)).as_u64
        (u.protocol.filter fun p => p = bytes "h2"))

def parse_upstream_spec (sni : Bytes) (u : JsUpstream) : Except Error UpstreamSpec :=
  if u.kind = bytes "tcp" then parse_tcp_upstream u sni
  else if u.kind = bytes "uds" then parse_uds_upstream u sni
  else .error ⟨bytes "unknown upstream kind '" ++ u.kind ++ bytes "' for sni '" ++ sni ++ bytes "'", none⟩

/-- Without a value: `proxyProtocol` for UDS upstreams, else nothing. -/
def parse_source_address_mode (value : Option Bytes) (has_uds_upstreams : Bool) : Except Error SourceAddressMode :=
  match value with
  | none => .ok (if has_uds_upstreams then .ProxyProtocol else .None)
  | some v =>
    if v = bytes "proxyProtocol" then .ok .ProxyProtocol
    else if v = bytes "proxyProtocolV2" then .ok .ProxyProtocolV2
    else if v = bytes "xForwardedFor" then .ok .XForwardedFor
    else if v = bytes "none" then .ok .None
    else .error ⟨bytes "unknown sourceAddressHeader value '" ++ v ++
      bytes "'; expected 'proxyProtocol', 'proxyProtocolV2', 'xForwardedFor', or 'none'", none⟩

/-- One entry of a `forwardFingerprint` list. -/
def add_fingerprint (f : ForwardFingerprint) (kind : Bytes) : Except Error ForwardFingerprint :=
  if kind = bytes "ja3" then .ok { f with ja3 := true }
  else if kind = bytes "ja4" then .ok { f with ja4 := true }
  else .error ⟨bytes "unknown forwardFingerprint list entry '" ++ kind ++
    bytes "'; list entries must be 'ja3' or 'ja4'", none⟩

def parse_forward_fingerprint : Option JsFingerprint → Except Error ForwardFingerprint
  | none => .ok ⟨false, false⟩
  | some (.one kind) =>
    if kind = bytes "none" then .ok ⟨false, false⟩
    else if kind = bytes "ja3" then .ok ⟨true, false⟩
    else if kind = bytes "ja4" then .ok ⟨false, true⟩
    else .error ⟨bytes "unknown forwardFingerprint value '" ++ kind ++
      bytes "'; expected 'ja3', 'ja4', 'none', or a list of 'ja3'/'ja4'", none⟩
  | some (.list kinds) => kinds.foldlM add_fingerprint ⟨false, false⟩

def parse_route_protocol : Option Bytes → Except Error RouteProtocol
  | none => .ok .Opaque
  | some v =>
    if v = bytes "opaque" then .ok .Opaque
    else if v = bytes "http" then .ok .Http
    else .error ⟨bytes "unknown protocol value '" ++ v ++ bytes "'; expected 'http' or 'opaque'", none⟩

def spill_spec (s : JsSpillConfig) : SpillSpec :=
  ⟨s.high_water, s.margin, s.step, s.max_fraction, s.max_peer_rtt_ms⟩

def failover_spec (f : JsFailoverConfig) : FailoverSpec where
  peers := f.peers.map fun p => (p.host, p.port)
  drain := f.drain.getD false
  probe_interval_ms := f.probe_interval_ms
  cooldown_min_ms := f.peer_cooldown_ms.map (·.min)
  cooldown_max_ms := f.peer_cooldown_ms.map (·.max)
  spill := f.spill.map spill_spec

def is_uds : UpstreamSpec → Bool
  | .Uds .. => true
  | .Tcp .. => false

/-- `parse_route_spec`, without its warnings. -/
def parse_route_spec (r : JsRouteConfig) : Except Error RouteSpec := do
  validate_route_metric_label r.sni
  let upstreams ← r.upstreams.mapM (parse_upstream_spec r.sni)
  let source_address_mode ← parse_source_address_mode r.source_address_header (upstreams.any is_uds)
  let forward_fingerprint ← parse_forward_fingerprint r.forward_fingerprint
  let protocol ← parse_route_protocol r.protocol
  let metrics_group ← parse_metrics_group r.metrics_group r.sni
  return {
    sni := r.sni
    metrics_group, upstreams
    terminate_tls := r.terminate_tls
    cert_pem := r.cert.map fun c => pem_bytes c.cert_chain
    key_pem := r.cert.map fun c => pem_bytes c.private_key
    mtls_ca_pem := r.mtls.map fun m => pem_bytes m.client_ca_cert
    require_client_cert := (r.mtls.bind (·.require_client_cert)).getD false
    suspended := r.suspended.getD false
    suspend_timeout_ms := (r.suspend_timeout_ms.getD (.finite 30000)).as_u64
    max_cps := r.max_connections_per_second
    burst := r.burst
    source_address_mode, forward_fingerprint
    http2 := r.http2.getD false
    protocol
    allowed_sources := r.allowed_sources.getD []
    failover := r.failover.map failover_spec }

/-! ## Protection -/

structure JsRateLimitConfig where
  connections_per_second : F64
  burst : Option F64 := none
  deriving DecidableEq, Repr

structure JsSustainedRateLimitConfig where
  connections_per_minute : F64
  burst : Option F64 := none
  deriving DecidableEq, Repr

structure JsPenaltyBoxConfig where
  duration_ms : Option F64 := none
  deriving DecidableEq, Repr

structure JsProtectionConfig where
  rate_limit : Option JsRateLimitConfig := none
  sustained : Option JsSustainedRateLimitConfig := none
  penalty_box : Option JsPenaltyBoxConfig := none
  max_concurrent_per_ip : Option Nat := none
  allowlist : Option (List Bytes) := none
  blocklist : Option (List Bytes) := none
  ja3_blocklist : Option (List Bytes) := none
  ja4_blocklist : Option (List Bytes) := none
  tls_handshake_timeout_ms : Option F64 := none
  require_sni : Option Bool := none
  deriving DecidableEq, Repr

/-- A finite number above 0, or at least 0 if `zero`. -/
def finite_number (field : Bytes) (zero : Bool) (x : F64) : Except Error ℚ :=
  let error : Error :=
    ⟨field ++ bytes " must be a finite " ++ (if zero then bytes "non-negative" else bytes "positive") ++
      bytes " number, got ", some x⟩
  match x with
  | .finite q => if 0 < q ∨ (zero ∧ q = 0) then .ok q else .error error
  | _ => .error error

/-- The checks of a `rateLimit` or `sustained` block, and its rate and burst. -/
def parse_rate (rate_field burst_field : Bytes) (rate : F64) (burst : Option F64) : Except Error (ℚ × Option ℚ) := do
  let r ← finite_number rate_field false rate
  let b ← burst.mapM (finite_number burst_field true)
  return (r, b)

def parse_rate_limit (rl : JsRateLimitConfig) : Except Error (ℚ × Option ℚ) :=
  parse_rate (bytes "rateLimit.connectionsPerSecond") (bytes "rateLimit.burst") rl.connections_per_second rl.burst

def parse_sustained (s : JsSustainedRateLimitConfig) : Except Error (ℚ × Option ℚ) :=
  parse_rate (bytes "sustained.connectionsPerMinute") (bytes "sustained.burst") s.connections_per_minute s.burst

/-- `str::to_lowercase` as far as ASCII comes out of it: the Kelvin sign is the only other
character whose lower case is ASCII. -/
def to_lowercase : Bytes → Bytes
  | 0xe2 :: 0x84 :: 0xaa :: rest => 107 :: to_lowercase rest
  | b :: rest => to_ascii_lowercase b :: to_lowercase rest
  | [] => []

def is_ascii_hexdigit (b : UInt8) : Bool := (hex_digit b).isSome

/-- The versions that `compute_ja4` writes. -/
def ja4_versions : List (UInt8 × UInt8) := [(48, 48), (49, 48), (49, 49), (49, 50), (49, 51)]

def is_valid_ja4 (b : Bytes) : Bool :=
  let a (i : Nat) : UInt8 := b.getD i 0
  b.length = 36 && a 10 = 95 && a 23 = 95 &&
    a 0 = 116 && (a 1, a 2) ∈ ja4_versions && (a 3 = 100 || a 3 = 105) &&
    is_ascii_digit (a 4) && is_ascii_digit (a 5) && is_ascii_digit (a 6) && is_ascii_digit (a 7) &&
    is_ascii_alphanumeric (a 8) && is_ascii_alphanumeric (a 9) &&
    ((b.drop 11).take 12).all is_ascii_hexdigit && ((b.drop 24).take 12).all is_ascii_hexdigit

def insert_ja3 (blocklist : List Bytes) (hex : Bytes) : Except Error (List Bytes) :=
  match hex_to_bytes16 hex with
  | some digest => .ok (blocklist.insert digest)
  | none => .error ⟨bytes "invalid ja3Blocklist entry '" ++ hex ++ bytes "': expected 32 hex characters", none⟩

def insert_ja4 (blocklist : List Bytes) (s : Bytes) : Except Error (List Bytes) :=
  if is_valid_ja4 (to_lowercase s) then .ok (blocklist.insert (to_lowercase s))
  else .error ⟨bytes "invalid ja4Blocklist entry '" ++ s ++
    bytes "': expected JA4 format t<ver><sni><cc><ec><alpn>_<12 hex>_<12 hex> (36 chars)", none⟩

section Networks

variable {D : Type} (C : Crates D)

def parse_networks (label : Bytes) (entries : List Bytes) : Except Error (List IpNetwork) :=
  entries.mapM fun s => (parse_source_network C s label).mapError fun reason => ⟨reason, none⟩

def parse_protection_config (prot : JsProtectionConfig) (round : ℚ → ℚ := id) : Except Error ProtectionConfig := do
  let rate ← prot.rate_limit.mapM parse_rate_limit
  let sustained ← prot.sustained.mapM parse_sustained
  let ja3_blocklist ← (prot.ja3_blocklist.getD []).foldlM insert_ja3 []
  let ja4_blocklist ← (prot.ja4_blocklist.getD []).foldlM insert_ja4 []
  let allowlist ← parse_networks C (bytes "allowlist") (prot.allowlist.getD [])
  let blocklist ← parse_networks C (bytes "blocklist") (prot.blocklist.getD [])
  return .precompute {
    rate_limit_cps := rate.map (·.1)
    rate_limit_burst := rate.bind (·.2)
    sustained_cpm := sustained.map (·.1)
    sustained_burst := sustained.bind (·.2)
    penalty_box_duration_ms := prot.penalty_box.elim 0 fun pb => (pb.duration_ms.getD (.finite 600000)).as_u64
    max_concurrent_per_ip := prot.max_concurrent_per_ip.getD 0
    ja3_blocklist, ja4_blocklist
    tls_handshake_timeout_ms := (prot.tls_handshake_timeout_ms.getD (.finite 0)).as_u64
    require_sni := prot.require_sni.getD false
    allowlist, blocklist } round

def parse_trusted_sources (entries : List Bytes) : Except Error SourceAllowlist :=
  (SourceAllowlist.parse_required C entries (bytes "failoverIngress.trustedSources")).mapError fun reason => ⟨reason, none⟩

end Networks

end Proxy

end Symphony
