import Symphony.Failover.Policy
import Symphony.Rust.Net
/-!
# Route specs

What a route is configured with, and the checks and readings of it that need
nothing but the spec: the protocol declaration, the source allowlist, the
failover policy and the client-certificate policy. Code of other crates is a
parameter, `Crates`: a function for what each call returns.
-/

namespace Symphony.Router

open Failover (FailoverSpec FailoverPolicy PolicyError SpillPolicy SpillSpec)

/-! ## Other crates -/

/-- Calls into `ring`, `rustls`, `rustls_pemfile` and `ipnetwork`. An error is its
text. Digests are an abstract type `D`, since no function on byte strings into 32
bytes is injective. -/
structure Crates (D : Type) where
  /-- `ring::digest::digest(&SHA256, data)`. -/
  sha256 : Bytes → D
  /-- `[0u8; 32]`. -/
  zeros : D
  /-- The items of `rustls_pemfile::certs`. -/
  certs : Bytes → List (Except Bytes Bytes)
  /-- `rustls_pemfile::private_key`. -/
  private_key : Bytes → Except Bytes (Option Bytes)
  /-- `RootCertStore::add`. -/
  root_store_add : Bytes → Except Bytes Unit
  /-- `WebPkiClientVerifier::builder(roots).build()`. -/
  verifier_build : List Bytes → Except Bytes Unit
  /-- `with_single_cert`. -/
  with_single_cert : List Bytes → Bytes → Except Bytes Unit
  /-- `Ticketer::new`, for the config that would get this identity: it draws random
  keys, so each call has its own outcome. -/
  ticketer : Nat → Except Bytes Unit
  /-- `str::parse::<IpNetwork>`. -/
  parse_network : Bytes → Except Bytes IpNetwork

/-- SHA-256 has no collisions, the all-zero placeholder for "nothing hashed" included. -/
def Crates.NoCollision {D : Type} (C : Crates D) : Prop :=
  Function.Injective fun data : Option Bytes => data.elim C.zeros C.sha256

/-- A PEM section. -/
def pem (label : Bytes) (contents : String) : Bytes :=
  bytes "-----BEGIN " ++ label ++ bytes "-----\n" ++ bytes contents ++ bytes "\n-----END " ++ label ++ bytes "-----\n"

/-- The contents of the sections of a PEM text that have this label, without decoding them. -/
def pem_sections (label text : Bytes) : List Bytes :=
  ((split_on 10 text).foldl (fun (done, section?) line =>
    match section? with
    | none => (done, if line = bytes "-----BEGIN " ++ label ++ bytes "-----" then some [] else none)
    | some contents =>
      if line = bytes "-----END " ++ label ++ bytes "-----" then (done ++ [contents], none)
      else (done, some (contents ++ line))) ([], none)).1

def CERTIFICATE : Bytes := bytes "CERTIFICATE"
def PRIVATE_KEY : Bytes := bytes "PRIVATE KEY"

/-- A concrete choice: digests are what was hashed, so that they have no collisions, a PEM
text has the sections in it, a certificate matches the key with the same contents, and one
network parses. -/
def literalCrates : Crates (Option Bytes) where
  sha256 := some
  zeros := none
  certs text := (pem_sections CERTIFICATE text).map .ok
  private_key text := .ok (pem_sections PRIVATE_KEY text).head?
  root_store_add _ := .ok ()
  verifier_build _ := .ok ()
  with_single_cert certs key := if certs = [key] then .ok () else .error (bytes "KeyMismatch")
  ticketer _ := .ok ()
  parse_network text :=
    if text = bytes "10.0.0.0/8" then .ok (.V4 0x0a000000 8) else .error (bytes "invalid address")

theorem literalCrates_noCollision : literalCrates.NoCollision := by
  intro a b h
  cases a <;> cases b <;> simp_all [literalCrates]

/-- `SymphonyError`, as far as building routes can return it. -/
inductive SymphonyError where
  | Tls (e : Bytes)
  | Config (msg : Bytes)
  | AddrParse
  deriving DecidableEq, Repr

/-! ## Forwarding -/

inductive SourceAddressMode where
  | None
  | ProxyProtocol
  | ProxyProtocolV2
  | XForwardedFor
  deriving DecidableEq, Repr

structure ForwardFingerprint where
  ja3 : Bool
  ja4 : Bool
  deriving DecidableEq, Repr

def ForwardFingerprint.is_empty (f : ForwardFingerprint) : Bool := !f.ja3 && !f.ja4

inductive RouteProtocol where
  | Opaque
  | Http
  deriving DecidableEq, Repr

def requires_http_protocol (mode : SourceAddressMode) (fingerprint : ForwardFingerprint) : Bool :=
  mode = .XForwardedFor || (!fingerprint.is_empty && mode ≠ .ProxyProtocolV2)

/-! ## Specs -/

inductive UpstreamSpec where
  | Tcp (host : Bytes) (port : Nat)
  | Uds (paths : List Bytes) (pids tids : List (Option Nat)) (ip_affinity : Bool) (affinity_ttl_ms : Nat)
      (protocol : Option Bytes)
  deriving DecidableEq, Repr

structure RouteSpec where
  sni : Bytes
  metrics_group : Bytes := []
  upstreams : List UpstreamSpec := []
  terminate_tls : Bool := false
  cert_pem : Option Bytes := none
  key_pem : Option Bytes := none
  mtls_ca_pem : Option Bytes := none
  require_client_cert : Bool := false
  suspended : Bool := false
  suspend_timeout_ms : Nat := 30000
  max_cps : Option F64 := none
  burst : Option F64 := none
  source_address_mode : SourceAddressMode := .None
  forward_fingerprint : ForwardFingerprint := ⟨false, false⟩
  http2 : Bool := false
  protocol : RouteProtocol := .Opaque
  allowed_sources : List Bytes := []
  failover : Option FailoverSpec := none
  deriving DecidableEq, Repr

structure ListenerTlsSpec where
  cert_pem : Option Bytes := none
  key_pem : Option Bytes := none
  mtls_ca_pem : Option Bytes := none
  require_client_cert : Bool := true
  deriving DecidableEq, Repr

/-- `sni.strip_prefix("*.")`: the suffix of a wildcard spec. -/
def wildcard_suffix : Bytes → Option Bytes
  | 42 :: 46 :: suffix => some suffix
  | _ => none

theorem wildcard_suffix_eq_some {sni suffix : Bytes} : wildcard_suffix sni = some suffix ↔
    sni = 42 :: 46 :: suffix := by
  constructor
  · intro h
    unfold wildcard_suffix at h
    split at h
    · cases h
      rfl
    · cases h
  · rintro rfl
    rfl

@[simp] theorem wildcard_suffix_nil : wildcard_suffix [] = none := rfl

/-! ## Protocol declaration -/

def no_carrier_text : Bytes := bytes
  "': sourceAddressHeader 'xForwardedFor', or forwardFingerprint via an HTTP header (any mode other than 'proxyProtocolV2'), has no carrier when terminateTls=false (passthrough never decrypts the stream, so no header can be injected) — use sourceAddressHeader='proxyProtocolV2' (carries both source address and fingerprint), or remove forwardFingerprint"

def declare_http_text : Bytes := bytes
  "': sourceAddressHeader 'xForwardedFor', or forwardFingerprint via an HTTP header (any mode other than 'proxyProtocolV2'), requires protocol: 'http' — declare it explicitly, or switch away from the header-carried mode: 'proxyProtocol'/'proxyProtocolV2' both work on any protocol for source-address forwarding, but only 'proxyProtocolV2' carries a fingerprint (v1 does not)"

def validate_route_protocol_declaration (spec : RouteSpec) : Except SymphonyError Unit :=
  let requires_http := requires_http_protocol spec.source_address_mode spec.forward_fingerprint
  if requires_http && !spec.terminate_tls then
    .error (.Config (bytes "route '" ++ spec.sni ++ no_carrier_text))
  else if requires_http && spec.protocol ≠ .Http then
    .error (.Config (bytes "route '" ++ spec.sni ++ declare_http_text))
  else .ok ()

/-! ## Source allowlists -/

structure SourceAllowlist where
  networks : List IpNetwork
  deriving DecidableEq, Repr

section Allowlist

variable {D : Type} (C : Crates D)

/-- `parse_source_network`: an IPv4-mapped IPv6 network is read as its IPv4 form. -/
def parse_source_network (entry label : Bytes) : Except Bytes IpNetwork :=
  let invalid (reason : Bytes) : Bytes :=
    bytes "invalid " ++ label ++ bytes " CIDR '" ++ entry ++ bytes "': " ++ reason
  match C.parse_network entry with
  | .error e => .error (invalid e)
  | .ok (.V4 ip len) => .ok (.V4 ip len)
  | .ok (.V6 ip len) =>
    match IpAddr.to_ipv4_mapped ip with
    | none => .ok (.V6 ip len)
    | some v4 =>
      if h : 96 ≤ len.val then .ok (.V4 v4 ⟨len.val - 96, by omega⟩)
      else .error (invalid (bytes "an IPv4-mapped CIDR needs a prefix of at least 96 (or write it as IPv4)"))

def SourceAllowlist.parse_required (entries : List Bytes) (label : Bytes) : Except Bytes SourceAllowlist := do
  return ⟨← entries.mapM fun entry => parse_source_network C entry label⟩

def SourceAllowlist.parse (entries : List Bytes) : Except Bytes (Option SourceAllowlist) :=
  if entries = [] then .ok none
  else (SourceAllowlist.parse_required C entries (bytes "allowedSources")).map some

def SourceAllowlist.permits (allowed : SourceAllowlist) (peer : IpAddr) : Bool :=
  allowed.networks.any fun network => network.contains peer.to_canonical

end Allowlist

/-! ## Client-certificate policy -/

/-- `effective_mtls`: the route's own client CA, else the listener's. -/
def effective_mtls (spec : RouteSpec) (listener_tls : ListenerTlsSpec) : Option (Bytes × Bool) :=
  match spec.mtls_ca_pem with
  | some ca => some (ca, spec.require_client_cert)
  | none => listener_tls.mtls_ca_pem.map fun ca => (ca, listener_tls.require_client_cert)

inductive ClientAuth (D : Type) where
  | Passthrough
  | NoClientCert
  | ClientCert (ca_sha256 : D) (required : Bool)
  deriving DecidableEq

def ClientAuth.of {D : Type} (C : Crates D) (spec : RouteSpec) (listener_tls : ListenerTlsSpec) : ClientAuth D :=
  if !spec.terminate_tls then .Passthrough
  else match effective_mtls spec listener_tls with
    | none => .NoClientCert
    | some (ca, required) => .ClientCert (C.sha256 ca) required

/-! ## Failover policy -/

/-- A spec's failover policy as the table builder uses it, and which of the two
"served without it" sets the spec's name goes into. -/
structure PolicyReading where
  policy : Option FailoverPolicy
  invalid_failover : Bool
  invalid_spill : Bool

/-- The closure that parses a spec's `failover`: the default route has none. -/
def parse_failover (spec : RouteSpec) (f : FailoverSpec) : Except PolicyError FailoverPolicy :=
  if spec.sni = [] then .error .onDefaultRoute else f.parse

/-- The closure that parses a spec's `spill`: a wildcard has none. -/
def parse_spill (spec : RouteSpec) (s : SpillSpec) : Except PolicyError SpillPolicy :=
  if (wildcard_suffix spec.sni).isSome then .error .spillOnWildcard else s.parse

/-- The reading of `spec.failover` in `build_route_table`. A broken policy leaves the
route without failover, a broken `spill` leaves the failover without spill-over. -/
def read_failover (spec : RouteSpec) : PolicyReading :=
  match spec.failover with
  | none => ⟨none, false, false⟩
  | some f =>
    match parse_failover spec f with
    | .error _ => ⟨none, true, false⟩
    | .ok policy =>
      match f.spill.map (parse_spill spec) with
      | none => ⟨some policy, false, false⟩
      | some (.ok spill) => ⟨some { policy with spill := some spill }, false, false⟩
      | some (.error _) => ⟨some policy, false, true⟩

/-- The policy a spec validly asks for; a default route asks for none. -/
def RouteSpec.validFailover (spec : RouteSpec) : Option FailoverPolicy :=
  if spec.sni = [] then none else spec.failover.bind fun f => f.parse.toOption

theorem RouteSpec.validFailover_eq_some {spec : RouteSpec} {p : FailoverPolicy} :
    spec.validFailover = some p ↔ spec.sni ≠ [] ∧ ∃ f, spec.failover = some f ∧ f.parse = .ok p := by
  have hok (f : FailoverSpec) : f.parse.toOption = some p ↔ f.parse = .ok p := by
    cases f.parse <;> simp [Except.toOption]
  unfold RouteSpec.validFailover
  by_cases hs : spec.sni = []
  · simp [hs]
  · simp [hs, Option.bind_eq_some_iff, hok]

/-- What is used of a policy agrees with what is validly asked for, spill-over apart. -/
theorem read_failover_valid (spec : RouteSpec) :
    (read_failover spec).policy.map (fun p => (p.peers, p.drain)) =
      spec.validFailover.map fun p => (p.peers, p.drain) := by
  unfold read_failover RouteSpec.validFailover parse_failover
  cases spec.failover with
  | none => simp
  | some f =>
    by_cases hs : spec.sni = []
    · simp [hs]
    · simp only [if_neg hs, Option.bind_some]
      cases f.parse with
      | error e => rfl
      | ok policy =>
        dsimp only
        split <;> rfl

end Symphony.Router
