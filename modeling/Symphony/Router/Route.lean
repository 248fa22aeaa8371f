import Symphony.Router.Tls
import Symphony.Sni.Hello
/-!
# Building one route

The balancer of a UDS set, the failover object and `build_route`. Active counts,
affinity entries, CPU samples, counters and cooldowns change only while connections
are served and are not read here, so a balancer, a peer or a metric identity is what
it was configured with, and the identities of the cells it shares with its
predecessor.
-/

namespace Symphony.Router

open Lib (Act)
open Failover (Duration FailoverPolicy SpillPolicy from_millis)
open Sni (decimal)

/-! ## Health cells -/

/-- The identity of a `SlotHealth` cell. -/
abbrev SlotHealth := Nat

/-- `SlotHealth::new`: a refusing cell is marked with the time, which is never 0. -/
def SlotHealth.new (refusing : Bool) : Alloc SlotHealth := do
  let cell ← alloc
  modify fun h =>
    { h with refused_at := fun c => if c = cell then (if refusing then max h.now_ns 1 else 0) else h.refused_at c }
  return cell

def SlotHealth.refusing (h : Heap) (cell : SlotHealth) : Bool := h.refused_at cell ≠ 0

/-! ## Balancers -/

structure UdsSlotSpec where
  path : Bytes
  pid : Option Nat
  tid : Option Nat
  deriving DecidableEq, Repr

structure ThreadCpu where
  arc : Nat
  path : Bytes
  pid : Nat
  tid : Nat
  deriving DecidableEq, Repr

def ThreadCpu.configured (c : ThreadCpu) : Bytes × Nat × Nat := (c.path, c.pid, c.tid)

structure UdsSlot where
  path : Bytes
  health : Option SlotHealth
  cpu : Option ThreadCpu
  deriving DecidableEq, Repr

/-- `affinity` is the time to live of affinity entries, when the set has affinity;
`load` is the identity of the smoothed load. -/
structure UdsBalancer where
  sockets : List UdsSlot
  affinity : Option Nat
  load : Nat
  deriving DecidableEq, Repr

namespace UdsBalancer

/-- One slot of `UdsBalancer::new`. -/
def new_slot (s : UdsSlotSpec) : Alloc UdsSlot :=
  match s.pid, s.tid with
  | some pid, some tid => do return ⟨s.path, none, some ⟨← alloc, s.path, pid, tid⟩⟩
  | _, _ => pure ⟨s.path, none, none⟩

/-- `UdsBalancer::new`. The time to live is a product of `u64`s. -/
def new (slots : List UdsSlotSpec) (ip_affinity : Bool) (affinity_ttl_ms : Nat) : Alloc UdsBalancer := do
  let sockets ← slots.mapM new_slot
  let load ← alloc
  return ⟨sockets, if ip_affinity then some (affinity_ttl_ms * 1000000 % (U64_MAX + 1)) else none, load⟩

def slot_ids (b : UdsBalancer) : List (Bytes × Nat × Nat) :=
  b.sockets.map fun s => s.cpu.elim (s.path, 0, 0) ThreadCpu.configured

/-- The sampler `previous` has for a slot with the same path and ids. -/
def inherited_cpu (previous : UdsBalancer) (cpu : ThreadCpu) : ThreadCpu :=
  ((previous.sockets.filterMap (·.cpu)).find? fun p => p.configured = cpu.configured).getD cpu

/-- `with_cpu_from`. Two sorted lists are equal when one list is a rearrangement of
the other. -/
def with_cpu_from (b : UdsBalancer) : Option UdsBalancer → UdsBalancer
  | none => b
  | some previous =>
    let b := { b with sockets := b.sockets.map fun s : UdsSlot => { s with cpu := s.cpu.map (inherited_cpu previous) } }
    if b.slot_ids.isPerm previous.slot_ids then { b with load := previous.load } else b

/-- The cell `previous` has for a path. -/
def inherited_health (previous : Option UdsBalancer) (path : Bytes) : Option SlotHealth := do
  let previous ← previous
  let p ← previous.sockets.find? fun p => p.path = path
  p.health

def track_slot (previous : Option UdsBalancer) (refuse_new : Bool) (s : UdsSlot) : Alloc UdsSlot :=
  match inherited_health previous s.path with
  | some cell => pure { s with health := some cell }
  | none => do return { s with health := some (← SlotHealth.new refuse_new) }

def with_health (b : UdsBalancer) (previous : Option UdsBalancer) (refuse_new : Bool) : Alloc UdsBalancer := do
  return { b with sockets := ← b.sockets.mapM (track_slot previous refuse_new) }

def retracked (b : UdsBalancer) (track : Bool) : Alloc UdsBalancer := do
  let slots := b.sockets.map fun s => (⟨s.path, s.cpu.map (·.pid), s.cpu.map (·.tid)⟩ : UdsSlotSpec)
  let fresh ← new slots b.affinity.isSome (b.affinity.elim 0 (· / 1000000))
  let fresh := fresh.with_cpu_from (some b)
  if track then fresh.with_health (some b) false else return fresh

def all_refusing (h : Heap) (b : UdsBalancer) : Bool :=
  !b.sockets.isEmpty && b.sockets.all fun s => s.health.any (SlotHealth.refusing h)

def tracks_health (b : UdsBalancer) : Bool := b.sockets.any (·.health.isSome)

def has_affinity (b : UdsBalancer) : Bool := b.affinity.isSome

def has_monitored_slots (b : UdsBalancer) : Bool := b.sockets.any (·.cpu.isSome)

end UdsBalancer

/-! ## Destinations -/

/-- A UDS set carries the identity of its shared balancer. -/
inductive Destination where
  | Tcp (addr : SocketAddr)
  | UdsSet (arc : Nat) (balancer : UdsBalancer)
  deriving DecidableEq, Repr

def Destination.balancer : Destination → Option UdsBalancer
  | .Tcp _ => none
  | .UdsSet _ b => some b

/-- Both read their load from the same threads. -/
def same_load_source : Destination → Destination → Bool
  | .UdsSet _ a, .UdsSet _ b => a.load = b.load
  | .Tcp a, .Tcp b => a = b
  | _, _ => false

def retracked (track : Bool) : Destination → Alloc Destination
  | .Tcp addr => pure (.Tcp addr)
  | .UdsSet _ b => do
    let b ← b.retracked track
    return .UdsSet (← alloc) b

/-! ## Failover objects -/

structure FailoverPeer where
  arc : Nat
  addr : SocketAddr
  deriving DecidableEq, Repr

/-- A spill policy and the identity of the controller's state. -/
structure Spill where
  policy : SpillPolicy
  state : Nat
  deriving DecidableEq, Repr

structure Failover where
  arc : Nat
  drain : Bool
  probe_interval : Duration
  cooldown_min_ns : Nat
  cooldown_max_ns : Nat
  peers : List FailoverPeer
  tcp_health : Option SlotHealth
  status : Nat
  spill : Option Spill
  deriving DecidableEq, Repr

namespace Failover

/-- The peer object of an address: the predecessor's, or a new one. -/
def new_peer (previous : Option Failover) (addr : SocketAddr) : Alloc FailoverPeer :=
  match previous.bind fun p => p.peers.find? fun peer => peer.addr = addr with
  | some peer => pure peer
  | none => do return ⟨← alloc, addr⟩

/-- The spill state a policy may go on with: same policy, same peers, same load source. -/
def inherited_spill (policy : FailoverPolicy) (spill : SpillPolicy) (previous : Option Failover)
    (same_load_source : Bool) : Option Nat := do
  let previous ← previous
  let s ← previous.spill
  if same_load_source && s.policy = spill && previous.peers.map (·.addr) = policy.peers then some s.state else none

def new_spill (policy : FailoverPolicy) (previous : Option Failover) (same_load_source : Bool) :
    Alloc (Option Spill) :=
  match policy.spill with
  | none => pure none
  | some spill =>
    match inherited_spill policy spill previous same_load_source with
    | some state => pure (some ⟨spill, state⟩)
    | none => do return some ⟨spill, ← alloc⟩

def new_status : Option Failover → Alloc Nat
  | some p => pure p.status
  | none => alloc

def new (policy : FailoverPolicy) (previous : Option Failover) (tcp_health : Option SlotHealth)
    (same_load_source : Bool) : Alloc Failover := do
  let peers ← policy.peers.mapM (new_peer previous)
  let spill ← new_spill policy previous same_load_source
  let status ← new_status previous
  return ⟨← alloc, policy.drain, policy.probe_interval, policy.cooldown_min, policy.cooldown_max, peers, tcp_health,
    status, spill⟩

/-- Every slot of the default destination, or of the h2 destination, is refusing. -/
def locally_down (h : Heap) (f : Failover) (destination : Destination) (destination_h2 : Option Destination) : Bool :=
  let down : Destination → Bool
    | .UdsSet _ balancer => balancer.all_refusing h
    | .Tcp _ => f.tcp_health.any (SlotHealth.refusing h)
  down destination || destination_h2.any down

end Failover

/-! ## Routes -/

structure RouteMetricIdentity where
  arc : Nat
  route : Bytes
  group : Bytes
  counters : Nat
  deriving DecidableEq, Repr

def RouteMetricIdentity.new (route group : Bytes) : Alloc RouteMetricIdentity := do
  let counters ← alloc
  return ⟨← alloc, route, group, counters⟩

/-- A route limiter as it was built: full, and last refilled at that moment. -/
structure RouteTokenBucket where
  arc : Nat
  tokens : Nat
  last_refill_ns : Nat
  rate_per_ns : F64
  burst_fp : Nat
  deriving DecidableEq, Repr

/-- `x.max(1.0)`: the other number when one is NaN. -/
def at_least_one : F64 → F64
  | .finite q => .finite (max q 1)
  | .infinite false => .infinite false
  | .infinite true => .finite 1
  | .nan => .finite 1

/-- `(x * 1000.0) as u32`. -/
def fixed_point (x : F64) (round : ℚ → ℚ := id) : Nat :=
  match x with
  | .finite q => min ⌊round (q * 1000)⌋₊ U32_MAX
  | .infinite false => U32_MAX
  | .infinite true => 0
  | .nan => 0

/-- `cps / 1_000_000_000.0`. -/
def per_ns (cps : F64) (round : ℚ → ℚ := id) : F64 :=
  match cps with
  | .finite q => .finite (round (q / 1000000000))
  | x => x

def RouteTokenBucket.new (cps : F64) (burst : Option F64) (round : ℚ → ℚ := id) : Alloc RouteTokenBucket := do
  let arc ← alloc
  let burst_fp := fixed_point (at_least_one (burst.getD cps)) round
  return ⟨arc, burst_fp, (← get).wall_ns, per_ns cps round, burst_fp⟩

structure Route where
  metric_identity : RouteMetricIdentity
  destination : Destination
  destination_h2 : Option Destination
  tls_config : Option ServerConfig
  terminate_tls : Bool
  suspended : Bool
  suspend_timeout : Duration
  rate_limiter : Option RouteTokenBucket
  source_address_mode : SourceAddressMode
  forward_fingerprint : ForwardFingerprint
  protocol : RouteProtocol
  allowed_sources : Option SourceAllowlist
  failover : Option Failover
  requires_client_cert : Bool
  deriving DecidableEq, Repr

/-- What a route takes over from the one it replaces. -/
structure Inherit where
  previous : Option Route
  track_health : Bool
  refuse_new : Bool

/-! ## Upstreams -/

/-- The slots of one upstream: a path without a pid or tid at its position has none. -/
def upstream_slots : UpstreamSpec → List UdsSlotSpec
  | .Tcp _ _ => []
  | .Uds paths pids tids _ _ _ =>
    paths.zipIdx.map fun (path, i) => ⟨path, (pids[i]?).join, (tids[i]?).join⟩

/-- The affinity settings after the upstream loop: each UDS upstream overwrites them. -/
def affinity_settings (upstreams : List UpstreamSpec) : Bool × Nat :=
  upstreams.foldl (fun acc u => match u with
    | .Tcp _ _ => acc
    | .Uds _ _ _ ip_affinity ttl _ => (ip_affinity, ttl)) (false, 300000)

def build_uds_set (upstreams : List UpstreamSpec) (previous : Option UdsBalancer) (track_health refuse_new : Bool) :
    Alloc Destination := do
  let (ip_affinity, affinity_ttl_ms) := affinity_settings upstreams
  let balancer ← UdsBalancer.new (upstreams.flatMap upstream_slots) ip_affinity affinity_ttl_ms
  let balancer := balancer.with_cpu_from previous
  let balancer ← if track_health then balancer.with_health previous refuse_new else pure balancer
  return .UdsSet (← alloc) balancer

/-- Allocations of a build that may fail. -/
abbrev Building := Act Heap SymphonyError

def allocate {α : Type} (m : Alloc α) : Building α := Act.onPart id (fun _ h => h) m

def build_destination_for (upstreams : List UpstreamSpec) (previous : Option UdsBalancer)
    (track_health refuse_new : Bool) : Building Destination :=
  match upstreams with
  | [] => Act.fail (.Config (bytes "route has no upstreams"))
  | .Tcp host port :: _ =>
    match parse_socket_addr (host ++ [58] ++ decimal port) with
    | none => Act.fail .AddrParse
    | some addr => pure (.Tcp addr)
  | .Uds .. :: _ => allocate (build_uds_set upstreams previous track_health refuse_new)

def is_h2 : UpstreamSpec → Bool
  | .Uds _ _ _ _ _ (some p) => p = bytes "h2"
  | _ => false

/-- The placeholder `127.0.0.1:1` of a route whose destination comes later. -/
def placeholder : Destination := .Tcp ⟨.V4 0x7f000001, 1, 0⟩

def build_h2_destination (h2_specs : List UpstreamSpec) (inherit : Inherit) : Building (Option Destination) :=
  if h2_specs = [] then pure none
  else do
    return some (← build_destination_for h2_specs
      (inherit.previous.bind fun r => r.destination_h2.bind Destination.balancer) inherit.track_health
        inherit.refuse_new)

def build_destinations (spec : RouteSpec) (inherit : Inherit) : Building (Destination × Option Destination) :=
  let h1_specs := spec.upstreams.filter fun u => !is_h2 u
  let h2_specs := spec.upstreams.filter is_h2
  if spec.suspended || spec.upstreams.isEmpty then pure (placeholder, none)
  else if h1_specs = [] then
    Act.fail (.Config (bytes "route '" ++ spec.sni ++ bytes
      "': all upstreams are marked protocol 'h2' — at least one default (http/1.x) upstream is required for clients that do not negotiate h2"))
  else do
    let destination ← build_destination_for h1_specs (inherit.previous.bind fun r => r.destination.balancer)
      inherit.track_health inherit.refuse_new
    let destination_h2 ← build_h2_destination h2_specs inherit
    return (destination, destination_h2)

/-! ## `build_route` -/

section BuildRoute

variable {D : Type} [DecidableEq D] (C : Crates D) (held : Nat → Bool)

/-- The client-CA part of a config request. -/
def mtls_spec (spec : RouteSpec) (listener_tls : ListenerTlsSpec) : Option MtlsSpec :=
  (effective_mtls spec listener_tls).map fun (ca, required) => ⟨ca, required⟩

/-- The TLS part of `build_route`. -/
def build_tls (spec : RouteSpec) (listener_tls : ListenerTlsSpec) : Act (World D) SymphonyError (Option ServerConfig) :=
  if spec.terminate_tls then
    match spec.cert_pem.or listener_tls.cert_pem, spec.key_pem.or listener_tls.key_pem with
    | none, _ => Act.fail (.Config (bytes "route '" ++ spec.sni ++ bytes "' has terminateTls=true but no cert provided"))
    | some _, none =>
      Act.fail (.Config (bytes "route '" ++ spec.sni ++ bytes "' has terminateTls=true but no private key provided"))
    | some cert_pem, some key_pem => do
      return some (← get_or_build C held ⟨cert_pem, key_pem⟩ (mtls_spec spec listener_tls) spec.http2)
  else pure none

/-- The two checks of `build_route` on the destinations. -/
def check_h2 (spec : RouteSpec) (destination_h2 : Option Destination) : Except SymphonyError Unit :=
  if (destination_h2.isSome || (spec.http2 && spec.terminate_tls)) && spec.source_address_mode = .XForwardedFor then
    .error (.Config (bytes "route '" ++ spec.sni ++ bytes
      "': sourceAddressHeader 'xForwardedFor' cannot be combined with HTTP/2 (header injection would corrupt h2 frames); use 'proxyProtocol' or 'none'"))
  else if destination_h2.isSome && !spec.terminate_tls then
    .error (.Config (bytes "route '" ++ spec.sni ++ bytes
      "': h2-marked upstreams require terminateTls=true — in passthrough mode symphony never sees the negotiated ALPN, so it cannot dispatch by protocol"))
  else .ok ()

def build_rate_limiter (spec : RouteSpec) : Alloc (Option RouteTokenBucket) :=
  match spec.max_cps with
  | none => pure none
  | some cps => do return some (← RouteTokenBucket.new cps spec.burst)

/-- The record `build_route` returns. -/
def assemble (spec : RouteSpec) (listener_tls : ListenerTlsSpec) (tls_config : Option ServerConfig)
    (destination : Destination) (destination_h2 : Option Destination) : Alloc Route := do
  let rate_limiter ← build_rate_limiter spec
  let metric_identity ← RouteMetricIdentity.new spec.sni spec.metrics_group
  return {
    metric_identity, destination, destination_h2, tls_config
    terminate_tls := spec.terminate_tls
    suspended := spec.suspended
    suspend_timeout := from_millis (max spec.suspend_timeout_ms 1)
    rate_limiter
    source_address_mode := spec.source_address_mode
    forward_fingerprint := spec.forward_fingerprint
    protocol := spec.protocol
    allowed_sources := none
    failover := none
    requires_client_cert := spec.terminate_tls && (effective_mtls spec listener_tls).any fun (_, required) => required }

/-- An action on the heap, as an action on the world. -/
def onHeap {α : Type} (m : Building α) : Act (World D) SymphonyError α := fun w =>
  ((m w.heap).1, { w with heap := (m w.heap).2 })

def build_route (spec : RouteSpec) (listener_tls : ListenerTlsSpec) (inherit : Inherit) :
    Act (World D) SymphonyError Route := do
  let tls_config ← build_tls C held spec listener_tls
  let (destination, destination_h2) ← onHeap (build_destinations spec inherit)
  Act.ofExcept (check_h2 spec destination_h2)
  onHeap (allocate (assemble spec listener_tls tls_config destination destination_h2))

/-! ## What a built route enforces -/

/-- The route checks client certificates as `mtls` says: as an endpoint with that
verifier, or not at all because it does not terminate TLS. -/
def Route.Verifies (r : Route) (terminate : Bool) (mtls : Option MtlsSpec) : Prop :=
  r.terminate_tls = terminate ∧ r.requires_client_cert = (terminate && mtls.any (·.require_client_cert)) ∧
    if terminate then ∃ config, r.tls_config = some config ∧ client_verifier C mtls = .ok config.verifier
    else r.tls_config = none

theorem keeps_onHeap {α : Type} {Q : α → Prop} {m : Building α} (h : Act.Keeps (fun _ => True) m Q) :
    Act.Keeps (fun w : World D => w.cache.Built C) (onHeap m) Q := by
  intro w hw
  exact ⟨hw, (h w.heap trivial).2⟩

theorem keeps_build_tls (hC : C.NoCollision) (spec : RouteSpec) (listener_tls : ListenerTlsSpec) :
    Act.Keeps (fun w : World D => w.cache.Built C) (build_tls C held spec listener_tls) fun tls_config =>
      if spec.terminate_tls then ∃ config, tls_config = some config ∧
        client_verifier C (mtls_spec spec listener_tls) = .ok config.verifier
      else tls_config = none := by
  unfold build_tls
  by_cases ht : spec.terminate_tls
  · simp only [if_pos ht]
    split
    · exact Act.keeps_fail _
    · exact Act.keeps_fail _
    · apply (keeps_get_or_build C held _ _ _).bind
      intro config hb
      exact Act.keeps_pure ⟨config, rfl, hb.verifier hC⟩
  · simp only [if_neg ht]
    exact Act.keeps_pure rfl

theorem assemble_fields (spec : RouteSpec) (listener_tls : ListenerTlsSpec) (tls_config : Option ServerConfig)
    (destination : Destination) (destination_h2 : Option Destination) (h : Heap) :
    let r := (assemble spec listener_tls tls_config destination destination_h2 h).1
    r.tls_config = tls_config ∧ r.terminate_tls = spec.terminate_tls ∧
      r.requires_client_cert =
        (spec.terminate_tls && (effective_mtls spec listener_tls).any fun (_, required) => required) :=
  ⟨rfl, rfl, rfl⟩

theorem keeps_build_route (hC : C.NoCollision) (spec : RouteSpec) (listener_tls : ListenerTlsSpec) (inherit : Inherit) :
    Act.Keeps (fun w : World D => w.cache.Built C) (build_route C held spec listener_tls inherit)
      fun r => r.Verifies C spec.terminate_tls (mtls_spec spec listener_tls) := by
  apply (keeps_build_tls C held hC spec listener_tls).bind
  intro tls_config htls
  apply (keeps_onHeap C (Q := fun _ => True) fun h _ => ⟨trivial, fun _ _ => trivial⟩).bind
  rintro ⟨destination, destination_h2⟩ -
  apply (Act.keeps_ofExcept (Q := fun _ => True) fun _ _ => trivial).bind
  rintro ⟨⟩ -
  apply keeps_onHeap
  intro h _
  refine ⟨trivial, ?_⟩
  rintro r ⟨⟩
  obtain ⟨h1, h2, h3⟩ := assemble_fields spec listener_tls tls_config destination destination_h2 h
  refine ⟨h2, ?_, ?_⟩
  · refine h3.trans ?_
    unfold mtls_spec
    cases effective_mtls spec listener_tls <;> rfl
  · change if _ then ∃ config, (assemble spec listener_tls tls_config destination destination_h2 h).1.tls_config = _ ∧ _
      else (assemble spec listener_tls tls_config destination destination_h2 h).1.tls_config = none
    rw [h1]
    exact htls

end BuildRoute

end Symphony.Router
