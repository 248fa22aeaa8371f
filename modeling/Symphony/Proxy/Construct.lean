import Mathlib.Logic.Relation
import Symphony.Proxy.Update
/-!
# Constructing and starting a proxy

The constructor of `SymphonyProxyWrap` reads a whole config: the timings, each listener with
its address, mode, protection and trusted list, and the routes for the first table. A start
binds the listeners, all of them or none. From then on a listener keeps its port, and whether
it has protection and is a failover ingress: updates and connections only change what is
behind those.

The copy buffer sizes and the idle timeout are left out, which are clamped and never refused.
-/

namespace Symphony.Proxy

open Failover (Duration from_millis)
open Lib (bind_ok map_eq_of_mapM map_ok)
open Protection (ProtectionConfig ProtectionState)
open Router (Crates Heap ListenerTlsSpec RouteTable build_route_table)
open Sni (decimal)

/-! ## The config -/

structure JsListenerConfig where
  host : Option Bytes := none
  port : Nat
  mode : Option Bytes := none
  default_cert : Option JsCertConfig := none
  mtls : Option JsMtlsConfig := none
  max_connections : Option Nat := none
  protection : Option JsProtectionConfig := none
  /-- The `trustedSources` of a `failoverIngress`. -/
  failover_ingress : Option (List Bytes) := none
  deriving DecidableEq, Repr

structure JsTcpKeepaliveConfig where
  enabled : Option Bool := none
  idle_ms : Option F64 := none
  interval_ms : Option F64 := none
  retries : Option Nat := none
  deriving DecidableEq, Repr

structure JsProxyConfig where
  listeners : List JsListenerConfig
  routes : List JsRouteConfig := []
  worker_threads : Option Nat := none
  tcp_keepalive : Option JsTcpKeepaliveConfig := none
  half_close_timeout_ms : Option F64 := none
  deriving DecidableEq, Repr

/-! ## Timings -/

def DEFAULT_KEEPALIVE_IDLE_MS : Nat := 300000
def DEFAULT_KEEPALIVE_INTERVAL_MS : Nat := 30000
def DEFAULT_KEEPALIVE_RETRIES : Nat := 5
def DEFAULT_HALF_CLOSE_TIMEOUT_MS : Nat := 300000
def MAX_KEEPALIVE_RETRIES : Nat := 127

def bounded_ms (value : Option F64) (default min_ms max_ms : Nat) (label : Bytes) : Except Error Duration :=
  let ms := value.getD (.finite default)
  match ms.within min_ms max_ms with
  | some q => .ok (from_millis ⌊q⌋₊)
  | none => .error ⟨label ++ bytes " must be a number of ms in [" ++ decimal min_ms ++ bytes ", " ++ decimal max_ms ++
      bytes "], got ", some ms⟩

/-- Whole seconds only. -/
def keepalive_ms (value : Option F64) (default : Nat) (label : Bytes) : Except Error Duration := do
  let ms := value.getD (.finite default)
  let resolved ← bounded_ms value default 1000 (2147483647 * 1000) label
  match ms with
  | .finite q =>
    if (q / 1000).den ≠ 1 then
      .error ⟨label ++ bytes " is installed as whole seconds; use a multiple of 1000, got ", some ms⟩
    else .ok resolved
  | _ => .ok resolved

structure KeepaliveConfig where
  idle : Duration
  interval : Duration
  retries : Nat
  deriving DecidableEq, Repr

def parse_keepalive_config (cfg : Option JsTcpKeepaliveConfig) : Except Error (Option KeepaliveConfig) :=
  if cfg.bind (·.enabled) = some false then .ok none
  else
    let retries := (cfg.bind (·.retries)).getD DEFAULT_KEEPALIVE_RETRIES
    if retries = 0 || retries > MAX_KEEPALIVE_RETRIES then
      .error ⟨bytes "tcpKeepalive.retries must be in [1, " ++ decimal MAX_KEEPALIVE_RETRIES ++ bytes "], got " ++
        decimal retries, none⟩
    else do
      let idle ← keepalive_ms (cfg.bind (·.idle_ms)) DEFAULT_KEEPALIVE_IDLE_MS (bytes "tcpKeepalive.idleMs")
      let interval ← keepalive_ms (cfg.bind (·.interval_ms)) DEFAULT_KEEPALIVE_INTERVAL_MS (bytes "tcpKeepalive.intervalMs")
      return some ⟨idle, interval, retries⟩

/-- Exactly zero turns the bound off. -/
def parse_half_close_timeout (value : Option F64) : Except Error Duration :=
  if value = some (.finite 0) then .ok 0
  else bounded_ms value DEFAULT_HALF_CLOSE_TIMEOUT_MS 1 U32_MAX (bytes "halfCloseTimeoutMs")

/-! ## Listeners -/

inductive ListenerMode where
  | Tls
  | Http
  deriving DecidableEq, Repr

structure InternalListener where
  addr : SocketAddr
  max_connections : Nat
  mode : ListenerMode
  deriving DecidableEq, Repr

def parse_mode : Option Bytes → Except Error ListenerMode
  | none => .ok .Tls
  | some mode =>
    if mode = bytes "tls" then .ok .Tls
    else if mode = bytes "http" then .ok .Http
    else .error ⟨bytes "unknown listener mode '" ++ mode ++ bytes "'; expected 'tls' or 'http'", none⟩

def JsListenerConfig.addr_str (l : JsListenerConfig) : Bytes := l.host.getD (bytes "0.0.0.0") ++ bytes ":" ++ decimal l.port

def parse_addr (addr_str : Bytes) : Except Error SocketAddr :=
  match parse_socket_addr addr_str with
  | some addr => .ok addr
  | none => .error ⟨bytes "invalid listener address '" ++ addr_str ++ bytes "': invalid socket address syntax", none⟩

def listener_tls_spec (l : JsListenerConfig) : ListenerTlsSpec where
  cert_pem := l.default_cert.map fun c => pem_bytes c.cert_chain
  key_pem := l.default_cert.map fun c => pem_bytes c.private_key
  mtls_ca_pem := l.mtls.map fun m => pem_bytes m.client_ca_cert
  require_client_cert := (l.mtls.bind (·.require_client_cert)).getD true

/-- The first listener that is not plain HTTP gives the fallback certificate. -/
def fallback_tls (listeners : List JsListenerConfig) : ListenerTlsSpec :=
  ((listeners.find? fun l => l.mode ≠ some (bytes "http")).map listener_tls_spec).getD {}

section Construct

variable {D : Type} (C : Crates D)

def parse_listener_protection : Option JsProtectionConfig → Except Error (Option ProtectionState)
  | none => .ok none
  | some cfg => (parse_protection_config C cfg).map fun cfg => some (.new cfg)

def parse_listener_ingress (l : JsListenerConfig) (mode : ListenerMode) : Except Error (Option IngressState) :=
  match l.failover_ingress with
  | none => .ok none
  | some sources =>
    if mode = .Http then
      .error ⟨bytes "listener " ++ l.addr_str ++ bytes ": failoverIngress requires a TLS listener", none⟩
    else (parse_trusted_sources C sources).map fun trusted => some ⟨trusted⟩

/-- One round of the listener loop. -/
def parse_listener (l : JsListenerConfig) : Except Error (InternalListener × ListenerState) := do
  let addr ← parse_addr l.addr_str
  let mode ← parse_mode l.mode
  let protection ← parse_listener_protection C l.protection
  let ingress ← parse_listener_ingress C l mode
  return (⟨addr, l.max_connections.getD 0, mode⟩, ⟨l.port, protection, ingress⟩)

/-- What the host decides about a construction and a start. -/
structure System where
  num_cpus : Nat
  /-- The environment variables of the benchmark hooks. -/
  hooks : Except Error Unit
  /-- Building a runtime with so many threads. -/
  runtime : Nat → Except Error Unit
  set_rlimit_nofile : Nat → Except Error Unit
  /-- The sockets of a listener; the text of an error names its address. -/
  bind_workers : SocketAddr → Nat → Option KeepaliveConfig → Except Error Unit

/-- A proxy with what its start reads. -/
structure Constructed (D : Type) where
  proxy : SymphonyProxyWrap D
  listeners : List InternalListener
  worker_threads : Nat
  half_close_timeout : Duration
  keepalive : Option KeepaliveConfig

variable [DecidableEq D] (sys : System)

/-- `heap` is what the process has allocated so far. -/
def SymphonyProxyWrap.new (heap : Heap) (config : JsProxyConfig) : Except Error (Constructed D) := do
  let worker_threads := config.worker_threads.getD sys.num_cpus
  let half_close_timeout ← parse_half_close_timeout config.half_close_timeout_ms
  let keepalive ← parse_keepalive_config config.tcp_keepalive
  sys.hooks
  let listeners ← config.listeners.mapM (parse_listener C)
  let specs ← config.routes.mapM parse_route_spec
  let tls := fallback_tls config.listeners
  let built := build_route_table C (fun _ => false) tls none specs ⟨heap, {}⟩
  sys.runtime worker_threads
  return {
    proxy := ⟨built.1, tls, listeners.map (·.2),
      { built.2 with cache := built.2.cache.retain_used fun arc => built.1.holds arc }⟩
    listeners := listeners.map (·.1)
    worker_threads, half_close_timeout, keepalive }

/-- The first start. -/
def Constructed.start (p : Constructed D) : Except Error Unit := do
  let max := (p.listeners.map (·.max_connections)).foldl Nat.max 0
  if max > 0 then sys.set_rlimit_nofile (max * 2 + 1024)
  p.listeners.forM fun l => sys.bind_workers l.addr p.worker_threads p.keepalive

end Construct

/-! ## What a listener keeps -/

/-- What of a listener an update depends on and nothing changes. -/
structure Shape where
  port : Nat
  protection : Bool
  ingress : Bool
  deriving DecidableEq, Repr

def ListenerState.shape (l : ListenerState) : Shape := ⟨l.port, hasProtection l, hasIngress l⟩

def JsListenerConfig.shape (l : JsListenerConfig) : Shape := ⟨l.port, l.protection.isSome, l.failover_ingress.isSome⟩

section Shapes

variable {D : Type} {C : Crates D}

theorem parse_listener_shape {l : JsListenerConfig} {r : InternalListener × ListenerState}
    (h : parse_listener C l = .ok r) : r.2.shape = l.shape := by
  obtain ⟨addr, -, h⟩ := bind_ok h
  obtain ⟨mode, -, h⟩ := bind_ok h
  obtain ⟨protection, hp, h⟩ := bind_ok h
  obtain ⟨ingress, hi, h⟩ := bind_ok h
  cases h
  have hp : protection.isSome = l.protection.isSome := by
    unfold parse_listener_protection at hp
    cases hcfg : l.protection with
    | none =>
      rw [hcfg] at hp
      cases hp
      rfl
    | some cfg =>
      rw [hcfg] at hp
      obtain ⟨cfg', -, hp⟩ := map_ok hp
      cases hp
      rfl
  have hi : ingress.isSome = l.failover_ingress.isSome := by
    unfold parse_listener_ingress at hi
    cases hcfg : l.failover_ingress with
    | none =>
      rw [hcfg] at hi
      cases hi
      rfl
    | some sources =>
      rw [hcfg] at hi
      dsimp only at hi
      split at hi
      · cases hi
      · obtain ⟨trusted, -, hi⟩ := map_ok hi
        cases hi
        rfl
  simp [ListenerState.shape, JsListenerConfig.shape, hasProtection, hasIngress, hp, hi]

theorem ConfigGiven.isSome {u : Option JsListenerProtectionHotConfig} {before after : Option ProtectionState}
    (h : ConfigGiven C u before after) : after.isSome = before.isSome := by
  cases u with
  | none => exact congrArg Option.isSome h
  | some u =>
    obtain ⟨st, cfg, rfl, -, rfl⟩ := h
    rfl

theorem TrustedGiven.isSome {u : Option JsListenerFailoverIngressHotConfig} {before after : Option IngressState}
    (h : TrustedGiven C u before after) : after.isSome = before.isSome := by
  cases u with
  | none => exact congrArg Option.isSome h
  | some u =>
    obtain ⟨st, trusted, rfl, -, rfl⟩ := h
    rfl

variable [DecidableEq D] {sys : System} {heap : Heap} {config : JsProxyConfig} {p : Constructed D}

theorem new_shapes (h : SymphonyProxyWrap.new C sys heap config = .ok p) :
    p.proxy.listener_states.map (·.shape) = config.listeners.map (·.shape) := by
  obtain ⟨half_close, -, h⟩ := bind_ok h
  obtain ⟨keepalive, -, h⟩ := bind_ok h
  obtain ⟨⟨⟩, -, h⟩ := bind_ok h
  obtain ⟨listeners, hl, h⟩ := bind_ok h
  obtain ⟨specs, -, h⟩ := bind_ok h
  obtain ⟨⟨⟩, -, h⟩ := bind_ok h
  cases h
  dsimp only
  rw [List.map_map]
  exact map_eq_of_mapM (fun l r hr => parse_listener_shape hr) hl

/-- The states of a proxy after its start: it is updated, and it serves connections and
runs its tasks, which reach only what is behind a listener's fields. -/
inductive Running (C : Crates D) (start : SymphonyProxyWrap D) : SymphonyProxyWrap D → Prop
  | started : Running C start start
  | updated {s} (conns : Nat → Bool) (hot : JsHotConfig) :
    Running C start s → Running C start (update_config C conns hot s).2
  | served {s s'} : Running C start s → s'.listener_states.map (·.shape) = s.listener_states.map (·.shape) →
      Running C start s'

theorem update_config_shapes (conns : Nat → Bool) (hot : JsHotConfig) (s : SymphonyProxyWrap D) :
    (update_config C conns hot s).2.listener_states.map (·.shape) = s.listener_states.map (·.shape) := by
  obtain ⟨herror, hok, hpanic⟩ := update_config_all_or_nothing C conns hot s
  cases hr : (update_config C conns hot s).1 with
  | error e =>
    cases e with
    | err e => rw [(herror e hr).2]
    | panicked text => exact absurd hr (hpanic text)
  | ok =>
    have happlied := hok hr
    apply List.ext_getElem?
    intro i
    rw [List.getElem?_map, List.getElem?_map]
    cases hi : s.listener_states[i]? with
    | none =>
      rw [List.getElem?_eq_none (by rw [happlied.size]; exact List.getElem?_eq_none_iff.1 hi)]
    | some l =>
      obtain ⟨l', hl', hport, hconfig, htrusted⟩ := happlied.listener i l hi
      rw [hl']
      simp [ListenerState.shape, hasProtection, hasIngress, hport, hconfig.isSome, htrusted.isSome]

theorem Running.shapes {start s : SymphonyProxyWrap D} (h : Running C start s) :
    s.listener_states.map (·.shape) = start.listener_states.map (·.shape) := by
  induction h with
  | started => rfl
  | updated conns hot _ ih => rw [update_config_shapes, ih]
  | served _ hs ih => rw [hs, ih]

end Shapes

/-- `Named`, as far as it can be seen from the shapes. -/
structure NamedShape (part : Shape → Bool) (shapes : List Shape) (port i : Nat) : Prop where
  here : ∃ sh, shapes[i]? = some sh ∧ sh.port = port ∧ part sh = true
  only : ∀ k sh, shapes[k]? = some sh → sh.port = port → k = i

theorem named_iff_shape (has : ListenerState → Bool) (part : Shape → Bool)
    (hpart : ∀ l : ListenerState, part l.shape = has l) {listeners : List ListenerState} {port i : Nat} :
    Named has listeners port i ↔ NamedShape part (listeners.map (·.shape)) port i := by
  constructor
  · rintro ⟨⟨l, hi, hp, hl⟩, honly⟩
    refine ⟨⟨l.shape, by rw [List.getElem?_map, hi]; rfl, hp, (hpart l).trans hl⟩, fun k sh hk hsh => ?_⟩
    rw [List.getElem?_map] at hk
    obtain ⟨l', hl', rfl⟩ := Option.map_eq_some_iff.1 hk
    exact honly k l' hl' hsh
  · rintro ⟨⟨sh, hi, hp, hl⟩, honly⟩
    rw [List.getElem?_map] at hi
    obtain ⟨l, hli, rfl⟩ := Option.map_eq_some_iff.1 hi
    refine ⟨⟨l, hli, hp, (hpart l).symm.trans hl⟩, fun k l' hk hp' => honly k l'.shape ?_ hp'⟩
    rw [List.getElem?_map, hk]
    rfl

end Symphony.Proxy
