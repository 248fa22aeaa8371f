import Symphony.Proxy.Construct
import Symphony.Server.Reconcile
/-!
# What can be started can be reloaded

A reload with the signature of a running proxy sends it `hotConfig`: the routes, and for each
listener with protection or a failover ingress its settings, by port. The proxy takes an
update by port only where the port has one listener, and only for what that listener was
constructed with. The constructor asks for neither: two listeners may share a port, and a
value that is given but falsy counts as given in the signature and as not given in the
constructor.
-/

namespace Symphony.Server

open Lib (bind_ok forall₂_of_mapM map_eq_of_mapM map_ok)
open Proxy (Constructed Error JsCertConfig JsHotConfig JsListenerConfig JsListenerFailoverIngressHotConfig
  JsListenerProtectionHotConfig JsMtlsConfig JsProtectionConfig JsProxyConfig JsRouteConfig JsTcpKeepaliveConfig Named
  Running Shape SymphonyProxyWrap System hasIngress hasProtection NamedShape named_iff_shape new_shapes
    parse_protection_config
  parse_route_spec parse_trusted_sources update_config update_config_ok_iff)
open Router (Crates Heap)

/-! ## The addon -/

/-- How the addon reads the values that the server only hands on, by their texts, and a
port. -/
structure Addon where
  /-- Whether a value counts as true. -/
  truthy : Bytes → Bool
  port : Nat → Nat
  protection : Bytes → Except Error JsProtectionConfig
  trustedSources : Bytes → Except Error (List Bytes)
  route : RouteConfig → Except Error JsRouteConfig
  /-- `mode` and `maxConnections`. -/
  rest : Bytes → Except Error (Option Bytes × Option Nat)
  tcpKeepalive : Bytes → Except Error JsTcpKeepaliveConfig

def toJsCert (c : CertConfig) : JsCertConfig := ⟨.string c.certChain, .string c.privateKey⟩

def toJsMtls (m : MtlsConfig) : JsMtlsConfig := ⟨.string m.clientCaCert, m.requireClientCert⟩

/-- What is given is read. -/
def readGiven {α : Type} (read : Bytes → Except Error α) : Option Bytes → Except Error (Option α)
  | none => .ok none
  | some text => (read text).map some

section Addon

variable (a : Addon)

def toJsListenerConfig (l : ListenerConfig) : Except Error JsListenerConfig := do
  let rest ← a.rest l.rest
  -- `l.protection ? toJsProtectionConfig(l.protection) : undefined`, and the same for the ingress
  let protection ← readGiven a.protection (l.protection.filter a.truthy)
  let failover_ingress ← readGiven a.trustedSources (l.failoverIngress.filter a.truthy)
  return {
    host := l.host
    port := a.port l.port
    mode := rest.1
    default_cert := l.defaultCert.map toJsCert
    mtls := l.mtls.map toJsMtls
    max_connections := rest.2
    protection, failover_ingress }

/-- The argument of the constructor. -/
def toJsConfig (config : ProxyConfig) : Except Error JsProxyConfig := do
  let listeners ← config.listeners.mapM (toJsListenerConfig a)
  let routes ← config.routes.mapM a.route
  let tcp_keepalive ← readGiven a.tcpKeepalive config.frozen.tcpKeepalive
  return {
    listeners, routes
    worker_threads := config.frozen.workerThreads
    tcp_keepalive
    half_close_timeout_ms := config.frozen.halfCloseTimeoutMs.map fun ms : Nat => .finite (ms : ℚ) }

def toJsProtectionUpdate (u : Nat × Bytes) : Except Error JsListenerProtectionHotConfig := do
  let protection ← a.protection u.2
  return ⟨a.port u.1, protection⟩

def toJsIngressUpdate (u : Nat × Bytes) : Except Error JsListenerFailoverIngressHotConfig := do
  let trusted_sources ← a.trustedSources u.2
  return ⟨a.port u.1, trusted_sources⟩

/-- The argument of `updateConfig`. -/
def toJsHotConfig (hot : HotConfig) : Except Error JsHotConfig := do
  let routes ← hot.routes.mapM a.route
  let protection ← hot.protection.mapM (toJsProtectionUpdate a)
  let failover_ingress ← hot.failoverIngress.mapM (toJsIngressUpdate a)
  return ⟨some routes, some protection, some failover_ingress⟩

end Addon

/-! ## Entries that can be reloaded -/

/-- Every protection and ingress given is truthy, and a listener that has one is alone on its
port. -/
structure Reloadable (a : Addon) (config : ProxyConfig) : Prop where
  given : ∀ l ∈ config.listeners, ∀ v, l.protection = some v ∨ l.failoverIngress = some v → a.truthy v = true
  alone : ∀ (i j : Nat) (l l' : ListenerConfig), config.listeners[i]? = some l → config.listeners[j]? = some l' →
    l.protection.isSome ∨ l.failoverIngress.isSome → a.port l'.port = a.port l.port → j = i

section Reload

variable {a : Addon} {config config' : ProxyConfig}

/-- What the signature says of a listener's settings. -/
def ListenerConfig.settings (l : ListenerConfig) : Nat × Bool × Bool :=
  (l.port, l.protection.isSome, l.failoverIngress.isSome)

theorem settings_of_sig (h : constructionSig config' = constructionSig config) :
    config'.listeners.map (·.settings) = config.listeners.map (·.settings) := by
  have hl := congrArg (fun sig => sig.listeners.map fun l : SigListener =>
    (l.port, l.hasProtection, l.isFailoverIngress)) h
  simp only [constructionSig, List.map_map] at hl
  exact hl

/-- The shape a listener is constructed with. -/
def ListenerConfig.shape (a : Addon) (l : ListenerConfig) : Shape :=
  ⟨a.port l.port, (l.protection.filter a.truthy).isSome, (l.failoverIngress.filter a.truthy).isSome⟩

theorem readGiven_isSome {α : Type} {read : Bytes → Except Error α} {value : Option Bytes} {r : Option α}
    (h : readGiven read value = .ok r) : r.isSome = value.isSome := by
  cases value with
  | none =>
    cases h
    rfl
  | some text =>
    obtain ⟨x, -, hx⟩ := map_ok h
    cases hx
    rfl

theorem toJsListenerConfig_shape {l : ListenerConfig} {l' : JsListenerConfig} (h : toJsListenerConfig a l = .ok l') :
    l'.shape = l.shape a := by
  obtain ⟨rest, -, h⟩ := bind_ok h
  obtain ⟨protection, hp, h⟩ := bind_ok h
  obtain ⟨ingress, hi, h⟩ := bind_ok h
  cases h
  simp [JsListenerConfig.shape, ListenerConfig.shape, readGiven_isSome hp, readGiven_isSome hi]

theorem toJsConfig_shapes {js : JsProxyConfig} (h : toJsConfig a config = .ok js) :
    js.listeners.map (·.shape) = config.listeners.map (·.shape a) := by
  obtain ⟨listeners, hl, h⟩ := bind_ok h
  obtain ⟨routes, -, h⟩ := bind_ok h
  obtain ⟨keepalive, -, h⟩ := bind_ok h
  cases h
  exact map_eq_of_mapM (fun l l' hl' => toJsListenerConfig_shape hl') hl

/-- The listeners of a config with a kind of setting are all named exactly if each setting
is truthy and its listener alone on its port. -/
theorem named_iff_alone {value : ListenerConfig → Option Bytes} {part : Shape → Bool}
    (hpart : ∀ l : ListenerConfig, part (l.shape a) = ((value l).filter a.truthy).isSome) (ls : List ListenerConfig) :
    (∀ l ∈ ls, (value l).isSome → ∃ i, NamedShape part (ls.map (·.shape a)) (a.port l.port) i) ↔
      (∀ l ∈ ls, ∀ v, value l = some v → a.truthy v = true) ∧
      ∀ (i j : Nat) (l l' : ListenerConfig), ls[i]? = some l → ls[j]? = some l' → (value l).isSome →
        a.port l'.port = a.port l.port → j = i := by
  have shape_at {k : Nat} {l : ListenerConfig} (hk : ls[k]? = some l) :
    (ls.map (·.shape a))[k]? = some (l.shape a) := by
    rw [List.getElem?_map, hk]
    rfl
  constructor
  · intro h
    refine ⟨fun l hl v hv => ?_, fun i j l l' hi hj hgiven hport => ?_⟩
    · obtain ⟨k, hk⟩ := List.mem_iff_getElem?.1 hl
      obtain ⟨i, ⟨sh, hsh, -, hhas⟩, honly⟩ := h l hl (by rw [hv]; rfl)
      obtain rfl := honly k _ (shape_at hk) rfl
      rw [shape_at hk] at hsh
      cases hsh
      rw [hpart, hv] at hhas
      by_contra hfalse
      simp [Option.filter, hfalse] at hhas
    · obtain ⟨k, -, honly⟩ := h l (List.mem_of_getElem? hi) hgiven
      rw [honly j _ (shape_at hj) hport, honly i _ (shape_at hi) rfl]
  · rintro ⟨htruthy, halone⟩ l hl hgiven
    obtain ⟨i, hi⟩ := List.mem_iff_getElem?.1 hl
    obtain ⟨v, hv⟩ := Option.isSome_iff_exists.1 hgiven
    refine ⟨i, ⟨l.shape a, shape_at hi, rfl, ?_⟩, fun k sh hk hport => ?_⟩
    · rw [hpart, hv]
      simp [Option.filter, htruthy l hl v hv]
    · rw [List.getElem?_map] at hk
      obtain ⟨l', hl', rfl⟩ := Option.map_eq_some_iff.1 hk
      exact halone i k l l' hi hl' hgiven hport

theorem reloadable_iff_named : Reloadable a config ↔
    (∀ l ∈ config.listeners, l.protection.isSome →
      ∃ i, NamedShape (·.protection) (config.listeners.map (·.shape a)) (a.port l.port) i) ∧
    ∀ l ∈ config.listeners, l.failoverIngress.isSome →
      ∃ i, NamedShape (·.ingress) (config.listeners.map (·.shape a)) (a.port l.port) i := by
  rw [named_iff_alone (fun _ => rfl), named_iff_alone (fun _ => rfl)]
  constructor
  · rintro ⟨hgiven, halone⟩
    exact ⟨⟨fun l hl v hv => hgiven l hl v (.inl hv), fun i j l l' hi hj hl => halone i j l l' hi hj (.inl hl)⟩,
      fun l hl v hv => hgiven l hl v (.inr hv), fun i j l l' hi hj hl => halone i j l l' hi hj (.inr hl)⟩
  · rintro ⟨⟨hp, hp'⟩, hi, hi'⟩
    exact ⟨fun l hl v hv => hv.elim (hp l hl v) (hi l hl v),
      fun i j l l' hli hlj hl hport => hl.elim (fun h => hp' i j l l' hli hlj h hport) fun h =>
        hi' i j l l' hli hlj h hport⟩

/-- What a signature says of the listeners with a kind of setting, by their ports. -/
theorem forall_settings (given : Nat × Bool × Bool → Bool) (h : constructionSig config' = constructionSig config)
    (P : Nat → Prop) : (∀ l ∈ config'.listeners, given l.settings = true → P l.port) ↔
      ∀ l ∈ config.listeners, given l.settings = true → P l.port := by
  have hall (ls : List ListenerConfig) : (∀ l ∈ ls, given l.settings = true → P l.port) ↔
      ∀ t ∈ ls.map (·.settings), given t = true → P t.1 := by
    rw [List.forall_mem_map]
    rfl
  rw [hall, hall, settings_of_sig h]

/-- The updates of a kind of setting, by the ports of their listeners. -/
theorem forall_updates (value : ListenerConfig → Option Bytes) (ls : List ListenerConfig) (P : Nat → Prop) :
    (∀ p ∈ (ls.filterMap fun l => (value l).map fun v => (l.port, v)).map fun u => a.port u.1, P p) ↔
      ∀ l ∈ ls, (value l).isSome → P (a.port l.port) := by
  rw [List.forall_mem_map, List.forall_mem_filterMap]
  refine forall₂_congr fun l _ => ?_
  cases value l with
  | none => exact ⟨fun _ => nofun, fun _ => nofun⟩
  | some v =>
    constructor
    · intro h _
      exact h _ rfl
    · rintro h _ ⟨⟩
      exact h rfl

theorem toJsHotConfig_ports {hot : JsHotConfig} (h : toJsHotConfig a (hotConfig config) = .ok hot) (P : Nat → Prop) :
    ((∀ u ∈ hot.protection.getD [], P u.port) ↔ ∀ l ∈ config.listeners, l.protection.isSome → P (a.port l.port)) ∧
    ((∀ u ∈ hot.failover_ingress.getD [], P u.port) ↔
      ∀ l ∈ config.listeners, l.failoverIngress.isSome → P (a.port l.port)) := by
  obtain ⟨routes, -, h⟩ := bind_ok h
  obtain ⟨protection, hp, h⟩ := bind_ok h
  obtain ⟨ingress, hi, h⟩ := bind_ok h
  cases h
  have hp : protection.map (·.port) = (hotConfig config).protection.map fun u => a.port u.1 := by
    refine map_eq_of_mapM (fun u u' hu => ?_) hp
    obtain ⟨_, -, hu⟩ := bind_ok hu
    cases hu
    rfl
  have hi : ingress.map (·.port) = (hotConfig config).failoverIngress.map fun u => a.port u.1 := by
    refine map_eq_of_mapM (fun u u' hu => ?_) hi
    obtain ⟨_, -, hu⟩ := bind_ok hu
    cases hu
    rfl
  constructor
  · rw [← forall_updates ListenerConfig.protection]
    change _ ↔ ∀ p ∈ (hotConfig config).protection.map fun u => a.port u.1, P p
    rw [← hp, List.forall_mem_map]
    rfl
  · rw [← forall_updates ListenerConfig.failoverIngress]
    change _ ↔ ∀ p ∈ (hotConfig config).failoverIngress.map fun u => a.port u.1, P p
    rw [← hi, List.forall_mem_map]
    rfl

variable {D : Type} [DecidableEq D] {C : Crates D} {sys : System} {heap : Heap} {p : Constructed D}
  {s : SymphonyProxyWrap D} {hot : JsHotConfig}

/-- The entry constructs and starts, as this proxy. -/
def StartedAs (a : Addon) (C : Crates D) (sys : System) (heap : Heap) (config : ProxyConfig)
    (p : Constructed D) : Prop :=
  ∃ js, toJsConfig a config = .ok js ∧ SymphonyProxyWrap.new C sys heap js = .ok p ∧ p.start sys = .ok ()

/-- Every part of the update can be read. -/
structure Parses (C : Crates D) (hot : JsHotConfig) : Prop where
  routes : ∀ r ∈ hot.routes.getD [], ∃ spec, parse_route_spec r = .ok spec
  protection : ∀ u ∈ hot.protection.getD [], ∃ cfg, parse_protection_config C u.protection = .ok cfg
  trusted : ∀ u ∈ hot.failover_ingress.getD [], ∃ trusted, parse_trusted_sources C u.trusted_sources = .ok trusted

/-- The update that a reload sends a running proxy, for a version of its entry with the same
signature whose parts can all be read, succeeds exactly if the entry it was started from is
`Reloadable`. -/
theorem hot_swap_succeeds_iff (hstarted : StartedAs a C sys heap config p) (hrunning : Running C p.proxy s)
    (hsig : constructionSig config' = constructionSig config) (hhot : toJsHotConfig a (hotConfig config') = .ok hot)
    (hparses : Parses C hot) (conns : Nat → Bool) :
    (update_config C conns hot s).1 = .ok () ↔ Reloadable a config := by
  obtain ⟨js, hjs, hnew, -⟩ := hstarted
  have hshapes : s.listener_states.map (·.shape) = config.listeners.map (·.shape a) :=
    hrunning.shapes.trans ((new_shapes hnew).trans (toJsConfig_shapes hjs))
  have hprotection (port : Nat) : (∃ i, Named hasProtection s.listener_states port i) ↔
      ∃ i, NamedShape (·.protection) (config.listeners.map (·.shape a)) port i := by
    rw [← hshapes]
    exact exists_congr fun i => named_iff_shape hasProtection (·.protection) fun _ => rfl
  have hingress (port : Nat) : (∃ i, Named hasIngress s.listener_states port i) ↔
      ∃ i, NamedShape (·.ingress) (config.listeners.map (·.shape a)) port i := by
    rw [← hshapes]
    exact exists_congr fun i => named_iff_shape hasIngress (·.ingress) fun _ => rfl
  rw [update_config_ok_iff hparses.routes hparses.protection hparses.trusted, reloadable_iff_named]
  -- the listeners with a setting are the same in both versions
  refine and_congr ?_ ?_
  · refine (toJsHotConfig_ports hhot fun port => ∃ i, Named hasProtection s.listener_states port i).1.trans ?_
    refine (forall_settings (fun t => t.2.1) hsig fun port => ∃ i, Named hasProtection s.listener_states
      (a.port port) i).trans ?_
    exact forall₂_congr fun l _ => imp_congr_right fun _ => hprotection (a.port l.port)
  · refine (toJsHotConfig_ports hhot fun port => ∃ i, Named hasIngress s.listener_states port i).2.trans ?_
    refine (forall_settings (fun t => t.2.2) hsig fun port => ∃ i, Named hasIngress s.listener_states
      (a.port port) i).trans ?_
    exact forall₂_congr fun l _ => imp_congr_right fun _ => hingress (a.port l.port)

end Reload

/-- Values as they are, with one of each kind for all texts. -/
def plainAddon : Addon where
  truthy text := text ≠ bytes "false"
  port n := n
  protection _ := .ok {}
  trustedSources _ := .ok [bytes "10.0.0.0/8"]
  route r := .ok { sni := r.sni }
  rest _ := .ok (none, none)
  tcpKeepalive _ := .ok {}

def plainSystem : System := ⟨1, .ok (), fun _ => .ok (), fun _ => .ok (), fun _ _ _ => .ok ()⟩

/-- A proxy on some hosts and ports, the first of them with this protection. -/
def protectedEntry (protection : Bytes) (host : Bytes) (port : Nat) (others : List (Bytes × Nat)) : ProxyConfig where
  listeners := ⟨port, some host, none, none, some protection, none, []⟩ ::
    others.map fun o => ⟨o.2, some o.1, none, none, none, none, []⟩
  routes := []
  frozen := {}

/-- The update of an entry that has not changed. -/
def unchanged (port : Nat) : JsHotConfig := ⟨some [], some [⟨port, {}⟩], some []⟩

theorem unchanged_parses (port : Nat) : Parses Router.literalCrates (unchanged port) where
  routes r hr := absurd hr List.not_mem_nil
  protection u hu := by
    obtain rfl := List.mem_singleton.1 hu
    have hok : (parse_protection_config Router.literalCrates {}).isOk = true := by decide +kernel
    dsimp only
    cases hparse : parse_protection_config Router.literalCrates {} with
    | ok cfg => exact ⟨cfg, rfl⟩
    | error e =>
      rw [hparse] at hok
      cases hok
  trusted u hu := absurd hu List.not_mem_nil

/-- Construction, start, and the update of an entry that has not changed. -/
def reloadUnchanged (config : ProxyConfig) (port : Nat) : Except Error (Except Proxy.Failure Unit) := do
  let js ← toJsConfig plainAddon config
  let p ← SymphonyProxyWrap.new Router.literalCrates plainSystem {} js
  p.start plainSystem
  return (update_config Router.literalCrates (fun _ => false) (unchanged port) p.proxy).1

theorem reloadUnchanged_ok {config : ProxyConfig} {port : Nat} {r : Except Proxy.Failure Unit}
    (h : reloadUnchanged config port = .ok r) : ∃ p, StartedAs plainAddon Router.literalCrates plainSystem {} config p ∧
      (update_config Router.literalCrates (fun _ => false) (unchanged port) p.proxy).1 = r := by
  obtain ⟨js, hjs, h⟩ := bind_ok h
  obtain ⟨p, hp, h⟩ := bind_ok h
  obtain ⟨⟨⟩, hstart, h⟩ := bind_ok h
  cases h
  exact ⟨p, ⟨js, hjs, hp, hstart⟩, rfl⟩

theorem hot_swap_succeeds_two_ports :
    let config := protectedEntry (bytes "\x7b\x7d") (bytes "127.0.0.1") 443 [(bytes "127.0.0.1", 8443)]
    ∃ p, StartedAs plainAddon Router.literalCrates plainSystem {} config p ∧
      (update_config Router.literalCrates (fun _ => false) (unchanged 443) p.proxy).1 = .ok () ∧
      Reloadable plainAddon config := by
  intro config
  have h : reloadUnchanged config 443 = .ok (.ok ()) := by decide +kernel
  obtain ⟨p, hstarted, hok⟩ := reloadUnchanged_ok h
  exact ⟨p, hstarted, hok, (hot_swap_succeeds_iff hstarted .started rfl rfl (unchanged_parses 443) fun _ =>
    false).1 hok⟩

/-- The entry starts on port 443, and its update fails although all of it can be read. -/
def RefusedUnchanged (config : ProxyConfig) : Prop :=
  toJsHotConfig plainAddon (hotConfig config) = .ok (unchanged 443) ∧ Parses Router.literalCrates (unchanged 443) ∧
    ∃ p e, StartedAs plainAddon Router.literalCrates plainSystem {} config p ∧
      (update_config Router.literalCrates (fun _ => false) (unchanged 443) p.proxy).1 = .error e

theorem refusedUnchanged {config : ProxyConfig} {e : Proxy.Failure} (h : reloadUnchanged config 443 = .ok (.error e))
    (hhot : toJsHotConfig plainAddon (hotConfig config) = .ok (unchanged 443)) : RefusedUnchanged config := by
  obtain ⟨p, hstarted, herror⟩ := reloadUnchanged_ok h
  exact ⟨hhot, unchanged_parses 443, p, e, hstarted, herror⟩

/-- An entry with two hosts on one port starts, and so does one whose protection is `false`.
Neither can be reloaded, not even as it is. -/
theorem hot_swap_refused_unchanged :
    RefusedUnchanged (protectedEntry (bytes "\x7b\x7d") (bytes "127.0.0.1") 443 [(bytes "127.0.0.2", 443)]) ∧
      RefusedUnchanged (protectedEntry (bytes "false") (bytes "127.0.0.1") 443 []) := by
  have htwo : reloadUnchanged (protectedEntry (bytes "\x7b\x7d") (bytes "127.0.0.1") 443 [(bytes "127.0.0.2", 443)]) 443 =
      .ok (.error (.err ⟨bytes "port 443 matches multiple listeners; use per-listener restart-configure", none⟩)) := by
    decide +kernel
  have hfalse : reloadUnchanged (protectedEntry (bytes "false") (bytes "127.0.0.1") 443 []) 443 =
      .ok (.error (.err ⟨bytes "port 443 was started without protection; recreate to enable", none⟩)) := by
    decide +kernel
  exact ⟨refusedUnchanged htwo rfl, refusedUnchanged hfalse rfl⟩

end Symphony.Server
